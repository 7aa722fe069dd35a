import IbkrDx.Lib.BigEndian
import IbkrDx.Protocol.BookFrames

/-!
# The bit reader of the tick decoder

`BitReader` of `protocol/tick_decoder/mod.rs`: values of up to sixty-four bits read most significant
bit first, by one or two loads of eight bytes and shifts.

* **`BitReader.gives_readUnsigned`** — the loads and shifts read the next bits as a number.
-/

namespace IbkrDx

open BookBits (digits number length_digits number_digits)

def bitsOf (data : Bytes) : List Bool := data.flatMap fun o => digits 8 o.toNat

/-- A reader over bytes: how far it has got and where it ends, in bits. -/
structure BitReader where
  data : Bytes
  bitPos : ℕ
  totalBits : ℕ
  fits : totalBits ≤ data.length * 8

namespace BitReader

def new (data : Bytes) (totalBits : ℕ) : BitReader where
  data := data
  bitPos := 0
  totalBits := if 0 < totalBits then min totalBits (data.length * 8) else data.length * 8
  fits := by split <;> omega

def remaining (r : BitReader) : ℕ := r.totalBits - r.bitPos

def advance (r : BitReader) (n : ℕ) : BitReader := { r with bitPos := r.bitPos + n }

/-- Go on only where `n` bits remain. -/
def enough (n : ℕ) : Reader BitReader Unit := do
  let r ← get
  if r.remaining < n then failure

/-- Step over `n` bits, or nothing where fewer remain. -/
def skip (n : ℕ) : Reader BitReader Unit := do
  enough n
  let r ← get
  set (r.advance n)

/-- The eight bytes from an offset on, noughts standing in for what is not there. -/
def wordBytes (data : Bytes) (off : ℕ) : Bytes :=
  (data.drop off).take 8 ++ List.replicate (8 - (data.length - off)) 0

def loadBe (data : Bytes) (off : ℕ) : ℕ := BigEndian.ofBe (wordBytes data off)

/-- The word shifted left, as sixty-four bits hold it. -/
def shl64 (word n : ℕ) : ℕ := (word <<< n) % 2 ^ 64

/-- What `n` bits from the reader's place state: one load where they lie in one word, else two. -/
def unsignedAt (r : BitReader) (n : ℕ) : ℕ :=
  if r.bitPos % 8 + n ≤ 64 then shl64 (loadBe r.data (r.bitPos / 8)) (r.bitPos % 8) >>> (64 - n)
  else
    (shl64 (loadBe r.data (r.bitPos / 8)) (r.bitPos % 8) >>> (64 - n)) |||
      (loadBe r.data (r.bitPos / 8 + 8) >>> (64 - (n - (64 - r.bitPos % 8))))

/-- The next `n` bits as a number, or nothing where fewer remain. -/
def readUnsigned (n : ℕ) : Reader BitReader ℕ := do
  let r ← get
  if n = 0 then return 0
  if 64 < n ∨ r.totalBits < r.bitPos + n then failure
  set (r.advance n)
  return r.unsignedAt n

/-! ## Bits as numbers -/

lemma number_append (acc : ℕ) (a b : BookBits) : number acc (a ++ b) = number (number acc a) b :=
  List.foldl_append

lemma number_eq (acc : ℕ) (b : BookBits) : number acc b = acc * 2 ^ b.length + number 0 b := by
  induction b generalizing acc with
  | nil => simp [number]
  | cons x b ih =>
      have hcons (v : ℕ) : number v (x :: b) = number (2 * v + x.toNat) b := rfl
      rw [hcons, hcons, ih, ih (2 * 0 + x.toNat), List.length_cons, pow_succ]
      ring

lemma number_lt (b : BookBits) : number 0 b < 2 ^ b.length := by
  induction b with
  | nil => exact Nat.one_pos
  | cons x b ih =>
      have hcons : number 0 (x :: b) = number x.toNat b := by
        rw [← Nat.zero_add x.toNat]
        rfl
      have hx : x.toNat ≤ 1 := Bool.toNat_le x
      rw [hcons, number_eq, List.length_cons, pow_succ]
      nlinarith [Nat.mul_le_mul_right (2 ^ b.length) hx]

lemma length_bitsOf (data : Bytes) : (bitsOf data).length = data.length * 8 := by
  induction data with
  | nil => rfl
  | cons o os ih =>
      have hcons : bitsOf (o :: os) = digits 8 o.toNat ++ bitsOf os := List.flatMap_cons
      rw [hcons, List.length_append, length_digits, ih, List.length_cons]
      omega

lemma bitsOf_append (a b : Bytes) : bitsOf (a ++ b) = bitsOf a ++ bitsOf b := List.flatMap_append

lemma bitsOf_take_append_drop (data : Bytes) (n : ℕ) :
    bitsOf (data.take n) ++ bitsOf (data.drop n) = bitsOf data := by
  rw [← bitsOf_append, List.take_append_drop]

lemma bitsOf_drop (data : Bytes) (off : ℕ) :
    bitsOf (data.drop off) = (bitsOf data).drop (8 * off) := by
  rcases le_total off data.length with h | h
  · rw [← bitsOf_take_append_drop data off, List.drop_left']
    rw [length_bitsOf, List.length_take, min_eq_left h]
    omega
  · rw [List.drop_of_length_le h, List.drop_of_length_le]
    · rfl
    · rw [length_bitsOf]
      omega

lemma bitsOf_take (data : Bytes) (n : ℕ) : bitsOf (data.take n) = (bitsOf data).take (8 * n) := by
  rcases le_total n data.length with h | h
  · rw [← bitsOf_take_append_drop data n, List.take_left']
    rw [length_bitsOf, List.length_take, min_eq_left h]
    omega
  · rw [List.take_of_length_le h, List.take_of_length_le]
    rw [length_bitsOf]
    omega

lemma ofBe_eq (os : Bytes) : BigEndian.ofBe os = number 0 (bitsOf os) := by
  have hfrom (w : ℕ) : os.foldl (fun w o => w * 256 + o.toNat) w = number w (bitsOf os) := by
    induction os generalizing w with
    | nil => rfl
    | cons o os ih =>
        have hcons : bitsOf (o :: os) = digits 8 o.toNat ++ bitsOf os := List.flatMap_cons
        have hbyte : o.toNat % 2 ^ 8 = o.toNat := Nat.mod_eq_of_lt o.toNat_lt
        rw [List.foldl_cons, ih, hcons, number_append, number_digits, hbyte]
        rfl
  exact hfrom 0

/-! ## A word, shifted -/

lemma shl64_number {a b : List Bool} (h : a.length + b.length = 64) :
    shl64 (number 0 (a ++ b)) a.length = number 0 b * 2 ^ a.length := by
  have hb := number_lt b
  have hwhole : 2 ^ 64 = 2 ^ b.length * 2 ^ a.length := by rw [← pow_add, Nat.add_comm, h]
  rw [shl64, Nat.shiftLeft_eq, hwhole, Nat.mul_mod_mul_right, number_append, number_eq,
    Nat.mul_add_mod', Nat.mod_eq_of_lt hb]

lemma number_shiftRight (b c : List Bool) : number 0 (b ++ c) >>> c.length = number 0 b := by
  rw [Nat.shiftRight_eq_div_pow, number_append, number_eq, Nat.mul_comm,
    Nat.mul_add_div (Nat.two_pow_pos _), Nat.div_eq_of_lt (number_lt c), Nat.add_zero]

lemma shl64_shiftRight {a b c : List Bool} (h : a.length + b.length + c.length = 64) :
    shl64 (number 0 (a ++ (b ++ c))) a.length >>> (64 - b.length) = number 0 b := by
  have hshift : 64 - b.length = a.length + c.length := by omega
  rw [shl64_number (by rw [List.length_append]; omega), hshift, Nat.shiftRight_add,
    ← Nat.shiftLeft_eq, Nat.shiftLeft_shiftRight, number_shiftRight]

variable {n : ℕ}

lemma shl64_shiftRight_end {a b : List Bool} (h : a.length + b.length = 64)
    (hn : n ≤ a.length) :
    shl64 (number 0 (a ++ b)) a.length >>> (a.length - n) = number 0 b <<< n := by
  have hpow : 2 ^ a.length = 2 ^ n * 2 ^ (a.length - n) := by
    rw [← pow_add, Nat.add_sub_cancel' hn]
  rw [shl64_number h, hpow, ← Nat.mul_assoc, Nat.shiftRight_eq_div_pow,
    Nat.mul_div_cancel _ (Nat.two_pow_pos _), Nat.shiftLeft_eq]

lemma shiftLeft_or_number (a b : List Bool) :
    number 0 a <<< b.length ||| number 0 b = number 0 (a ++ b) := by
  rw [number_append, number_eq (number 0 a), Nat.mul_comm,
    Nat.two_pow_add_eq_or_of_lt (number_lt b), Nat.shiftLeft_eq, Nat.mul_comm]

/-! ## The loads -/

lemma length_wordBytes (data : Bytes) (off : ℕ) : (wordBytes data off).length = 8 := by
  rw [wordBytes, List.length_append, List.length_take, List.length_drop, List.length_replicate]
  omega

lemma exists_loadBe {data : Bytes} {off : ℕ} {b : List Bool}
    (hb : b <+: (bitsOf data).drop (8 * off)) (hlen : b.length ≤ 64) :
    ∃ c, b.length + c.length = 64 ∧ loadBe data off = number 0 (b ++ c) := by
  have hword : b <+: bitsOf (wordBytes data off) := by
    rw [wordBytes, bitsOf_append, bitsOf_take, bitsOf_drop]
    exact (List.prefix_take_iff.2 ⟨hb, hlen⟩).trans (List.prefix_append _ _)
  obtain ⟨c, hc⟩ := hword
  refine ⟨c, ?_, by rw [loadBe, ofBe_eq, hc]⟩
  rw [← List.length_append, hc, length_bitsOf, length_wordBytes]

/-! ## What is left to read -/

def unread (r : BitReader) : List Bool := ((bitsOf r.data).take r.totalBits).drop r.bitPos

@[simp]
lemma length_unread (r : BitReader) : r.unread.length = r.remaining := by
  have hfits := r.fits
  rw [unread, List.length_drop, List.length_take, length_bitsOf, min_eq_left hfits, remaining]

lemma unread_new {data : Bytes} (hpos : 0 < n) (hn : n ≤ data.length * 8) :
    (new data n).unread = (bitsOf data).take n := by
  rw [unread, new]
  simp only []
  rw [if_pos hpos, min_eq_left hn, List.drop_zero]

lemma unread_advance (r : BitReader) (n : ℕ) : (r.advance n).unread = r.unread.drop n := by
  rw [unread, unread, List.drop_drop]
  rfl

variable {r : BitReader}

lemma exists_behind {bs rest : List Bool} (h : r.unread = bs ++ rest)
    (hbs : bs ≠ []) : ∃ pre, pre.length = r.bitPos % 8 ∧
      pre ++ bs <+: (bitsOf r.data).drop (8 * (r.bitPos / 8)) := by
  have hpos : r.bitPos = 8 * (r.bitPos / 8) + r.bitPos % 8 := (Nat.div_add_mod _ _).symm
  have hfits := r.fits
  have hlen := congrArg List.length h
  have hbs' := List.length_pos_of_ne_nil hbs
  rw [length_unread, remaining, List.length_append] at hlen
  refine ⟨((bitsOf r.data).drop (8 * (r.bitPos / 8))).take (r.bitPos % 8), ?_, ?_⟩
  · rw [List.length_take, List.length_drop, length_bitsOf]
    omega
  · have hprefix : bs <+: ((bitsOf r.data).drop (8 * (r.bitPos / 8))).drop (r.bitPos % 8) := by
      have hunread : r.unread <+: (bitsOf r.data).drop r.bitPos := (List.take_prefix _ _).drop _
      rw [List.drop_drop, ← hpos]
      exact (h ▸ List.prefix_append bs rest).trans hunread
    have hsplit := List.take_append_drop (r.bitPos % 8) ((bitsOf r.data).drop (8 * (r.bitPos / 8)))
    conv_rhs => rw [← hsplit]
    exact (List.prefix_append_right_inj _).2 hprefix

lemma unsignedAt_eq {bs rest : List Bool} (h : r.unread = bs ++ rest)
    (hbs : bs ≠ []) (hlen : bs.length ≤ 64) : r.unsignedAt bs.length = number 0 bs := by
  obtain ⟨pre, hpre, hbehind⟩ := exists_behind h hbs
  have hoff : r.bitPos % 8 < 8 := Nat.mod_lt _ (by decide)
  rw [unsignedAt, ← hpre]
  split
  case isTrue hone =>
    obtain ⟨c, hc, hword⟩ := exists_loadBe hbehind (by rw [List.length_append]; exact hone)
    rw [List.length_append] at hc
    rw [hword, List.append_assoc, shl64_shiftRight hc]
  case isFalse htwo =>
    -- the first word ends inside the number and the second starts there
    obtain ⟨hi, lo, rfl, hhi⟩ : ∃ hi lo, bs = hi ++ lo ∧ pre.length + hi.length = 64 := by
      refine ⟨bs.take (64 - pre.length), bs.drop (64 - pre.length),
        (List.take_append_drop _ _).symm, ?_⟩
      rw [List.length_take]
      omega
    rw [List.length_append] at hlen htwo ⊢
    obtain ⟨behind, hdata⟩ := hbehind
    have hhere : pre ++ hi <+: (bitsOf r.data).drop (8 * (r.bitPos / 8)) := by
      rw [← hdata, ← List.append_assoc, List.append_assoc (pre ++ hi)]
      exact List.prefix_append _ _
    have hnext : lo <+: (bitsOf r.data).drop (8 * (r.bitPos / 8 + 8)) := by
      have hend : (pre ++ hi).length = 8 * 8 := by rw [List.length_append, hhi]
      rw [Nat.mul_add, ← List.drop_drop, ← hdata, ← List.append_assoc,
        List.append_assoc (pre ++ hi), List.drop_left' hend]
      exact List.prefix_append _ _
    obtain ⟨c, hc, hword⟩ := exists_loadBe hhere (by rw [List.length_append]; omega)
    obtain ⟨c', hc', hword'⟩ := exists_loadBe hnext (by omega)
    obtain rfl : c = [] := List.eq_nil_of_length_eq_zero (by rw [List.length_append] at hc; omega)
    have hhead : 64 - (hi.length + lo.length) = pre.length - lo.length := by omega
    have htail : 64 - (hi.length + lo.length - (64 - pre.length)) = c'.length := by omega
    rw [hword, hword', hhead, htail, List.append_nil, shl64_shiftRight_end hhi (by omega),
      number_shiftRight, shiftLeft_or_number]

/-- **The reader reads.**  The next bits, sixty-four at most, are given as a number and left
behind. -/
theorem gives_readUnsigned {bs rest : List Bool} (h : r.unread = bs ++ rest)
    (hlen : bs.length ≤ 64) :
    Reader.Gives (readUnsigned bs.length) r (number 0 bs) (r.advance bs.length) := by
  refine (Reader.gives_get _).bind ?_
  rcases eq_or_ne bs [] with rfl | hne
  · exact Reader.gives_pure _ _
  · have hleft := congrArg List.length h
    have hpos := List.length_pos_of_ne_nil hne
    rw [length_unread, remaining, List.length_append] at hleft
    rw [if_neg (by omega), if_neg (by omega), ← unsignedAt_eq h hne hlen]
    exact (Reader.gives_set _ _).bind (Reader.gives_pure _ _)

lemma gives_enough (h : n ≤ r.remaining) :
    Reader.Gives (enough n) r () r := by
  refine (Reader.gives_get _).bind ?_
  rw [if_neg (by omega)]
  exact Reader.gives_pure _ _

lemma gives_skip (h : n ≤ r.remaining) :
    Reader.Gives (skip n) r () (r.advance n) :=
  (gives_enough h).bind <| (Reader.gives_get _).bind (Reader.gives_set _ _)

/-! ## Readers that take bits off the front -/

/-- The reader takes these bits off the front, whatever is behind them, and gives a value. -/
def ReadsOff {α : Type} (m : Reader BitReader α) (bits : List Bool) (a : α) : Prop :=
  ∀ (r : BitReader) (rest : List Bool), r.unread = bits ++ rest →
    ∃ r' : BitReader, Reader.Gives m r a r' ∧ r'.unread = rest

section ReadsOff

variable {α β : Type} {m : Reader BitReader α} {f : α → Reader BitReader β} {a : α} {b : β}
  {bits bits' : List Bool}

lemma readsOff_pure (a : α) : ReadsOff (pure a) [] a := fun r _ h => ⟨r, Reader.gives_pure _ _, h⟩

lemma ReadsOff.bind (hm : ReadsOff m bits a) (hf : ReadsOff (f a) bits' b) :
    ReadsOff (m >>= f) (bits ++ bits') b := by
  intro r rest h
  obtain ⟨r', hread, hleft⟩ := hm r (bits' ++ rest) (by rw [h, List.append_assoc])
  obtain ⟨r'', hread', hleft'⟩ := hf r' rest hleft
  exact ⟨r'', hread.bind hread', hleft'⟩

lemma ReadsOff.bind_pure (hm : ReadsOff m bits a) (g : α → β) :
    ReadsOff (m >>= fun x => pure (g x)) bits (g a) := by
  have h := hm.bind (f := fun x => pure (g x)) (readsOff_pure (g a))
  rwa [List.append_nil] at h

lemma ReadsOff.enough {n : ℕ} (hm : ReadsOff m bits a) (hn : n ≤ bits.length) :
    ReadsOff (BitReader.enough n >>= fun _ => m) bits a := by
  intro r rest h
  obtain ⟨r', hread, hleft⟩ := hm r rest h
  have hlen := congrArg List.length h
  rw [length_unread, List.length_append] at hlen
  refine ⟨r', (gives_enough ?_).bind hread, hleft⟩
  omega

lemma readsOff_remaining {g : ℕ → Reader BitReader α}
    (hg : ∀ n, bits.length ≤ n → ReadsOff (g n) bits a) :
    ReadsOff (do let r ← get; g r.remaining) bits a := by
  intro r rest h
  have hlen := congrArg List.length h
  rw [length_unread, List.length_append] at hlen
  obtain ⟨r', hread, hleft⟩ := hg r.remaining (by omega) r rest h
  exact ⟨r', (Reader.gives_get _).bind hread, hleft⟩

lemma readsOff_digits {n v : ℕ} (hn : n ≤ 64) (hv : v < 2 ^ n) :
    ReadsOff (readUnsigned n) (digits n v) v := by
  intro r rest h
  have hread := gives_readUnsigned h (by rw [length_digits]; exact hn)
  rw [length_digits, number_digits, Nat.zero_mul, Nat.zero_add, Nat.mod_eq_of_lt hv] at hread
  refine ⟨_, hread, ?_⟩
  rw [unread_advance, h, List.drop_left' (length_digits n v)]

lemma readsOff_bit (b : Bool) : ReadsOff (readUnsigned 1) [b] b.toNat := by
  cases b
  · exact readsOff_digits (v := 0) (by decide) (by decide)
  · exact readsOff_digits (v := 1) (by decide) (by decide)

lemma readsOff_skip (bits : List Bool) : ReadsOff (skip bits.length) bits () := by
  intro r rest h
  have hlen := congrArg List.length h
  rw [length_unread, List.length_append] at hlen
  refine ⟨_, gives_skip (by omega), ?_⟩
  rw [unread_advance, h, List.drop_left]

end ReadsOff

end BitReader

end IbkrDx
