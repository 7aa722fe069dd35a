import Mathlib.Tactic.Linarith
import IbkrDx.Lib.LsbBits

/-!
# The packed payload of a five-second bar

`decode_bar_payload` of `control/historical/mod.rs`: a bar in so many bits, least significant first,
the bytes reversed within groups of four, each width chosen by a flag in front of it.

* **`bar_payload_read`** — a payload is read as it was written, and one cut short is refused.

Prices are exact.
-/

namespace IbkrDx

open LsbBits

structure FiveSecondBar where
  openPrice : ℚ
  high : ℚ
  low : ℚ
  close : ℚ
  volume : ℚ
  wap : ℚ
  count : ℕ

namespace BarPayload

/-! ## The reader -/

/-- Bytes reversed within groups of four. -/
def regroup : List UInt8 → List UInt8
  | a :: b :: c :: d :: rest => d :: c :: b :: a :: regroup rest
  | rest => rest.reverse

/-- How far a payload has been read, and whether past its end. -/
structure Cursor where
  pos : ℕ := 0
  overran : Bool := false
  deriving DecidableEq

def readBit (data : List UInt8) (s : ℕ × Cursor) (i : ℕ) : ℕ × Cursor :=
  match data[s.2.pos / 8]? with
  | some b => (s.1 ||| ((b.toNat >>> (s.2.pos % 8)) &&& 1) <<< i, { s.2 with pos := s.2.pos + 1 })
  | none => (s.1, ⟨s.2.pos + 1, true⟩)

/-- The next `n` bits as a number; noughts stand in for what is past the end. -/
def readBits (n : ℕ) (data : List UInt8) : StateM Cursor ℕ := fun c =>
  (List.range n).foldl (readBit data) (0, c)

def readFlag (data : List UInt8) : StateM Cursor Bool := do
  let b ← readBits 1 data
  return b == 1

def readChosen (narrow wide : ℕ) (data : List UInt8) : StateM Cursor ℕ := do
  let short ← readFlag data
  readBits (if short then narrow else wide) data

structure RawBar where
  count : ℕ
  lowTicks : ℕ
  dOpen : ℕ
  dHigh : ℕ
  dClose : ℕ
  wapSum : ℕ
  counted : ℕ

def readDeltas (data : List UInt8) : StateM Cursor (ℕ × ℕ × ℕ × ℕ) := do
  let short ← readFlag data
  let dOpen ← readBits (if short then 5 else 32) data
  let dHigh ← readBits (if short then 5 else 32) data
  let dClose ← readBits (if short then 5 else 32) data
  let wapSum ← readChosen 18 32 data
  return (dOpen, dHigh, dClose, wapSum)

def readDeltasOf (count : ℕ) (data : List UInt8) : StateM Cursor (ℕ × ℕ × ℕ × ℕ) :=
  if 1 < count then readDeltas data else pure (0, 0, 0, 0)

def readBehind (count lowTicks : ℕ) (data : List UInt8) : StateM Cursor (Option RawBar) := do
  let deltas ← readDeltasOf count data
  let counted ← readChosen 16 32 data
  return some ⟨count, lowTicks, deltas.1, deltas.2.1, deltas.2.2.1, deltas.2.2.2, counted⟩

/-- A bar; none where it states more trades than are carried. -/
def readBar (data : List UInt8) : StateM Cursor (Option RawBar) := do
  let _ ← readBits 4 data
  let count ← readChosen 8 32 data
  if 2 ^ 31 ≤ count then return none
  else
    let lowTicks ← readBits 31 data
    readBehind count lowTicks data

def RawBar.lowTicksSigned (r : RawBar) : ℤ :=
  if r.lowTicks &&& (1 <<< 30) ≠ 0 then (r.lowTicks : ℤ) - 2 ^ 31 else r.lowTicks

def RawBar.bar (r : RawBar) (minTick sizeTick : ℚ) : FiveSecondBar :=
  let low : ℚ := r.lowTicksSigned * minTick
  { low
    openPrice := if 1 < r.count then low + r.dOpen * minTick else low
    high := if 1 < r.count then low + r.dHigh * minTick else low
    close := if 1 < r.count then low + r.dClose * minTick else low
    volume := r.counted * if 0 < sizeTick then sizeTick else 1
    wap := if 1 < r.count ∧ 0 < r.counted then low + r.wapSum * minTick / r.counted else low
    count := r.count }

end BarPayload

open BarPayload

def decodeBarPayload (payload : List UInt8) (minTick sizeTick : ℚ) : Option FiveSecondBar :=
  if payload = [] then none
  else
    match readBar (regroup payload) {} with
    | (none, _) => none
    | (some r, c) => if c.overran then none else some (r.bar minTick sizeTick)

/-! ## What is written -/

/-- A number, and which of two widths it is written in. -/
structure Chosen (narrow wide : ℕ) where
  short : Bool
  value : ℕ
  fits : value < 2 ^ (if short then narrow else wide)

def Chosen.bits {narrow wide : ℕ} (c : Chosen narrow wide) : List Bool :=
  c.short :: write (if c.short then narrow else wide) c.value

structure BarFields where
  padding : ℕ
  count : Chosen 8 32
  countFits : count.value < 2 ^ 31
  low : ℤ
  lowFits : -2 ^ 30 ≤ low ∧ low < 2 ^ 30
  shortDeltas : Bool
  dOpen : ℕ
  dHigh : ℕ
  dClose : ℕ
  deltasFit : dOpen < 2 ^ (if shortDeltas then 5 else 32) ∧
    dHigh < 2 ^ (if shortDeltas then 5 else 32) ∧ dClose < 2 ^ (if shortDeltas then 5 else 32)
  wapSum : Chosen 18 32
  counted : Chosen 16 32

namespace BarFields

def lowTicks (f : BarFields) : ℕ := (f.low % 2 ^ 31).toNat

def deltaBits (f : BarFields) : List Bool :=
  f.shortDeltas :: (write (if f.shortDeltas then 5 else 32) f.dOpen ++
    (write (if f.shortDeltas then 5 else 32) f.dHigh ++
      (write (if f.shortDeltas then 5 else 32) f.dClose ++ f.wapSum.bits)))

def bits (f : BarFields) : List Bool :=
  write 4 f.padding ++ (f.count.bits ++ (write 31 f.lowTicks ++
    ((if 1 < f.count.value then f.deltaBits else []) ++ f.counted.bits)))

def bar (f : BarFields) (minTick sizeTick : ℚ) : FiveSecondBar where
  low := f.low * minTick
  openPrice := if 1 < f.count.value then f.low * minTick + f.dOpen * minTick else f.low * minTick
  high := if 1 < f.count.value then f.low * minTick + f.dHigh * minTick else f.low * minTick
  close := if 1 < f.count.value then f.low * minTick + f.dClose * minTick else f.low * minTick
  volume := f.counted.value * sizeTick
  wap := if 1 < f.count.value ∧ 0 < f.counted.value then
      f.low * minTick + f.wapSum.value * minTick / f.counted.value
    else f.low * minTick
  count := f.count.value

end BarFields

namespace BarPayload

def encode (bits : List Bool) : List UInt8 := regroup (pack bits)

def payloadBits (payload : List UInt8) : List Bool := ofBytes (regroup payload)

lemma regroup_regroup (data : List UInt8) : regroup (regroup data) = data := by
  fun_induction regroup data with
  | case1 a b c d rest ih => rw [regroup, ih]
  | case2 rest hshort =>
      rcases rest with _ | ⟨a, _ | ⟨b, _ | ⟨c, _ | ⟨d, rest⟩⟩⟩⟩
      · rfl
      · rfl
      · rfl
      · rfl
      · exact absurd rfl (hshort _ _ _ _ _)

lemma payloadBits_encode {bits : List Bool} (h : 8 ∣ bits.length) :
    payloadBits (encode bits) = bits := by
  rw [payloadBits, encode, regroup_regroup, ofBytes_pack bits h]

/-! ## Reading bits -/

def bitAt (data : List UInt8) (i : ℕ) : Bool := (ofBytes data)[i]?.getD false

lemma readBit_eq (data : List UInt8) (s : ℕ × Cursor) (i : ℕ) :
    readBit data s i = (s.1 ||| (bitAt data s.2.pos).toNat <<< i,
      ⟨s.2.pos + 1, s.2.overran || decide (8 * data.length < s.2.pos + 1)⟩) := by
  unfold readBit bitAt
  rw [getElem?_ofBytes]
  cases hbyte : data[s.2.pos / 8]? with
  | some b =>
      have hin := (List.getElem?_eq_some_iff.1 hbyte).1
      have hlt : ¬8 * data.length < s.2.pos + 1 := by omega
      have hbit : (b.toNat >>> (s.2.pos % 8)) &&& 1 = (b.toNat.testBit (s.2.pos % 8)).toNat := by
        rw [Nat.and_one_is_mod, Nat.testBit_eq_decide_div_mod_eq, Nat.shiftRight_eq_div_pow]
        rcases Nat.mod_two_eq_zero_or_one (b.toNat / 2 ^ (s.2.pos % 8)) with h | h <;>
          rw [h] <;> rfl
      rw [Option.map_some, Option.getD_some, decide_eq_false hlt, Bool.or_false, ← hbit]
  | none =>
      have hout := List.getElem?_eq_none_iff.1 hbyte
      have hlt : 8 * data.length < s.2.pos + 1 := by omega
      rw [Option.map_none, Option.getD_none, decide_eq_true hlt, Bool.or_true]
      simp

lemma readBits_eq (n : ℕ) (data : List UInt8) (c : Cursor) :
    readBits n data c = (number ((List.range n).map fun i => bitAt data (c.pos + i)),
      ⟨c.pos + n, c.overran || decide (0 < n ∧ 8 * data.length < c.pos + n)⟩) := by
  induction n with
  | zero => simp [readBits, number]
  | succ n ih =>
      have hnumber := number_lt ((List.range n).map fun i => bitAt data (c.pos + i))
      rw [List.length_map, List.length_range] at hnumber
      unfold readBits at ih ⊢
      rw [List.range_succ, List.foldl_append, ih, List.foldl_cons, List.foldl_nil, readBit_eq,
        List.map_append, number_append, List.length_map, List.length_range]
      refine Prod.ext ?_ ?_
      · dsimp only
        rw [Nat.shiftLeft_eq, Nat.mul_comm _ (2 ^ n), Nat.or_comm,
          ← Nat.two_pow_add_eq_or_of_lt hnumber]
        simp [number, Nat.add_comm]
      · dsimp only
        rw [Bool.or_assoc, ← Nat.add_assoc]
        refine congrArg _ (congrArg _ ?_)
        rw [← Bool.decide_or, decide_eq_decide]
        omega

/-! ## What a reader looks at -/

def Admits (data : List UInt8) (c : Cursor) : Prop := c.overran = decide (8 * data.length < c.pos)

/-- **A reader looks at no bit behind those it has read**, and admits it where it ran past the
end. -/
structure Local {α : Type} (m : List UInt8 → StateM Cursor α) : Prop where
  forward : ∀ data c, c.pos ≤ (m data c).2.pos
  admits : ∀ data c, Admits data c → Admits data (m data c).2
  alike : ∀ data data' c c', c'.pos = c.pos →
    (∀ i < (m data c).2.pos, bitAt data' i = bitAt data i) →
      (m data' c').1 = (m data c).1 ∧ (m data' c').2.pos = (m data c).2.pos

variable {α : Type}

lemma local_pure (a : α) : Local fun _ => (pure a : StateM Cursor α) :=
  ⟨fun _ _ => Nat.le_refl _, fun _ _ h => h, fun _ _ _ _ hpos _ => ⟨rfl, hpos⟩⟩

lemma local_readBits (n : ℕ) : Local (readBits n) where
  forward := fun data c => by
    rw [readBits_eq]
    exact Nat.le_add_right _ _
  admits := fun data c h => by
    rw [Admits] at h
    rw [readBits_eq, Admits, h, ← Bool.decide_or, decide_eq_decide]
    dsimp only
    omega
  alike := fun data data' c c' hpos h => by
    rw [readBits_eq] at h ⊢
    rw [readBits_eq, hpos]
    refine ⟨congrArg number (List.map_congr_left fun i hi => h _ ?_), rfl⟩
    exact Nat.add_lt_add_left (List.mem_range.1 hi) _

variable {m : List UInt8 → StateM Cursor α}

lemma Local.bind {β : Type}
    {k : α → List UInt8 → StateM Cursor β} (hm : Local m) (hk : ∀ a, Local (k a)) :
    Local fun data => m data >>= fun a => k a data where
  forward := fun data c => (hm.forward data c).trans ((hk _).forward data _)
  admits := fun data c h => (hk _).admits data _ (hm.admits data c h)
  alike := fun data data' c c' hpos h => by
    have hbehind := (hk (m data c).1).forward data (m data c).2
    obtain ⟨hvalue, hpos'⟩ := hm.alike data data' c c' hpos fun i hi =>
      h i (Nat.lt_of_lt_of_le hi hbehind)
    have hrest := (hk (m data c).1).alike data data' (m data c).2 (m data' c').2 hpos' h
    show (k (m data' c').1 data' (m data' c').2).1 = (k (m data c).1 data (m data c).2).1 ∧
      (k (m data' c').1 data' (m data' c').2).2.pos = (k (m data c).1 data (m data c).2).2.pos
    rw [hvalue]
    exact hrest

lemma local_readFlag : Local readFlag := (local_readBits 1).bind fun b => local_pure (b == 1)

lemma local_readChosen (narrow wide : ℕ) : Local (readChosen narrow wide) :=
  local_readFlag.bind fun _ => local_readBits _

lemma local_readDeltas : Local readDeltas :=
  local_readFlag.bind fun _ => (local_readBits _).bind fun dOpen => (local_readBits _).bind
    fun dHigh => (local_readBits _).bind fun dClose => (local_readChosen 18 32).bind fun wapSum =>
      local_pure (dOpen, dHigh, dClose, wapSum)

lemma local_readDeltasOf (count : ℕ) : Local (readDeltasOf count) := by
  unfold readDeltasOf
  split_ifs
  · exact local_readDeltas
  · exact local_pure _

lemma local_readBehind (count lowTicks : ℕ) : Local (readBehind count lowTicks) :=
  (local_readDeltasOf count).bind fun _ => (local_readChosen 16 32).bind fun _ => local_pure _

lemma local_readBar : Local readBar := by
  refine (local_readBits 4).bind fun _ => (local_readChosen 8 32).bind fun count => ?_
  split_ifs
  · exact local_pure none
  · exact (local_readBits 31).bind fun lowTicks => local_readBehind count lowTicks

/-! ## Reading what was written -/

/-- A reader gives a value, and stands so many bits further. -/
def GivesAt {α : Type} (m : List UInt8 → StateM Cursor α) (written : List Bool) (a : α) : Prop :=
  ∀ data c rest, (ofBytes data).drop c.pos = written ++ rest →
    (m data c).1 = a ∧ (m data c).2.pos = c.pos + written.length

lemma givesAt_pure (a : α) : GivesAt (fun _ => (pure a : StateM Cursor α)) [] a :=
  fun _ _ _ _ => ⟨rfl, rfl⟩

lemma GivesAt.bind {β : Type}
    {k : α → List UInt8 → StateM Cursor β} {w w' : List Bool} {a : α} {b : β}
    (hm : GivesAt m w a) (hk : GivesAt (k a) w' b) :
    GivesAt (fun data => m data >>= fun a => k a data) (w ++ w') b := by
  intro data c rest h
  rw [List.append_assoc] at h
  obtain ⟨hvalue, hpos⟩ := hm data c _ h
  have hdrop : (ofBytes data).drop (m data c).2.pos = w' ++ rest := by
    rw [hpos, ← List.drop_drop, h, List.drop_left]
  obtain ⟨hvalue', hpos'⟩ := hk data (m data c).2 rest hdrop
  show (k (m data c).1 data (m data c).2).1 = b ∧ (k (m data c).1 data (m data c).2).2.pos = _
  rw [hvalue, hvalue', hpos', hpos, List.length_append, Nat.add_assoc]
  exact ⟨rfl, rfl⟩

lemma givesAt_readBits (n v : ℕ) : GivesAt (readBits n) (write n v) (v % 2 ^ n) := by
  intro data c rest h
  rw [readBits_eq, length_write, ← number_write]
  refine ⟨congrArg number ?_, rfl⟩
  refine List.map_congr_left fun i hi => ?_
  have hi := List.mem_range.1 hi
  have hat : (ofBytes data)[c.pos + i]? = some (v.testBit i) := by
    rw [← List.getElem?_drop, h, List.getElem?_append_left (by rwa [length_write]), write,
      List.getElem?_map, List.getElem?_range hi]
    rfl
  rw [bitAt, hat, Option.getD_some]

lemma givesAt_readFlag (b : Bool) : GivesAt readFlag [b] b := by
  have hwrite : write 1 b.toNat = [b] := by cases b <;> rfl
  have hread := (givesAt_readBits 1 b.toNat).bind
    (k := fun n _ => (pure (n == 1) : StateM Cursor Bool)) (givesAt_pure _)
  rw [hwrite] at hread
  have hvalue : (b.toNat % 2 ^ 1 == 1) = b := by cases b <;> rfl
  rw [hvalue] at hread
  exact hread

lemma givesAt_chosen {narrow wide : ℕ} (f : Chosen narrow wide) :
    GivesAt (readChosen narrow wide) f.bits f.value := by
  have hread := (givesAt_readFlag f.short).bind
    (k := fun short => readBits (if short then narrow else wide))
    (givesAt_readBits (if f.short then narrow else wide) f.value)
  rw [Nat.mod_eq_of_lt f.fits] at hread
  exact hread

lemma givesAt_fitting {n v : ℕ} (h : v < 2 ^ n) : GivesAt (readBits n) (write n v) v := by
  have hread := givesAt_readBits n v
  rwa [Nat.mod_eq_of_lt h] at hread

lemma givesAt_deltas (f : BarFields) :
    GivesAt readDeltas f.deltaBits (f.dOpen, f.dHigh, f.dClose, f.wapSum.value) := by
  obtain ⟨hopen, hhigh, hclose⟩ := f.deltasFit
  unfold readDeltas
  refine GivesAt.bind (w := [f.shortDeltas]) (givesAt_readFlag f.shortDeltas) ?_
  refine (givesAt_fitting hopen).bind ?_
  refine (givesAt_fitting hhigh).bind ?_
  refine (givesAt_fitting hclose).bind ?_
  have hsum := (givesAt_chosen f.wapSum).bind (k := fun wapSum _ =>
    (pure (f.dOpen, f.dHigh, f.dClose, wapSum) : StateM Cursor _)) (givesAt_pure _)
  rwa [List.append_nil] at hsum

lemma givesAt_deltasOf (f : BarFields) :
    GivesAt (readDeltasOf f.count.value) (if 1 < f.count.value then f.deltaBits else [])
      (if 1 < f.count.value then (f.dOpen, f.dHigh, f.dClose, f.wapSum.value)
        else (0, 0, 0, 0)) := by
  unfold readDeltasOf
  split_ifs
  · exact givesAt_deltas f
  · exact givesAt_pure _

def raw (f : BarFields) : RawBar :=
  if 1 < f.count.value then
    ⟨f.count.value, f.lowTicks, f.dOpen, f.dHigh, f.dClose, f.wapSum.value, f.counted.value⟩
  else ⟨f.count.value, f.lowTicks, 0, 0, 0, 0, f.counted.value⟩

lemma givesAt_behind (f : BarFields) :
    GivesAt (readBehind f.count.value f.lowTicks)
      ((if 1 < f.count.value then f.deltaBits else []) ++ f.counted.bits) (some (raw f)) := by
  unfold readBehind
  refine (givesAt_deltasOf f).bind ?_
  have hcounted := (givesAt_chosen f.counted).bind
    (k := fun counted _ => (pure (some { raw f with counted }) : StateM Cursor _)) (givesAt_pure _)
  rw [List.append_nil] at hcounted
  unfold raw at hcounted ⊢
  split_ifs at hcounted ⊢
  · exact hcounted
  · exact hcounted

lemma lowTicks_lt (f : BarFields) : f.lowTicks < 2 ^ 31 := by
  unfold BarFields.lowTicks
  omega

lemma givesAt_bar (f : BarFields) : GivesAt readBar f.bits (some (raw f)) := by
  unfold readBar
  refine (givesAt_readBits 4 f.padding).bind ?_
  refine (givesAt_chosen f.count).bind ?_
  have hcount : ¬2 ^ 31 ≤ f.count.value := Nat.not_le.2 f.countFits
  simp only [if_neg hcount]
  exact (givesAt_fitting (lowTicks_lt f)).bind (givesAt_behind f)

lemma lowTicksSigned_raw (f : BarFields) : (raw f).lowTicksSigned = f.low := by
  obtain ⟨hge, hlt⟩ := f.lowFits
  have hticks : (raw f).lowTicks = f.lowTicks := by
    unfold raw
    split_ifs <;> rfl
  have hsign : f.lowTicks &&& (1 <<< 30) ≠ 0 ↔ f.low < 0 := by
    rw [Nat.one_shiftLeft, Nat.and_two_pow, Nat.mul_ne_zero_iff]
    have hbit : f.lowTicks.testBit 30 = decide (f.low < 0) := by
      rw [Nat.testBit_eq_decide_div_mod_eq, decide_eq_decide]
      unfold BarFields.lowTicks
      omega
    rw [hbit]
    simp
  unfold RawBar.lowTicksSigned
  rw [hticks]
  simp only [hsign]
  unfold BarFields.lowTicks
  split_ifs <;> omega

lemma bar_raw (f : BarFields) (minTick : ℚ) {sizeTick : ℚ} (h : 0 < sizeTick) :
    (raw f).bar minTick sizeTick = f.bar minTick sizeTick := by
  unfold RawBar.bar BarFields.bar
  rw [lowTicksSigned_raw]
  unfold raw
  split_ifs <;> simp_all

/-! ## A whole payload -/

lemma GivesAt.start {written rest : List Bool}
    {a : α} {data : List UInt8} (hm : GivesAt m written a) (h : ofBytes data = written ++ rest) :
    (m data {}).1 = a ∧ (m data {}).2.pos = written.length := by
  have hread := hm data {} rest h
  rwa [Nat.zero_add] at hread

lemma overran_readBar (data : List UInt8) :
    (readBar data {}).2.overran = decide (8 * data.length < (readBar data {}).2.pos) :=
  local_readBar.admits data {} rfl

lemma encode_ne_nil {bits : List Bool} (h : 8 ∣ bits.length) (hne : bits ≠ []) :
    encode bits ≠ [] := by
  intro hnil
  have hbits := payloadBits_encode h
  rw [hnil] at hbits
  exact hne hbits.symm

lemma bits_ne_nil (f : BarFields) : f.bits ≠ [] := by
  unfold BarFields.bits
  rw [write_succ]
  exact List.cons_ne_nil _ _

lemma decode_encode (f : BarFields) (spare : List Bool) (h : 8 ∣ (f.bits ++ spare).length)
    (minTick : ℚ) {sizeTick : ℚ} (hsize : 0 < sizeTick) :
    decodeBarPayload (encode (f.bits ++ spare)) minTick sizeTick =
      some (f.bar minTick sizeTick) := by
  have hne := encode_ne_nil h (List.append_ne_nil_of_left_ne_nil (bits_ne_nil f) spare)
  have hdata : ofBytes (regroup (encode (f.bits ++ spare))) = f.bits ++ spare :=
    payloadBits_encode h
  obtain ⟨hvalue, hpos⟩ := (givesAt_bar f).start hdata
  have hoverran := overran_readBar (regroup (encode (f.bits ++ spare)))
  rw [hpos, ← length_ofBytes, hdata, List.length_append] at hoverran
  have hin : ¬f.bits.length + spare.length < f.bits.length := by omega
  rw [decide_eq_false hin] at hoverran
  unfold decodeBarPayload
  rw [if_neg hne, ← bar_raw f minTick hsize]
  generalize readBar (regroup (encode (f.bits ++ spare))) {} = read at hvalue hoverran
  obtain ⟨value, cursor⟩ := read
  dsimp only at hvalue hoverran
  rw [hvalue]
  dsimp only
  rw [hoverran]
  rfl

lemma refuses_count {payload : List UInt8} {padding v : ℕ} {rest : List Bool}
    (hlow : 2 ^ 31 ≤ v) (hhigh : v < 2 ^ 32)
    (h : payloadBits payload = write 4 padding ++ ((false :: write 32 v) ++ rest))
    (minTick sizeTick : ℚ) : decodeBarPayload payload minTick sizeTick = none := by
  have hread : GivesAt readBar (write 4 padding ++ (false :: write 32 v)) none := by
    unfold readBar
    refine (givesAt_readBits 4 padding).bind ?_
    have hcount := (@givesAt_chosen 8 32 ⟨false, v, hhigh⟩).bind
      (k := fun _ _ => (pure none : StateM Cursor (Option RawBar))) (givesAt_pure _)
    rw [List.append_nil] at hcount
    rw [← List.append_nil (false :: write 32 v)]
    refine (@givesAt_chosen 8 32 ⟨false, v, hhigh⟩).bind ?_
    simp only [if_pos hlow]
    exact givesAt_pure none
  rw [← List.append_assoc] at h
  have hvalue := (hread.start h).1
  unfold decodeBarPayload
  split_ifs
  · rfl
  · generalize readBar (regroup payload) {} = read at hvalue
    obtain ⟨value, cursor⟩ := read
    dsimp only at hvalue
    rw [hvalue]

lemma refuses_cut {payload : List UInt8} {f : BarFields} (hcut : payloadBits payload <+: f.bits)
    (hne : payloadBits payload ≠ f.bits) (minTick sizeTick : ℚ) :
    decodeBarPayload payload minTick sizeTick = none := by
  obtain ⟨behind, hbehind⟩ := hcut
  have hmissing : 0 < behind.length := by
    rcases behind with _ | ⟨b, behind⟩
    · exact absurd (by rwa [List.append_nil] at hbehind) hne
    · exact Nat.succ_pos _
  -- The bar the payload was cut from, filled up to whole bytes.
  obtain ⟨spare, hspare⟩ : ∃ spare, 8 ∣ (f.bits ++ spare).length := by
    refine ⟨List.replicate (7 * f.bits.length) false, ?_⟩
    rw [List.length_append, List.length_replicate]
    omega
  have hwhole : ofBytes (pack (f.bits ++ spare)) = f.bits ++ spare := ofBytes_pack _ hspare
  obtain ⟨-, hend⟩ := (givesAt_bar f).start hwhole
  have hoverran : (readBar (regroup payload) {}).2.overran = true := by
    rw [overran_readBar, decide_eq_true_eq]
    by_contra hin
    have hin := Nat.not_lt.1 hin
    have hsame := local_readBar.alike (regroup payload) (pack (f.bits ++ spare)) {} {} rfl
      fun i hi => by
        have hlt : i < (payloadBits payload).length := by
          rw [payloadBits, length_ofBytes]
          omega
        unfold bitAt
        rw [hwhole, ← hbehind, List.append_assoc, List.getElem?_append_left hlt, payloadBits]
    have hlength := congrArg List.length hbehind
    rw [List.length_append, payloadBits, length_ofBytes] at hlength
    omega
  unfold decodeBarPayload
  split_ifs
  · rfl
  · generalize readBar (regroup payload) {} = read at hoverran
    obtain ⟨value, cursor⟩ := read
    dsimp only at hoverran
    rcases value with _ | r
    · rfl
    · dsimp only
      rw [if_pos hoverran]

end BarPayload

/-- **A payload is read as it was written**, whatever its widths and whatever fills its last byte;
one that states more trades than are carried is refused, and so is one that ends before its bar
does. -/
theorem bar_payload_read (minTick sizeTick : ℚ) (hsize : 0 < sizeTick) :
    (∀ (f : BarFields) (spare : List Bool), 8 ∣ (f.bits ++ spare).length →
      decodeBarPayload (encode (f.bits ++ spare)) minTick sizeTick =
        some (f.bar minTick sizeTick)) ∧
    (∀ (payload : List UInt8) (padding v : ℕ) (rest : List Bool), 2 ^ 31 ≤ v → v < 2 ^ 32 →
      payloadBits payload = write 4 padding ++ ((false :: write 32 v) ++ rest) →
        decodeBarPayload payload minTick sizeTick = none) ∧
    (∀ (payload : List UInt8) (f : BarFields), payloadBits payload <+: f.bits →
      payloadBits payload ≠ f.bits → decodeBarPayload payload minTick sizeTick = none) :=
  ⟨fun f spare h => decode_encode f spare h minTick hsize,
    fun _ _ _ _ hlow hhigh h => refuses_count hlow hhigh h minTick sizeTick,
    fun _ _ hcut hne => refuses_cut hcut hne minTick sizeTick⟩

/-- A spread below nought. -/
theorem bar_payload_read_below :
    let f : BarFields :=
      { padding := 0, count := ⟨true, 12, by decide⟩, countFits := by decide
        low := -3, lowFits := by decide, shortDeltas := false
        dOpen := 4, dHigh := 40, dClose := 7, deltasFit := by decide
        wapSum := ⟨true, 90, by decide⟩, counted := ⟨true, 30, by decide⟩ }
    decodeBarPayload (encode (f.bits ++ List.replicate 7 false)) (1 / 4) 100 =
      some ⟨1 / 4, 37 / 4, -3 / 4, 1, 3000, 0, 12⟩ := by
  intro f
  have hread := (bar_payload_read (1 / 4) 100 (by norm_num)).1 f (List.replicate 7 false)
    ⟨23, rfl⟩
  rw [hread]
  norm_num [f, BarFields.bar]

end IbkrDx
