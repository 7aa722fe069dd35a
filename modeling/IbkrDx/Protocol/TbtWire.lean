import IbkrDx.Protocol.TbtStream

/-!
# The wire form of tick-by-tick fields

How the venue writes each field of a record, as a relation between a value and the octets that
carry it, and that the readers of `TbtStream` take exactly those octets and give back that value.

* **`reads_unsigned`, `reads_signed`, `reads_text`, `reads_size`** — each reader reads its field.
-/

namespace IbkrDx

namespace Bits

variable {α β : Type}

/-! ## Octets -/

/-- Standing behind the octets `pre` with `rest` unread. -/
def behind (pre rest : Bytes) : Bits := ⟨pre ++ rest, pre.length * 8⟩

lemma remaining_behind (pre rest : Bytes) : (behind pre rest).remaining = rest.length * 8 := by
  simp only [remaining, behind, List.length_append]
  omega

/-- Wherever it stands before the octets `os`, the reader gives `a` and stands behind them. -/
def ReadsAs (m : Reader Bits α) (os : Bytes) (a : α) : Prop :=
  ∀ pre rest, Reader.Gives m (behind pre (os ++ rest)) a (behind (pre ++ os) rest)

lemma readsAs_pure (a : α) : ReadsAs (pure a) [] a := by
  intro pre rest
  rw [List.append_nil]
  exact Reader.gives_pure a _

variable {os : Bytes}

lemma ReadsAs.bind {m : Reader Bits α} {f : α → Reader Bits β} {os' : Bytes} {a : α} {b : β}
    (hm : ReadsAs m os a) (hf : ReadsAs (f a) os' b) : ReadsAs (m >>= f) (os ++ os') b := by
  intro pre rest
  have hfirst := hm pre (os' ++ rest)
  have hsecond := hf (pre ++ os) rest
  rw [List.append_assoc] at hsecond
  rw [List.append_assoc]
  exact hfirst.bind hsecond

/-- What `octetFrom` makes of the last `n` bits of an octet. -/
def lowBits : ℕ → UInt8 → UInt8 → UInt8
  | 0, out, _ => out
  | n + 1, out, o => lowBits n ((out <<< 1) ||| ((o >>> n.toUInt8) &&& 1)) o

lemma lowBits_eight (o : UInt8) : lowBits 8 0 o = o := by
  have hall : ∀ b : BitVec 8, lowBits 8 0 ⟨b⟩ = ⟨b⟩ := by decide
  exact hall o.toBitVec

lemma gives_bit (b : Bits) {o : UInt8} (h : b.bytes[b.pos / 8]? = some o) :
    Reader.Gives bit b ((o >>> (7 - b.pos % 8).toUInt8) &&& 1) ⟨b.bytes, b.pos + 1⟩ :=
  (Reader.gives_get b).bind ((Reader.gives_take h b).bind
    ((Reader.gives_set b _).bind (Reader.gives_pure _ _)))

lemma gives_octetFrom (pre rest : Bytes) (o : UInt8) :
    ∀ (n : ℕ) (out : UInt8), n ≤ 8 →
      Reader.Gives (octetFrom n out) ⟨pre ++ o :: rest, pre.length * 8 + (8 - n)⟩
        (lowBits n out o) ⟨pre ++ o :: rest, pre.length * 8 + 8⟩
  | 0, out, _ => Reader.gives_pure out _
  | n + 1, out, hn => by
      have hat : (pre ++ o :: rest)[(pre.length * 8 + (8 - (n + 1))) / 8]? = some o := by
        have hdiv : (pre.length * 8 + (8 - (n + 1))) / 8 = pre.length := by omega
        rw [hdiv, List.getElem?_append_right (le_refl _), Nat.sub_self]
        rfl
      have hshift : 7 - (pre.length * 8 + (8 - (n + 1))) % 8 = n := by omega
      have hbit : Reader.Gives bit ⟨pre ++ o :: rest, pre.length * 8 + (8 - (n + 1))⟩
          ((o >>> n.toUInt8) &&& 1) ⟨pre ++ o :: rest, pre.length * 8 + (8 - n)⟩ := by
        have hnext : pre.length * 8 + (8 - (n + 1)) + 1 = pre.length * 8 + (8 - n) := by omega
        have hread := gives_bit ⟨pre ++ o :: rest, pre.length * 8 + (8 - (n + 1))⟩ hat
        simpa only [hshift, hnext] using hread
      exact hbit.bind (gives_octetFrom pre rest o n _ (by omega))

lemma reads_octet (o : UInt8) : ReadsAs octet [o] o := by
  intro pre rest
  have h := gives_octetFrom pre rest o 8 0 (le_refl 8)
  rw [lowBits_eight] at h
  simpa [behind, octet, Nat.add_mul] using h

/-! ## Numbers -/

/-- Octets that end: the last carries the top bit, and no other does. -/
inductive Ended : Bytes → Prop
  | last (o : UInt8) (h : 128 ≤ o.toNat) : Ended [o]
  | cons (o : UInt8) {os : Bytes} (h : o.toNat < 128) (hs : Ended os) : Ended (o :: os)

/-- The number octets write behind `start`: seven bits of each, most significant first. -/
def sevens (start : ℤ) (os : Bytes) : ℤ := os.foldl (fun v o => v * 128 + (o.toNat % 128 : ℕ)) start

/-- A plain number and the octets that carry it. -/
structure UnsignedWire (n : UInt64) (os : Bytes) : Prop where
  ended : Ended os
  value : sevens 0 os = n.toNat

/-- What a signed number starts from: bit six of the first octet, over all the bits above. -/
def signOf (os : Bytes) : ℤ := if 64 ≤ (os.headD 0).toNat % 128 then -1 else 0

/-- A number that may be negative and the octets that carry it. -/
structure SignedWire (x : Int64) (os : Bytes) : Prop where
  ended : Ended os
  value : sevens (signOf os) os = x.toInt

lemma topBit_iff (o : UInt8) : o &&& 0x80 ≠ 0 ↔ 128 ≤ o.toNat := by
  have hall : ∀ b : BitVec 8, (⟨b⟩ : UInt8) &&& 0x80 ≠ 0 ↔ 128 ≤ b.toNat := by decide
  exact hall o.toBitVec

lemma signBit_iff (o : UInt8) : o &&& 0x40 ≠ 0 ↔ 64 ≤ o.toNat % 128 := by
  have hall : ∀ b : BitVec 8, (⟨b⟩ : UInt8) &&& 0x40 ≠ 0 ↔ 64 ≤ b.toNat % 128 := by decide
  exact hall o.toBitVec

lemma toNat_low7 (o : UInt8) : (o &&& 0x7F).toNat = o.toNat % 128 := by
  have hmask : (0x7F : UInt8).toNat = 2 ^ 7 - 1 := rfl
  rw [UInt8.toNat_and, hmask, Nat.and_two_pow_sub_one_eq_mod]

lemma shift_or (x : BitVec 64) (v : ℤ) (g : ℕ) (hx : x = BitVec.ofInt 64 v) (hg : g < 128) :
    (x <<< 7) ||| BitVec.ofNat 64 g = BitVec.ofInt 64 (v * 128 + g) := by
  have hdisjoint : (x <<< 7) &&& BitVec.ofNat 64 g = 0#64 := by
    refine BitVec.eq_of_getLsbD_eq fun i hi => ?_
    rw [BitVec.getLsbD_and, BitVec.getLsbD_shiftLeft, BitVec.getLsbD_ofNat, BitVec.getLsbD_zero]
    by_cases hlow : i < 7
    · simp [hlow]
    · have hpow : 2 ^ 7 ≤ 2 ^ i := Nat.pow_le_pow_right (by decide) (by omega)
      have hbit : g.testBit i = false := Nat.testBit_lt_two_pow (lt_of_lt_of_le hg hpow)
      simp [hbit]
  rw [← BitVec.add_eq_or_of_and_eq_zero _ _ hdisjoint, BitVec.ofInt_add, BitVec.ofInt_mul,
    BitVec.shiftLeft_eq_mul_twoPow, hx]
  rfl

lemma toBitVec_pushUnsigned (acc : UInt64) (o : UInt8) (v : ℤ)
    (h : acc.toBitVec = BitVec.ofInt 64 v) :
    (pushUnsigned acc o).toBitVec = BitVec.ofInt 64 (v * 128 + (o.toNat % 128 : ℕ)) := by
  have hlow : (o &&& 0x7F).toUInt64.toBitVec = BitVec.ofNat 64 (o.toNat % 128) := by
    apply BitVec.eq_of_toNat_eq
    rw [BitVec.toNat_ofNat, ← toNat_low7]
    exact (Nat.mod_eq_of_lt (lt_trans (o &&& 0x7F).toNat_lt (by decide))).symm
  rw [← shift_or acc.toBitVec v _ h (Nat.mod_lt _ (by decide)), ← hlow]
  rfl

lemma toBitVec_pushSigned (acc : Int64) (o : UInt8) (v : ℤ)
    (h : acc.toBitVec = BitVec.ofInt 64 v) :
    (pushSigned acc o).toBitVec = BitVec.ofInt 64 (v * 128 + (o.toNat % 128 : ℕ)) :=
  toBitVec_pushUnsigned acc.toUInt64 o v h

lemma toBitVec_foldl {γ : Type} (bits : γ → BitVec 64) (push : γ → UInt8 → γ)
    (hpush : ∀ acc o v, bits acc = BitVec.ofInt 64 v →
      bits (push acc o) = BitVec.ofInt 64 (v * 128 + (o.toNat % 128 : ℕ))) (os : Bytes) :
    ∀ (acc : γ) (v : ℤ), bits acc = BitVec.ofInt 64 v →
      bits (os.foldl push acc) = BitVec.ofInt 64 (sevens v os) := by
  induction os with
  | nil => intro acc v h; exact h
  | cons o os ih => intro acc v h; exact ih _ _ (hpush acc o v h)

lemma reads_untilLast (push : α → UInt8 → α) (hos : Ended os) :
    ∀ (fuel : ℕ) (acc : α), os.length ≤ fuel →
      ReadsAs (untilLast push fuel acc) os (os.foldl push acc) := by
  induction hos with
  | last o h =>
      rintro (_ | fuel) acc hfuel
      · exact absurd hfuel (by simp)
      · refine ReadsAs.bind (reads_octet o) ?_
        rw [if_pos ((topBit_iff o).2 h)]
        exact readsAs_pure _
  | cons o h hs ih =>
      rintro (_ | fuel) acc hfuel
      · exact absurd hfuel (by simp)
      · refine ReadsAs.bind (reads_octet o) ?_
        rw [if_neg (by rw [topBit_iff]; omega)]
        exact ih fuel _ (by simpa using hfuel)

lemma reads_octetsLeft {m : ℕ → Reader Bits α} {a : α}
    (h : ∀ fuel, os.length ≤ fuel → ReadsAs (m fuel) os a) : ReadsAs (octetsLeft >>= m) os a := by
  intro pre rest
  have hleft : Reader.Gives octetsLeft (behind pre (os ++ rest))
      ((behind pre (os ++ rest)).remaining / 8 + 1) (behind pre (os ++ rest)) := rfl
  refine hleft.bind (h _ ?_ pre rest)
  rw [remaining_behind, List.length_append]
  omega

theorem reads_unsigned {n : UInt64} (h : UnsignedWire n os) :
    ReadsAs unsigned os n := by
  have hvalue : os.foldl pushUnsigned 0 = n := by
    refine UInt64.toBitVec_inj.1 ?_
    rw [toBitVec_foldl UInt64.toBitVec pushUnsigned toBitVec_pushUnsigned os 0 0 rfl, h.value]
    exact (BitVec.ofNat_toNat 64 n.toBitVec).trans (BitVec.setWidth_eq _)
  rw [← hvalue]
  exact reads_octetsLeft fun fuel hfuel => reads_untilLast pushUnsigned h.ended fuel 0 hfuel

theorem reads_signed {x : Int64} (h : SignedWire x os) : ReadsAs signed os x := by
  have hvalue : os.foldl pushSigned (if (os.headD 0) &&& 0x40 ≠ 0 then -1 else 0) = x := by
    refine Int64.toBitVec_inj.1 ?_
    rw [toBitVec_foldl Int64.toBitVec pushSigned toBitVec_pushSigned os _ (signOf os), h.value]
    · exact BitVec.ofInt_toInt
    · by_cases hsign : 64 ≤ (os.headD 0).toNat % 128
      · rw [if_pos ((signBit_iff _).2 hsign), signOf, if_pos hsign]
        rfl
      · rw [if_neg (mt (signBit_iff _).1 hsign), signOf, if_neg hsign]
        rfl
  rw [← hvalue]
  refine reads_octetsLeft fun fuel hfuel => ?_
  cases h.ended with
  | last o ho =>
      refine ReadsAs.bind (reads_octet o) ?_
      rw [if_pos ((topBit_iff o).2 ho)]
      exact readsAs_pure _
  | cons o ho hs =>
      refine ReadsAs.bind (reads_octet o) ?_
      rw [if_neg (by rw [topBit_iff]; omega)]
      exact reads_untilLast pushSigned hs fuel _ (le_trans (Nat.le_succ _) hfuel)

/-! ## Texts and sizes -/

/-- The characters of a text and the octets that carry them: the last character carries the top
bit, or the end marker stands behind it. -/
inductive TextWire : List Char → Bytes → Prop
  | closed : TextWire [] [0x80]
  | marked (c : Char) (o : UInt8) (h : o.toNat = 128 + c.toNat) (hne : c.toNat ≠ 0) :
      TextWire [c] [o]
  | cons (c : Char) (o : UInt8) {cs : List Char} {os : Bytes} (h : o.toNat = c.toNat)
      (hc : c.toNat < 128) (hs : TextWire cs os) : TextWire (c :: cs) (o :: os)

/-- A size and the octets that carry it: one number, or its low half and then its high half. -/
inductive SizeWire : Bool → UInt64 → Bytes → Prop
  | whole {n : UInt64} {os : Bytes} (h : UnsignedWire n os) : SizeWire false n os
  | halves {n low high : UInt64} {os os' : Bytes} (hlow : UnsignedWire low os)
      (hhigh : UnsignedWire high os') (hbound : low.toNat < 2 ^ 32)
      (hn : n.toNat = high.toNat * 2 ^ 32 + low.toNat) : SizeWire true n (os ++ os')

lemma char_of_low7 {c : Char} {o : UInt8} (h : o.toNat % 128 = c.toNat) :
    Char.ofNat (o &&& 0x7F).toNat = c := by
  rw [toNat_low7, h, Char.ofNat_toNat]

lemma gives_textFrom {cs : List Char} (hos : TextWire cs os) :
    ∀ (fuel : ℕ) (out : List Char) (pre rest : Bytes), os.length ≤ fuel →
      out.length ≤ pre.length →
      Reader.Gives (textFrom fuel out) (behind pre (os ++ rest)) (String.ofList (out ++ cs))
        (behind (pre ++ os) rest) := by
  induction hos with
  | closed =>
      rintro (_ | fuel) out pre rest hfuel -
      · exact absurd hfuel (by simp)
      · refine (reads_octet 0x80 pre rest).bind ?_
        rw [if_pos rfl, List.append_nil]
        exact Reader.gives_pure _ _
  | marked c o h hne =>
      rintro (_ | fuel) out pre rest hfuel -
      · exact absurd hfuel (by simp)
      · have hlt := o.toNat_lt
        have hmark : o ≠ 0x80 := by
          rintro rfl
          exact hne (by simpa using h.symm)
        refine (reads_octet o pre rest).bind ?_
        rw [if_neg hmark, if_pos ((topBit_iff o).2 (by omega)), char_of_low7 (c := c) (by omega)]
        exact Reader.gives_pure _ _
  | cons c o h hc hs ih =>
      rintro (_ | fuel) out pre rest hfuel hout
      · exact absurd hfuel (by simp)
      · have hmark : o ≠ 0x80 := by
          rintro rfl
          simp only [UInt8.reduceToNat] at h
          omega
        have hnext := ih fuel (out ++ [c]) (pre ++ [o]) rest (by simpa using hfuel)
          (by simpa using hout)
        refine (reads_octet o pre _).bind ?_
        rw [if_neg hmark, if_neg (by rw [topBit_iff]; omega), char_of_low7 (c := c) (by omega)]
        refine (Reader.gives_get _).bind ?_
        -- the text so far is no longer than what the frame held before it
        rw [if_neg (by simp only [behind, List.length_append, List.length_cons,
          List.length_nil]; omega)]
        simpa using hnext

theorem reads_text {s : String} (h : TextWire s.toList os) : ReadsAs text os s := by
  intro pre rest
  have hleft : Reader.Gives octetsLeft (behind pre (os ++ rest))
      ((behind pre (os ++ rest)).remaining / 8 + 1) (behind pre (os ++ rest)) := rfl
  have hloop := gives_textFrom h ((behind pre (os ++ rest)).remaining / 8 + 1) [] pre rest
    (by rw [remaining_behind, List.length_append]; omega) (by simp)
  rw [List.nil_append, String.ofList_toList] at hloop
  exact hleft.bind hloop

theorem reads_size {extended : Bool} {n : UInt64} (h : SizeWire extended n os) :
    ReadsAs (size extended) os n := by
  cases h with
  | whole h => exact reads_unsigned h
  | @halves _ low high os os' hlow hhigh hbound hn =>
      have hvalue : low ||| (high <<< 32) = n := by
        have hlt := n.toNat_lt
        refine UInt64.toNat_inj.1 ?_
        have hshift : (high <<< 32).toNat = 2 ^ 32 * high.toNat := by
          rw [UInt64.toNat_shiftLeft]
          simp only [UInt64.reduceToNat, Nat.reduceMod, Nat.shiftLeft_eq]
          omega
        rw [UInt64.toNat_or, hshift, Nat.or_comm, ← Nat.two_pow_add_eq_or_of_lt hbound]
        omega
      rw [size, if_pos rfl, ← hvalue, ← List.append_nil os']
      exact (reads_unsigned hlow).bind ((reads_unsigned hhigh).bind (readsAs_pure _))

end Bits

end IbkrDx
