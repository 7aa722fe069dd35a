import IbkrDx.Lib.PointText

/-!
# Prices and quantities as orders state them

`StackStr`, `format_price` and `format_qty` of `engine/hot_loop/mod.rs`: a fixed-point number of
sixty-four bits written into twenty-four bytes on the stack.  Every step that could stop the program
is checked, and `none` is a stopped program: a byte behind the buffer's end, the least number
negated.

* **`figures_exact`** — every number is written, exactly and without waste.
-/

namespace IbkrDx.OrderFigures

open Decimal (digit text low value isDigit trimEnd spelled rational Plain)

abbrev Bytes := List UInt8

/-! ## The buffer -/

/-- `StackStr`: what has been written into the twenty-four bytes. -/
structure StackStr where
  bytes : Bytes
  fits : bytes.length ≤ 24

namespace StackStr

def new : StackStr := ⟨[], Nat.zero_le _⟩

def append (s : StackStr) (bs : Bytes) : Option StackStr :=
  if h : (s.bytes ++ bs).length ≤ 24 then some ⟨s.bytes ++ bs, h⟩ else none

def push (s : StackStr) (b : UInt8) : Option StackStr := s.append [b]

def reverseFrom (s : StackStr) (start : ℕ) : StackStr where
  bytes := s.bytes.take start ++ (s.bytes.drop start).reverse
  fits := by
    have hfits := s.fits
    rw [List.length_append, List.length_reverse, List.length_take, List.length_drop]
    omega

/-- The loop of `write_u64`: the digits, the last one first. -/
def pushDigits (s : StackStr) (v : ℕ) : Option StackStr :=
  if h : v = 0 then some s
  else do (← s.push (digit (v % 10))).pushDigits (v / 10)
termination_by v
decreasing_by omega

def writeU64 (s : StackStr) (val : ℕ) : Option StackStr := do
  if val = 0 then s.push 48
  else return (← s.pushDigits val).reverseFrom s.bytes.length

def negChecked (val : ℤ) : Option ℤ := if val = -2 ^ 63 then none else some (-val)

def writeI64 (s : StackStr) (val : ℤ) : Option StackStr := do
  if val < 0 then
    let s ← s.push 45
    s.writeU64 (← negChecked val).toNat
  else s.writeU64 val.toNat

end StackStr

open StackStr (push append)

/-! ## The two formatters -/

def priceScale : ℤ := 100000000

def qtyScale : ℤ := 100000000

/-- What the two formatters share: the whole part with its sign, and the digits of the rest as far
as the last that is not a nought. -/
def formatFixed (scale : ℤ) (digitsOf : ℕ → Bytes) (v : ℤ) : Option StackStr := do
  let whole := v.tdiv scale
  let frac := (v.tmod scale).natAbs
  -- a whole part of nought carries no sign
  let s ← if v < 0 ∧ whole = 0 then StackStr.new.push 45 else some StackStr.new
  let s ← s.writeI64 whole
  if frac = 0 then return s
  let s ← s.push 46
  let digits := digitsOf frac
  s.append (digits.take (trimEnd digits digits.length))

/-- The eight digits of a price's fraction, as they are listed. -/
def priceDigits (frac : ℕ) : Bytes :=
  [digit (frac / 10000000 % 10), digit (frac / 1000000 % 10), digit (frac / 100000 % 10),
    digit (frac / 10000 % 10), digit (frac / 1000 % 10), digit (frac / 100 % 10),
    digit (frac / 10 % 10), digit (frac % 10)]

/-- `PLACES`: how often the scale is divided before it is one. -/
def places (scale : ℕ) : ℕ := if h : 1 < scale then places (scale / 10) + 1 else 0
termination_by scale
decreasing_by omega

def fillSlots : ℕ → ℕ → Bytes → Bytes
  | 0, _, filled => filled
  | slots + 1, rest, filled => fillSlots slots (rest / 10) (digit (rest % 10) :: filled)

def qtyDigits (frac : ℕ) : Bytes := fillSlots (places qtyScale.toNat) frac []

def formatPrice (price : ℤ) : Option StackStr := formatFixed priceScale priceDigits price

def formatQty (qty : ℤ) : Option StackStr := formatFixed qtyScale qtyDigits qty

/-! ## What a step writes -/

def Writes (step : StackStr → Option StackStr) (bs : Bytes) : Prop :=
  ∀ s, s.bytes.length + bs.length ≤ 24 → ∃ s', step s = some s' ∧ s'.bytes = s.bytes ++ bs

section

variable {step step' : StackStr → Option StackStr} {bs bs' : Bytes}

lemma writes_none : Writes some [] := fun s _ => ⟨s, rfl, (List.append_nil _).symm⟩

lemma writes_append (bs : Bytes) : Writes (fun s => s.append bs) bs := by
  intro s h
  have hfits : (s.bytes ++ bs).length ≤ 24 := by rwa [List.length_append]
  exact ⟨⟨s.bytes ++ bs, hfits⟩, dif_pos hfits, rfl⟩

lemma writes_push (b : UInt8) : Writes (fun s => s.push b) [b] := writes_append [b]

lemma Writes.bind (h : Writes step bs) (h' : Writes step' bs') :
    Writes (fun s => step s >>= step') (bs ++ bs') := by
  intro s hroom
  rw [List.length_append] at hroom
  obtain ⟨s₁, hs₁, hbytes₁⟩ := h s (by omega)
  obtain ⟨s₂, hs₂, hbytes₂⟩ := h' s₁ (by rw [hbytes₁, List.length_append]; omega)
  refine ⟨s₂, ?_, by rw [hbytes₂, hbytes₁, List.append_assoc]⟩
  show step s >>= step' = some s₂
  rw [hs₁, Option.bind_eq_bind, Option.bind_some, hs₂]

lemma writes_pushDigits (v : ℕ) :
    Writes (fun s => s.pushDigits v) ((Nat.digits 10 v).map digit) := by
  induction v using Nat.strongRecOn with
  | ind v ih =>
      rcases Nat.eq_zero_or_pos v with rfl | hv
      · intro s _
        refine ⟨s, ?_, by simp⟩
        show s.pushDigits 0 = some s
        rw [StackStr.pushDigits, dif_pos rfl]
      · have hstep : (fun s : StackStr => s.pushDigits v) =
            fun s => s.push (digit (v % 10)) >>= fun s => s.pushDigits (v / 10) := by
          funext s
          rw [StackStr.pushDigits, dif_neg hv.ne']
        rw [hstep, Nat.digits_def' (by decide) hv, List.map_cons, ← List.singleton_append]
        exact (writes_push _).bind (ih (v / 10) (by omega))

lemma writes_writeU64 (v : ℕ) : Writes (fun s => s.writeU64 v) (text v) := by
  intro s hroom
  by_cases hv : v = 0
  · subst hv
    exact writes_push 48 s hroom
  · have hlen : (text v).length = ((Nat.digits 10 v).map digit).length := by
      rw [text, if_neg hv, List.length_reverse]
    obtain ⟨s', hs', hbytes⟩ := writes_pushDigits v s (by rwa [← hlen])
    have hs'' : s.pushDigits v = some s' := hs'
    refine ⟨s'.reverseFrom s.bytes.length, ?_, ?_⟩
    · show s.writeU64 v = _
      rw [StackStr.writeU64, if_neg hv, hs'']
      rfl
    · show s'.bytes.take s.bytes.length ++ (s'.bytes.drop s.bytes.length).reverse = _
      rw [hbytes, List.take_left, List.drop_left, text, if_neg hv]

lemma writes_writeI64 {v : ℤ} (hv : -2 ^ 63 < v) :
    Writes (fun s => s.writeI64 v) ((if v < 0 then [45] else []) ++ text v.natAbs) := by
  by_cases hneg : v < 0
  · have habs : (-v).toNat = v.natAbs := by omega
    have hother : StackStr.negChecked v = some (-v) := if_neg hv.ne'
    have hstep : (fun s : StackStr => s.writeI64 v) =
        fun s => s.push 45 >>= fun s => s.writeU64 v.natAbs := by
      funext s
      rw [StackStr.writeI64, if_pos hneg, hother, ← habs]
      rfl
    rw [hstep, if_pos hneg]
    exact (writes_push 45).bind (writes_writeU64 _)
  · have habs : v.toNat = v.natAbs := by omega
    have hstep : (fun s : StackStr => s.writeI64 v) = fun s => s.writeU64 v.natAbs := by
      funext s
      rw [StackStr.writeI64, if_neg hneg, habs]
    rw [hstep, if_neg hneg, List.nil_append]
    exact writes_writeU64 _

end

/-! ## The digits behind the point -/

lemma places_pow (k : ℕ) : places (10 ^ k) = k := by
  induction k with
  | zero =>
      rw [places, dif_neg]
      decide
  | succ k ih =>
      have hone : 1 < 10 ^ (k + 1) := Nat.one_lt_pow (Nat.succ_ne_zero k) (by decide)
      rw [places, dif_pos hone, pow_succ, Nat.mul_div_cancel _ (by decide), ih]

lemma fillSlots_eq (slots rest : ℕ) (filled : Bytes) :
    fillSlots slots rest filled = low slots rest ++ filled := by
  induction slots generalizing rest filled with
  | zero => rfl
  | succ slots ih => rw [fillSlots, ih, low, List.append_assoc, List.singleton_append]

lemma qtyDigits_eq (frac : ℕ) : qtyDigits frac = low 8 frac := by
  have hscale : qtyScale.toNat = 10 ^ 8 := rfl
  rw [qtyDigits, hscale, places_pow, fillSlots_eq, List.append_nil]

lemma priceDigits_eq (frac : ℕ) : priceDigits frac = low 8 frac := by
  simp only [low, priceDigits, Nat.div_div_eq_div_mul, List.nil_append, List.cons_append,
    Nat.reduceMul]

/-! ## The text -/

lemma sign_of_whole {v : ℤ} :
    (if v < 0 ∧ v.tdiv (10 ^ 8) = 0 then [(45 : UInt8)] else []) ++
      (if v.tdiv (10 ^ 8) < 0 then [45] else []) = if v < 0 then [45] else [] := by
  have hscale : (0 : ℤ) < 10 ^ 8 := by decide
  rcases lt_or_ge v 0 with hneg | hpos
  · have hopp : 0 ≤ (-v).tdiv (10 ^ 8) := Int.tdiv_nonneg (neg_nonneg.2 hneg.le) hscale.le
    have hle : v.tdiv (10 ^ 8) ≤ 0 := by
      rw [Int.neg_tdiv] at hopp
      exact neg_nonneg.1 hopp
    rcases hle.lt_or_eq with hlt | heq
    · rw [if_neg (fun h => hlt.ne h.2), if_pos hlt, if_pos hneg, List.nil_append]
    · rw [if_pos ⟨hneg, heq⟩, if_neg heq.not_lt, if_pos hneg, List.append_nil]
  · have hge : 0 ≤ v.tdiv (10 ^ 8) := Int.tdiv_nonneg hpos hscale.le
    rw [if_neg (fun h => hpos.not_gt h.1), if_neg hge.not_gt, if_neg hpos.not_gt]
    rfl

/-- The digits a fraction of hundred-millionths is left with. -/
def kept (frac : ℕ) : Bytes := (low 8 frac).take (trimEnd (low 8 frac) 8)

def figure (v : ℤ) : Bytes :=
  spelled (decide (v < 0)) (text (v.natAbs / 10 ^ 8)) (kept (v.natAbs % 10 ^ 8))

lemma length_kept (frac : ℕ) : (kept frac).length = trimEnd (low 8 frac) 8 := by
  have hle := Decimal.trimEnd_le (low 8 frac) 8
  rw [kept, List.length_take, Decimal.length_low, min_eq_left hle]

lemma value_kept {frac : ℕ} (h : frac < 10 ^ 8) :
    (value (kept frac) : ℚ) / 10 ^ (kept frac).length = frac / 10 ^ 8 := by
  have hall : (low 8 frac).take 8 = low 8 frac :=
    List.take_of_length_le (Decimal.length_low 8 frac).le
  rw [length_kept, kept, Decimal.value_trimEnd _ 8 (Decimal.length_low 8 frac).ge, hall,
    Decimal.value_low, Nat.mod_eq_of_lt h]

lemma kept_eq_nil_iff {frac : ℕ} (h : frac < 10 ^ 8) : kept frac = [] ↔ frac = 0 := by
  constructor
  · intro hnil
    have hvalue := value_kept h
    rw [hnil] at hvalue
    have hzero : (frac : ℚ) / 10 ^ 8 = 0 := by
      rw [← hvalue]
      simp [value]
    simpa using hzero
  · rintro rfl
    decide

lemma writes_fraction {frac : ℕ} (h : frac < 10 ^ 8) :
    Writes (fun s => do
      if frac = 0 then return s
      let s ← s.push 46
      s.append ((low 8 frac).take (trimEnd (low 8 frac) (low 8 frac).length)))
    (if kept frac = [] then [] else 46 :: kept frac) := by
  by_cases hzero : frac = 0
  · rw [if_pos ((kept_eq_nil_iff h).2 hzero)]
    intro s hroom
    obtain ⟨s', hs', hbytes⟩ := writes_none s hroom
    refine ⟨s', ?_, hbytes⟩
    show (if frac = 0 then some s else _) = some s'
    rw [if_pos hzero, hs']
  · rw [if_neg ((kept_eq_nil_iff h).not.2 hzero), Decimal.length_low]
    intro s hroom
    obtain ⟨s', hs', hbytes⟩ := ((writes_push 46).bind (writes_append (kept frac))) s hroom
    refine ⟨s', ?_, hbytes⟩
    show (if frac = 0 then some s else _) = some s'
    rw [if_neg hzero]
    exact hs'

lemma formatFixed_eq {digitsOf : ℕ → Bytes} (hdigits : ∀ frac, digitsOf frac = low 8 frac) {v : ℤ}
    (hlo : -2 ^ 63 ≤ v) (hhi : v < 2 ^ 63) :
    ∃ s, formatFixed (10 ^ 8) digitsOf v = some s ∧ s.bytes = figure v := by
  have hwhole : (v.tdiv (10 ^ 8)).natAbs = v.natAbs / 10 ^ 8 := Int.natAbs_tdiv v _
  have hfrac : (v.tmod (10 ^ 8)).natAbs = v.natAbs % 10 ^ 8 := Int.natAbs_tmod v _
  have hleast : -2 ^ 63 < v.tdiv (10 ^ 8) := by omega
  have hlt : v.natAbs % 10 ^ 8 < 10 ^ 8 := Nat.mod_lt _ (by decide)
  have hsign : Writes (fun s => if v < 0 ∧ v.tdiv (10 ^ 8) = 0 then s.push 45 else some s)
      (if v < 0 ∧ v.tdiv (10 ^ 8) = 0 then [45] else []) := by
    by_cases h : v < 0 ∧ v.tdiv (10 ^ 8) = 0
    · rw [if_pos h]
      simpa only [if_pos h] using writes_push 45
    · rw [if_neg h]
      simpa only [if_neg h] using writes_none
  have hbytes : (if v < 0 ∧ v.tdiv (10 ^ 8) = 0 then [(45 : UInt8)] else []) ++
      (((if v.tdiv (10 ^ 8) < 0 then [45] else []) ++ text (v.tdiv (10 ^ 8)).natAbs) ++
        if kept (v.natAbs % 10 ^ 8) = [] then [] else 46 :: kept (v.natAbs % 10 ^ 8)) =
      figure v := by
    rw [← List.append_assoc, ← List.append_assoc, sign_of_whole, hwhole, List.append_assoc, figure,
      spelled]
    simp only [decide_eq_true_eq]
  have hroom : (figure v).length ≤ 24 := by
    have htext : (text (v.natAbs / 10 ^ 8)).length ≤ 11 :=
      Decimal.length_text_le (by decide) (by omega)
    have hkept : (kept (v.natAbs % 10 ^ 8)).length ≤ 8 := by
      rw [length_kept]
      exact Decimal.trimEnd_le _ 8
    rw [figure, spelled, List.length_append, List.length_append]
    split <;> split <;> simp only [List.length_cons, List.length_nil] <;> omega
  obtain ⟨s, hs, hout⟩ := (hsign.bind ((writes_writeI64 hleast).bind (writes_fraction hlt)))
    StackStr.new (by rw [hbytes]; simpa [StackStr.new] using hroom)
  refine ⟨s, ?_, ?_⟩
  · rw [← hs, formatFixed, hfrac, hdigits]
    by_cases h : v < 0 ∧ v.tdiv (10 ^ 8) = 0
    · simp only [if_pos h]
    · simp only [if_neg h]
  · rw [hout, hbytes]
    rfl

/-! ## Every number -/

lemma units_add {q r n : ℕ} (h : 10 ^ 8 * q + r = n) : (q : ℚ) + r / 10 ^ 8 = n / 10 ^ 8 := by
  subst h
  push_cast
  field_simp
  ring

lemma rational_figure (v : ℤ) : rational (figure v) = v / 10 ^ 8 := by
  have hlt : v.natAbs % 10 ^ 8 < 10 ^ 8 := Nat.mod_lt _ (by decide)
  have hsum : ((v.natAbs / 10 ^ 8 : ℕ) : ℚ) + (v.natAbs % 10 ^ 8 : ℕ) / 10 ^ 8 =
      (v.natAbs : ℚ) / 10 ^ 8 := units_add (Nat.div_add_mod _ _)
  rw [figure, Decimal.rational_spelled _ (Decimal.text_ne_nil _)
    (fun b hb => Decimal.isDigit_of_mem_text hb), Decimal.value_text, value_kept hlt, hsum]
  rcases lt_or_ge v 0 with hneg | hpos
  · have habs : ((v.natAbs : ℤ) : ℚ) = ((-v : ℤ) : ℚ) := congrArg _ (by omega)
    rw [decide_eq_true hneg, if_pos rfl, ← Int.cast_natCast, habs]
    push_cast
    ring
  · have habs : ((v.natAbs : ℤ) : ℚ) = (v : ℚ) := congrArg _ (by omega)
    rw [decide_eq_false hpos.not_gt, if_neg Bool.false_ne_true, ← Int.cast_natCast, habs, one_mul]

lemma plain_figure (v : ℤ) : Plain (figure v) :=
  ⟨_, _, _, rfl, Decimal.text_ne_nil _, fun _ hb => Decimal.isDigit_of_mem_text hb,
    fun _ hb => Decimal.isDigit_of_mem_low (List.mem_of_mem_take hb),
    Decimal.getLast?_take_trimEnd _ 8 (Decimal.length_low 8 _).ge⟩

lemma head?_figure (v : ℤ) : (figure v).head? = some 45 ↔ v < 0 := by
  rcases lt_or_ge v 0 with hneg | hpos
  · refine ⟨fun _ => hneg, fun _ => ?_⟩
    rw [figure, spelled, decide_eq_true hneg]
    rfl
  · refine ⟨fun h => ?_, fun h => absurd h hpos.not_gt⟩
    obtain ⟨b, bs, hb⟩ := List.exists_cons_of_ne_nil (Decimal.text_ne_nil (v.natAbs / 10 ^ 8))
    have hdigit : isDigit b := by
      refine Decimal.isDigit_of_mem_text (n := v.natAbs / 10 ^ 8) ?_
      rw [hb]
      exact List.mem_cons_self
    rw [figure, spelled, decide_eq_false hpos.not_gt, if_neg Bool.false_ne_true, List.nil_append,
      hb, List.cons_append, List.head?_cons] at h
    rw [Option.some.inj h] at hdigit
    exact absurd hdigit (by decide)

/-- Every number of sixty-four bits is written, as what it is over the scale, and no two alike. -/
structure StatesExactly (scale : ℤ) (format : ℤ → Option StackStr) : Prop where
  exact : ∀ v : Int64, ∃ s, format v.toInt = some s ∧ rational s.bytes = v.toInt / scale ∧
    Plain s.bytes ∧ (s.bytes.head? = some 45 ↔ v.toInt < 0)
  injective : Function.Injective fun v : Int64 => (format v.toInt).map StackStr.bytes

lemma formatFixed_statesExactly {digitsOf : ℕ → Bytes}
    (hdigits : ∀ frac, digitsOf frac = low 8 frac) :
    StatesExactly (10 ^ 8) (formatFixed (10 ^ 8) digitsOf) := by
  have hwritten (v : Int64) : ∃ s, formatFixed (10 ^ 8) digitsOf v.toInt = some s ∧
      s.bytes = figure v.toInt := formatFixed_eq hdigits v.le_toInt v.toInt_lt
  refine ⟨fun v => ?_, fun v w hvw => ?_⟩
  · obtain ⟨s, hs, hbytes⟩ := hwritten v
    refine ⟨s, hs, ?_, ?_, ?_⟩ <;> rw [hbytes]
    · rw [rational_figure]
      norm_num
    · exact plain_figure _
    · exact head?_figure _
  · obtain ⟨s, hs, hbytes⟩ := hwritten v
    obtain ⟨s', hs', hbytes'⟩ := hwritten w
    have hsame : figure v.toInt = figure w.toInt := by
      simp only [hs, hs', Option.map_some, hbytes, hbytes', Option.some.injEq] at hvw
      exact hvw
    have hstated : (v.toInt : ℚ) / 10 ^ 8 = w.toInt / 10 ^ 8 := by
      rw [← rational_figure, hsame, rational_figure]
    have hint : v.toInt = w.toInt := by
      field_simp at hstated
      exact_mod_cast hstated
    exact Int64.toInt_inj.1 hint

/-- **A price and a quantity are written exactly.**  Every number of sixty-four bits is written
without a step that stops: its text states the number over the scale, with its sign, at least one
digit before the point, no nought at the end behind it and no bare point; and no two numbers share
a text. -/
theorem figures_exact :
    StatesExactly priceScale formatPrice ∧ StatesExactly qtyScale formatQty := by
  have hscale : (10 : ℤ) ^ 8 = 100000000 := by norm_num
  have hprice := formatFixed_statesExactly priceDigits_eq
  have hqty := formatFixed_statesExactly qtyDigits_eq
  rw [hscale] at hprice hqty
  exact ⟨hprice, hqty⟩

example : (formatPrice (-35000000)).map StackStr.bytes = some [45, 48, 46, 51, 53] := by
  decide

end IbkrDx.OrderFigures
