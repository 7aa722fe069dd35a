import Mathlib.Data.Rat.Floor
import Mathlib.Data.Sign.Basic
import Mathlib.GroupTheory.Perm.Basic
import Mathlib.Tactic.Positivity

/-!
# Prices on a contract's ladder

The rounding and stepping of `client_core/attached_prices.rs`: a market rule's bands, a price
rounded to the increment of its band, and a price stepped along the bands, through zero and back.

* **`prices_on_the_ladder`** — rounding and stepping.
-/

namespace IbkrDx.PriceLadders

/-! ## The code -/

/-- An increment as it is printed: its digits, and how many of them stand behind the point. -/
structure Printed where
  digits : ℤ
  places : ℕ
  deriving DecidableEq

def Printed.value (i : Printed) : ℚ := i.digits / 10 ^ i.places

structure PriceIncrement where
  lowEdge : ℚ
  increment : Printed
  deriving DecidableEq

/-- `MarketRule`, as far as prices are rounded and stepped by it. -/
structure MarketRule where
  negativePrices : Bool
  priceIncrements : List PriceIncrement

def unsetPrice : ℚ := (2 ^ 53 - 1) * 2 ^ 971

/-- `valid_number`, of a number. -/
def validNumber (value : ℚ) : Bool := value ≠ unsetPrice

def incrementFraction (increment : Printed) : ℚ × ℚ :=
  if 0 < increment.places ∧ increment.places ≤ 18 ∧ 0 ≤ increment.digits ∧
      increment.digits < 2 ^ 64 then
    (increment.digits, 10 ^ increment.places)
  else (increment.value, 1)

def wholeUnits (units : ℚ) (up : Bool) : ℤ :=
  if up then ⌈units - 1 / 10 ^ 9⌉ else ⌊units + 1 / 10 ^ 9⌋

def directed (price : ℚ) (increment : Printed) (up : Bool) : ℚ :=
  if increment.value ≤ 0 then unsetPrice
  else
    let fraction := incrementFraction increment
    wholeUnits (price * fraction.2 / fraction.1) up * fraction.1 / fraction.2

/-- The free function `nearest`. -/
def nearestOf (price : ℚ) (increment : Printed) : ℚ :=
  let up := directed price increment true
  let down := directed price increment false
  if (up + down) / 2 ≤ |price| then up else down

def reaches (price : ℚ) (towardZero : Bool) (edge : ℚ) : Prop :=
  if towardZero then edge < |price| else edge ≤ |price|

instance (price : ℚ) (towardZero : Bool) (edge : ℚ) : Decidable (reaches price towardZero edge) :=
  inferInstanceAs (Decidable (if towardZero = true then _ else _))

namespace MarketRule

def increment (rule : MarketRule) (price : ℚ) (towardZero : Bool) : Option Printed :=
  (rule.priceIncrements.zipIdx.reverse.find? fun entry =>
    entry.2 = 0 ∨ reaches price towardZero entry.1.lowEdge).map fun entry => entry.1.increment

def round (rule : MarketRule) (price : ℚ) (up : Bool) : ℚ :=
  if price = unsetPrice ∨ price = 0 then price
  else ((rule.increment price false).map fun tick => directed price tick up).getD price

def nearest (rule : MarketRule) (price : ℚ) : ℚ :=
  if price = unsetPrice ∨ price = 0 then price
  else ((rule.increment price false).map fun tick => nearestOf price tick).getD price

def isValid (rule : MarketRule) (price : ℚ) : Bool :=
  validNumber price && (decide (0 < price) || rule.negativePrices) &&
    decide (|rule.nearest price - price| < 1 / 10 ^ 9)

/-- What the loop of `ticks` carries. -/
structure Walk where
  price : ℚ
  direction : ℚ
  crossedZero : Bool

/-- One turn of the loop of `ticks`. -/
def tickOnce (rule : MarketRule) (w : Walk) : Walk :=
  let towardZero := decide (0 < w.price ∧ w.direction < 0 ∨ w.price < 0 ∧ 0 < w.direction)
  match rule.increment w.price towardZero with
  | none => w
  | some tick =>
      let price := nearestOf (w.price + w.direction * tick.value) tick
      if w.price ≠ 0 ∧ (price = 0 ∨ SignType.sign w.price ≠ SignType.sign price) ∧
          w.crossedZero = false then
        { price, direction := -w.direction, crossedZero := true }
      else { w with price }

/-- How often the loop of `ticks` turns: a number of steps as thirty-two bits hold it. -/
def turns (count : ℚ) : ℕ := min ⌊|count|⌋₊ (2 ^ 31 - 1)

def ticks (rule : MarketRule) (base count : ℚ) : ℚ :=
  if validNumber count = false ∨ count = 0 ∨ rule.priceIncrements = [] then base
  else
    match rule.priceIncrements with
    | [only] => rule.nearest (base + only.increment.value * count)
    | _ =>
        let w := rule.tickOnce^[turns count] ⟨base, if 0 < count then 1 else -1, false⟩
        rule.nearest (if w.crossedZero then -w.price else w.price)

end MarketRule

/-! ## The rules spoken of -/

def Multiple (tick : Printed) (x : ℚ) : Prop := ∃ k : ℤ, x = k * tick.value

/-- Bands from nought up: ascending edges, increments above nought, and at every edge a whole number
of the increments on both its sides. -/
structure Laddered (steps : List PriceIncrement) : Prop where
  starts : steps.head?.map PriceIncrement.lowEdge = some 0
  positive : ∀ s ∈ steps, 0 < s.increment.value
  ascending : steps.Pairwise fun s b => s.lowEdge < b.lowEdge
  whole : steps.IsChain fun s b =>
    Multiple s.increment b.lowEdge ∧ Multiple b.increment b.lowEdge

def OnLadder (rule : MarketRule) (price : ℚ) : Prop :=
  ∃ tick, rule.increment price false = some tick ∧ Multiple tick price

/-! ## Rounding to an increment -/

section

variable {tick : Printed} {price : ℚ} {up : Bool}

lemma incrementFraction_div (h : 0 < tick.value) :
    (incrementFraction tick).1 / (incrementFraction tick).2 = tick.value ∧
      0 < (incrementFraction tick).1 ∧ 0 < (incrementFraction tick).2 := by
  have hpow : (0 : ℚ) < 10 ^ tick.places := by positivity
  rw [incrementFraction]
  split
  · refine ⟨rfl, ?_, hpow⟩
    rw [Printed.value] at h
    exact (div_pos_iff_of_pos_right hpow).1 h
  · exact ⟨div_one _, h, zero_lt_one⟩

lemma directed_eq (h : 0 < tick.value) (price : ℚ) (up : Bool) :
    directed price tick up = wholeUnits (price / tick.value) up * tick.value := by
  obtain ⟨hdiv, hnum, hden⟩ := incrementFraction_div h
  have hunits : price * (incrementFraction tick).2 / (incrementFraction tick).1 =
      price / tick.value := by
    rw [← hdiv]
    field_simp
  rw [directed, if_neg h.not_ge]
  dsimp only
  rw [hunits, mul_div_assoc, hdiv]

@[simp] lemma wholeUnits_intCast (k : ℤ) (up : Bool) : wholeUnits k up = k := by
  cases up with
  | true =>
      refine Int.ceil_eq_iff.2 ⟨?_, ?_⟩ <;> norm_num
  | false =>
      refine Int.floor_eq_iff.2 ⟨?_, ?_⟩ <;> norm_num

lemma wholeUnits_close (u : ℚ) (up : Bool) :
    u - 1 < wholeUnits u up ∧ (wholeUnits u up : ℚ) < u + 1 := by
  cases up with
  | true =>
      have hle := Int.le_ceil (u - 1 / 10 ^ 9)
      have hlt := Int.ceil_lt_add_one (u - 1 / 10 ^ 9)
      rw [wholeUnits, if_pos rfl]
      constructor <;> norm_num at hle hlt ⊢ <;> linarith
  | false =>
      have hle := Int.floor_le (u + 1 / 10 ^ 9)
      have hlt := Int.lt_floor_add_one (u + 1 / 10 ^ 9)
      rw [wholeUnits, if_neg Bool.false_ne_true]
      constructor <;> norm_num at hle ⊢ <;> linarith

lemma directed_of_multiple (h : 0 < tick.value) (hm : Multiple tick price) :
    directed price tick up = price := by
  obtain ⟨k, rfl⟩ := hm
  rw [directed_eq h, mul_div_cancel_right₀ _ h.ne', wholeUnits_intCast]

lemma nearestOf_of_multiple (h : 0 < tick.value) (hm : Multiple tick price) :
    nearestOf price tick = price := by
  rw [nearestOf]
  simp only [directed_of_multiple h hm, ite_self]

lemma isLeast_directed (h : 0 < tick.value) (price : ℚ) :
    IsLeast {x | Multiple tick x ∧ price - tick.value / 10 ^ 9 ≤ x} (directed price tick true) := by
  have hunits : (price - tick.value / 10 ^ 9) / tick.value = price / tick.value - 1 / 10 ^ 9 := by
    field_simp
  have hiff (k : ℤ) : price - tick.value / 10 ^ 9 ≤ k * tick.value ↔
      wholeUnits (price / tick.value) true ≤ k := by
    rw [← div_le_iff₀ h, hunits, wholeUnits, if_pos rfl, Int.ceil_le]
  rw [directed_eq h]
  refine ⟨⟨⟨_, rfl⟩, (hiff _).2 le_rfl⟩, ?_⟩
  rintro x ⟨⟨k, rfl⟩, hx⟩
  exact mul_le_mul_of_nonneg_right (Int.cast_le.2 ((hiff k).1 hx)) h.le

lemma isGreatest_directed (h : 0 < tick.value) (price : ℚ) :
    IsGreatest {x | Multiple tick x ∧ x ≤ price + tick.value / 10 ^ 9}
      (directed price tick false) := by
  have hunits : (price + tick.value / 10 ^ 9) / tick.value = price / tick.value + 1 / 10 ^ 9 := by
    field_simp
  have hiff (k : ℤ) : k * tick.value ≤ price + tick.value / 10 ^ 9 ↔
      k ≤ wholeUnits (price / tick.value) false := by
    rw [← le_div_iff₀ h, hunits, wholeUnits, if_neg Bool.false_ne_true, Int.le_floor]
  rw [directed_eq h]
  refine ⟨⟨⟨_, rfl⟩, (hiff _).2 le_rfl⟩, ?_⟩
  rintro x ⟨⟨k, rfl⟩, hx⟩
  exact mul_le_mul_of_nonneg_right (Int.cast_le.2 ((hiff k).1 hx)) h.le

lemma directed_cases (h : 0 < tick.value) (price : ℚ) :
    (directed price tick true = directed price tick false ∧
        |directed price tick true - price| ≤ tick.value / 10 ^ 9) ∨
      (directed price tick false < price ∧ price < directed price tick true ∧
        directed price tick true = directed price tick false + tick.value) := by
  have hup := Int.le_ceil (price / tick.value - 1 / 10 ^ 9)
  have hup' := Int.ceil_lt_add_one (price / tick.value - 1 / 10 ^ 9)
  have hdown := Int.floor_le (price / tick.value + 1 / 10 ^ 9)
  have hdown' := Int.lt_floor_add_one (price / tick.value + 1 / 10 ^ 9)
  have hprice : price = price / tick.value * tick.value := (div_mul_cancel₀ _ h.ne').symm
  rw [directed_eq h, directed_eq h, wholeUnits, wholeUnits, if_pos rfl, if_neg Bool.false_ne_true]
  generalize hu : price / tick.value = u at hup hup' hdown hdown' hprice ⊢
  generalize hn : ⌈u - 1 / 10 ^ 9⌉ = n at hup hup' ⊢
  generalize hm : ⌊u + 1 / 10 ^ 9⌋ = m at hdown hdown' ⊢
  have hle : m ≤ n := by
    have hlt : (m : ℚ) < n + 1 := by
      norm_num at hup hdown
      linarith
    exact Int.lt_add_one_iff.1 (by exact_mod_cast hlt)
  have hge : n ≤ m + 1 := by
    have hlt : (n : ℚ) < m + 1 + 1 := by
      norm_num at hup' hdown'
      linarith
    exact Int.lt_add_one_iff.1 (by exact_mod_cast hlt)
  rcases hle.eq_or_lt with rfl | hlt
  · refine .inl ⟨rfl, ?_⟩
    have hfactor : (m : ℚ) * tick.value - price = (m - u) * tick.value := by
      rw [hprice]
      ring
    rw [hfactor, abs_mul, abs_of_pos h, div_eq_inv_mul, inv_eq_one_div]
    refine mul_le_mul_of_nonneg_right (abs_le.2 ⟨?_, ?_⟩) h.le <;> linarith
  · obtain rfl : n = m + 1 := le_antisymm hge hlt
    push_cast at hup' hup ⊢
    refine .inr ⟨?_, ?_, by ring⟩
    · rw [hprice]
      refine mul_lt_mul_of_pos_right ?_ h
      norm_num at hup'
      linarith
    · rw [hprice]
      refine mul_lt_mul_of_pos_right ?_ h
      norm_num at hdown'
      linarith

lemma Multiple.apart {x y : ℚ} (h : 0 < tick.value) (hx : Multiple tick x) (hy : Multiple tick y) :
    x = y ∨ x + tick.value ≤ y ∨ y + tick.value ≤ x := by
  obtain ⟨k, rfl⟩ := hx
  obtain ⟨j, rfl⟩ := hy
  rcases lt_trichotomy k j with hlt | rfl | hgt
  · have hle : (k : ℚ) + 1 ≤ j := by exact_mod_cast hlt
    exact .inr (.inl (by nlinarith))
  · exact .inl rfl
  · have hle : (j : ℚ) + 1 ≤ k := by exact_mod_cast hgt
    exact .inr (.inr (by nlinarith))

lemma multiple_directed (h : 0 < tick.value) (price : ℚ) (up : Bool) :
    Multiple tick (directed price tick up) := ⟨_, directed_eq h price up⟩

lemma nearestOf_cases (price : ℚ) (tick : Printed) :
    nearestOf price tick = directed price tick true ∨
      nearestOf price tick = directed price tick false := by
  rw [nearestOf]
  split
  · exact .inl rfl
  · exact .inr rfl

lemma nearestOf_le (h : 0 < tick.value) (hpos : 0 < price) {x : ℚ} (hx : Multiple tick x) :
    |nearestOf price tick - price| ≤ |x - price| := by
  rcases directed_cases h price with ⟨hone, hclose⟩ | ⟨hdown, hup, hnext⟩
  · have hnear : nearestOf price tick = directed price tick true := by
      rcases nearestOf_cases price tick with hcase | hcase
      · exact hcase
      · rw [hcase, hone]
    rw [hnear]
    have hsmall : tick.value / 10 ^ 9 ≤ tick.value / 2 := by
      apply div_le_div_of_nonneg_left h.le <;> norm_num
    have hbounds := abs_le.1 hclose
    rcases hx.apart h (multiple_directed h price true) with heq | hlt | hgt
    · rw [heq]
    · refine hclose.trans ((hsmall.trans ?_).trans (neg_le_abs _))
      linarith
    · refine hclose.trans ((hsmall.trans ?_).trans (le_abs_self _))
      linarith
  · -- the price stands between the two, and no whole number of increments does
    have hside : x ≤ directed price tick false ∨ directed price tick true ≤ x := by
      rcases hx.apart h (multiple_directed h price false) with heq | hlt | hgt
      · exact .inl heq.le
      · exact .inl (by linarith)
      · exact .inr (by linarith)
    have hnear : |nearestOf price tick - price| ≤ directed price tick true - price ∧
        |nearestOf price tick - price| ≤ price - directed price tick false := by
      rw [nearestOf, abs_of_pos hpos]
      split
      case isTrue hmid =>
        rw [abs_of_pos (sub_pos.2 hup)]
        constructor <;> linarith
      case isFalse hmid =>
        rw [abs_of_neg (sub_neg.2 hdown)]
        constructor <;> linarith
    rcases hside with hle | hge
    · refine hnear.2.trans (le_trans ?_ (neg_le_abs _))
      linarith
    · refine hnear.1.trans (le_trans ?_ (le_abs_self _))
      linarith

lemma nearestOf_of_neg (h : 0 < tick.value) (hneg : price < 0) :
    nearestOf price tick = directed price tick true := by
  rcases directed_cases h price with ⟨hone, -⟩ | ⟨hdown, -, hnext⟩
  · rcases nearestOf_cases price tick with hcase | hcase
    · exact hcase
    · rw [hcase, hone]
  · have hzero : Multiple tick 0 := ⟨0, by simp⟩
    have hle : directed price tick true ≤ 0 := by
      rcases (multiple_directed h price false).apart h hzero with heq | hlt | hgt <;> linarith
    rw [nearestOf]
    rw [if_pos]
    exact le_trans (by linarith) (abs_nonneg price)

lemma directed_near (h : 0 < tick.value) (price : ℚ) (up : Bool) :
    |directed price tick up - price| < tick.value := by
  obtain ⟨hlo, hhi⟩ := wholeUnits_close (price / tick.value) up
  have hprice : price = price / tick.value * tick.value := (div_mul_cancel₀ _ h.ne').symm
  rw [directed_eq h]
  conv_lhs => rw [hprice, mul_div_cancel_right₀ _ h.ne', ← sub_mul, abs_mul, abs_of_pos h]
  have hlt : |(wholeUnits (price / tick.value) up : ℚ) - price / tick.value| < 1 :=
    abs_lt.2 ⟨by linarith, by linarith⟩
  calc _ < 1 * tick.value := mul_lt_mul_of_pos_right hlt h
    _ = tick.value := one_mul _

end

/-! ## The band a price stands in -/

/-- A band of the rule, the ones in front of it and those behind: the last the price reaches, or
the first where it reaches none. -/
structure Band (steps : List PriceIncrement) (price : ℚ) (towardZero : Bool)
    (front : List PriceIncrement) (s : PriceIncrement) (back : List PriceIncrement) : Prop where
  split : steps = front ++ s :: back
  here : front = [] ∨ reaches price towardZero s.lowEdge
  behind : ∀ b ∈ back, ¬ reaches price towardZero b.lowEdge

section

variable {rule : MarketRule} {steps front back : List PriceIncrement} {s : PriceIncrement}
  {price : ℚ} {towardZero : Bool}

lemma exists_band (h : steps ≠ []) (price : ℚ) (towardZero : Bool) :
    ∃ front s back, Band steps price towardZero front s back := by
  induction steps using List.reverseRecOn with
  | nil => exact absurd rfl h
  | append_singleton init last ih =>
      by_cases hlast : reaches price towardZero last.lowEdge
      · exact ⟨init, last, [], rfl, .inr hlast, fun b hb => absurd hb List.not_mem_nil⟩
      · by_cases hinit : init = []
        · subst hinit
          exact ⟨[], last, [], rfl, .inl rfl, fun b hb => absurd hb List.not_mem_nil⟩
        · obtain ⟨front, s, back, hsplit, hhere, hbehind⟩ := ih hinit
          refine ⟨front, s, back ++ [last], ?_, hhere, ?_⟩
          · rw [hsplit, List.append_assoc, List.cons_append]
          · rintro b hb hreach
            rcases List.mem_append.1 hb with hb | hb
            · exact hbehind b hb hreach
            · exact hlast (List.mem_singleton.1 hb ▸ hreach)

lemma Band.increment_eq (h : Band rule.priceIncrements price towardZero front s back) :
    rule.increment price towardZero = some s.increment := by
  have hback : (back.zipIdx (front.length + 1)).reverse.find? (fun entry : PriceIncrement × ℕ =>
      decide (entry.2 = 0 ∨ reaches price towardZero entry.1.lowEdge)) = none := by
    rw [List.find?_eq_none]
    rintro ⟨b, i⟩ hmem
    rw [List.mem_reverse] at hmem
    have hb : b ∈ back := List.fst_mem_of_mem_zipIdx hmem
    have hi : front.length + 1 ≤ i := List.le_snd_of_mem_zipIdx hmem
    rw [decide_eq_true_eq]
    rintro (hzero | hreach)
    · exact absurd hzero (by simp only; omega)
    · exact h.behind b hb hreach
  have hown : ((s, front.length) :: front.zipIdx.reverse).find?
      (fun entry : PriceIncrement × ℕ =>
        decide (entry.2 = 0 ∨ reaches price towardZero entry.1.lowEdge)) =
      some (s, front.length) := by
    refine List.find?_cons_of_pos ?_
    rw [decide_eq_true_eq]
    rcases h.here with rfl | hreach
    · exact .inl rfl
    · exact .inr hreach
  rw [MarketRule.increment, h.split, List.zipIdx_append, Nat.zero_add, List.zipIdx_cons,
    List.reverse_append, List.reverse_cons, List.append_assoc, List.find?_append, hback,
    Option.none_or, List.singleton_append, hown]
  rfl

/-! ## The ladder's edges -/

lemma Laddered.ne_nil (h : Laddered steps) : steps ≠ [] := by
  rintro rfl
  exact absurd h.starts (by simp)

lemma Laddered.front_edge (h : Laddered (s :: back)) : s.lowEdge = 0 := by
  have hstarts := h.starts
  rw [List.head?_cons, Option.map_some] at hstarts
  exact Option.some.inj hstarts

lemma Laddered.mem_positive (h : Laddered (front ++ s :: back)) : 0 < s.increment.value :=
  h.positive s (List.mem_append_right _ List.mem_cons_self)

variable {b : PriceIncrement}

lemma Laddered.edge_lt (h : Laddered (front ++ s :: back)) (hb : b ∈ back) :
    s.lowEdge < b.lowEdge :=
  List.rel_of_pairwise_cons (List.pairwise_append.1 h.ascending).2.1 hb

lemma Laddered.next (h : Laddered (front ++ s :: back))
    {rest : List PriceIncrement} (hback : back = b :: rest) :
    Multiple s.increment b.lowEdge ∧ Multiple b.increment b.lowEdge := by
  subst hback
  exact (List.isChain_append.1 h.whole).2.1.rel

lemma Laddered.edge_multiple (h : Laddered (front ++ s :: back)) :
    Multiple s.increment s.lowEdge := by
  rcases List.eq_nil_or_concat front with rfl | ⟨init, last, rfl⟩
  · rw [List.nil_append] at h
    exact ⟨0, by rw [h.front_edge]; simp⟩
  · rw [List.concat_eq_append, List.append_assoc, List.singleton_append] at h
    exact (h.next rfl).2

lemma Laddered.edge_nonneg (h : Laddered (front ++ s :: back)) :
    0 ≤ s.lowEdge ∧ (front = [] → s.lowEdge = 0) := by
  cases front with
  | nil =>
      rw [List.nil_append] at h
      exact ⟨h.front_edge.ge, fun _ => h.front_edge⟩
  | cons f front =>
      have hfirst : f.lowEdge = 0 := by
        rw [List.cons_append] at h
        exact h.front_edge
      have hladder : Laddered ([] ++ f :: (front ++ s :: back)) := h
      have hlt : f.lowEdge < s.lowEdge :=
        hladder.edge_lt (List.mem_append_right _ List.mem_cons_self)
      exact ⟨hfirst ▸ hlt.le, fun hnil => absurd hnil (List.cons_ne_nil _ _)⟩

lemma onLadder_of_within (h : Laddered rule.priceIncrements)
    (hsplit : rule.priceIncrements = front ++ s :: back) (hlow : s.lowEdge ≤ |price|)
    (hhigh : ∀ b ∈ back, |price| ≤ b.lowEdge) (hm : Multiple s.increment price) :
    OnLadder rule price := by
  have hladder := h
  rw [hsplit] at hladder
  have hinside (hbelow : ∀ b ∈ back, |price| < b.lowEdge) : OnLadder rule price := by
    have hband : Band rule.priceIncrements price false front s back :=
      ⟨hsplit, .inr hlow, fun b hb => not_le.2 (hbelow b hb)⟩
    exact ⟨s.increment, hband.increment_eq, hm⟩
  cases back with
  | nil => exact hinside fun b hb => absurd hb List.not_mem_nil
  | cons b rest =>
      rcases (hhigh b List.mem_cons_self).eq_or_lt with heq | hlt
      · -- at the next edge the next band's increment counts, and measures the edge as well
        have hsplit' : rule.priceIncrements = (front ++ [s]) ++ b :: rest := by
          rw [hsplit, List.append_assoc, List.singleton_append]
        have hladder' := h
        rw [hsplit'] at hladder'
        have hband : Band rule.priceIncrements price false (front ++ [s]) b rest :=
          ⟨hsplit', .inr heq.ge, fun c hc => not_le.2 (heq ▸ hladder'.edge_lt hc)⟩
        refine ⟨b.increment, hband.increment_eq, ?_⟩
        obtain ⟨k, hk⟩ := hladder'.edge_multiple
        rcases abs_choice price with habs | habs
        · exact ⟨k, by rw [← hk, ← heq, habs]⟩
        · refine ⟨-k, ?_⟩
          rw [Int.cast_neg, neg_mul, ← hk, ← heq, habs, neg_neg]
      · refine hinside fun c hc => ?_
        rcases List.mem_cons.1 hc with rfl | hc
        · exact hlt
        · have hladder' := hladder
          rw [show front ++ s :: b :: rest = (front ++ [s]) ++ b :: rest by
            rw [List.append_assoc, List.singleton_append]] at hladder'
          exact hlt.trans (hladder'.edge_lt hc)

lemma Laddered.le_back {rest : List PriceIncrement}
    (h : Laddered (front ++ s :: b :: rest)) {m : ℚ} (hm : m ≤ b.lowEdge) :
    ∀ c ∈ b :: rest, m ≤ c.lowEdge := by
  rw [show front ++ s :: b :: rest = (front ++ [s]) ++ b :: rest by
    rw [List.append_assoc, List.singleton_append]] at h
  intro c hc
  rcases List.mem_cons.1 hc with rfl | hc
  · exact hm
  · exact hm.trans (h.edge_lt hc).le

lemma up_of_onLadder (h : Laddered rule.priceIncrements) {m : ℚ} (hm : 0 ≤ m)
    (hon : OnLadder rule m) : ∃ tick, rule.increment m false = some tick ∧ 0 < tick.value ∧
      Multiple tick m ∧ OnLadder rule (m + tick.value) ∧
      rule.increment (m + tick.value) true = some tick := by
  obtain ⟨front, s, back, hband⟩ := exists_band h.ne_nil m false
  obtain ⟨tick, htick, hmult⟩ := hon
  rw [hband.increment_eq] at htick
  obtain rfl := Option.some.inj htick
  have hladder := h
  rw [hband.split] at hladder
  have hpos := hladder.mem_positive
  have hlow : s.lowEdge ≤ m := by
    rcases hband.here with hnil | hreach
    · exact (hladder.edge_nonneg.2 hnil).le.trans hm
    · simpa [reaches, abs_of_nonneg hm] using hreach
  have habs : |m + s.increment.value| = m + s.increment.value :=
    abs_of_nonneg (by linarith)
  have hhigh : ∀ b ∈ back, m + s.increment.value ≤ b.lowEdge := by
    cases hback : back with
    | nil => exact fun b hb => absurd hb List.not_mem_nil
    | cons b rest =>
        subst hback
        have hlt : m < b.lowEdge := by
          have hnot := hband.behind b List.mem_cons_self
          simpa [reaches, abs_of_nonneg hm] using hnot
        refine hladder.le_back ?_
        rcases hmult.apart hpos (hladder.next rfl).1 with heq | hle | hge <;> linarith
  have hmult' : Multiple s.increment (m + s.increment.value) := by
    obtain ⟨k, hk⟩ := hmult
    refine ⟨k + 1, ?_⟩
    push_cast
    rw [add_mul, one_mul, ← hk]
  have hback : Band rule.priceIncrements (m + s.increment.value) true front s back := by
    refine ⟨hband.split, .inr ?_, fun b hb => ?_⟩
    · rw [reaches, if_pos rfl, habs]
      linarith
    · rw [reaches, if_pos rfl, habs]
      exact not_lt.2 (hhigh b hb)
  refine ⟨s.increment, hband.increment_eq, hpos, hmult, ?_, hback.increment_eq⟩
  exact onLadder_of_within h hband.split (by rw [habs]; linarith)
    (fun b hb => by rw [habs]; exact hhigh b hb) hmult'

lemma down_of_onLadder (h : Laddered rule.priceIncrements) {m : ℚ} (hm : 0 < m)
    (hon : OnLadder rule m) : ∃ tick, rule.increment m true = some tick ∧ 0 < tick.value ∧
      Multiple tick m ∧ 0 ≤ m - tick.value ∧ OnLadder rule (m - tick.value) ∧
      rule.increment (m - tick.value) false = some tick := by
  obtain ⟨front, s, back, hband⟩ := exists_band h.ne_nil m true
  have hladder := h
  rw [hband.split] at hladder
  have hpos := hladder.mem_positive
  have hlow : s.lowEdge < m := by
    rcases hband.here with hnil | hreach
    · exact (hladder.edge_nonneg.2 hnil).le.trans_lt hm
    · simpa [reaches, abs_of_pos hm] using hreach
  have hhigh : ∀ b ∈ back, m ≤ b.lowEdge := fun b hb => by
    simpa [reaches, abs_of_pos hm] using hband.behind b hb
  have hmult : Multiple s.increment m := by
    have hinside (hbelow : ∀ b ∈ back, m < b.lowEdge) : Multiple s.increment m := by
      have hband' : Band rule.priceIncrements m false front s back := by
        refine ⟨hband.split, .inr ?_, fun b hb => ?_⟩
        · simpa [reaches, abs_of_pos hm] using hlow.le
        · simpa [reaches, abs_of_pos hm] using hbelow b hb
      obtain ⟨tick, htick, hmult⟩ := hon
      rw [hband'.increment_eq] at htick
      rwa [← Option.some.inj htick] at hmult
    cases hback : back with
    | nil => exact hinside fun b hb => absurd hb (by rw [hback]; exact List.not_mem_nil)
    | cons b rest =>
        subst hback
        rcases (hhigh b List.mem_cons_self).eq_or_lt with heq | hlt
        · rw [heq]
          exact (hladder.next rfl).1
        · refine hinside fun c hc => ?_
          rcases List.mem_cons.1 hc with rfl | hc'
          · exact hlt
          · rw [show front ++ s :: b :: rest = (front ++ [s]) ++ b :: rest by
              rw [List.append_assoc, List.singleton_append]] at hladder
            exact hlt.trans (hladder.edge_lt hc')
  have hedge : s.lowEdge ≤ m - s.increment.value := by
    rcases hmult.apart hpos hladder.edge_multiple with heq | hle | hge <;> linarith
  have hnonneg : 0 ≤ m - s.increment.value := hladder.edge_nonneg.1.trans hedge
  have habs : |m - s.increment.value| = m - s.increment.value := abs_of_nonneg hnonneg
  have hband' : Band rule.priceIncrements (m - s.increment.value) false front s back := by
    refine ⟨hband.split, .inr ?_, fun b hb => ?_⟩
    · rw [reaches, if_neg Bool.false_ne_true, habs]
      exact hedge
    · rw [reaches, if_neg Bool.false_ne_true, habs, not_le]
      linarith [hhigh b hb]
  have hmult' : Multiple s.increment (m - s.increment.value) := by
    obtain ⟨k, hk⟩ := hmult
    refine ⟨k - 1, ?_⟩
    push_cast
    rw [sub_mul, one_mul, ← hk]
  exact ⟨s.increment, hband.increment_eq, hpos, hmult, hnonneg,
    ⟨s.increment, hband'.increment_eq, hmult'⟩, hband'.increment_eq⟩

/-! ## One step, as a permutation of the ladder -/

lemma increment_neg (rule : MarketRule) (price : ℚ) (towardZero : Bool) :
    rule.increment (-price) towardZero = rule.increment price towardZero := by
  rw [MarketRule.increment, MarketRule.increment]
  congr 2
  funext entry
  exact decide_eq_decide.2 (by rw [reaches, reaches, abs_neg])

lemma Multiple.neg {tick : Printed} {x : ℚ} (h : Multiple tick x) : Multiple tick (-x) := by
  obtain ⟨k, rfl⟩ := h
  exact ⟨-k, by push_cast; ring⟩

variable {p : ℚ}

lemma OnLadder.neg (h : OnLadder rule p) : OnLadder rule (-p) := by
  obtain ⟨tick, htick, hmult⟩ := h
  exact ⟨tick, by rw [increment_neg, htick], hmult.neg⟩

/-- One step up: the increment behind the price where it stands below nought. -/
def MarketRule.next (rule : MarketRule) (p : ℚ) : ℚ :=
  p + ((rule.increment p (decide (p < 0))).map Printed.value).getD 0

def MarketRule.prev (rule : MarketRule) (p : ℚ) : ℚ := -rule.next (-p)

lemma next_spec (h : Laddered rule.priceIncrements) (hon : OnLadder rule p) :
    ∃ tick, rule.increment p (decide (p < 0)) = some tick ∧ 0 < tick.value ∧ Multiple tick p ∧
      rule.next p = p + tick.value ∧ OnLadder rule (rule.next p) ∧
      rule.increment (rule.next p) (decide (0 < rule.next p)) = some tick ∧
      (p < 0 → rule.next p ≤ 0) := by
  rcases lt_or_ge p 0 with hneg | hpos
  · obtain ⟨tick, htick, hval, hmult, hnonneg, hon', hback⟩ :=
      down_of_onLadder h (neg_pos.2 hneg) hon.neg
    rw [increment_neg] at htick
    have hnext : rule.next p = p + tick.value := by
      rw [MarketRule.next, decide_eq_true hneg, htick]
      rfl
    have hflip : -p - tick.value = -rule.next p := by
      rw [hnext]
      ring
    rw [hflip] at hnonneg hon' hback
    rw [increment_neg] at hback
    have hle : rule.next p ≤ 0 := neg_nonneg.1 hnonneg
    refine ⟨tick, by rw [decide_eq_true hneg, htick], hval, neg_neg p ▸ hmult.neg, hnext,
      neg_neg (rule.next p) ▸ hon'.neg, ?_, fun _ => hle⟩
    rw [decide_eq_false hle.not_gt, hback]
  · obtain ⟨tick, htick, hval, hmult, hon', hback⟩ := up_of_onLadder h hpos hon
    have hnext : rule.next p = p + tick.value := by
      rw [MarketRule.next, decide_eq_false hpos.not_gt, htick]
      rfl
    rw [← hnext] at hon' hback
    refine ⟨tick, by rw [decide_eq_false hpos.not_gt, htick], hval, hmult, hnext, hon', ?_,
      fun hneg => absurd hneg hpos.not_gt⟩
    have hgt : 0 < rule.next p := by
      rw [hnext]
      linarith
    rw [decide_eq_true hgt, hback]

lemma OnLadder.next (h : Laddered rule.priceIncrements) (hon : OnLadder rule p) :
    OnLadder rule (rule.next p) := by
  obtain ⟨tick, -, -, -, -, hon', -⟩ := next_spec h hon
  exact hon'

lemma OnLadder.prev (h : Laddered rule.priceIncrements) (hon : OnLadder rule p) :
    OnLadder rule (rule.prev p) := (hon.neg.next h).neg

lemma prev_next (h : Laddered rule.priceIncrements) (hon : OnLadder rule p) :
    rule.prev (rule.next p) = p := by
  obtain ⟨tick, -, -, -, hnext, -, hback, -⟩ := next_spec h hon
  have hsign : decide (-rule.next p < 0) = decide (0 < rule.next p) := by
    simp only [Left.neg_neg_iff]
  rw [MarketRule.prev, MarketRule.next, hsign, increment_neg, hback, Option.map_some,
    Option.getD_some, hnext]
  ring

lemma next_prev (h : Laddered rule.priceIncrements) (hon : OnLadder rule p) :
    rule.next (rule.prev p) = p := by
  have hback := prev_next h hon.neg
  rw [MarketRule.prev] at hback
  rw [MarketRule.prev, ← neg_neg (rule.next _), hback, neg_neg]

abbrev Ladder (rule : MarketRule) : Type := {p : ℚ // OnLadder rule p}

/-- **One step up**, as a permutation of the ladder. -/
def Ladder.step (h : Laddered rule.priceIncrements) : Equiv.Perm (Ladder rule) where
  toFun p := ⟨rule.next p, p.2.next h⟩
  invFun p := ⟨rule.prev p, p.2.prev h⟩
  left_inv p := Subtype.ext (prev_next h p.2)
  right_inv p := Subtype.ext (next_prev h p.2)

lemma Ladder.lt_step (h : Laddered rule.priceIncrements) (p : Ladder rule) :
    p.1 < (Ladder.step h p).1 := by
  obtain ⟨tick, -, hval, -, hnext, -, -⟩ := next_spec h p.2
  show p.1 < rule.next p.1
  rw [hnext]
  linarith

/-! ## Rounding to the ladder -/

lemma exists_tick (h : Laddered rule.priceIncrements) (price : ℚ) :
    ∃ s ∈ rule.priceIncrements, rule.increment price false = some s.increment ∧
      0 < s.increment.value ∧ s.lowEdge ≤ |price| ∧
      ∀ b ∈ rule.priceIncrements, b.lowEdge ≤ |price| → b.lowEdge ≤ s.lowEdge := by
  obtain ⟨front, s, back, hband⟩ := exists_band h.ne_nil price false
  have hladder := h
  rw [hband.split] at hladder
  refine ⟨s, ?_, hband.increment_eq, hladder.mem_positive, ?_, ?_⟩
  · rw [hband.split]
    exact List.mem_append_right _ List.mem_cons_self
  · rcases hband.here with hnil | hreach
    · exact (hladder.edge_nonneg.2 hnil).le.trans (abs_nonneg price)
    · simpa [reaches] using hreach
  · intro b hb hle
    rw [hband.split] at hb
    rcases List.mem_append.1 hb with hb | hb
    · exact ((List.pairwise_append.1 hladder.ascending).2.2 b hb s List.mem_cons_self).le
    · rcases List.mem_cons.1 hb with rfl | hb
      · exact le_rfl
      · exact absurd (show reaches price false b.lowEdge by simpa [reaches] using hle)
          (hband.behind b hb)

lemma onLadder_of_near (h : Laddered rule.priceIncrements) {x : ℚ} {tick : Printed}
    (htick : rule.increment price false = some tick) (hm : Multiple tick x)
    (hnear : |x - price| < tick.value) : OnLadder rule x := by
  obtain ⟨front, s, back, hband⟩ := exists_band h.ne_nil price false
  have hladder := h
  rw [hband.split] at hladder
  rw [hband.increment_eq] at htick
  obtain rfl := Option.some.inj htick
  have hpos := hladder.mem_positive
  have hgap : |(|x| - |price|)| < s.increment.value := (abs_abs_sub_abs_le x price).trans_lt hnear
  obtain ⟨hgapl, hgaph⟩ := abs_lt.1 hgap
  have habs : Multiple s.increment |x| := by
    rcases abs_choice x with hx | hx
    · rwa [hx]
    · rw [hx]
      exact hm.neg
  refine onLadder_of_within h hband.split ?_ ?_ hm
  · have hlow : s.lowEdge ≤ |price| := by
      rcases hband.here with hnil | hreach
      · exact (hladder.edge_nonneg.2 hnil).le.trans (abs_nonneg price)
      · simpa [reaches] using hreach
    rcases habs.apart hpos hladder.edge_multiple with heq | hle | hge
    · exact heq.ge
    · linarith
    · linarith
  · cases hback : back with
    | nil => exact fun b hb => absurd hb List.not_mem_nil
    | cons b rest =>
        subst hback
        have hlt : |price| < b.lowEdge := by
          simpa [reaches] using hband.behind b List.mem_cons_self
        refine hladder.le_back ?_
        rcases habs.apart hpos (hladder.next rfl).1 with heq | hle | hge <;> linarith

lemma round_of_onLadder (h : Laddered rule.priceIncrements) (hon : OnLadder rule p)
    (up : Bool) : rule.round p up = p ∧ rule.nearest p = p := by
  obtain ⟨s, -, hs, hpos, -⟩ := exists_tick h p
  obtain ⟨tick, htick, hmult⟩ := hon
  obtain rfl : tick = s.increment := Option.some.inj (htick.symm.trans hs)
  rw [MarketRule.round, MarketRule.nearest, htick]
  simp only [Option.map_some, Option.getD_some, directed_of_multiple hpos hmult,
    nearestOf_of_multiple hpos hmult, ite_self, and_self]

/-! ## The code's steps -/

def signOf (up : Bool) : ℚ := if up then 1 else -1

def MarketRule.move (rule : MarketRule) (up : Bool) (p : ℚ) : ℚ :=
  if up then rule.next p else rule.prev p

lemma move_neg (up : Bool) (p : ℚ) : rule.move (!up) (-p) = -rule.move up p := by
  cases up with
  | true =>
      show rule.prev (-p) = -rule.next p
      rw [MarketRule.prev, neg_neg]
  | false =>
      show rule.next (-p) = -rule.prev p
      rw [MarketRule.prev, neg_neg]

lemma step_eq (h : Laddered rule.priceIncrements) (hon : OnLadder rule p) (up : Bool) :
    ∃ tick, rule.increment p (decide (0 < p ∧ signOf up < 0 ∨ p < 0 ∧ 0 < signOf up)) = some tick ∧
      nearestOf (p + signOf up * tick.value) tick = rule.move up p ∧
      OnLadder rule (rule.move up p) ∧
      (p ≠ 0 → rule.move up p ≠ 0 → SignType.sign p = SignType.sign (rule.move up p)) := by
  cases up with
  | true =>
      obtain ⟨tick, htick, hval, hmult, hnext, hon', -, hneg⟩ := next_spec h hon
      have htoward : decide (0 < p ∧ signOf true < 0 ∨ p < 0 ∧ 0 < signOf true) =
          decide (p < 0) := by
        simp [signOf]
      have hmult' : Multiple tick (p + tick.value) := by
        obtain ⟨k, hk⟩ := hmult
        exact ⟨k + 1, by push_cast; rw [add_mul, one_mul, ← hk]⟩
      refine ⟨tick, by rw [htoward, htick], ?_, hon', fun hp hm => ?_⟩
      · show nearestOf (p + 1 * tick.value) tick = rule.next p
        rw [one_mul, nearestOf_of_multiple hval hmult', hnext]
      · show SignType.sign p = SignType.sign (rule.next p)
        rcases lt_or_gt_of_ne hp with hlt | hgt
        · rw [sign_neg hlt, sign_neg (lt_of_le_of_ne (hneg hlt) hm)]
        · rw [sign_pos hgt, sign_pos (by rw [hnext]; linarith)]
  | false =>
      obtain ⟨tick, htick, hval, hmult, hnext, hon', -, hneg⟩ := next_spec h hon.neg
      have htoward : decide (0 < p ∧ signOf false < 0 ∨ p < 0 ∧ 0 < signOf false) =
          decide (-p < 0) := by
        simp [signOf]
      have hprev : rule.prev p = p - tick.value := by
        rw [MarketRule.prev, hnext]
        ring
      have hmult' : Multiple tick (p - tick.value) := by
        obtain ⟨k, hk⟩ := hmult
        refine ⟨-k - 1, ?_⟩
        push_cast
        rw [sub_mul, neg_mul, ← hk, one_mul, neg_neg]
      refine ⟨tick, by rw [htoward, ← increment_neg, htick], ?_, hon'.neg, fun hp hm => ?_⟩
      · show nearestOf (p + -1 * tick.value) tick = rule.prev p
        rw [neg_one_mul, ← sub_eq_add_neg, nearestOf_of_multiple hval hmult', hprev]
      · show SignType.sign p = SignType.sign (rule.prev p)
        have hm' : rule.prev p ≠ 0 := hm
        rcases lt_or_gt_of_ne hp with hlt | hgt
        · rw [sign_neg hlt, sign_neg (by rw [hprev]; linarith)]
        · have hge : 0 ≤ rule.prev p := neg_nonneg.2 (hneg (neg_lt_zero.2 hgt))
          rw [sign_pos hgt, sign_pos (lt_of_le_of_ne hge hm'.symm)]

/-- What the loop's state stands for: once it has turned round at nought, the price's mirror. -/
def Stands (rule : MarketRule) (up : Bool) (w : MarketRule.Walk) (p : ℚ) : Prop :=
  OnLadder rule p ∧
    ((w.crossedZero = false ∧ w.price = p ∧ w.direction = signOf up) ∨
      (w.crossedZero = true ∧ w.price = -p ∧ w.direction = signOf !up))

lemma Stands.tickOnce (h : Laddered rule.priceIncrements) {up : Bool} {w : MarketRule.Walk}
    (hw : Stands rule up w p) : Stands rule up (rule.tickOnce w) (rule.move up p) := by
  obtain ⟨hon, hw⟩ := hw
  obtain ⟨price, direction, crossed⟩ := w
  have hflip : -signOf up = signOf !up := by cases up <;> simp [signOf]
  rcases hw with ⟨rfl, rfl, rfl⟩ | ⟨rfl, rfl, rfl⟩
  · obtain ⟨tick, htick, hprice, hon', hsign⟩ := step_eq h hon up
    refine ⟨hon', ?_⟩
    rw [MarketRule.tickOnce]
    simp only [htick, hprice]
    split
    case isTrue hcross =>
      -- the loop turns round exactly at nought
      have hzero : rule.move up price = 0 := by
        by_contra hne
        rcases hcross.2.1 with hz | hs
        · exact hne hz
        · exact hs (hsign hcross.1 hne)
      exact .inr ⟨rfl, by rw [hzero, neg_zero], hflip⟩
    case isFalse hstay => exact .inl ⟨rfl, rfl, rfl⟩
  · obtain ⟨tick, htick, hprice, hon', -⟩ := step_eq h hon.neg (!up)
    rw [move_neg] at hprice hon'
    refine ⟨neg_neg (rule.move up p) ▸ hon'.neg, ?_⟩
    rw [MarketRule.tickOnce]
    simp only [htick, hprice]
    split
    case isTrue hcross => exact absurd hcross.2.2 (by simp)
    case isFalse hstay => exact .inr ⟨rfl, rfl, rfl⟩

lemma Stands.iterate (h : Laddered rule.priceIncrements) {up : Bool} (k : ℕ)
    {w : MarketRule.Walk} (hw : Stands rule up w p) :
    Stands rule up (rule.tickOnce^[k] w) ((rule.move up)^[k] p) := by
  induction k generalizing w p with
  | zero => exact hw
  | succ k ih =>
      rw [Function.iterate_succ_apply, Function.iterate_succ_apply]
      exact ih (hw.tickOnce h)

lemma iterate_move (h : Laddered rule.priceIncrements) (up : Bool) (k : ℕ) (p : Ladder rule) :
    (rule.move up)^[k] p.1 = ((Ladder.step h ^ (if up then (k : ℤ) else -k)) p).1 := by
  induction k generalizing p with
  | zero => cases up <;> rfl
  | succ k ih =>
      rw [Function.iterate_succ_apply]
      cases up with
      | true =>
          have hone : rule.move true p.1 = (Ladder.step h p).1 := rfl
          rw [hone, ih (Ladder.step h p), if_pos rfl, if_pos rfl, ← Equiv.Perm.mul_apply,
            ← zpow_add_one, Nat.cast_succ]
      | false =>
          have hone : rule.move false p.1 = ((Ladder.step h)⁻¹ p).1 := rfl
          rw [hone, ih ((Ladder.step h)⁻¹ p), if_neg Bool.false_ne_true,
            if_neg Bool.false_ne_true, ← Equiv.Perm.mul_apply, ← zpow_sub_one]
          congr 3
          push_cast
          ring

/-- How many steps a number of them is taken for: all of them where the rule has one band, else as
many as thirty-two bits hold. -/
def stepsOf (rule : MarketRule) (n : ℤ) : ℤ :=
  if rule.priceIncrements.length = 1 then n else n.sign * (min n.natAbs (2 ^ 31 - 1) : ℕ)

lemma stepsOf_neg (rule : MarketRule) (n : ℤ) : stepsOf rule (-n) = -stepsOf rule n := by
  rw [stepsOf, stepsOf]
  split
  · rfl
  · rw [Int.sign_neg, Int.natAbs_neg, neg_mul]

lemma stepsOf_of_le (rule : MarketRule) {n : ℤ} (h : n.natAbs ≤ 2 ^ 31 - 1) :
    stepsOf rule n = n := by
  rw [stepsOf]
  split
  · rfl
  · rw [min_eq_left h, Int.sign_mul_natAbs]

lemma zpow_single (h : Laddered rule.priceIncrements) (hone : rule.priceIncrements = [s]) (n : ℤ)
    (p : Ladder rule) : ((Ladder.step h ^ n) p).1 = p.1 + n * s.increment.value := by
  have hnext (x : ℚ) : rule.next x = x + s.increment.value := by
    have hinc : rule.increment x (decide (x < 0)) = some s.increment := by
      simp [MarketRule.increment, hone]
    rw [MarketRule.next, hinc]
    rfl
  have hprev (x : ℚ) : rule.prev x = x - s.increment.value := by
    rw [MarketRule.prev, hnext]
    ring
  induction n using Int.induction_on generalizing p with
  | zero => simp
  | succ k ih =>
      have hstep : (Ladder.step h p).1 = p.1 + s.increment.value := hnext p.1
      rw [zpow_add_one, Equiv.Perm.mul_apply, ih, hstep]
      push_cast
      ring
  | pred k ih =>
      have hstep : ((Ladder.step h)⁻¹ p).1 = p.1 - s.increment.value := hprev p.1
      rw [zpow_sub_one, Equiv.Perm.mul_apply, ih, hstep]
      push_cast
      ring

lemma turns_intCast (n : ℤ) : MarketRule.turns n = min n.natAbs (2 ^ 31 - 1) := by
  have habs : |(n : ℚ)| = (n.natAbs : ℕ) := by
    rw [← Int.cast_abs, Int.abs_eq_natAbs, Int.cast_natCast]
  rw [MarketRule.turns, habs, Nat.floor_natCast]

lemma MarketRule.ticks_eq (h : Laddered rule.priceIncrements) (p : Ladder rule) {n : ℤ}
    (hn : (n : ℚ) ≠ unsetPrice) :
    rule.ticks p.1 n = ((Ladder.step h ^ stepsOf rule n) p).1 := by
  rcases eq_or_ne n 0 with rfl | hne
  · have hzero : stepsOf rule 0 = 0 := by
      rw [stepsOf]
      split <;> simp
    rw [MarketRule.ticks, if_pos (.inr (.inl Int.cast_zero)), hzero, zpow_zero]
    rfl
  · have hgo : ¬ (validNumber n = false ∨ (n : ℚ) = 0 ∨ rule.priceIncrements = []) := by
      rintro (hbad | hzero | hnil)
      · exact hn (by simpa [validNumber] using hbad)
      · exact hne (Int.cast_eq_zero.1 hzero)
      · exact h.ne_nil hnil
    rw [MarketRule.ticks, if_neg hgo]
    split
    next only hone =>
      have hlen : rule.priceIncrements.length = 1 := by rw [hone]; rfl
      rw [stepsOf, if_pos hlen, mul_comm, ← zpow_single h hone]
      exact (round_of_onLadder h ((Ladder.step h ^ n) p).2 true).2
    next hmany =>
      have hlen : rule.priceIncrements.length ≠ 1 := fun hlen => by
        obtain ⟨only, honly⟩ := List.length_eq_one_iff.1 hlen
        exact hmany only honly
      have hsign : (if 0 < (n : ℚ) then 1 else -1) = signOf (decide (0 < n)) := by
        simp only [signOf, decide_eq_true_eq, Int.cast_pos]
      have hsteps : stepsOf rule n = if decide (0 < n) then (MarketRule.turns n : ℤ)
          else -MarketRule.turns n := by
        rw [stepsOf, if_neg hlen, turns_intCast]
        rcases lt_or_gt_of_ne hne with hlt | hgt
        · rw [decide_eq_false hlt.not_gt, if_neg Bool.false_ne_true, Int.sign_eq_neg_one_of_neg hlt,
            neg_one_mul]
        · rw [decide_eq_true hgt, if_pos rfl, Int.sign_eq_one_of_pos hgt, one_mul]
      have hstart : Stands rule (decide (0 < n))
          ⟨p.1, if 0 < (n : ℚ) then 1 else -1, false⟩ p.1 := ⟨p.2, .inl ⟨rfl, rfl, hsign⟩⟩
      have hend := hstart.iterate h (MarketRule.turns n)
      rw [iterate_move h, ← hsteps] at hend
      dsimp only
      obtain ⟨hon, ⟨hcross, hprice, -⟩ | ⟨hcross, hprice, -⟩⟩ := hend
      · rw [hcross, if_neg Bool.false_ne_true, hprice]
        exact (round_of_onLadder h hon true).2
      · rw [hcross, if_pos rfl, hprice, neg_neg]
        exact (round_of_onLadder h hon true).2

lemma le_zpow (h : Laddered rule.priceIncrements) (k : ℕ) (p : Ladder rule) :
    p.1 ≤ ((Ladder.step h ^ (k : ℤ)) p).1 := by
  induction k generalizing p with
  | zero => exact le_rfl
  | succ k ih =>
      rw [Nat.cast_succ, zpow_add_one, Equiv.Perm.mul_apply]
      exact (Ladder.lt_step h p).le.trans (ih _)

lemma ne_unsetPrice {n : ℤ} (hn : n.natAbs ≤ 2 ^ 31 - 1) : (n : ℚ) ≠ unsetPrice := by
  have hle : n ≤ 2 ^ 31 - 1 := by omega
  have hpow : (1 : ℚ) ≤ 2 ^ 971 := one_le_pow₀ (by norm_num)
  have hlt : (n : ℚ) < unsetPrice :=
    calc (n : ℚ) ≤ 2 ^ 31 - 1 := by exact_mod_cast hle
      _ < (2 ^ 53 - 1) * 1 := by norm_num
      _ ≤ unsetPrice := mul_le_mul_of_nonneg_left hpow (by norm_num)
  exact hlt.ne

lemma rounded_onLadder (h : Laddered rule.priceIncrements) {price : ℚ} (hu : price ≠ unsetPrice)
    (hz : price ≠ 0) (up : Bool) :
    OnLadder rule (rule.round price up) ∧ OnLadder rule (rule.nearest price) := by
  obtain ⟨s, -, hs, hpos, -⟩ := exists_tick h price
  have hgo : ¬ (price = unsetPrice ∨ price = 0) := by
    rintro (hbad | hbad)
    · exact hu hbad
    · exact hz hbad
  have hon (up : Bool) : OnLadder rule (directed price s.increment up) :=
    onLadder_of_near h hs (multiple_directed hpos price up) (directed_near hpos price up)
  rw [MarketRule.round, MarketRule.nearest, if_neg hgo, if_neg hgo, hs, Option.map_some,
    Option.map_some, Option.getD_some, Option.getD_some]
  refine ⟨hon up, ?_⟩
  rcases nearestOf_cases price s.increment with hcase | hcase
  · rw [hcase]
    exact hon true
  · rw [hcase]
    exact hon false

end

/-- **Prices on a contract's ladder.**  Rounded up or down, a price becomes the least or greatest
multiple of its band's increment not on the wrong side of it, to a billionth of an increment; the
nearest is the closer of the two for a price above nought, and the upper one for a price below; all
three leave what they gave.  A price is valid exactly within a billionth of a multiple, or below
nought, where that is allowed, of the one it is rounded up to.  Steps on the ladder are taken back
by as many the other way, add up, and go up. -/
theorem prices_on_the_ladder (rule : MarketRule) (h : Laddered rule.priceIncrements) :
    (∀ price, price ≠ unsetPrice → price ≠ 0 → ∃ s ∈ rule.priceIncrements,
      s.lowEdge ≤ |price| ∧
      (∀ b ∈ rule.priceIncrements, b.lowEdge ≤ |price| → b.lowEdge ≤ s.lowEdge) ∧
      IsLeast {x | Multiple s.increment x ∧ price - s.increment.value / 10 ^ 9 ≤ x}
        (rule.round price true) ∧
      IsGreatest {x | Multiple s.increment x ∧ x ≤ price + s.increment.value / 10 ^ 9}
        (rule.round price false) ∧
      (0 < price → (rule.nearest price = rule.round price true ∨
          rule.nearest price = rule.round price false) ∧
        |rule.nearest price - price| ≤ |rule.round price true - price| ∧
        |rule.nearest price - price| ≤ |rule.round price false - price|) ∧
      (price < 0 → rule.nearest price = rule.round price true) ∧
      (rule.isValid price = true ↔
        (0 < price ∧ ∃ x, Multiple s.increment x ∧ |x - price| < 1 / 10 ^ 9) ∨
        (price < 0 ∧ rule.negativePrices = true ∧
          |rule.round price true - price| < 1 / 10 ^ 9))) ∧
    (∀ price, (∀ up, rule.round (rule.round price up) up = rule.round price up) ∧
      rule.nearest (rule.nearest price) = rule.nearest price) ∧
    (∀ p, OnLadder rule p → ∀ n : ℤ, (n : ℚ) ≠ unsetPrice → ((-n : ℤ) : ℚ) ≠ unsetPrice →
      rule.ticks (rule.ticks p n) (-n : ℤ) = p) ∧
    (∀ p, OnLadder rule p → ∀ n : ℤ, 0 < n → p ≤ rule.ticks p n) ∧
    ∀ p, OnLadder rule p → ∀ m n : ℤ, m.natAbs ≤ 2 ^ 31 - 1 → n.natAbs ≤ 2 ^ 31 - 1 →
      (m + n).natAbs ≤ 2 ^ 31 - 1 → rule.ticks (rule.ticks p m) n = rule.ticks p (m + n : ℤ) := by
  have hsmall {n : ℤ} (hn : n.natAbs ≤ 2 ^ 31 - 1) : (n : ℚ) ≠ unsetPrice := ne_unsetPrice hn
  refine ⟨fun price hu hz => ?_, fun price => ?_, fun p hp n hn hn' => ?_, fun p hp n hn => ?_,
    fun p hp m n hm hn hmn => ?_⟩
  · obtain ⟨s, hmem, hs, hpos, hlow, hlast⟩ := exists_tick h price
    have hgo : ¬ (price = unsetPrice ∨ price = 0) := by
      rintro (hbad | hbad)
      · exact hu hbad
      · exact hz hbad
    have hround (up : Bool) : rule.round price up = directed price s.increment up := by
      rw [MarketRule.round, if_neg hgo, hs]
      rfl
    have hnear : rule.nearest price = nearestOf price s.increment := by
      rw [MarketRule.nearest, if_neg hgo, hs]
      rfl
    have hvalid : validNumber price = true := by simpa [validNumber] using hu
    refine ⟨s, hmem, hlow, hlast, hround true ▸ isLeast_directed hpos price,
      hround false ▸ isGreatest_directed hpos price, fun hgt => ?_, fun hlt => ?_, ?_⟩
    · rw [hnear, hround, hround]
      exact ⟨nearestOf_cases price s.increment,
        nearestOf_le hpos hgt (multiple_directed hpos price true),
        nearestOf_le hpos hgt (multiple_directed hpos price false)⟩
    · rw [hnear, hround, nearestOf_of_neg hpos hlt]
    · rw [MarketRule.isValid, hvalid, Bool.true_and, Bool.and_eq_true, Bool.or_eq_true,
        decide_eq_true_eq, decide_eq_true_eq, hnear, hround]
      rcases lt_or_gt_of_ne hz with hlt | hgt
      · rw [nearestOf_of_neg hpos hlt]
        exact ⟨fun hv => .inr ⟨hlt, hv.1.resolve_left hlt.not_gt, hv.2⟩,
          fun hv => hv.elim (fun hbad => absurd hbad.1 hlt.not_gt) fun hv => ⟨.inr hv.2.1, hv.2.2⟩⟩
      · refine ⟨fun hv => .inl ⟨hgt, _, ?_, hv.2⟩, fun hv => ⟨.inl hgt, ?_⟩⟩
        · rcases nearestOf_cases price s.increment with hcase | hcase
          · exact hcase ▸ multiple_directed hpos price true
          · exact hcase ▸ multiple_directed hpos price false
        · rcases hv with ⟨-, x, hx, hclose⟩ | hbad
          · exact (nearestOf_le hpos hgt hx).trans_lt hclose
          · exact absurd hbad.1 hgt.not_gt
  · by_cases hgo : price = unsetPrice ∨ price = 0
    · refine ⟨fun up => ?_, ?_⟩
      · rw [MarketRule.round, MarketRule.round, if_pos hgo, if_pos hgo]
      · rw [MarketRule.nearest, MarketRule.nearest, if_pos hgo, if_pos hgo]
    · obtain ⟨hu, hz⟩ := not_or.1 hgo
      exact ⟨fun up => (round_of_onLadder h (rounded_onLadder h hu hz up).1 up).1,
        (round_of_onLadder h (rounded_onLadder h hu hz true).2 true).2⟩
  · rw [MarketRule.ticks_eq h ⟨p, hp⟩ hn, MarketRule.ticks_eq h _ hn', stepsOf_neg,
      ← Equiv.Perm.mul_apply, zpow_neg, inv_mul_cancel]
    rfl
  · by_cases hn' : (n : ℚ) = unsetPrice
    · rw [MarketRule.ticks, if_pos (.inl (by simp [validNumber, hn']))]
    · rw [MarketRule.ticks_eq h ⟨p, hp⟩ hn']
      have hnonneg : 0 ≤ stepsOf rule n := by
        rw [stepsOf]
        split
        · exact hn.le
        · rw [Int.sign_eq_one_of_pos hn, one_mul]
          exact Int.natCast_nonneg _
      rw [← Int.toNat_of_nonneg hnonneg]
      exact le_zpow h _ ⟨p, hp⟩
  · rw [MarketRule.ticks_eq h ⟨p, hp⟩ (hsmall hm), MarketRule.ticks_eq h _ (hsmall hn),
      MarketRule.ticks_eq h ⟨p, hp⟩ (hsmall hmn), stepsOf_of_le rule hm, stepsOf_of_le rule hn,
      stepsOf_of_le rule hmn, ← Equiv.Perm.mul_apply, ← zpow_add, add_comm n m]

def halves : MarketRule where
  negativePrices := true
  priceIncrements := [⟨0, ⟨5, 1⟩⟩, ⟨2, ⟨1, 0⟩⟩]

lemma laddered_halves : Laddered halves.priceIncrements where
  starts := rfl
  positive := by
    intro s hs
    simp only [halves, List.mem_cons, List.not_mem_nil, or_false] at hs
    rcases hs with rfl | rfl <;> norm_num [Printed.value]
  ascending := by simp [halves]
  whole := by
    simp only [halves, List.isChain_cons_cons, List.isChain_singleton, and_true]
    exact ⟨⟨4, by norm_num [Printed.value]⟩, 2, by norm_num [Printed.value]⟩

theorem prices_on_the_ladder_halves :
    halves.ticks (halves.ticks (1 / 2) (-3 : ℤ)) ((- -3 : ℤ) : ℚ) = 1 / 2 := by
  refine (prices_on_the_ladder halves laddered_halves).2.2.1 (1 / 2) ⟨⟨5, 1⟩, ?_, 1, ?_⟩ (-3) ?_ ?_
  · norm_num [MarketRule.increment, halves, reaches]
  · norm_num [Printed.value]
  · exact ne_unsetPrice (by decide)
  · exact ne_unsetPrice (by decide)

/-- Below nought the upper of the two is taken where the lower is closer. -/
theorem upper_taken_below_nought : Laddered halves.priceIncrements ∧
    halves.nearest (-19 / 25) = -1 / 2 ∧ halves.round (-19 / 25) true = -1 / 2 ∧
      halves.round (-19 / 25) false = -1 ∧
      |(-1 : ℚ) - (-19 / 25)| < |(-1 / 2 : ℚ) - (-19 / 25)| :=
  ⟨laddered_halves, by decide +kernel⟩

end IbkrDx.PriceLadders
