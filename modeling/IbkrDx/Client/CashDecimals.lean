import IbkrDx.Lib.HalfEven
import IbkrDx.Lib.Texts

/-!
# The decimals a cash amount is sized in

`Decimal` of `client_core/cash_quantity.rs`: digits in 128 bits and how many of them are places, and
`rounded_half_even` over digit strings.

* **`cash_decimals`** — the text reads back, the quotient and the product round once and a multiple
  is told exactly where these allow it; digit strings round everywhere.
-/

namespace IbkrDx

open Decimal Texts HalfEven

/-- A decimal held exactly: its digits, an `i128`, and how many of them are places, a `u32`. -/
structure CashDecimal where
  mantissa : ℤ
  scale : ℕ
  deriving DecidableEq

/-! ## Integers of a width -/

/-- An `i128`. -/
def InI128 (n : ℤ) : Prop := -2 ^ 127 ≤ n ∧ n < 2 ^ 127

instance (n : ℤ) : Decidable (InI128 n) := inferInstanceAs (Decidable (_ ∧ _))

/-- A number an `i128` holds. -/
def checkedI128 (n : ℤ) : Option ℤ := if InI128 n then some n else none

/-- `i128::abs`, which overflows at the least number. -/
def absI128 (n : ℤ) : Option ℤ := checkedI128 |n|

lemma absI128_eq {n : ℤ} (hlow : -2 ^ 127 < n) (hhigh : n < 2 ^ 127) : absI128 n = some |n| := by
  rw [absI128, checkedI128, if_pos (by unfold InI128; rw [Int.abs_eq_natAbs]; omega)]

/-- A number a `u32` holds. -/
def checkedU32 (n : ℕ) : Option ℕ := if n < 2 ^ 32 then some n else none

/-- `str::parse::<i128>`. -/
def parseI128 : List Char → Option ℤ
  | '-' :: ds =>
      if ds.head? = some '+' then none
      else (Decimal.parse (2 ^ 127 + 1) (Utf8.encode ds)).map fun n : ℕ => -(n : ℤ)
  | v => (Decimal.parse (2 ^ 127) (Utf8.encode v)).map Nat.cast

/-! ## Texts -/

/-- `trim_end_matches`. -/
def trimEndOf {α : Type} [DecidableEq α] (x : α) (l : List α) : List α :=
  (l.reverse.dropWhile (· = x)).reverse

/-- `split_once`. -/
def splitOnceAt (sep : Char) (v : List Char) : Option (List Char × List Char) :=
  if sep ∈ v then some (v.takeWhile (· ≠ sep), (v.dropWhile (· ≠ sep)).drop 1) else none

def charsOf (t : List UInt8) : List Char := t.map fun b => Char.ofNat b.toNat

def isAsciiDigit (c : Char) : Bool := decide (48 ≤ c.toNat ∧ c.toNat ≤ 57)

namespace CashDecimal

def value (a : CashDecimal) : ℚ := a.mantissa / 10 ^ a.scale

def unit : CashDecimal := ⟨1, 0⟩

def parse (text : List Char) : Option CashDecimal :=
  let text := (trimBlanks text).filter (· ≠ ',')
  let parts := (splitOnceAt '.' text).getD (text, [])
  let fraction := trimEndOf '0' parts.2
  let digits := parts.1 ++ fraction
  if digits = [] ∨ digits = ['-'] ∨ ¬(digits.dropWhile (· = '-')).all isAsciiDigit then none
  else (parseI128 digits).map fun mantissa => ⟨mantissa, fraction.length % 2 ^ 32⟩

def power (a : CashDecimal) : Option ℤ := checkedI128 (10 ^ a.scale)

def scaled (a : CashDecimal) (places : ℕ) : Option ℤ :=
  (checkedI128 (10 ^ places)).bind fun factor => checkedI128 (a.mantissa * factor)

/-- The whole digits under a power of ten, a nought where it is past the digits. -/
def wholeUnder (mantissa : ℤ) : Option ℤ → List Char
  | some power => signed (mantissa.tdiv power)
  | none => numeral 0

def whole (a : CashDecimal) : List Char := wholeUnder a.mantissa a.power

/-- What is left under a power of ten, all of it where the power is past the digits. -/
def restUnder (mantissa : ℤ) : Option ℤ → ℤ
  | some power => mantissa.tmod power
  | none => mantissa

/-- The digits behind the point; a formatter takes no width past 16 bits. -/
def fraction (a : CashDecimal) : Option (List Char) :=
  if a.scale = 0 then some []
  else
    (absI128 (restUnder a.mantissa a.power)).bind fun rest =>
      if a.scale < 2 ^ 16 then some (charsOf (padded a.scale rest.natAbs)) else none

def text (a : CashDecimal) : Option (List Char) :=
  if a.scale = 0 then some a.whole else a.fraction.map fun fraction => a.whole ++ '.' :: fraction

/-- What the arithmetic leaves to doubles, read back to places. -/
structure Doubles where
  product : CashDecimal → CashDecimal → ℕ → Option CashDecimal
  quotient : CashDecimal → CashDecimal → ℕ → Option CashDecimal
  whole : CashDecimal → CashDecimal → Option Bool
  quotient_scale : ∀ {a b places c}, quotient a b places = some c → c.scale ≤ places

def roundsUp (quotient remainder denominator : ℤ) : Option Bool :=
  match checkedI128 (remainder * 2) with
  | some twice =>
      (absI128 twice).bind fun twice =>
        (absI128 denominator).map fun denominator =>
          decide (denominator < twice ∨ (twice = denominator ∧ quotient.tmod 2 ≠ 0))
  | none => some true

def quotientTo (numerator denominator : ℤ) (places : ℕ) : Option CashDecimal :=
  (checkedI128 (numerator.tdiv denominator)).bind fun quotient =>
    (roundsUp quotient (numerator.tmod denominator) denominator).bind fun up =>
      let sign : ℤ := if (numerator < 0) ≠ (denominator < 0) then -1 else 1
      (checkedI128 (quotient + if up then sign else 0)).map fun mantissa => ⟨mantissa, places⟩

def overPlaces (f : Doubles) (a divisor : CashDecimal) (places : ℕ) : Option CashDecimal :=
  if divisor.mantissa = 0 then some ⟨0, places⟩
  else
    (checkedU32 (divisor.scale + places)).bind fun reach =>
      match a.scaled reach, divisor.scaled a.scale with
      | some numerator, some denominator => quotientTo numerator denominator places
      | _, _ => f.quotient a divisor places

/-- A product's digits past the sixteenth are dropped one after another, as long as it has
places. -/
def dropPast (f : Doubles) : ℕ → CashDecimal → Option CashDecimal
  | 0, p => (absI128 p.mantissa).map fun _ => p
  | fuel + 1, p =>
      (absI128 p.mantissa).bind fun size =>
        if 10 ^ 16 ≤ size ∧ 0 < p.scale then
          (overPlaces f p unit (p.scale - 1)).bind (dropPast f fuel)
        else some p

def product (f : Doubles) (a b : CashDecimal) : Option CashDecimal :=
  (checkedU32 (a.scale + b.scale)).bind fun scale =>
    match checkedI128 (a.mantissa * b.mantissa) with
    | some mantissa => some ⟨mantissa, scale⟩
    | none => f.product a b scale

def times (f : Doubles) (a b : CashDecimal) : Option CashDecimal :=
  (product f a b).bind fun p => dropPast f p.scale p

def multipleOf (f : Doubles) (a step : CashDecimal) : Option Bool :=
  if step.mantissa = 0 then some false
  else
    match a.scaled step.scale, step.scaled a.scale with
    | some scaled, some divisor =>
        (checkedI128 (scaled.tdiv divisor)).map fun _ => decide (scaled.tmod divisor = 0)
    | _, _ => f.whole a step

end CashDecimal

/-! ## Digit strings -/

def carryOne : List UInt8 → Option (List UInt8)
  | [] => none
  | d :: ds => if d = 57 then (carryOne ds).map (48 :: ·) else some ((d + 1) :: ds)

def roundedHalfEven (whole fraction : List UInt8) (places : ℕ) :
    Option (List UInt8 × List UInt8) :=
  if fraction.length ≤ places then some (whole, trimEndOf 48 fraction)
  else
    (fraction.drop places).head?.bind fun first =>
      let beyond := ((fraction.drop places).drop 1).any (· ≠ 48)
      let digits := 48 :: whole ++ fraction.take places
      let lastOdd := digits.getLast?.any fun d => (d - 48) % 2 = 1
      let up := first > 53 ∨ (first = 53 ∧ (beyond = true ∨ lastOdd = true))
      (if up then (carryOne digits.reverse).map List.reverse else some digits).map fun text =>
        (text.take (text.length - places), trimEndOf 48 (text.drop (text.length - places)))

/-! ## Texts read back -/

lemma exists_trimEndOf {α : Type} [DecidableEq α] (x : α) (l : List α) :
    ∃ l' k, l = l' ++ List.replicate k x ∧ l'.getLast? ≠ some x := by
  induction l using List.reverseRecOn with
  | nil => exact ⟨[], 0, rfl, by simp⟩
  | append_singleton l a ih =>
      rcases eq_or_ne a x with rfl | hne
      · obtain ⟨l', k, rfl, hlast⟩ := ih
        refine ⟨l', k + 1, ?_, hlast⟩
        rw [List.append_assoc, ← List.replicate_succ']
      · refine ⟨l ++ [a], 0, by simp, ?_⟩
        simpa using hne

lemma trimEndOf_append {α : Type} [DecidableEq α] {x : α} {l : List α} (h : l.getLast? ≠ some x)
    (k : ℕ) : trimEndOf x (l ++ List.replicate k x) = l := by
  rw [trimEndOf, List.reverse_append, List.reverse_replicate,
    List.dropWhile_append_of_pos (by simp [List.mem_replicate])]
  rw [← List.head?_reverse] at h
  cases hl : l.reverse with
  | nil => simpa using hl.symm
  | cons a t =>
      rw [hl, List.head?_cons, ne_eq, Option.some_inj] at h
      rw [List.dropWhile_cons_of_neg (by simpa using h), ← hl, List.reverse_reverse]

lemma value_append_all (t u : List UInt8) :
    Decimal.value (t ++ u) = Decimal.value t * 10 ^ u.length + Decimal.value u := by
  induction u using List.reverseRecOn with
  | nil => simp [Decimal.value]
  | append_singleton u b ih =>
      rw [← List.append_assoc, value_append, value_append, ih, List.length_append,
        List.length_singleton, Nat.pow_succ]
      ring

lemma value_replicate (k : ℕ) : Decimal.value (List.replicate k 48) = 0 := by
  induction k with
  | zero => rfl
  | succ k ih => rw [List.replicate_succ', value_append, ih]; rfl

lemma range_of_mem_charsOf {t : List UInt8} (h : ∀ b ∈ t, isDigit b = true) {c : Char}
    (hc : c ∈ charsOf t) : 48 ≤ c.toNat ∧ c.toNat ≤ 57 := by
  obtain ⟨b, hb, rfl⟩ := List.mem_map.1 hc
  have hdigit := h b hb
  rw [isDigit, decide_eq_true_iff, UInt8.le_iff_toNat_le, UInt8.le_iff_toNat_le] at hdigit
  have hle : b.toNat ≤ 57 := hdigit.2
  rw [show (Char.ofNat b.toNat).toNat = b.toNat from Utf8.toNat_ofNat (Or.inl (by omega))]
  exact hdigit

lemma encode_charsOf {t : List UInt8} (h : ∀ b ∈ t, isDigit b = true) :
    Utf8.encode (charsOf t) = t :=
  Utf8.encode_ascii fun b hb => by
    have hdigit := h b hb
    rw [isDigit, decide_eq_true_iff] at hdigit
    exact lt_of_le_of_lt (UInt8.le_iff_toNat_le.1 hdigit.2) (by decide)

lemma charsOf_append (t u : List UInt8) : charsOf (t ++ u) = charsOf t ++ charsOf u :=
  List.map_append

lemma charsOf_replicate (k : ℕ) : charsOf (List.replicate k 48) = List.replicate k '0' :=
  List.map_replicate

def minusOf (neg : Bool) : List Char := if neg then ['-'] else []

lemma parseI128_of_head {v : List Char} (h : v.head? ≠ some '-') :
    parseI128 v = (Decimal.parse (2 ^ 127) (Utf8.encode v)).map Nat.cast := by
  unfold parseI128
  split
  · exact absurd rfl h
  · rfl

lemma parseI128_digits {neg : Bool} {t : List UInt8} (hne : t ≠ [])
    (h : ∀ b ∈ t, isDigit b = true)
    (hfits : InI128 ((if neg then -1 else 1) * (Decimal.value t : ℤ))) :
    parseI128 (minusOf neg ++ charsOf t) = some ((if neg then -1 else 1) * (Decimal.value t : ℤ)) := by
  have hhead : ∀ c, (charsOf t).head? = some c → 48 ≤ c.toNat := fun c hc =>
    (range_of_mem_charsOf h (List.mem_of_mem_head? hc)).1
  cases neg with
  | true =>
      have hplus : (charsOf t).head? ≠ some '+' := fun hc => absurd (hhead _ hc) (by decide)
      have hread : Decimal.parse (2 ^ 127 + 1) t = some (Decimal.value t) := by
        refine parse_digits hne h ?_
        have hlow := hfits.1
        simp only [if_true] at hlow
        omega
      simp only [minusOf, if_true, List.cons_append, List.nil_append, parseI128, if_neg hplus,
        encode_charsOf h, hread, Option.map_some, neg_mul, one_mul]
  | false =>
      have hminus : (charsOf t).head? ≠ some '-' := fun hc => absurd (hhead _ hc) (by decide)
      have hread : Decimal.parse (2 ^ 127) t = some (Decimal.value t) := by
        refine parse_digits hne h ?_
        have hhigh := hfits.2
        simp only [Bool.false_eq_true, if_false, one_mul] at hhigh
        omega
      simp only [minusOf, Bool.false_eq_true, if_false, List.nil_append, one_mul]
      rw [parseI128_of_head hminus, encode_charsOf h, hread]
      rfl

lemma dropWhile_minusOf {neg : Bool} {t : List UInt8} (h : ∀ b ∈ t, isDigit b = true) :
    (minusOf neg ++ charsOf t).dropWhile (· = '-') = charsOf t := by
  have hdigits : (charsOf t).dropWhile (· = '-') = charsOf t := by
    cases hc : charsOf t with
    | nil => rfl
    | cons c l =>
        refine List.dropWhile_cons_of_neg ?_
        have hrange := (range_of_mem_charsOf h (hc ▸ List.mem_cons_self : c ∈ charsOf t)).1
        intro heq
        rw [decide_eq_true_iff] at heq
        subst heq
        exact absurd hrange (by decide)
  cases neg with
  | true => simpa [minusOf] using hdigits
  | false => simpa [minusOf] using hdigits

namespace CashDecimal

lemma parse_point {neg : Bool} {w f : List UInt8} (hw : w ≠ []) (hwd : ∀ b ∈ w, isDigit b = true)
    (hfd : ∀ b ∈ f, isDigit b = true) (hlen : f.length < 2 ^ 32)
    (hfits : InI128 ((if neg then -1 else 1) * (Decimal.value (w ++ f) : ℤ))) :
    ∃ c, parse (minusOf neg ++ charsOf w ++ '.' :: charsOf f) = some c ∧
      c.value = (if neg then -1 else 1) * (Decimal.value (w ++ f) : ℚ) / 10 ^ f.length := by
  obtain ⟨f', k, rfl, hlast⟩ := exists_trimEndOf 48 f
  have hfd' : ∀ b ∈ f', isDigit b = true := fun b hb => hfd b (List.mem_append_left _ hb)
  have hall : ∀ b ∈ w ++ f', isDigit b = true := fun b hb =>
    (List.mem_append.1 hb).elim (hwd b) (hfd' b)
  have hwhole : ∀ c ∈ minusOf neg ++ charsOf w, c = '-' ∨ 48 ≤ c.toNat ∧ c.toNat ≤ 57 := by
    intro c hc
    rcases List.mem_append.1 hc with hc | hc
    · cases neg with
      | true => exact Or.inl (List.mem_singleton.1 hc)
      | false => exact absurd hc List.not_mem_nil
    · exact Or.inr (range_of_mem_charsOf hwd hc)
  have hfraction := fun c hc => range_of_mem_charsOf hfd (c := c) hc
  set front := minusOf neg ++ charsOf w with hfront
  set behind := charsOf (f' ++ List.replicate k 48) with hbehind
  have hdot : '.' ∉ front := fun hc => by
    rcases hwhole _ hc with h | h
    · cases h
    · exact absurd h.1 (by decide)
  have htrim : (trimBlanks (front ++ '.' :: behind)).filter (· ≠ ',') = front ++ '.' :: behind := by
    rw [(Trimmed.of_range ?_).trim_eq]
    · refine List.filter_eq_self.2 fun c hc => decide_eq_true ?_
      rintro rfl
      rcases List.mem_append.1 hc with hc | hc
      · rcases hwhole _ hc with h | h
        · cases h
        · exact absurd h.1 (by decide)
      · rcases List.mem_cons.1 hc with h | hc
        · cases h
        · exact absurd (hfraction _ hc).1 (by decide)
    · intro c hc
      rcases List.mem_append.1 hc with hc | hc
      · rcases hwhole c hc with rfl | h
        · decide
        · omega
      · rcases List.mem_cons.1 hc with rfl | hc
        · decide
        · have h := hfraction c hc
          omega
  have hsplit : splitOnceAt '.' (front ++ '.' :: behind) = some (front, behind) := by
    have hpass : ∀ c ∈ front, decide (c ≠ '.') = true := fun c hc =>
      decide_eq_true fun heq => hdot (heq ▸ hc)
    rw [splitOnceAt, if_pos (by simp), List.takeWhile_append_of_pos hpass,
      List.dropWhile_append_of_pos hpass, List.takeWhile_cons_of_neg (by simp),
      List.dropWhile_cons_of_neg (by simp), List.append_nil, List.drop_one, List.tail_cons]
  have hbare : trimEndOf '0' behind = charsOf f' := by
    rw [hbehind, charsOf_append, charsOf_replicate]
    refine trimEndOf_append ?_ k
    rw [charsOf, List.getLast?_map]
    intro hzero
    obtain ⟨b, hb, hchar⟩ := Option.map_eq_some_iff.1 hzero
    have hdigit := hfd' b (List.mem_of_getLast? hb)
    rw [isDigit, decide_eq_true_iff, UInt8.le_iff_toNat_le, UInt8.le_iff_toNat_le] at hdigit
    have hle : b.toNat ≤ 57 := hdigit.2
    have hnat : b.toNat = 48 := by
      have hval := congrArg Char.toNat hchar
      rwa [show (Char.ofNat b.toNat).toNat = b.toNat from
        Utf8.toNat_ofNat (Or.inl (by omega))] at hval
    exact hlast (hb.trans (congrArg some (UInt8.toNat_inj.1 hnat)))
  have hzeros : Decimal.value (w ++ (f' ++ List.replicate k 48)) =
      Decimal.value (w ++ f') * 10 ^ k := by
    rw [← List.append_assoc, value_append_all, value_replicate, List.length_replicate, Nat.add_zero]
  have hten : (1 : ℤ) ≤ 10 ^ k := one_le_pow₀ (by norm_num)
  have hfits' : InI128 ((if neg then -1 else 1) * (Decimal.value (w ++ f') : ℤ)) := by
    rw [hzeros] at hfits
    have hnonneg : (0 : ℤ) ≤ Decimal.value (w ++ f') := Int.natCast_nonneg _
    have hle := le_mul_of_one_le_right hnonneg hten
    unfold InI128 at hfits ⊢
    push_cast at hfits
    cases neg with
    | true =>
        simp only [if_true] at hfits ⊢
        omega
    | false =>
        simp only [Bool.false_eq_true, if_false] at hfits ⊢
        omega
  have hne : w ++ f' ≠ [] := fun h => hw (List.append_eq_nil_iff.1 h).1
  have hread := parseI128_digits hne hall hfits'
  have hdigits : front ++ charsOf f' = minusOf neg ++ charsOf (w ++ f') := by
    rw [hfront, charsOf_append, List.append_assoc]
  refine ⟨⟨(if neg then -1 else 1) * (Decimal.value (w ++ f') : ℤ), f'.length⟩, ?_, ?_⟩
  · rw [parse]
    simp only [htrim, hsplit, Option.getD_some, hbare, hdigits, hread, dropWhile_minusOf hall]
    rw [if_neg]
    · rw [Option.map_some, charsOf, List.length_map, Nat.mod_eq_of_lt]
      rw [List.length_append] at hlen
      omega
    · rintro (h | h | h)
      · exact hne (List.map_eq_nil_iff.1 (List.append_eq_nil_iff.1 h).2)
      · have hdrop := @dropWhile_minusOf neg _ hall
        rw [h] at hdrop
        exact hne (List.map_eq_nil_iff.1 hdrop.symm)
      · refine h (List.all_eq_true.2 fun c hc => decide_eq_true (range_of_mem_charsOf hall hc))
  · rw [value, hzeros, List.length_append, List.length_replicate, pow_add]
    push_cast
    have hpos : (0 : ℚ) < 10 ^ k := by positivity
    have hpos' : (0 : ℚ) < 10 ^ f'.length := by positivity
    cases neg <;> field_simp

lemma parse_whole {neg : Bool} {w : List UInt8} (hw : w ≠ []) (hwd : ∀ b ∈ w, isDigit b = true)
    (hfits : InI128 ((if neg then -1 else 1) * (Decimal.value w : ℤ))) :
    parse (minusOf neg ++ charsOf w) = some ⟨(if neg then -1 else 1) * (Decimal.value w : ℤ), 0⟩ := by
  have hchars : ∀ c ∈ minusOf neg ++ charsOf w, c = '-' ∨ 48 ≤ c.toNat ∧ c.toNat ≤ 57 := by
    intro c hc
    rcases List.mem_append.1 hc with hc | hc
    · cases neg with
      | true => exact Or.inl (List.mem_singleton.1 hc)
      | false => exact absurd hc List.not_mem_nil
    · exact Or.inr (range_of_mem_charsOf hwd hc)
  have hnot : ∀ c, c ≠ '-' → ¬(48 ≤ c.toNat ∧ c.toNat ≤ 57) → c ∉ minusOf neg ++ charsOf w := by
    intro c hminus hdigit hc
    rcases hchars c hc with h | h
    · exact hminus h
    · exact hdigit h
  have htrim : (trimBlanks (minusOf neg ++ charsOf w)).filter (· ≠ ',') = minusOf neg ++ charsOf w := by
    rw [(Trimmed.of_range ?_).trim_eq]
    · refine List.filter_eq_self.2 fun c hc => decide_eq_true ?_
      rintro rfl
      exact hnot ',' (by decide) (by decide) hc
    · intro c hc
      rcases hchars c hc with rfl | h
      · decide
      · omega
  have hsplit : splitOnceAt '.' (minusOf neg ++ charsOf w) = none := by
    rw [splitOnceAt, if_neg (hnot '.' (by decide) (by decide))]
  rw [parse]
  simp only [htrim, hsplit, Option.getD_none, trimEndOf, List.reverse_nil, List.dropWhile_nil,
    List.append_nil, parseI128_digits hw hwd hfits, dropWhile_minusOf hwd]
  rw [if_neg]
  · rfl
  · rintro (h | h | h)
    · exact hw (List.map_eq_nil_iff.1 (List.append_eq_nil_iff.1 h).2)
    · have hdrop := @dropWhile_minusOf neg _ hwd
      rw [h] at hdrop
      exact hw (List.map_eq_nil_iff.1 hdrop.symm)
    · exact h (List.all_eq_true.2 fun c hc => decide_eq_true (range_of_mem_charsOf hwd hc))

def ReadsBack (a : CashDecimal) : Prop :=
  ∃ t c, a.text = some t ∧ parse t = some c ∧ c.value = a.value

/-- **A decimal whose text shows its sign**: it has no places, or it is not below nought or has a
whole digit, and no more places than a formatter writes. -/
def SignShown (a : CashDecimal) : Prop :=
  a.scale = 0 ∨ (a.scale < 2 ^ 16 ∧ (0 ≤ a.mantissa ∨ 10 ^ a.scale ≤ |a.mantissa|))

lemma isDigit_text (n : ℕ) : ∀ b ∈ Decimal.text n, isDigit b = true := fun _ => isDigit_of_mem_text

lemma signed_eq (n : ℤ) : signed n = minusOf (decide (n < 0)) ++ charsOf (Decimal.text n.natAbs) := by
  rw [signed]
  split_ifs with h
  · rw [decide_eq_true h]
    rfl
  · rw [decide_eq_false h]
    rfl

variable {a : CashDecimal}

lemma readsBack_iff_of_text {neg : Bool} {q r : ℕ}
    (htext : a.text =
      some (minusOf neg ++ charsOf (Decimal.text q) ++ '.' :: charsOf (low a.scale r)))
    (hr : r < 10 ^ a.scale) (hs : a.scale < 2 ^ 32) (habs : q * 10 ^ a.scale + r = a.mantissa.natAbs)
    (hfits : InI128 ((if neg then -1 else 1) * (a.mantissa.natAbs : ℤ))) :
    a.ReadsBack ↔ (if neg then -1 else 1) * (a.mantissa.natAbs : ℤ) = a.mantissa := by
  have hvalue : Decimal.value (Decimal.text q ++ low a.scale r) = a.mantissa.natAbs := by
    rw [value_append_all, value_text, length_low, value_low, Nat.mod_eq_of_lt hr, habs]
  obtain ⟨c, hc, hcv⟩ := @parse_point neg _ (low a.scale r) (text_ne_nil q)
    (isDigit_text q) (fun _ => isDigit_of_mem_low) (by rwa [length_low]) (by rwa [hvalue])
  rw [hvalue, length_low] at hcv
  have hten : (10 : ℚ) ^ a.scale ≠ 0 := by positivity
  constructor
  · rintro ⟨t, c', ht, hc', heq⟩
    rw [htext, Option.some_inj] at ht
    rw [← ht, hc, Option.some_inj] at hc'
    rw [← hc', hcv, value, div_left_inj' hten] at heq
    have hcast : (((if neg then -1 else 1) * (a.mantissa.natAbs : ℤ) : ℤ) : ℚ) = a.mantissa := by
      rw [← heq]
      cases neg <;> simp only [if_true, Bool.false_eq_true, if_false, Int.cast_mul, Int.cast_neg,
        Int.cast_one, Int.cast_natCast]
    exact_mod_cast hcast
  · intro heq
    refine ⟨_, c, htext, hc, ?_⟩
    rw [hcv, value, ← heq]
    cases neg <;> push_cast <;> simp

variable {s : ℕ}

lemma pow_fits (h : s ≤ 38) : checkedI128 (10 ^ s) = some (10 ^ s) := by
  have hle : (10 : ℤ) ^ s ≤ 10 ^ 38 := pow_le_pow_right₀ (by norm_num) h
  have hpos : (0 : ℤ) < 10 ^ s := by positivity
  rw [checkedI128, if_pos ⟨by linarith, by norm_num at hle ⊢; omega⟩]

lemma lt_pow (h : 39 ≤ s) : (2 : ℤ) ^ 127 < 10 ^ s :=
  lt_of_lt_of_le (by norm_num) (pow_le_pow_right₀ (by norm_num) h : (10 : ℤ) ^ 39 ≤ 10 ^ s)

lemma pow_not_fits (h : 39 ≤ s) : checkedI128 (10 ^ s) = none := by
  rw [checkedI128, if_neg fun hfits => absurd hfits.2 (lt_pow h).le.not_gt]

lemma whole_of_power {power : ℤ} (h : a.power = some power) :
    a.whole = signed (a.mantissa.tdiv power) := by
  rw [whole, h, wholeUnder]

lemma whole_past_power (h : a.power = none) : a.whole = numeral 0 := by
  rw [whole, h, wholeUnder]

lemma text_of_places (hs : a.scale ≠ 0) {rest : ℤ}
    (hrest : absI128 (restUnder a.mantissa a.power) = some rest) (hwidth : a.scale < 2 ^ 16) :
    a.text = some (a.whole ++ '.' :: charsOf (padded a.scale rest.natAbs)) := by
  rw [CashDecimal.text, if_neg hs, fraction, if_neg hs, hrest, Option.bind_some, if_pos hwidth,
    Option.map_some]

lemma readsBack_of_no_places (hm : InI128 a.mantissa) (hs : a.scale = 0) : a.ReadsBack := by
  have hsign : (if decide (a.mantissa < 0) then -1 else 1) * (a.mantissa.natAbs : ℤ) =
      a.mantissa := by
    rcases lt_or_ge a.mantissa 0 with h | h
    · rw [decide_eq_true h, if_pos rfl]
      omega
    · rw [decide_eq_false h.not_gt, if_neg Bool.false_ne_true]
      omega
  have hread := @parse_whole (decide (a.mantissa < 0)) _ (text_ne_nil a.mantissa.natAbs)
    (isDigit_text _) (by rwa [value_text, hsign])
  rw [value_text, hsign, ← signed_eq] at hread
  have hpower : a.power = some 1 := by
    rw [power, hs, pow_fits (Nat.zero_le 38), pow_zero]
  refine ⟨signed a.mantissa, ⟨a.mantissa, 0⟩, ?_, hread, ?_⟩
  · rw [CashDecimal.text, if_pos hs, whole_of_power hpower, Int.tdiv_one]
  · rw [value, value, hs]

lemma tdiv_pow_neg_iff (n : ℤ) (s : ℕ) :
    n.tdiv (10 ^ s) < 0 ↔ n < 0 ∧ 10 ^ s ≤ n.natAbs := by
  have hpow : 0 < 10 ^ s := Nat.pow_pos (by norm_num)
  have hquot : (n.tdiv (10 ^ s)).natAbs = n.natAbs / 10 ^ s := by
    rw [Int.natAbs_tdiv, Int.natAbs_pow]
    rfl
  have hdiv : 10 ^ s ≤ n.natAbs ↔ 0 < n.natAbs / 10 ^ s := by
    rw [Nat.div_pos_iff]
    exact ⟨fun h => ⟨hpow, h⟩, fun h => h.2⟩
  rw [hdiv, ← hquot]
  rcases lt_or_ge n 0 with h | h
  · have hle : 0 ≤ (-n).tdiv (10 ^ s) := Int.tdiv_nonneg (by omega) (by positivity)
    rw [Int.neg_tdiv] at hle
    omega
  · have hge : 0 ≤ n.tdiv (10 ^ s) := Int.tdiv_nonneg h (by positivity)
    omega

lemma abs_lt_pow_fits {n : ℤ} (hs : s ≤ 38) (h : |n| < 10 ^ s) : absI128 n = some |n| := by
  have hle : (10 : ℤ) ^ s ≤ 10 ^ 38 := pow_le_pow_right₀ (by norm_num) hs
  have hnonneg := abs_nonneg n
  rw [absI128, checkedI128, if_pos ⟨by linarith, by norm_num at hle ⊢; omega⟩]

lemma text_of_power (hs : 0 < a.scale) (hfit : a.scale ≤ 38) :
    a.text = some (minusOf (decide (a.mantissa.tdiv (10 ^ a.scale) < 0)) ++
      charsOf (Decimal.text (a.mantissa.natAbs / 10 ^ a.scale)) ++
      '.' :: charsOf (low a.scale (a.mantissa.natAbs % 10 ^ a.scale))) := by
  have hpower : a.power = some (10 ^ a.scale) := pow_fits hfit
  have hrest : (a.mantissa.tmod (10 ^ a.scale)).natAbs = a.mantissa.natAbs % 10 ^ a.scale := by
    rw [Int.natAbs_tmod, Int.natAbs_pow]
    rfl
  have hquot : (a.mantissa.tdiv (10 ^ a.scale)).natAbs = a.mantissa.natAbs / 10 ^ a.scale := by
    rw [Int.natAbs_tdiv, Int.natAbs_pow]
    rfl
  have hlt := Nat.mod_lt a.mantissa.natAbs (Nat.pow_pos (n := a.scale) (by norm_num : 0 < 10))
  have habs := abs_lt_pow_fits (n := a.mantissa.tmod (10 ^ a.scale)) hfit
    (by rw [Int.abs_eq_natAbs, hrest]; exact_mod_cast hlt)
  have hpadded : padded a.scale |a.mantissa.tmod (10 ^ a.scale)|.natAbs =
      low a.scale (a.mantissa.natAbs % 10 ^ a.scale) := by
    rw [Int.natAbs_abs, hrest, padded, Nat.div_eq_of_lt hlt, if_neg (Nat.lt_irrefl 0)]
  rw [text_of_places hs.ne' (by rw [hpower, restUnder, habs]) (by omega), hpadded,
    whole_of_power hpower, signed_eq, hquot]

lemma readsBack_iff_of_power (hm : InI128 a.mantissa) (hs : 0 < a.scale) (hfit : a.scale ≤ 38) :
    a.ReadsBack ↔ 0 ≤ a.mantissa ∨ 10 ^ a.scale ≤ |a.mantissa| := by
  have hlow := hm.1
  have hhigh := hm.2
  have hneg := tdiv_pow_neg_iff a.mantissa a.scale
  have hle : (10 : ℤ) ^ a.scale ≤ 10 ^ 38 := pow_le_pow_right₀ (by norm_num) hfit
  have hcast : ((10 ^ a.scale : ℕ) : ℤ) = 10 ^ a.scale := by push_cast; rfl
  have hfits : InI128 ((if decide (a.mantissa.tdiv (10 ^ a.scale) < 0) then -1 else 1) *
      (a.mantissa.natAbs : ℤ)) := by
    split_ifs with h
    · unfold InI128
      omega
    · rw [decide_eq_true_iff, hneg] at h
      have hnat : (a.mantissa.natAbs : ℤ) < 2 ^ 127 := by omega
      unfold InI128
      omega
  rw [readsBack_iff_of_text (text_of_power hs hfit)
    (Nat.mod_lt _ (Nat.pow_pos (by norm_num))) (by omega)
    (by rw [Nat.mul_comm]; exact Nat.div_add_mod ..) hfits, Int.abs_eq_natAbs]
  split_ifs with h
  · rw [decide_eq_true_iff, hneg] at h
    omega
  · rw [decide_eq_true_iff, hneg] at h
    omega

lemma readsBack_iff_past_power (hm : InI128 a.mantissa) (hfit : 39 ≤ a.scale) :
    a.ReadsBack ↔ a.scale < 2 ^ 16 ∧ 0 ≤ a.mantissa := by
  have hlow := hm.1
  have hhigh := hm.2
  have hs : a.scale ≠ 0 := by omega
  have hpower : a.power = none := pow_not_fits hfit
  have hbig := lt_pow hfit
  have hcast : ((10 ^ a.scale : ℕ) : ℤ) = 10 ^ a.scale := by push_cast; rfl
  have hnatAbs : a.mantissa.natAbs < 10 ^ a.scale := by omega
  by_cases hwidth : a.scale < 2 ^ 16 ∧ a.mantissa ≠ -2 ^ 127
  · have hpadded : padded a.scale a.mantissa.natAbs = low a.scale a.mantissa.natAbs := by
      rw [padded, Nat.div_eq_of_lt hnatAbs, if_neg (Nat.lt_irrefl 0)]
    have habs : absI128 a.mantissa = some |a.mantissa| := absI128_eq (by omega) hhigh
    have htext : a.text = some (minusOf false ++ charsOf (Decimal.text 0) ++
        '.' :: charsOf (low a.scale a.mantissa.natAbs)) := by
      rw [text_of_places hs (by rw [hpower, restUnder, habs]) hwidth.1, Int.natAbs_abs, hpadded,
        whole_past_power hpower]
      rfl
    rw [readsBack_iff_of_text htext hnatAbs (by omega) (by omega)
      (by unfold InI128; simp only [Bool.false_eq_true, if_false]; omega)]
    simp only [Bool.false_eq_true, if_false]
    omega
  · -- a formatter refuses the width, or the least number has no absolute value
    have hnone : a.text = none := by
      rw [CashDecimal.text, if_neg hs, fraction, if_neg hs, hpower, restUnder]
      by_cases hmin : a.mantissa = -2 ^ 127
      · have habs : absI128 a.mantissa = none := by
          rw [absI128, checkedI128, if_neg (by unfold InI128; rw [Int.abs_eq_natAbs]; omega)]
        rw [habs, Option.bind_none, Option.map_none]
      · rw [absI128_eq (by omega) hhigh, Option.bind_some, if_neg (fun h => hwidth ⟨h, hmin⟩), Option.map_none]
    refine ⟨?_, ?_⟩
    · rintro ⟨t, c, ht, -⟩
      rw [hnone] at ht
      cases ht
    · rintro ⟨hw, hnonneg⟩
      exact absurd ⟨hw, by omega⟩ hwidth

/-- **The text of a decimal reads back exactly where it shows the sign.** -/
theorem readsBack_iff (hm : InI128 a.mantissa) : a.ReadsBack ↔ a.SignShown := by
  rcases Nat.eq_zero_or_pos a.scale with hs | hs
  · exact ⟨fun _ => Or.inl hs, fun _ => readsBack_of_no_places hm hs⟩
  rcases Nat.lt_or_ge a.scale 39 with hfit | hfit
  · rw [readsBack_iff_of_power hm hs (by omega), SignShown]
    have hwidth : a.scale < 2 ^ 16 := by omega
    simp only [hs.ne', hwidth, true_and, false_or]
  · rw [readsBack_iff_past_power hm hfit, SignShown]
    have hnot : ¬10 ^ a.scale ≤ |a.mantissa| := by
      have hbig := lt_pow hfit
      have hlow := hm.1
      have hhigh := hm.2
      rw [Int.abs_eq_natAbs]
      omega
    simp only [hs.ne', hnot, or_false, false_or]

/-! ## Quotients -/

def quotientSign (n d : ℤ) : ℤ := if (n < 0) ≠ (d < 0) then -1 else 1

/-- **Where the arithmetic of a quotient fits**: the quotient is no overflow, twice the remainder is
not the least number, and a divisor that is the least number leaves more than half of itself. -/
def NoCorner (n d : ℤ) : Prop :=
  ¬(n = -2 ^ 127 ∧ d = -1) ∧ n.tmod d ≠ -2 ^ 126 ∧ (d = -2 ^ 127 → 2 ^ 126 < |n.tmod d|)

lemma tdiv_eq_sign (n d : ℤ) : n.tdiv d = quotientSign n d * (n.natAbs / d.natAbs : ℕ) := by
  have hone : ((n.natAbs : ℤ)).tdiv d.natAbs = (n.natAbs / d.natAbs : ℕ) := rfl
  have hsize : ∀ m : ℤ, m < 0 ∧ m = -(m.natAbs : ℤ) ∨ ¬m < 0 ∧ m = (m.natAbs : ℤ) := by
    intro m
    omega
  unfold quotientSign
  rcases hsize n with ⟨hn, hn'⟩ | ⟨hn, hn'⟩ <;> rcases hsize d with ⟨hd, hd'⟩ | ⟨hd, hd'⟩
  · have hneg := Int.neg_tdiv_neg (n.natAbs : ℤ) d.natAbs
    rw [← hn', ← hd'] at hneg
    rw [if_neg (by simp [hn, hd]), one_mul, ← hone, hneg]
  · rw [if_pos (by simp [hn, hd]), neg_one_mul, ← hone, ← Int.neg_tdiv, ← hn', ← hd']
  · rw [if_pos (by simp [hn, hd]), neg_one_mul, ← hone, ← Int.tdiv_neg, ← hn', ← hd']
  · rw [if_neg (by simp [hn, hd]), one_mul, ← hone, ← hn', ← hd']

lemma div_eq_sign (n d : ℤ) :
    (n : ℚ) / d = quotientSign n d * ((n.natAbs : ℚ) / d.natAbs) := by
  unfold quotientSign
  have hnat : ∀ m : ℤ, (m : ℚ) = if m < 0 then -(m.natAbs : ℚ) else m.natAbs := by
    intro m
    have hcast : (m.natAbs : ℚ) = ((m.natAbs : ℤ) : ℚ) := rfl
    split_ifs with h
    · rw [hcast, Int.ofNat_natAbs_of_nonpos h.le]
      push_cast
      ring
    · rw [hcast, Int.natAbs_of_nonneg (not_lt.1 h)]
  rw [hnat n, hnat d]
  by_cases hn : n < 0 <;> by_cases hd : d < 0 <;>
    simp [hn, hd, neg_div, div_neg]

lemma quotientSign_cases (n d : ℤ) : quotientSign n d = 1 ∨ quotientSign n d = -1 := by
  unfold quotientSign
  split_ifs
  · exact Or.inr rfl
  · exact Or.inl rfl

lemma isRounded_quotient (n : ℤ) {d : ℤ} (hd : d ≠ 0) :
    IsRounded ((n : ℚ) / d) (quotientSign n d * (roundDiv n.natAbs d.natAbs : ℕ)) := by
  have hround := isRounded_roundDiv n.natAbs (Int.natAbs_pos.2 hd)
  rw [div_eq_sign]
  rcases quotientSign_cases n d with h | h
  · rw [h]
    simpa using hround
  · rw [h]
    simpa using hround.neg

lemma natAbs_tmod (n d : ℤ) : (n.tmod d).natAbs = n.natAbs % d.natAbs := Int.natAbs_tmod n d

lemma quotientTo_eq {n d : ℤ} (hn : InI128 n) (hd : InI128 d) (hd0 : d ≠ 0) (h : NoCorner n d)
    (places : ℕ) :
    quotientTo n d places = some ⟨quotientSign n d * (roundDiv n.natAbs d.natAbs : ℕ), places⟩ := by
  obtain ⟨hover, hmin, hleast⟩ := h
  have hsign := quotientSign_cases n d
  have hrem := natAbs_tmod n d
  have hx : n.natAbs ≤ 2 ^ 127 := by
    have hlow := hn.1
    have hhigh := hn.2
    omega
  have hy : d.natAbs ≤ 2 ^ 127 := by
    have hlow := hd.1
    have hhigh := hd.2
    omega
  have hy0 : 0 < d.natAbs := Int.natAbs_pos.2 hd0
  have hlt := Nat.mod_lt n.natAbs hy0
  -- the quotient fits, and with it what is rounded away from nought
  have hquot : d.natAbs = 1 ∨ n.natAbs / d.natAbs ≤ 2 ^ 126 := by
    rcases Nat.lt_or_ge d.natAbs 2 with hone | htwo
    · exact Or.inl (by omega)
    · refine Or.inr ((Nat.div_le_div_left htwo (by norm_num)).trans ?_)
      omega
  have htdiv := tdiv_eq_sign n d
  have hfits : checkedI128 (n.tdiv d) = some (n.tdiv d) := by
    rw [checkedI128, if_pos]
    rcases hquot with hone | hle
    · rcases (by omega : d = 1 ∨ d = -1) with rfl | rfl
      · rw [Int.tdiv_one]
        exact hn
      · have hlow := hn.1
        have hhigh := hn.2
        have hne : n ≠ -2 ^ 127 := fun heq => hover ⟨heq, rfl⟩
        rw [Int.tdiv_neg, Int.tdiv_one]
        exact ⟨by omega, by omega⟩
    · rw [htdiv]
      generalize n.natAbs / d.natAbs = q at hle
      unfold InI128
      rcases hsign with h | h <;> rw [h] <;> omega
  have hup : roundsUp (n.tdiv d) (n.tmod d) d = some (decide (d.natAbs < 2 * (n.natAbs % d.natAbs) ∨
      (2 * (n.natAbs % d.natAbs) = d.natAbs ∧ n.natAbs / d.natAbs % 2 = 1))) := by
    have hparity : (n.tdiv d).tmod 2 ≠ 0 ↔ n.natAbs / d.natAbs % 2 = 1 := by
      have hnat : ((n.tdiv d).tmod 2).natAbs = n.natAbs / d.natAbs % 2 := by
        rw [Int.natAbs_tmod, Int.natAbs_tdiv]
        rfl
      rw [← hnat]
      omega
    unfold roundsUp
    by_cases htwice : InI128 (n.tmod d * 2)
    · have habs : absI128 (n.tmod d * 2) = some |n.tmod d * 2| := by
        have hlow := htwice.1
        exact absI128_eq (by omega) htwice.2
      have hden : absI128 d = some |d| := by
        have hne : d ≠ -2 ^ 127 := by
          intro heq
          have hbig := hleast heq
          have hlow := htwice.1
          have hhigh := htwice.2
          rw [Int.abs_eq_natAbs] at hbig
          omega
        have hlow := hd.1
        exact absI128_eq (by omega) hd.2
      rw [checkedI128, if_pos htwice]
      simp only [habs, hden, Option.bind_some, Option.map_some]
      refine congrArg some (decide_eq_decide.2 ?_)
      have htwo : |n.tmod d * 2| = ((2 * (n.natAbs % d.natAbs) : ℕ) : ℤ) := by
        rw [Int.abs_eq_natAbs, Int.natAbs_mul, hrem, Nat.mul_comm]
        rfl
      rw [hparity, htwo, Int.abs_eq_natAbs, Nat.cast_lt, Nat.cast_inj]
    · -- twice the remainder is past any divisor
      rw [checkedI128, if_neg htwice]
      refine congrArg some (decide_eq_true ?_).symm
      refine Or.inl ?_
      unfold InI128 at htwice
      rw [Int.abs_eq_natAbs] at hleast
      by_cases heq : d = -2 ^ 127
      · have hbig := hleast heq
        omega
      · have hlow := hd.1
        have hhigh := hd.2
        omega
  rw [quotientTo, hfits, Option.bind_some, hup, Option.bind_some]
  have hvalue : n.tdiv d + (if decide (d.natAbs < 2 * (n.natAbs % d.natAbs) ∨
      (2 * (n.natAbs % d.natAbs) = d.natAbs ∧ n.natAbs / d.natAbs % 2 = 1)) = true
      then quotientSign n d else 0) = quotientSign n d * (roundDiv n.natAbs d.natAbs : ℕ) := by
    rw [htdiv, roundDiv]
    simp only [decide_eq_true_eq]
    split_ifs
    · push_cast
      ring
    · push_cast
      ring
  have hround := roundDiv_le n.natAbs d.natAbs
  have hchecked : checkedI128 (quotientSign n d * (roundDiv n.natAbs d.natAbs : ℕ)) =
      some (quotientSign n d * (roundDiv n.natAbs d.natAbs : ℕ)) := by
    rw [checkedI128, if_pos]
    rcases hquot with hone | hle
    · have hsame : roundDiv n.natAbs d.natAbs = n.natAbs / d.natAbs := by
        rw [roundDiv, hone, Nat.mod_one, Nat.div_one]
        simp
      rw [hsame, ← htdiv]
      by_contra hcon
      rw [checkedI128, if_neg hcon] at hfits
      cases hfits
    · generalize n.natAbs / d.natAbs = q at hle hround
      unfold InI128
      rcases hsign with h | h <;> rw [h] <;> omega
  change (checkedI128 (n.tdiv d + if decide _ = true then quotientSign n d else 0)).map _ = _
  rw [hvalue, hchecked]
  rfl

/-- What a quotient of whole numbers rounds to, where anything is returned and it is right. -/
def QuotientRounded (n d : ℤ) (places : ℕ) : Prop :=
  ∃ m, quotientTo n d places = some ⟨m, places⟩ ∧ IsRounded ((n : ℚ) / d) m

/-- **A quotient is rounded once exactly away from the corners.** -/
theorem quotientRounded_iff {n d : ℤ} (hn : InI128 n) (hd : InI128 d) (hd0 : d ≠ 0) (places : ℕ) :
    QuotientRounded n d places ↔ NoCorner n d := by
  refine ⟨?_, fun h => ⟨_, quotientTo_eq hn hd hd0 h places, isRounded_quotient n hd0⟩⟩
  rintro ⟨m, hm, hround⟩
  rw [quotientTo] at hm
  obtain ⟨q, hq, hm⟩ := Option.bind_eq_some_iff.1 hm
  obtain ⟨up, hup, hm⟩ := Option.bind_eq_some_iff.1 hm
  have hqfits : InI128 (n.tdiv d) ∧ q = n.tdiv d := by
    rw [checkedI128] at hq
    split_ifs at hq with h
    exact ⟨h, (Option.some.inj hq).symm⟩
  obtain ⟨hqfits, rfl⟩ := hqfits
  refine ⟨?_, ?_, ?_⟩
  · rintro ⟨rfl, rfl⟩
    exact absurd hqfits (by decide)
  · intro hrem
    rw [roundsUp, hrem, checkedI128, if_pos (by decide)] at hup
    simp only [absI128, checkedI128] at hup
    rw [if_neg (by decide)] at hup
    cases hup
  · intro hleast
    have hremlt := natAbs_tmod n d
    have hrange := Nat.mod_lt n.natAbs (Int.natAbs_pos.2 hd0)
    have hdabs : d.natAbs = 2 ^ 127 := by omega
    rw [Int.abs_eq_natAbs]
    unfold roundsUp at hup
    by_cases htwice : InI128 (n.tmod d * 2)
    · rw [checkedI128, if_pos htwice] at hup
      obtain ⟨t, -, hup⟩ := Option.bind_eq_some_iff.1 hup
      rw [hleast] at hup
      rw [absI128, checkedI128, if_neg (by decide)] at hup
      cases hup
    · rw [checkedI128, if_neg htwice] at hup
      obtain rfl := Option.some.inj hup
      by_contra hnot
      have hhalf : (n.tmod d).natAbs = 2 ^ 126 := by
        unfold InI128 at htwice
        omega
      -- the numerator is half the divisor, which rounds to nought
      have hnlt : n.natAbs = 2 ^ 126 := by
        have hlow := hn.1
        have hhigh := hn.2
        have hdiv := Nat.div_add_mod n.natAbs d.natAbs
        rw [← hremlt, hhalf, hdabs] at hdiv
        have hle : n.natAbs ≤ 2 ^ 127 := by omega
        have hzero : n.natAbs / 2 ^ 127 = 0 := by
          by_contra hpos
          have hone := Nat.one_le_iff_ne_zero.2 hpos
          omega
        rw [hzero] at hdiv
        omega
      have hzero := hround.unique (isRounded_quotient n hd0)
      rw [hnlt, hdabs, show roundDiv (2 ^ 126) (2 ^ 127) = 0 by decide] at hzero
      have htdiv := tdiv_eq_sign n d
      rw [hnlt, hdabs, show (2 ^ 126 / 2 ^ 127 : ℕ) = 0 by decide] at htdiv
      rw [htdiv] at hm
      have hmant : (checkedI128 (quotientSign n d * ((0 : ℕ) : ℤ) + quotientSign n d)).map
          (fun mantissa => (⟨mantissa, places⟩ : CashDecimal)) = some ⟨m, places⟩ := hm
      obtain ⟨m', hm', heq⟩ := Option.map_eq_some_iff.1 hmant
      rw [checkedI128] at hm'
      split_ifs at hm'
      have hsame := Option.some.inj hm'
      have hmm : m' = m := congrArg CashDecimal.mantissa heq
      rcases quotientSign_cases n d with h | h <;> rw [h] at hsame hzero <;> omega

variable {places : ℕ}

lemma scaled_eq {n : ℤ} (h : a.scaled places = some n) :
    n = a.mantissa * 10 ^ places ∧ InI128 n ∧ places ≤ 38 := by
  obtain ⟨factor, hfactor, hn⟩ := Option.bind_eq_some_iff.1 h
  rw [checkedI128] at hfactor hn
  split_ifs at hfactor with hpow
  split_ifs at hn with hfits
  refine ⟨?_, ?_, ?_⟩
  · rw [← Option.some.inj hn, ← Option.some.inj hfactor]
  · rwa [← Option.some.inj hn]
  · by_contra hlt
    have hpast : 39 ≤ places := by omega
    exact absurd hpow.2 (lt_pow hpast).le.not_gt

lemma overPlaces_of_scaled (f : Doubles) {b : CashDecimal} {n d : ℤ}
    (hb : b.mantissa ≠ 0) (hreach : b.scale + places < 2 ^ 32)
    (hn : a.scaled (b.scale + places) = some n) (hd : b.scaled a.scale = some d) :
    overPlaces f a b places = quotientTo n d places := by
  rw [overPlaces, if_neg hb, checkedU32, if_pos hreach, Option.bind_some, hn, hd]

def QuotientExact (f : Doubles) (a b : CashDecimal) (places : ℕ) : Prop :=
  ∃ m, overPlaces f a b places = some ⟨m, places⟩ ∧
    IsRounded (a.value / b.value * 10 ^ places) m

/-- **Where the scalings fit, a quotient is rounded once exactly away from the corners.** -/
theorem quotientExact_iff (f : Doubles) {a b : CashDecimal} {n d : ℤ}
    (hn : a.scaled (b.scale + places) = some n) (hd : b.scaled a.scale = some d)
    (hb : b.mantissa ≠ 0) : QuotientExact f a b places ↔ NoCorner n d := by
  obtain ⟨hnval, hnfits, hreach⟩ := scaled_eq hn
  obtain ⟨hdval, hdfits, -⟩ := scaled_eq hd
  have hd0 : d ≠ 0 := by
    rw [hdval]
    exact mul_ne_zero hb (by positivity)
  have hover := overPlaces_of_scaled f hb (by omega) hn hd
  have hvalue : a.value / b.value * 10 ^ places = (n : ℚ) / d := by
    have hten : ∀ s : ℕ, (10 : ℚ) ^ s ≠ 0 := fun s => by positivity
    have hbq : (b.mantissa : ℚ) ≠ 0 := by exact_mod_cast hb
    rw [hnval, hdval, value, value]
    push_cast
    rw [pow_add]
    have h1 := hten a.scale
    have h2 := hten b.scale
    field_simp
  rw [QuotientExact, hover, hvalue]
  exact quotientRounded_iff hnfits hdfits hd0 places

def MultipleTold (f : Doubles) (a b : CashDecimal) : Prop :=
  ∃ r, multipleOf f a b = some r ∧ (r = true ↔ ∃ k : ℤ, a.value = k * b.value)

/-- **Where the scalings fit, a multiple is told unless their quotient overflows.** -/
theorem multipleTold_iff (f : Doubles) {a b : CashDecimal} {n d : ℤ}
    (hn : a.scaled b.scale = some n) (hd : b.scaled a.scale = some d) (hb : b.mantissa ≠ 0) :
    MultipleTold f a b ↔ ¬(n = -2 ^ 127 ∧ d = -1) := by
  obtain ⟨hnval, hnfits, -⟩ := scaled_eq hn
  obtain ⟨hdval, hdfits, -⟩ := scaled_eq hd
  have hd0 : d ≠ 0 := by
    rw [hdval]
    exact mul_ne_zero hb (by positivity)
  have hmultiple : multipleOf f a b =
      (checkedI128 (n.tdiv d)).map fun _ => decide (n.tmod d = 0) := by
    rw [multipleOf, if_neg hb, hn, hd]
  have hsteps : (∃ k : ℤ, a.value = k * b.value) ↔ n.tmod d = 0 := by
    rw [← Int.dvd_iff_tmod_eq_zero]
    have hiff : ∀ k : ℤ, a.value = k * b.value ↔ n = d * k := by
      intro k
      have hpowa : (10 : ℚ) ^ a.scale ≠ 0 := by positivity
      have hpowb : (10 : ℚ) ^ b.scale ≠ 0 := by positivity
      rw [hnval, hdval, value, value, ← mul_div_assoc, div_eq_div_iff hpowa hpowb]
      have hcast : (a.mantissa : ℚ) * 10 ^ b.scale = k * b.mantissa * 10 ^ a.scale ↔
          ((a.mantissa * 10 ^ b.scale : ℤ) : ℚ) = ((b.mantissa * 10 ^ a.scale * k : ℤ) : ℚ) := by
        push_cast
        rw [show (k : ℚ) * b.mantissa * 10 ^ a.scale = b.mantissa * 10 ^ a.scale * k by ring]
      rw [hcast, Int.cast_inj]
    constructor
    · rintro ⟨k, hk⟩
      exact ⟨k, (hiff k).1 hk⟩
    · rintro ⟨k, hk⟩
      exact ⟨k, (hiff k).2 hk⟩
  rw [MultipleTold, hmultiple, hsteps]
  constructor
  · rintro ⟨r, hr, -⟩ ⟨rfl, rfl⟩
    rw [checkedI128, if_neg (by decide)] at hr
    cases hr
  · intro hcorner
    have hfits : InI128 (n.tdiv d) := by
      rcases (by omega : d.natAbs = 1 ∨ 2 ≤ d.natAbs) with hone | htwo
      · rcases (by omega : d = 1 ∨ d = -1) with rfl | rfl
        · rw [Int.tdiv_one]
          exact hnfits
        · have hlow := hnfits.1
          have hhigh := hnfits.2
          have hne : n ≠ -2 ^ 127 := fun heq => hcorner ⟨heq, rfl⟩
          rw [Int.tdiv_neg, Int.tdiv_one]
          exact ⟨by omega, by omega⟩
      · have hle : n.natAbs / d.natAbs ≤ n.natAbs / 2 := Nat.div_le_div_left htwo (by norm_num)
        have hquot : (n.tdiv d).natAbs = n.natAbs / d.natAbs := Int.natAbs_tdiv n d
        rw [← hquot] at hle
        have hlow := hnfits.1
        have hhigh := hnfits.2
        unfold InI128
        omega
    exact ⟨_, by rw [checkedI128, if_pos hfits, Option.map_some], decide_eq_true_iff⟩

/-! ## Products -/

/-- How many digits a product gives up: those past the sixteenth, as far as it has places. -/
def digitsPast (n scale : ℕ) : ℕ := min (Nat.log 10 n - 15) scale

/-- The digits and places that are left when a size drops one digit after another. -/
def cutTo : ℕ → ℕ → ℕ × ℕ
  | n, 0 => (n, 0)
  | n, s + 1 => if 10 ^ 16 ≤ n then cutTo (roundDiv n 10) s else (n, s + 1)

lemma iterate_pow (j : ℕ) : ∀ k ≤ j, (roundDiv · 10)^[k] (10 ^ j) = 10 ^ (j - k)
  | 0, _ => rfl
  | k + 1, hk => by
      have hexact : roundDiv (10 ^ (j - k)) 10 = 10 ^ (j - (k + 1)) := by
        have hsucc : j - k = (j - (k + 1)) + 1 := by omega
        rw [hsucc, Nat.pow_succ, roundDiv, Nat.mul_mod_left, Nat.mul_div_cancel _ (by norm_num)]
        simp
      rw [Function.iterate_succ_apply', iterate_pow j k (by omega), hexact]

lemma cutTo_value (n s : ℕ) : ((cutTo n s).1 : ℚ) / 10 ^ (cutTo n s).2 =
    ((roundDiv · 10)^[digitsPast n s] n : ℕ) / 10 ^ (s - digitsPast n s) := by
  induction s generalizing n with
  | zero => rw [cutTo, digitsPast, Nat.min_zero]; rfl
  | succ s ih =>
      rw [cutTo]
      split_ifs with hbig
      · have hlog : 16 ≤ Nat.log 10 n := Nat.le_log_of_pow_le (by norm_num) hbig
        have hn0 : n ≠ 0 := by
          rintro rfl
          exact absurd hbig (by norm_num)
        have hlow := Nat.pow_log_le_self 10 hn0
        have hhigh := Nat.lt_pow_succ_log_self (by norm_num : 1 < 10) n
        obtain ⟨l, hl⟩ : ∃ l, Nat.log 10 n = l + 1 := ⟨Nat.log 10 n - 1, by omega⟩
        rw [hl] at hlow hhigh
        have hle := le_roundDiv n 10
        have hge := roundDiv_le n 10
        rw [Nat.pow_succ] at hlow hhigh
        rw [Nat.pow_succ] at hhigh
        rw [ih]
        rcases Nat.lt_or_ge (roundDiv n 10) (10 ^ (l + 1)) with hlt | hpow
        · -- one digit fewer
          have hlog' : Nat.log 10 (roundDiv n 10) = l := by
            refine Nat.log_eq_of_pow_le_of_lt_pow ?_ hlt
            omega
          have hpast : digitsPast n (s + 1) = digitsPast (roundDiv n 10) s + 1 := by
            rw [digitsPast, digitsPast, hl, hlog']
            omega
          rw [hpast, Function.iterate_succ_apply, Nat.add_sub_add_right]
        · -- the digits were all nines and round up to a power of ten
          have heq : roundDiv n 10 = 10 ^ (l + 1) := by
            rw [Nat.pow_succ] at hpow ⊢
            omega
          have hlog' : Nat.log 10 (roundDiv n 10) = l + 1 := by
            rw [heq, Nat.log_pow (by norm_num)]
          have hone : digitsPast (roundDiv n 10) s = min (l - 14) s := by
            rw [digitsPast, hlog']
            omega
          have hpast : digitsPast n (s + 1) = min (l - 15) s + 1 := by
            rw [digitsPast, hl]
            omega
          have hvalue : ∀ k ≤ s, k ≤ l + 1 →
              (((roundDiv · 10)^[k] (10 ^ (l + 1)) : ℕ) : ℚ) / 10 ^ (s - k) =
                10 ^ (l + 1) / 10 ^ s := by
            intro k hks hkl
            rw [iterate_pow (l + 1) k hkl, div_eq_div_iff (by positivity) (by positivity)]
            push_cast
            rw [← pow_add, ← pow_add]
            congr 1
            omega
          rw [hone, hpast, Function.iterate_succ_apply, heq, Nat.add_sub_add_right,
            hvalue _ (min_le_right _ _) (by omega), hvalue _ (min_le_right _ _) (by omega)]
      · have hpast : digitsPast n (s + 1) = 0 := by
          have hlt : Nat.log 10 n < 16 := Nat.log_lt_of_lt_pow' (by norm_num) (not_le.1 hbig)
          rw [digitsPast]
          omega
        rw [hpast]
        rfl

def StaysExact (a b : CashDecimal) : Prop :=
  digitsPast (a.mantissa * b.mantissa).natAbs (a.scale + b.scale) = 0 ∨
    (a.mantissa * b.mantissa).natAbs * 10 ^ (a.scale + b.scale - 1) < 2 ^ 127

lemma absI128_signed {e : ℤ} (he : e = 1 ∨ e = -1) {n : ℕ} (hn : n < 2 ^ 127) :
    absI128 (e * n) = some (n : ℤ) := by
  have habs : |e * (n : ℤ)| = n := by
    rw [abs_mul, Nat.abs_cast]
    rcases he with rfl | rfl <;> simp
  rw [absI128, habs, checkedI128, if_pos ⟨by omega, by omega⟩]

lemma overPlaces_unit (f : Doubles) {e : ℤ} (he : e = 1 ∨ e = -1) {n : ℕ} (hn : 10 ^ 16 ≤ n)
    (hs : s + 1 < 2 ^ 32) (hfit : n * 10 ^ s < 2 ^ 127) :
    overPlaces f ⟨e * n, s + 1⟩ unit s = some ⟨e * (roundDiv n 10 : ℕ), s⟩ := by
  have hpow : 10 ^ 16 * 10 ^ s ≤ n * 10 ^ s := Nat.mul_le_mul_right _ hn
  have hten : 10 ^ s * 10 = 10 ^ (s + 1) := (Nat.pow_succ ..).symm
  have hpos : 0 < 10 ^ s := Nat.pow_pos (by norm_num)
  have hcast : ((10 ^ s : ℕ) : ℤ) = 10 ^ s := by push_cast; rfl
  have hcast' : ((10 ^ (s + 1) : ℕ) : ℤ) = 10 ^ (s + 1) := by push_cast; rfl
  have hprod : ((n * 10 ^ s : ℕ) : ℤ) = n * 10 ^ s := by push_cast; rfl
  have hnfits : InI128 (e * n * 10 ^ s) := by
    rw [mul_assoc, ← hprod]
    unfold InI128
    rcases he with rfl | rfl <;> omega
  have hpowfits : ∀ {k : ℕ}, ((10 ^ k : ℕ) : ℤ) < 2 ^ 127 → checkedI128 (10 ^ k) = some (10 ^ k) := by
    intro k hk
    push_cast at hk
    have hkpos : (0 : ℤ) < 10 ^ k := by positivity
    rw [checkedI128, if_pos ⟨by omega, hk⟩]
  have hscaled : (⟨e * n, s + 1⟩ : CashDecimal).scaled (0 + s) = some (e * n * 10 ^ s) := by
    rw [scaled, Nat.zero_add, hpowfits (by omega), Option.bind_some, checkedI128, if_pos hnfits]
  have hunit : unit.scaled (s + 1) = some (10 ^ (s + 1)) := by
    rw [scaled, hpowfits (by omega), Option.bind_some, unit, one_mul, hpowfits (by omega)]
  have hnabs : (e * n * 10 ^ s : ℤ).natAbs = n * 10 ^ s := by
    rw [mul_assoc, ← hprod]
    rcases he with rfl | rfl <;> omega
  have hdabs : (10 ^ (s + 1) : ℤ).natAbs = 10 * 10 ^ s := by omega
  have hrem : ((e * n * 10 ^ s : ℤ).tmod (10 ^ (s + 1))).natAbs < 10 * 10 ^ s := by
    rw [natAbs_tmod, hnabs, hdabs]
    exact Nat.mod_lt _ (by omega)
  have hcorner : NoCorner (e * n * 10 ^ s) (10 ^ (s + 1)) :=
    ⟨fun h => by omega, fun h => by omega, fun h => by omega⟩
  have hsign : quotientSign (e * n * 10 ^ s) (10 ^ (s + 1)) = e := by
    have hdpos : ¬(10 ^ (s + 1) : ℤ) < 0 := by omega
    unfold quotientSign
    rw [mul_assoc, ← hprod]
    rcases he with rfl | rfl
    · rw [if_neg]
      simp only [hdpos, one_mul, ne_eq, eq_iff_iff, iff_false, not_not]
      omega
    · rw [if_pos]
      simp only [hdpos, neg_one_mul, ne_eq, eq_iff_iff, iff_false, not_not]
      omega
  rw [overPlaces_of_scaled f (b := unit) one_ne_zero (show 0 + s < 2 ^ 32 by omega) hscaled hunit,
    quotientTo_eq hnfits ⟨by omega, by omega⟩ (by omega) hcorner, hsign, hnabs, hdabs,
    roundDiv_mul n 10 hpos]

lemma dropPast_eq (f : Doubles) {e : ℤ} (he : e = 1 ∨ e = -1) {n : ℕ} (hn : n < 2 ^ 127)
    (hs : s < 2 ^ 32) (hfit : n < 10 ^ 16 ∨ s = 0 ∨ n * 10 ^ (s - 1) < 2 ^ 127) :
    dropPast f s ⟨e * n, s⟩ = some ⟨e * ((cutTo n s).1 : ℕ), (cutTo n s).2⟩ := by
  induction s generalizing n with
  | zero => rw [dropPast, absI128_signed he hn, Option.map_some, cutTo]
  | succ s ih =>
      rw [dropPast, absI128_signed he hn, Option.bind_some, cutTo]
      by_cases hbig : 10 ^ 16 ≤ n
      · have hprod : n * 10 ^ s < 2 ^ 127 := by
          rcases hfit with h | h | h
          · omega
          · omega
          · exact h
        have hround : roundDiv n 10 ≤ n := (roundDiv_le n 10).trans (by omega)
        rw [if_pos ⟨by exact_mod_cast hbig, Nat.succ_pos s⟩, if_pos hbig, Nat.add_sub_cancel,
          overPlaces_unit f he hbig hs hprod, Option.bind_some]
        refine ih (hround.trans_lt hn) (by omega) (Or.inr ?_)
        rcases Nat.eq_zero_or_pos s with rfl | hpos
        · exact Or.inl rfl
        · refine Or.inr (lt_of_le_of_lt ?_ hprod)
          exact Nat.mul_le_mul hround (Nat.pow_le_pow_right (by norm_num) (by omega))
      · rw [if_neg (fun h => hbig (by exact_mod_cast h.1)), if_neg hbig]

lemma dropPast_least (f : Doubles) (s fuel : ℕ) : dropPast f fuel ⟨-2 ^ 127, s⟩ = none := by
  have habs : absI128 (-2 ^ 127) = none := by
    rw [absI128, checkedI128, if_neg (by decide)]
  cases fuel <;> rw [dropPast, habs] <;> rfl

/-- The product is rounded once, to sixteen digits or to a whole number, whichever keeps more. -/
def ProductExact (f : Doubles) (a b : CashDecimal) : Prop :=
  ∃ c q, times f a b = some c ∧
    IsRounded ((a.mantissa * b.mantissa : ℤ) /
      10 ^ digitsPast (a.mantissa * b.mantissa).natAbs (a.scale + b.scale)) q ∧
    c.value = q / 10 ^ (a.scale + b.scale -
      digitsPast (a.mantissa * b.mantissa).natAbs (a.scale + b.scale))

/-- **Where its scalings fit, a product is rounded once, but for the fractions dropping its digits
one by one takes to the other side.** -/
theorem productExact_iff (f : Doubles) {a b : CashDecimal}
    (hm : InI128 (a.mantissa * b.mantissa)) (hs : a.scale + b.scale < 2 ^ 32)
    (hexact : StaysExact a b) :
    ProductExact f a b ↔ a.mantissa * b.mantissa ≠ -2 ^ 127 ∧
      ¬RoundsTwice (a.mantissa * b.mantissa).natAbs
        (digitsPast (a.mantissa * b.mantissa).natAbs (a.scale + b.scale)) := by
  have htimes : times f a b =
      dropPast f (a.scale + b.scale) ⟨a.mantissa * b.mantissa, a.scale + b.scale⟩ := by
    rw [times, product, checkedU32, if_pos hs, Option.bind_some, checkedI128, if_pos hm]
    rfl
  rw [ProductExact, htimes]
  unfold StaysExact at hexact
  generalize a.mantissa * b.mantissa = m at *
  generalize a.scale + b.scale = s at *
  by_cases hleast : m = -2 ^ 127
  · refine ⟨?_, fun h => absurd hleast h.1⟩
    rintro ⟨c, q, hc, -⟩
    rw [hleast, dropPast_least] at hc
    cases hc
  obtain ⟨e, he, hme⟩ : ∃ e : ℤ, (e = 1 ∨ e = -1) ∧ m = e * (m.natAbs : ℤ) := by
    rcases lt_or_ge m 0 with h | h
    · exact ⟨-1, Or.inr rfl, by omega⟩
    · exact ⟨1, Or.inl rfl, by omega⟩
  have hn : m.natAbs < 2 ^ 127 := by
    have hlow := hm.1
    have hhigh := hm.2
    omega
  have hfit : m.natAbs < 10 ^ 16 ∨ s = 0 ∨ m.natAbs * 10 ^ (s - 1) < 2 ^ 127 := by
    rcases hexact with h | h
    · rw [digitsPast] at h
      rcases (by omega : s = 0 ∨ Nat.log 10 m.natAbs < 16) with h | h
      · exact Or.inr (Or.inl h)
      · exact Or.inl (Nat.lt_pow_of_log_lt (by norm_num) h)
    · exact Or.inr (Or.inr h)
  have hdrop := dropPast_eq f he hn hs hfit
  rw [← hme] at hdrop
  have hvalue := cutTo_value m.natAbs s
  set k := digitsPast m.natAbs s with hk
  have hround : IsRounded ((m : ℚ) / 10 ^ k) (e * (roundDiv m.natAbs (10 ^ k) : ℕ)) := by
    have hpos := isRounded_roundDiv m.natAbs (Nat.pow_pos (n := k) (by norm_num : 0 < 10))
    rw [Nat.cast_pow, Nat.cast_ofNat] at hpos
    have hmq : (m : ℚ) = (e : ℚ) * (m.natAbs : ℚ) := by
      have hcast := congrArg (Int.cast : ℤ → ℚ) hme
      rwa [Int.cast_mul, Int.cast_natCast] at hcast
    rw [hmq, mul_div_assoc]
    rcases he with h | h
    · rw [h, Int.cast_one, one_mul, one_mul]
      exact hpos
    · rw [h, Int.cast_neg, Int.cast_one, neg_one_mul, neg_one_mul]
      exact hpos.neg
  have hcut : (⟨e * ((cutTo m.natAbs s).1 : ℕ), (cutTo m.natAbs s).2⟩ : CashDecimal).value =
      ((e * ((roundDiv · 10)^[k] m.natAbs : ℕ) : ℤ) : ℚ) / 10 ^ (s - k) := by
    rw [value]
    push_cast
    rw [mul_div_assoc, hvalue, mul_div_assoc]
  have hten : (10 : ℚ) ^ (s - k) ≠ 0 := by positivity
  have he0 : e ≠ 0 := by omega
  rw [← iterate_roundDiv_eq_iff]
  refine ⟨?_, ?_⟩
  · rintro ⟨c, q, hc, hq, hcv⟩
    refine ⟨hleast, ?_⟩
    rw [hdrop, Option.some_inj] at hc
    rw [← hc, hcut, div_left_inj' hten, Int.cast_inj, hq.unique hround] at hcv
    exact_mod_cast mul_left_cancel₀ he0 hcv
  · rintro ⟨-, hsame⟩
    refine ⟨_, _, hdrop, hround, ?_⟩
    rw [hcut, hsame]

end CashDecimal

/-! ## Rounding digit strings -/

def statedBy (w f : List UInt8) : ℚ := Decimal.value w + Decimal.value f / 10 ^ f.length

lemma statedBy_eq (w f : List UInt8) :
    statedBy w f = (Decimal.value (w ++ f) : ℚ) / 10 ^ f.length := by
  have hten : (10 : ℚ) ^ f.length ≠ 0 := by positivity
  rw [statedBy, value_append_all]
  push_cast
  field_simp

lemma statedBy_trimEndOf (w f : List UInt8) : statedBy w (trimEndOf 48 f) = statedBy w f := by
  obtain ⟨f', k, rfl, hlast⟩ := exists_trimEndOf 48 f
  have hten : (10 : ℚ) ^ f'.length ≠ 0 := by positivity
  have hten' : (10 : ℚ) ^ k ≠ 0 := by positivity
  rw [trimEndOf_append hlast, statedBy, statedBy, value_append_all, value_replicate,
    List.length_append, List.length_replicate, pow_add]
  push_cast
  field_simp
  ring

lemma toNat_succ_digit {d : UInt8} (h : isDigit d = true) :
    (d + 1 - 48).toNat = (d - 48).toNat + 1 := by
  obtain ⟨hlt, heq⟩ := digit_toNat h
  generalize (d - 48).toNat = k at *
  subst heq
  interval_cases k <;> decide

lemma exists_carry : ∀ {ds : List UInt8}, (∀ d ∈ ds, isDigit d = true) → (∃ d ∈ ds, d ≠ 57) →
    ∃ ds', carryOne ds = some ds' ∧ ds'.length = ds.length ∧
      Decimal.value ds'.reverse = Decimal.value ds.reverse + 1
  | [], _, ⟨_, hd, _⟩ => absurd hd List.not_mem_nil
  | d :: ds, hdigits, ⟨x, hx, hx9⟩ => by
      rw [carryOne]
      split_ifs with h9
      · obtain ⟨ds', hcarry, hlen, hvalue⟩ :=
          exists_carry (fun d hd => hdigits d (List.mem_cons_of_mem _ hd))
            ⟨x, (List.mem_cons.1 hx).resolve_left (fun heq => hx9 (heq.trans h9)), hx9⟩
        refine ⟨48 :: ds', by rw [hcarry]; rfl, by rw [List.length_cons, hlen, List.length_cons], ?_⟩
        rw [List.reverse_cons, List.reverse_cons, value_append, value_append, hvalue, h9]
        change 10 * (_ + 1) + 0 = 10 * _ + 9 + 1
        ring
      · refine ⟨_, rfl, by rw [List.length_cons, List.length_cons], ?_⟩
        rw [List.reverse_cons, List.reverse_cons, value_append, value_append,
          toNat_succ_digit (hdigits d List.mem_cons_self)]
        ring

lemma value_eq_zero_iff {t : List UInt8} (h : ∀ b ∈ t, isDigit b = true) :
    Decimal.value t = 0 ↔ ∀ b ∈ t, b = 48 := by
  induction t using List.reverseRecOn with
  | nil => simp [Decimal.value]
  | append_singleton t b ih =>
      have hdigit := digit_toNat (h b (List.mem_append_right _ (List.mem_singleton_self b)))
      rw [value_append]
      have hzero : (b - 48).toNat = 0 ↔ b = 48 := by
        constructor
        · intro hb
          rw [← hdigit.2, hb]
          rfl
        · rintro rfl
          rfl
      have hrest := ih fun d hd => h d (List.mem_append_left _ hd)
      constructor
      · intro hsum d hd
        rcases List.mem_append.1 hd with hd | hd
        · exact hrest.1 (by omega) d hd
        · rw [List.mem_singleton.1 hd]
          exact hzero.1 (by omega)
      · intro hall
        rw [hrest.2 fun d hd => hall d (List.mem_append_left _ hd),
          hzero.2 (hall b (List.mem_append_right _ (List.mem_singleton_self b)))]

lemma up_iff {digits rest : List UInt8} {first last : UInt8} (hfirst : isDigit first = true)
    (hrest : ∀ b ∈ rest, isDigit b = true) (hlast : isDigit last = true) :
    (first > 53 ∨ (first = 53 ∧ (rest.any (· ≠ 48) = true ∨
      (digits ++ [last]).getLast?.any (fun d => (d - 48) % 2 = 1) = true))) ↔
      10 ^ (rest.length + 1) < 2 * Decimal.value (first :: rest) ∨
        (2 * Decimal.value (first :: rest) = 10 ^ (rest.length + 1) ∧
          Decimal.value (digits ++ [last]) % 2 = 1) := by
  have hbeyond : rest.any (· ≠ 48) = true ↔ 0 < Decimal.value rest := by
    rw [Nat.pos_iff_ne_zero, ne_eq, value_eq_zero_iff hrest]
    simp
  have hodd : (digits ++ [last]).getLast?.any (fun d => (d - 48) % 2 = 1) = true ↔
      Decimal.value (digits ++ [last]) % 2 = 1 := by
    obtain ⟨hlt, heq⟩ := digit_toNat hlast
    rw [value_append, List.getLast?_concat, Option.any_some, decide_eq_true_iff]
    have hparity : (last - 48) % 2 = 1 ↔ (last - 48).toNat % 2 = 1 := by
      generalize (last - 48).toNat = k at *
      subst heq
      interval_cases k <;> decide
    rw [hparity]
    omega
  rw [hbeyond, hodd, show first :: rest = [first] ++ rest from rfl, value_append_all [first] rest,
    Nat.pow_succ]
  have hlt := value_lt hrest
  obtain ⟨hten, heq⟩ := digit_toNat hfirst
  have hvalue : Decimal.value [first] = (first - 48).toNat := by
    rw [show [first] = [] ++ [first] from rfl, value_append]
    exact Nat.zero_add _
  have hgt : first > 53 ↔ 5 < (first - 48).toNat := by
    generalize (first - 48).toNat = k at *
    subst heq
    interval_cases k <;> decide
  have hhalf : first = 53 ↔ (first - 48).toNat = 5 := by
    generalize (first - 48).toNat = k at *
    subst heq
    interval_cases k <;> decide
  rw [hvalue, hgt, hhalf]
  generalize (first - 48).toNat = k at *
  generalize Decimal.value rest = v at *
  generalize 10 ^ rest.length = p at *
  interval_cases k <;> omega

def DigitsRounded (whole fraction : List UInt8) (places : ℕ) : Prop :=
  ∃ w f n, roundedHalfEven whole fraction places = some (w, f) ∧
    IsRounded (statedBy whole fraction * 10 ^ places) n ∧ statedBy w f = n / 10 ^ places

lemma statedBy_cut {t : List UInt8} {places : ℕ} (h : places ≤ t.length) :
    statedBy (t.take (t.length - places)) (trimEndOf 48 (t.drop (t.length - places))) =
      (Decimal.value t : ℚ) / 10 ^ places := by
  rw [statedBy_trimEndOf, statedBy_eq, List.take_append_drop, List.length_drop,
    Nat.sub_sub_self h]

/-- **Digit strings are rounded half to even**, whatever they are. -/
theorem digitsRounded {whole fraction : List UInt8} (hw : ∀ b ∈ whole, isDigit b = true)
    (hf : ∀ b ∈ fraction, isDigit b = true) (places : ℕ) :
    DigitsRounded whole fraction places := by
  have hten : ∀ k : ℕ, (10 : ℚ) ^ k ≠ 0 := fun k => by positivity
  rw [DigitsRounded, roundedHalfEven]
  split_ifs with hlen
  · refine ⟨whole, _, (Decimal.value (whole ++ fraction) * 10 ^ (places - fraction.length) : ℕ), rfl,
      ?_, ?_⟩
    · have heq : statedBy whole fraction * 10 ^ places =
          ((Decimal.value (whole ++ fraction) * 10 ^ (places - fraction.length) : ℕ) : ℤ) := by
        obtain ⟨k, rfl⟩ := Nat.exists_eq_add_of_le hlen
        have h := hten fraction.length
        rw [statedBy_eq, Nat.add_sub_cancel_left, pow_add]
        push_cast
        field_simp
      rw [heq]
      exact isRounded_intCast _
    · obtain ⟨k, rfl⟩ := Nat.exists_eq_add_of_le hlen
      have h := hten fraction.length
      have h' := hten k
      rw [statedBy_trimEndOf, statedBy_eq, Nat.add_sub_cancel_left, pow_add]
      push_cast
      field_simp
  · obtain ⟨kept, first, rest, rfl, hkept⟩ : ∃ kept first rest,
        fraction = kept ++ first :: rest ∧ kept.length = places := by
      cases hdrop : fraction.drop places with
      | nil => exact absurd (List.drop_eq_nil_iff.1 hdrop) hlen
      | cons first rest =>
          refine ⟨fraction.take places, first, rest, ?_, ?_⟩
          · rw [← hdrop, List.take_append_drop]
          · rw [List.length_take]
            omega
    have hkeptd : ∀ b ∈ kept, isDigit b = true := fun b hb => hf b (List.mem_append_left _ hb)
    have hfirst : isDigit first = true :=
      hf first (List.mem_append_right _ List.mem_cons_self)
    have hrest : ∀ b ∈ rest, isDigit b = true := fun b hb =>
      hf b (List.mem_append_right _ (List.mem_cons_of_mem _ hb))
    have hdigits : ∀ b ∈ 48 :: (whole ++ kept), isDigit b = true := by
      intro b hb
      rcases List.mem_cons.1 hb with rfl | hb
      · rfl
      · exact (List.mem_append.1 hb).elim (hw b) (hkeptd b)
    obtain ⟨front, last, hshape⟩ : ∃ front last, 48 :: (whole ++ kept) = front ++ [last] :=
      ⟨_, _, (List.dropLast_append_getLast (List.cons_ne_nil _ _)).symm⟩
    have hlast : isDigit last = true :=
      hdigits last (hshape ▸ List.mem_append_right _ (List.mem_singleton_self last))
    have hvalue : Decimal.value (front ++ [last]) = Decimal.value (whole ++ kept) := by
      rw [← hshape, show (48 : UInt8) :: (whole ++ kept) = [48] ++ (whole ++ kept) from rfl,
        value_append_all]
      change 0 * _ + _ = _
      omega
    -- the number is the kept digits and the dropped ones behind them
    have hsplit : Decimal.value (whole ++ (kept ++ first :: rest)) =
        Decimal.value (whole ++ kept) * 10 ^ (rest.length + 1) + Decimal.value (first :: rest) := by
      rw [← List.append_assoc, value_append_all, List.length_cons]
    have hdropped : Decimal.value (first :: rest) < 10 ^ (rest.length + 1) :=
      value_lt (List.forall_mem_cons.2 ⟨hfirst, hrest⟩)
    have hdiv : Decimal.value (whole ++ (kept ++ first :: rest)) / 10 ^ (rest.length + 1) =
        Decimal.value (whole ++ kept) := by
      rw [hsplit, Nat.add_comm, Nat.add_mul_div_right _ _ (Nat.pow_pos (by norm_num)),
        Nat.div_eq_of_lt hdropped, Nat.zero_add]
    have hmod : Decimal.value (whole ++ (kept ++ first :: rest)) % 10 ^ (rest.length + 1) =
        Decimal.value (first :: rest) := by
      rw [hsplit, Nat.add_comm, Nat.add_mul_mod_self_right, Nat.mod_eq_of_lt hdropped]
    have hstated : statedBy whole (kept ++ first :: rest) * 10 ^ places =
        (Decimal.value (whole ++ (kept ++ first :: rest)) : ℚ) / ((10 ^ (rest.length + 1) : ℕ) : ℚ) := by
      have h := hten places
      have h' := hten (rest.length + 1)
      rw [statedBy_eq, List.length_append, List.length_cons, hkept, pow_add, Nat.cast_pow,
        Nat.cast_ofNat]
      field_simp
    have hround := isRounded_roundDiv (Decimal.value (whole ++ (kept ++ first :: rest)))
      (Nat.pow_pos (n := rest.length + 1) (by norm_num : 0 < 10))
    rw [← hstated] at hround
    have hlength : places ≤ (48 :: (whole ++ kept)).length := by
      rw [List.length_cons, List.length_append]
      omega
    have htake : (kept ++ first :: rest).take places = kept := by
      rw [← hkept]
      exact List.take_left
    have hdrop : (kept ++ first :: rest).drop places = first :: rest := by
      rw [← hkept]
      exact List.drop_left
    have hup := @up_iff front _ _ _ hfirst hrest hlast
    rw [hvalue] at hup
    simp only [htake, hdrop, List.head?_cons, Option.bind_some, List.drop_one, List.tail_cons,
      List.cons_append, hshape]
    by_cases hrounds : 10 ^ (rest.length + 1) < 2 * Decimal.value (first :: rest) ∨
        (2 * Decimal.value (first :: rest) = 10 ^ (rest.length + 1) ∧
          Decimal.value (whole ++ kept) % 2 = 1)
    · rw [if_pos (hup.2 hrounds)]
      obtain ⟨ds, hcarry, hlen', hcarried⟩ := @exists_carry (front ++ [last]).reverse
        (fun d hd => hdigits d (hshape ▸ List.mem_reverse.1 hd))
        ⟨48, List.mem_reverse.2 (hshape ▸ List.mem_cons_self), by decide⟩
      have hnew : roundDiv (Decimal.value (whole ++ (kept ++ first :: rest)))
          (10 ^ (rest.length + 1)) = Decimal.value ds.reverse := by
        rw [roundDiv, hdiv, hmod, if_pos hrounds, hcarried, List.reverse_reverse, hvalue]
      rw [hcarry]
      refine ⟨_, _, _, rfl, hround, ?_⟩
      rw [statedBy_cut, hnew]
      · push_cast
        rfl
      · rw [List.length_reverse, hlen', List.length_reverse, ← hshape]
        exact hlength
    · rw [if_neg fun h => hrounds (hup.1 h)]
      have hnew : roundDiv (Decimal.value (whole ++ (kept ++ first :: rest)))
          (10 ^ (rest.length + 1)) = Decimal.value (front ++ [last]) := by
        rw [roundDiv, hdiv, hmod, if_neg hrounds, Nat.add_zero, hvalue]
      refine ⟨_, _, _, rfl, hround, ?_⟩
      rw [statedBy_cut, hnew]
      · push_cast
        rfl
      · rw [← hshape]
        exact hlength

/-! ## What parses -/

lemma parseI128_fits {v : List Char} {n : ℤ} (h : parseI128 v = some n) : InI128 n := by
  have hbound : ∀ {bound m : ℕ} {t : List UInt8}, Decimal.parse bound t = some m → m < bound := by
    intro bound m t hm
    simp only [Decimal.parse] at hm
    generalize (if t.head? = some 43 then t.tail else t) = ds at hm
    split_ifs at hm with hds
    exact Option.some.inj hm ▸ hds.2.2
  unfold parseI128 at h
  split at h
  · split_ifs at h
    obtain ⟨m, hm, rfl⟩ := Option.map_eq_some_iff.1 h
    have hlt := hbound hm
    exact ⟨by omega, by omega⟩
  · obtain ⟨m, hm, rfl⟩ := Option.map_eq_some_iff.1 h
    have hlt := hbound hm
    exact ⟨by omega, by omega⟩

lemma CashDecimal.parse_fits {t : List Char} {a : CashDecimal} (h : parse t = some a) :
    InI128 a.mantissa := by
  rw [parse] at h
  split_ifs at h
  obtain ⟨n, hn, rfl⟩ := Option.map_eq_some_iff.1 h
  exact parseI128_fits hn

structure ParsedDecimal extends CashDecimal where
  written : List Char
  read : CashDecimal.parse written = some toCashDecimal

structure DigitString where
  digits : List UInt8
  isDigits : ∀ b ∈ digits, isDigit b = true

open CashDecimal in
/-- **The decimals of a cash amount are exact** where a text shows its sign, where a quotient's
arithmetic stays off its corners, and where no product's digits are rounded twice. -/
theorem cash_decimals (f : Doubles) (a b : ParsedDecimal) (places : ℕ)
    (whole fraction : DigitString) :
    (a.ReadsBack ↔ a.SignShown) ∧
      (b.mantissa ≠ 0 → ∀ n d, a.scaled (b.scale + places) = some n → b.scaled a.scale = some d →
        (QuotientExact f a.toCashDecimal b.toCashDecimal places ↔ NoCorner n d)) ∧
      (InI128 (a.mantissa * b.mantissa) → StaysExact a.toCashDecimal b.toCashDecimal →
        (ProductExact f a.toCashDecimal b.toCashDecimal ↔
          a.scale + b.scale < 2 ^ 32 ∧ a.mantissa * b.mantissa ≠ -2 ^ 127 ∧
            ¬RoundsTwice (a.mantissa * b.mantissa).natAbs
              (digitsPast (a.mantissa * b.mantissa).natAbs (a.scale + b.scale)))) ∧
      (b.mantissa ≠ 0 → ∀ n d, a.scaled b.scale = some n → b.scaled a.scale = some d →
        (MultipleTold f a.toCashDecimal b.toCashDecimal ↔ ¬(n = -2 ^ 127 ∧ d = -1))) ∧
      DigitsRounded whole.digits fraction.digits places := by
  refine ⟨readsBack_iff (parse_fits a.read), ?_, ?_, ?_,
    digitsRounded whole.isDigits fraction.isDigits places⟩
  · intro hb n d hn hd
    exact quotientExact_iff f hn hd hb
  · intro hm hexact
    by_cases hs : a.scale + b.scale < 2 ^ 32
    · rw [productExact_iff f hm hs hexact]
      exact (and_iff_right hs).symm
    · -- the places of the product overflow
      refine ⟨?_, fun h => absurd h.1 hs⟩
      rintro ⟨c, q, hc, -⟩
      rw [times, product, checkedU32, if_neg hs] at hc
      cases hc
  · intro hb n d hn hd
    exact multipleTold_iff f hn hd hb

def noDoubles : CashDecimal.Doubles := ⟨fun _ _ _ => none, fun _ _ _ => none, fun _ _ => none,
  fun h => nomatch h⟩

def threeTenths : ParsedDecimal := ⟨⟨3, 1⟩, "0.30".toList, by decide⟩

def sevenCents : ParsedDecimal := ⟨⟨7, 2⟩, "0.07".toList, by decide⟩

open CashDecimal in
theorem cash_decimals_cents : threeTenths.ReadsBack ∧
    QuotientExact noDoubles threeTenths.toCashDecimal sevenCents.toCashDecimal 4 ∧
    ProductExact noDoubles threeTenths.toCashDecimal sevenCents.toCashDecimal ∧
    MultipleTold noDoubles threeTenths.toCashDecimal sevenCents.toCashDecimal := by
  have hall := cash_decimals noDoubles threeTenths sevenCents 4 ⟨[], by simp⟩ ⟨[], by simp⟩
  have hpast : digitsPast 21 3 = 0 := by
    rw [digitsPast, show Nat.log 10 21 = 1 from
      Nat.log_eq_of_pow_le_of_lt_pow (by norm_num) (by norm_num)]
    rfl
  refine ⟨hall.1.2 (Or.inr ⟨by decide, Or.inl (by decide)⟩),
    (hall.2.1 (by decide) (3 * 10 ^ 6) (7 * 10) (by decide) (by decide)).2 ?_,
    (hall.2.2.1 (by decide) (Or.inr (by decide))).2 ⟨by decide, by decide, ?_⟩,
    (hall.2.2.2.1 (by decide) (3 * 10 ^ 2) (7 * 10) (by decide) (by decide)).2
      (by decide)⟩
  · exact ⟨by decide, by decide, by decide⟩
  · rw [show (threeTenths.mantissa * sevenCents.mantissa).natAbs = 21 from rfl,
      show threeTenths.scale + sevenCents.scale = 3 from rfl, hpast]
    decide

def minusAHalf : ParsedDecimal := ⟨⟨-5, 1⟩, "-0.5".toList, by decide⟩

def eighteenDigits : ParsedDecimal :=
  ⟨⟨123456789012345146, 2⟩, "1234567890123451.46".toList, by decide⟩

def oneUnit : ParsedDecimal := ⟨⟨1, 0⟩, "1".toList, by decide⟩

open CashDecimal in
/-- **The text of minus a half reads as a half, and a product that ends in 1.46 units of its
sixteenth digit is rounded to 1.5 and then to 2.** -/
theorem cash_decimals_wrong : ¬minusAHalf.ReadsBack ∧
    ¬ProductExact noDoubles eighteenDigits.toCashDecimal oneUnit.toCashDecimal := by
  constructor
  · rw [readsBack_iff (parse_fits minusAHalf.read)]
    rintro (h | ⟨-, h | h⟩)
    · exact absurd h (by decide)
    · exact absurd h (by decide)
    · exact absurd h (by decide)
  · have hpast : digitsPast 123456789012345146 2 = 2 := by
      rw [digitsPast, show Nat.log 10 123456789012345146 = 17 from
        Nat.log_eq_of_pow_le_of_lt_pow (by norm_num) (by norm_num)]
      rfl
    rw [productExact_iff noDoubles (by decide) (by decide) (Or.inr (by decide))]
    rintro ⟨-, h⟩
    rw [show (eighteenDigits.mantissa * oneUnit.mantissa).natAbs = 123456789012345146 from rfl,
      show eighteenDigits.scale + oneUnit.scale = 2 from rfl, hpast] at h
    exact h (by decide)

end IbkrDx
