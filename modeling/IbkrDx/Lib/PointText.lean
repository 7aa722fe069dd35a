import IbkrDx.Lib.Decimal
import Mathlib.Data.List.TakeWhile
import Mathlib.Tactic.FieldSimp

/-!
# Decimal texts with a point

A text of a sign, the digits in front of a point and those behind it, and the rational number it
states.

* `spelled` — the text its parts make; no point stands where no digit is behind it.
* `rational` — the number a text states.
* `Plain` — a text without waste: a digit in front of the point, and no nought at the end behind it.
* `trimEnd` — how many of some digits are left when the noughts at their end are taken off.
* **`rational_spelled`** — a spelled text states the number of its parts.
-/

namespace Decimal

/-- A minus sign or nothing, the digits in front, and the digits behind the point if any. -/
def spelled (negative : Bool) (whole fraction : List UInt8) : List UInt8 :=
  (if negative then [45] else []) ++ (whole ++ if fraction = [] then [] else 46 :: fraction)

/-- The number a text without a sign states. -/
def magnitude (t : List UInt8) : ℚ :=
  let fraction := (t.dropWhile (· ≠ 46)).tail
  value (t.takeWhile (· ≠ 46)) + value fraction / 10 ^ fraction.length

def rational (t : List UInt8) : ℚ :=
  if t.head? = some 45 then -magnitude t.tail else magnitude t

def Plain (t : List UInt8) : Prop :=
  ∃ negative whole fraction, t = spelled negative whole fraction ∧ whole ≠ [] ∧
    (∀ b ∈ whole, isDigit b) ∧ (∀ b ∈ fraction, isDigit b) ∧ fraction.getLast? ≠ some 48

/-- How many of the first digits are left when the noughts at their end are taken off. -/
def trimEnd (digits : List UInt8) : ℕ → ℕ
  | 0 => 0
  | last + 1 => if digits[last]? = some 48 then trimEnd digits last else last + 1

/-! ## Reading a spelled text -/

section

variable {whole fraction : List UInt8}

lemma ne_point {b : UInt8} (h : isDigit b) : (decide (b ≠ 46)) = true := by
  rw [decide_eq_true_eq]
  rintro rfl
  exact absurd h (by decide)

lemma magnitude_spelled (hw : ∀ b ∈ whole, isDigit b) :
    magnitude (whole ++ if fraction = [] then [] else 46 :: fraction) =
      value whole + value fraction / 10 ^ fraction.length := by
  have hfront : ∀ b ∈ whole, decide (b ≠ 46) = true := fun b hb => ne_point (hw b hb)
  have htake : (46 :: fraction).takeWhile (fun b => decide (b ≠ 46)) = [] := by simp
  have hdrop : (46 :: fraction).dropWhile (fun b => decide (b ≠ 46)) = 46 :: fraction := by simp
  rw [magnitude]
  by_cases hf : fraction = []
  · subst hf
    rw [if_pos rfl, List.append_nil, List.takeWhile_eq_self_iff.2 hfront,
      List.dropWhile_eq_nil_iff.2 hfront]
    rfl
  · rw [if_neg hf, List.takeWhile_append_of_pos hfront, List.dropWhile_append_of_pos hfront,
      htake, hdrop, List.append_nil, List.tail_cons]

lemma rational_spelled (negative : Bool) (hne : whole ≠ []) (hw : ∀ b ∈ whole, isDigit b) :
    rational (spelled negative whole fraction) =
      (if negative then -1 else 1) * (value whole + value fraction / 10 ^ fraction.length) := by
  cases negative with
  | true =>
      rw [spelled, if_pos rfl, if_pos rfl, rational, List.singleton_append, List.head?_cons,
        if_pos rfl, List.tail_cons, magnitude_spelled hw, neg_one_mul]
  | false =>
      obtain ⟨b, bs, rfl⟩ := List.exists_cons_of_ne_nil hne
      have hsign : ¬ some b = some (45 : UInt8) := by
        intro hb
        have hdigit := hw b List.mem_cons_self
        rw [Option.some.inj hb] at hdigit
        exact absurd hdigit (by decide)
      have hoff : ¬ (false = true) := Bool.false_ne_true
      rw [spelled, if_neg hoff, if_neg hoff, List.nil_append, rational, List.cons_append,
        List.head?_cons, if_neg hsign, one_mul, ← List.cons_append, magnitude_spelled hw]

end

/-! ## Noughts at the end -/

lemma trimEnd_le (digits : List UInt8) : ∀ last, trimEnd digits last ≤ last
  | 0 => Nat.le_refl 0
  | last + 1 => by
      rw [trimEnd]
      split
      · exact (trimEnd_le digits last).trans (Nat.le_succ last)
      · exact Nat.le_refl _

lemma value_trimEnd (digits : List UInt8) : ∀ last, last ≤ digits.length →
    (value (digits.take (trimEnd digits last)) : ℚ) / 10 ^ (trimEnd digits last) =
      value (digits.take last) / 10 ^ last
  | 0, _ => rfl
  | last + 1, h => by
      rw [trimEnd]
      split
      case isFalse hkept => rfl
      case isTrue hnought =>
        have htake : digits.take (last + 1) = digits.take last ++ [48] := by
          rw [List.take_add_one, hnought]
          rfl
        have hvalue : value (digits.take last ++ [48]) = 10 * value (digits.take last) := by
          rw [value_append]
          rfl
        rw [value_trimEnd digits last (Nat.le_of_succ_le h), htake, hvalue, Nat.cast_mul]
        field_simp
        push_cast
        ring

lemma getLast?_take_trimEnd (digits : List UInt8) : ∀ last, last ≤ digits.length →
    (digits.take (trimEnd digits last)).getLast? ≠ some 48
  | 0, _ => by simp [trimEnd]
  | last + 1, h => by
      rw [trimEnd]
      split
      case isTrue hnought => exact getLast?_take_trimEnd digits last (Nat.le_of_succ_le h)
      case isFalse hkept =>
        have hget : (digits.take (last + 1)).getLast? = digits[last]? := by
          rw [List.getLast?_eq_getElem?, List.length_take, min_eq_left h, Nat.add_sub_cancel,
            List.getElem?_take_of_lt (Nat.lt_succ_self last)]
        rwa [hget]

end Decimal
