import Mathlib.Algebra.Order.Field.Basic
import Mathlib.Data.Nat.Log
import Mathlib.Tactic.FieldSimp
import Mathlib.Tactic.IntervalCases
import Mathlib.Tactic.Linarith
import Mathlib.Tactic.Ring

/-!
# Rounding half to even

* `IsRounded` — a whole number is a rational rounded, an exact half to the even one.
* `roundDiv` — a quotient of natural numbers rounded; `isRounded_roundDiv`.
* **`iterate_roundDiv`** — what dropping one decimal digit after another comes to.
* **`iterate_roundDiv_eq_iff`** — when that is the same as dropping them at once: a fraction a
  little below a half is rounded up to one first, a fraction a little above it down to one.
-/

namespace HalfEven

/-! ## Rounding a rational -/

/-- **A rational rounded half to even.** -/
def IsRounded (x : ℚ) (q : ℤ) : Prop := |x - q| ≤ 1 / 2 ∧ (|x - q| = 1 / 2 → Even q)

lemma IsRounded.neg {x : ℚ} {q : ℤ} (h : IsRounded x q) : IsRounded (-x) (-q) := by
  have habs : |(-x) - ((-q : ℤ) : ℚ)| = |x - q| := by
    rw [Int.cast_neg, ← abs_neg]
    congr 1
    ring
  rw [IsRounded, habs]
  exact ⟨h.1, fun heq => (h.2 heq).neg⟩

/-- **There is one number a rational rounds to.** -/
theorem IsRounded.unique {x : ℚ} {q q' : ℤ} (h : IsRounded x q) (h' : IsRounded x q') : q = q' := by
  have hle := abs_le.1 h.1
  have hle' := abs_le.1 h'.1
  have hlow : (-1 : ℤ) ≤ q - q' := by
    have hcast : ((-1 : ℤ) : ℚ) ≤ ((q - q' : ℤ) : ℚ) := by
      push_cast
      linarith [hle.2, hle'.1]
    exact_mod_cast hcast
  have hhigh : q - q' ≤ 1 := by
    have hcast : ((q - q' : ℤ) : ℚ) ≤ ((1 : ℤ) : ℚ) := by
      push_cast
      linarith [hle.1, hle'.2]
    exact_mod_cast hcast
  -- a distance of one leaves both at a half, and both even
  have hhalves : ∀ {p p' : ℤ}, IsRounded x p → IsRounded x p' → p ≠ p' + 1 := by
    rintro p p' hp hp' rfl
    have hlow := abs_le.1 hp.1
    have hhigh := abs_le.1 hp'.1
    push_cast at hlow
    have hx : x = p' + 1 / 2 := by linarith [hlow.1, hhigh.2]
    have heven := hp.2 (by rw [hx]; push_cast; norm_num [abs_of_neg])
    have heven' := hp'.2 (by rw [hx]; norm_num)
    rcases heven with ⟨i, hi⟩
    rcases heven' with ⟨j, hj⟩
    omega
  rcases (by omega : q = q' ∨ q = q' + 1 ∨ q' = q + 1) with heq | heq | heq
  · exact heq
  · exact absurd heq (hhalves h h')
  · exact absurd heq (hhalves h' h)

lemma isRounded_intCast (q : ℤ) : IsRounded q q := by
  rw [IsRounded, sub_self, abs_zero]
  exact ⟨by norm_num, fun h => by norm_num at h⟩

/-! ## Rounding a quotient -/

def roundDiv (n d : ℕ) : ℕ :=
  n / d + if d < 2 * (n % d) ∨ (2 * (n % d) = d ∧ n / d % 2 = 1) then 1 else 0

lemma isRounded_div_iff (n q : ℤ) {d : ℤ} (hd : 0 < d) :
    IsRounded ((n : ℚ) / d) q ↔ |2 * n - 2 * q * d| ≤ d ∧ (|2 * n - 2 * q * d| = d → Even q) := by
  have hd' : (0 : ℚ) < d := by exact_mod_cast hd
  have habs : |(n : ℚ) / d - q| = (|2 * n - 2 * q * d| : ℤ) / (2 * d) := by
    have hform : (n : ℚ) / d - q = ((2 * n - 2 * q * d : ℤ) : ℚ) / (2 * d) := by
      push_cast
      field_simp
    rw [hform, abs_div, abs_of_pos (by linarith : (0 : ℚ) < 2 * d), Int.cast_abs]
  have htwo : (0 : ℚ) < 2 * d := by linarith
  rw [IsRounded, habs, div_le_iff₀ htwo, div_eq_iff htwo.ne']
  have hhalf : 1 / 2 * (2 * (d : ℚ)) = d := by ring
  rw [hhalf, Int.cast_le, Int.cast_inj]

/-- **The quotient rounds the fraction.** -/
theorem isRounded_roundDiv (n : ℕ) {d : ℕ} (hd : 0 < d) :
    IsRounded ((n : ℚ) / d) (roundDiv n d : ℕ) := by
  have hdiv := Nat.div_add_mod n d
  have hlt := Nat.mod_lt n hd
  have hcast := (isRounded_div_iff n (roundDiv n d : ℕ) (d := d) (by exact_mod_cast hd)).2
  push_cast at hcast
  refine hcast ?_
  rw [roundDiv]
  generalize n / d = q at *
  generalize n % d = r at *
  subst hdiv
  have hexp : ∀ e : ℤ, 2 * (((d * q + r : ℕ) : ℤ)) - 2 * ((q : ℤ) + e) * d =
      2 * r - 2 * e * d := by
    intro e
    push_cast
    ring
  split_ifs with hup
  · push_cast at hexp ⊢
    rw [hexp 1]
    refine ⟨abs_le.2 ⟨by omega, by omega⟩, ?_⟩
    intro heq
    rcases abs_eq (by omega : (0 : ℤ) ≤ d) |>.1 heq with h | h
    · omega
    · exact (Int.even_iff).2 (by omega)
  · push_cast at hexp ⊢
    rw [hexp 0]
    refine ⟨abs_le.2 ⟨by omega, by omega⟩, ?_⟩
    intro heq
    rcases abs_eq (by omega : (0 : ℤ) ≤ d) |>.1 heq with h | h
    · exact (Int.even_iff).2 (by omega)
    · omega

lemma roundDiv_mul (n d : ℕ) {c : ℕ} (hc : 0 < c) : roundDiv (n * c) (d * c) = roundDiv n d := by
  simp only [roundDiv, Nat.mul_div_mul_right _ _ hc, Nat.mul_mod_mul_right, ← Nat.mul_assoc,
    Nat.mul_lt_mul_right hc, Nat.mul_left_inj hc.ne']

lemma le_roundDiv (n d : ℕ) : n / d ≤ roundDiv n d := Nat.le_add_right _ _

lemma roundDiv_le (n d : ℕ) : roundDiv n d ≤ n / d + 1 := by
  rw [roundDiv]
  split_ifs <;> omega

/-! ## Dropping one digit after another -/

/-- **What dropping one decimal digit after another comes to**: a fraction is rounded up past 5/11
behind an odd digit, and past 6/11 behind an even one. -/
theorem iterate_roundDiv (n k : ℕ) :
    (roundDiv · 10)^[k] n = n / 10 ^ k +
      if (if n / 10 ^ k % 2 = 1 then 5 else 6) * 10 ^ k < 11 * (n % 10 ^ k) then 1 else 0 := by
  induction k with
  | zero => simp [Nat.mod_one]
  | succ k ih =>
      rw [Function.iterate_succ_apply', ih, Nat.mod_pow_succ, Nat.pow_succ, ← Nat.div_div_eq_div_mul]
      have hlt := Nat.mod_lt n (Nat.pow_pos (n := k) (by norm_num : 0 < 10))
      generalize n % 10 ^ k = r at *
      generalize n / 10 ^ k = m at *
      generalize 10 ^ k = p at *
      have hdigit := Nat.div_add_mod m 10
      have hten := Nat.mod_lt m (by norm_num : 0 < 10)
      generalize m % 10 = d at *
      generalize m / 10 = q at *
      subst hdigit
      rw [roundDiv]
      -- what the digits below carry matters to a four and a five alone
      rcases (by omega : d ≤ 3 ∨ d = 4 ∨ d = 5 ∨ 6 ≤ d) with hd | rfl | rfl | hd
      · have hle := Nat.mul_le_mul_left p hd
        generalize p * d = x at *
        split_ifs <;> omega
      · split_ifs <;> omega
      · split_ifs <;> omega
      · have hle := Nat.mul_le_mul_left p hd
        generalize p * d = x at *
        split_ifs <;> omega

/-- A fraction that one rounding and a rounding digit by digit take to different sides. -/
def RoundsTwice (n k : ℕ) : Prop :=
  if n / 10 ^ k % 2 = 1 then 5 * 10 ^ k < 11 * (n % 10 ^ k) ∧ 2 * (n % 10 ^ k) < 10 ^ k
  else 10 ^ k < 2 * (n % 10 ^ k) ∧ 11 * (n % 10 ^ k) ≤ 6 * 10 ^ k

instance (n k : ℕ) : Decidable (RoundsTwice n k) := by
  unfold RoundsTwice
  infer_instance

/-- **Dropping the digits one by one is one rounding, but for the fractions between 5/11 and a half
behind an odd digit, and between a half and 6/11 behind an even one.** -/
theorem iterate_roundDiv_eq_iff (n k : ℕ) :
    (roundDiv · 10)^[k] n = roundDiv n (10 ^ k) ↔ ¬RoundsTwice n k := by
  rw [iterate_roundDiv, roundDiv, RoundsTwice]
  have hpos := Nat.pow_pos (n := k) (by norm_num : 0 < 10)
  have hlt := Nat.mod_lt n hpos
  generalize n % 10 ^ k = r at *
  generalize n / 10 ^ k = q at *
  generalize 10 ^ k = p at *
  split_ifs <;> omega

end HalfEven
