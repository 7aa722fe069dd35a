import Mathlib.Data.Nat.Digits.Lemmas
import Mathlib.Data.UInt

/-!
# Numbers as decimal text

A number written in ASCII digits, plainly (`text`) or padded to a width that a larger number
overflows rather than being cut to (`padded`), and the number a text reads as (`parse`): an
optional plus sign, at least one digit, nothing else, and a bound the number stays below.

* `parse_text`, `parse_padded` — what is written reads back.
* `not_mem_text`, `not_mem_padded` — a written number holds digits and no other byte.
-/

namespace Decimal

def digit (d : ℕ) : UInt8 := 48 + d.toUInt8

def text (n : ℕ) : List UInt8 := if n = 0 then [48] else ((Nat.digits 10 n).map digit).reverse

/-- The last `k` digits of a number, zeroes in front where it has fewer. -/
def low : ℕ → ℕ → List UInt8
  | 0, _ => []
  | k + 1, n => low k (n / 10) ++ [digit (n % 10)]

/-- A number in at least `k` digits; one that does not fit keeps every digit it has. -/
def padded (k n : ℕ) : List UInt8 := if 0 < n / 10 ^ k then text n else low k n

def isDigit (b : UInt8) : Bool := decide (48 ≤ b ∧ b ≤ 57)

def value (t : List UInt8) : ℕ := t.foldl (fun n b => 10 * n + (b - 48).toNat) 0

/-- The number a text states, where it states one below the bound. -/
def parse (bound : ℕ) (t : List UInt8) : Option ℕ :=
  let ds := if t.head? = some 43 then t.tail else t
  if ds ≠ [] ∧ ds.all isDigit ∧ value ds < bound then some (value ds) else none

/-! ## Digits -/

lemma isDigit_digit {d : ℕ} (h : d < 10) : isDigit (digit d) = true := by
  interval_cases d <;> decide

lemma toNat_digit {d : ℕ} (h : d < 10) : (digit d - 48).toNat = d := by
  interval_cases d <;> decide

variable {b : UInt8}

lemma isDigit_of_mem_text {n : ℕ} (h : b ∈ text n) : isDigit b = true := by
  unfold text at h
  split at h
  · rw [List.mem_singleton] at h
    subst h
    decide
  · rw [List.mem_reverse, List.mem_map] at h
    obtain ⟨d, hd, rfl⟩ := h
    exact isDigit_digit (Nat.digits_lt_base (by decide) hd)

lemma isDigit_of_mem_low : ∀ {k n : ℕ} {b : UInt8}, b ∈ low k n → isDigit b = true
  | k + 1, n, b, h => by
      rw [low, List.mem_append, List.mem_singleton] at h
      rcases h with h | rfl
      · exact isDigit_of_mem_low h
      · exact isDigit_digit (Nat.mod_lt _ (by decide))

lemma isDigit_of_mem_padded {k n : ℕ} (h : b ∈ padded k n) : isDigit b = true := by
  unfold padded at h
  split at h
  · exact isDigit_of_mem_text h
  · exact isDigit_of_mem_low h

lemma not_mem_text (hb : isDigit b = false) (n : ℕ) : b ∉ text n := fun h => by
  simp [isDigit_of_mem_text h] at hb

lemma not_mem_padded (hb : isDigit b = false) (k n : ℕ) : b ∉ padded k n :=
  fun h => by simp [isDigit_of_mem_padded h] at hb

lemma text_ne_nil (n : ℕ) : text n ≠ [] := by
  unfold text
  split
  · simp
  · next h => simpa [Nat.digits_eq_nil_iff_eq_zero] using h

/-! ## Lengths -/

lemma length_text_le {k n : ℕ} (hk : 0 < k) (h : n < 10 ^ k) : (text n).length ≤ k := by
  unfold text
  split
  · exact hk
  · simpa using (Nat.digits_length_le_iff (by decide) n).2 h

@[simp]
lemma length_low : ∀ k n : ℕ, (low k n).length = k
  | 0, _ => rfl
  | k + 1, n => by simp [low, length_low k]

/-! ## What is written reads back -/

lemma value_append (t : List UInt8) (b : UInt8) :
    value (t ++ [b]) = 10 * value t + (b - 48).toNat := by
  simp [value]

lemma value_low : ∀ k n : ℕ, value (low k n) = n % 10 ^ k
  | 0, n => by simp [low, value, Nat.mod_one]
  | k + 1, n => by
      rw [low, value_append, value_low k, toNat_digit (Nat.mod_lt _ (by decide)), pow_succ',
        Nat.mod_mul]
      omega

lemma digit_toNat (h : isDigit b = true) :
    (b - 48).toNat < 10 ∧ digit (b - 48).toNat = b := by
  rw [isDigit, decide_eq_true_eq, UInt8.le_iff_toNat_le, UInt8.le_iff_toNat_le] at h
  have hlow : 48 ≤ b.toNat := h.1
  have hhigh : b.toNat ≤ 57 := h.2
  rw [← UInt8.ofNat_toNat (x := b)]
  generalize b.toNat = n at hlow hhigh ⊢
  interval_cases n <;> decide

variable {t : List UInt8}

lemma low_value (h : ∀ b ∈ t, isDigit b = true) : low t.length (value t) = t := by
  induction t using List.reverseRecOn with
  | nil => rfl
  | append_singleton t b ih =>
      obtain ⟨hlt, hb⟩ := digit_toNat (h b (List.mem_append_right _ (List.mem_singleton_self b)))
      have ht := ih fun c hc => h c (List.mem_append_left _ hc)
      have hdiv : (10 * value t + (b - 48).toNat) / 10 = value t := by omega
      have hmod : (10 * value t + (b - 48).toNat) % 10 = (b - 48).toNat := by omega
      rw [List.length_append, List.length_singleton, low, value_append, hdiv, hmod, ht, hb]

lemma value_lt (h : ∀ b ∈ t, isDigit b = true) : value t < 10 ^ t.length := by
  rw [← low_value h, value_low, length_low]
  exact Nat.mod_lt _ (by positivity)

lemma value_reverse_digits : ∀ ds : List ℕ, (∀ d ∈ ds, d < 10) →
    value (ds.map digit).reverse = Nat.ofDigits 10 ds
  | [], _ => rfl
  | d :: ds, h => by
      rw [List.map_cons, List.reverse_cons, value_append,
        value_reverse_digits ds fun e he => h e (List.mem_cons_of_mem _ he),
        toNat_digit (h d List.mem_cons_self), Nat.ofDigits_cons]
      omega

lemma value_text (n : ℕ) : value (text n) = n := by
  unfold text
  split
  · next h => subst h; rfl
  · rw [value_reverse_digits _ fun d hd => Nat.digits_lt_base (by decide) hd,
      Nat.ofDigits_digits]

lemma value_padded (k n : ℕ) : value (padded k n) = n := by
  unfold padded
  split
  · exact value_text n
  · next h =>
      have hlt : n < 10 ^ k := by
        rw [Nat.pos_iff_ne_zero, ne_eq, not_not, Nat.div_eq_zero_iff] at h
        rcases h with h | h
        · exact absurd h (pow_ne_zero k (by decide))
        · exact h
      rw [value_low, Nat.mod_eq_of_lt hlt]

lemma parse_digits {bound : ℕ} (hne : t ≠ []) (hd : ∀ b ∈ t, isDigit b = true)
    (hb : value t < bound) : parse bound t = some (value t) := by
  have hplus : t.head? ≠ some 43 := fun h => by
    have := hd 43 (List.mem_of_mem_head? h)
    exact absurd this (by decide)
  simp only [parse, if_neg hplus]
  rw [if_pos ⟨hne, List.all_eq_true.2 hd, hb⟩]

@[simp]
theorem parse_text {bound n : ℕ} (h : n < bound) : parse bound (text n) = some n := by
  rw [parse_digits (text_ne_nil n) (fun _ => isDigit_of_mem_text) (by rwa [value_text]),
    value_text]

@[simp]
theorem parse_padded {bound k n : ℕ} (hk : 0 < k) (h : n < bound) :
    parse bound (padded k n) = some n := by
  have hne : padded k n ≠ [] := by
    unfold padded
    split
    · exact text_ne_nil n
    · exact List.ne_nil_of_length_pos (by simpa using hk)
  rw [parse_digits hne (fun _ => isDigit_of_mem_padded) (by rwa [value_padded]), value_padded]

lemma not_mem_of_parse {bound n : ℕ} (h : parse bound t = some n)
    (hb : isDigit b = false) (hplus : b ≠ 43) : b ∉ t := by
  intro hmem
  simp only [parse] at h
  by_cases hds : t.head? = some 43
  · obtain ⟨ds, rfl⟩ : ∃ ds, t = 43 :: ds := by
      cases t with
      | nil => exact absurd hds (by simp)
      | cons c ds => exact ⟨ds, by simpa using hds⟩
    rw [if_pos hds, Option.ite_none_right_eq_some] at h
    rcases List.mem_cons.1 hmem with rfl | hmem
    · exact hplus rfl
    · exact absurd (List.all_eq_true.1 h.1.2.1 b hmem) (by simp [hb])
  · rw [if_neg hds, Option.ite_none_right_eq_some] at h
    exact absurd (List.all_eq_true.1 h.1.2.1 b hmem) (by simp [hb])

end Decimal
