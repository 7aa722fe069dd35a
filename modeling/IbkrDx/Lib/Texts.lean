import IbkrDx.Lib.Decimal
import IbkrDx.Lib.Utf8

/-!
# Numbers, blanks and separators in texts

What a standard library does with a text, as lists of characters: a number in digits and the number
a text reads as, the blanks around a text, a prefix, and the parts between separators.

* `signed`, `parseI64` — a number with its sign, and the one a text states in 64 bits.
* `trimBlanks`, `Trimmed` — the blanks around a text, and a text without any.
* `stripPrefix`, `splitOn_flatMap` — a prefix taken off, and texts that each end with a separator.
* **`parseI64_signed`** — what is written reads back.
-/

namespace Texts

open Decimal

/-! ## Numbers -/

def numeral (n : ℕ) : List Char := (text n).map fun b => Char.ofNat b.toNat

lemma encode_numeral (n : ℕ) : Utf8.encode (numeral n) = text n :=
  Utf8.encode_ascii fun b hb => by
    have hdigit := isDigit_of_mem_text hb
    rw [isDigit, decide_eq_true_iff] at hdigit
    exact lt_of_le_of_lt (UInt8.le_iff_toNat_le.1 hdigit.2) (by decide)

variable {c : Char}

lemma digit_of_mem_numeral {n : ℕ} (h : c ∈ numeral n) :
    48 ≤ c.toNat ∧ c.toNat ≤ 57 := by
  obtain ⟨b, hb, rfl⟩ := List.mem_map.1 h
  have hdigit := isDigit_of_mem_text hb
  rw [isDigit, decide_eq_true_iff, UInt8.le_iff_toNat_le, UInt8.le_iff_toNat_le] at hdigit
  have hlt : b.toNat ≤ 57 := hdigit.2
  rw [show (Char.ofNat b.toNat).toNat = b.toNat from Utf8.toNat_ofNat (Or.inl (by omega))]
  exact hdigit

lemma numeral_injective : Function.Injective numeral := by
  intro m n h
  rw [← value_text m, ← value_text n, ← encode_numeral, ← encode_numeral, h]

def signed (n : ℤ) : List Char :=
  if n < 0 then '-' :: numeral n.natAbs else numeral n.natAbs

/-- `str::parse::<i64>`. -/
def parseI64 : List Char → Option ℤ
  | '-' :: ds =>
      if ds.head? = some '+' then none
      else (parse (2 ^ 63 + 1) (Utf8.encode ds)).map fun n : ℕ => -(n : ℤ)
  | v => (parse (2 ^ 63) (Utf8.encode v)).map Nat.cast

variable {v : List Char}

lemma parseI64_of_head (h : v.head? ≠ some '-') :
    parseI64 v = (parse (2 ^ 63) (Utf8.encode v)).map Nat.cast := by
  unfold parseI64
  split
  · exact absurd rfl h
  · rfl

lemma head_numeral {n : ℕ} (h : (numeral n).head? = some c) :
    48 ≤ c.toNat ∧ c.toNat ≤ 57 :=
  digit_of_mem_numeral (List.mem_of_mem_head? h)

lemma parseI64_signed {n : ℤ} (hlow : -2 ^ 63 ≤ n) (hhigh : n < 2 ^ 63) :
    parseI64 (signed n) = some n := by
  unfold signed
  split
  case isTrue hneg =>
    have hhead : (numeral n.natAbs).head? ≠ some '+' := fun h =>
      absurd (head_numeral h).1 (by decide)
    have hread : parse (2 ^ 63 + 1) (text n.natAbs) = some n.natAbs := parse_text (by omega)
    rw [parseI64, if_neg hhead, encode_numeral, hread, Option.map_some]
    exact congrArg some (by omega)
  case isFalse hneg =>
    have hhead : (numeral n.natAbs).head? ≠ some '-' := fun h =>
      absurd (head_numeral h).1 (by decide)
    have hread : parse (2 ^ 63) (text n.natAbs) = some n.natAbs := parse_text (by omega)
    rw [parseI64_of_head hhead, encode_numeral, hread, Option.map_some]
    exact congrArg some (by omega)

/-! ## Blanks -/

/-- `char::is_whitespace`. -/
def whitespace (c : Char) : Bool :=
  decide (9 ≤ c.toNat ∧ c.toNat ≤ 13 ∨ 0x2000 ≤ c.toNat ∧ c.toNat ≤ 0x200A ∨
    c.toNat ∈ [0x20, 0x85, 0xA0, 0x1680, 0x2028, 0x2029, 0x202F, 0x205F, 0x3000])

def trimEnd (v : List Char) : List Char := (v.reverse.dropWhile whitespace).reverse

/-- `str::trim`. -/
def trimBlanks (v : List Char) : List Char := trimEnd (v.dropWhile whitespace)

def Trimmed (v : List Char) : Prop :=
  v.head?.any whitespace = false ∧ v.getLast?.any whitespace = false

instance : DecidablePred Trimmed := fun _ => inferInstanceAs (Decidable (_ ∧ _))

lemma trimmed_iff : Trimmed v ↔
    (∀ c ∈ v.head?, whitespace c = false) ∧ ∀ c ∈ v.getLast?, whitespace c = false := by
  simp only [Trimmed, Option.any_eq_false, Option.mem_def]

lemma dropWhile_of_head (h : ∀ c ∈ v.head?, whitespace c = false) :
    v.dropWhile whitespace = v := by
  cases v with
  | nil => rfl
  | cons c v => rw [List.dropWhile_cons_of_neg (by simp [h c rfl])]

lemma Trimmed.trim_eq (h : Trimmed v) : trimBlanks v = v := by
  obtain ⟨hhead, hlast⟩ := trimmed_iff.1 h
  rw [trimBlanks, dropWhile_of_head hhead, trimEnd, dropWhile_of_head, List.reverse_reverse]
  rw [List.head?_reverse]
  exact hlast

lemma whitespace_of_range (h : 33 ≤ c.toNat ∧ c.toNat ≤ 126) :
    whitespace c = false := by
  simp only [whitespace, List.mem_cons, List.not_mem_nil, or_false, decide_eq_false_iff_not]
  omega

lemma Trimmed.of_range (h : ∀ c ∈ v, 33 ≤ c.toNat ∧ c.toNat ≤ 126) :
    Trimmed v :=
  trimmed_iff.2 ⟨fun c hc => whitespace_of_range (h c (List.mem_of_mem_head? hc)),
    fun c hc => whitespace_of_range (h c (List.mem_of_getLast? hc))⟩

lemma range_of_mem_signed {n : ℤ} (h : c ∈ signed n) :
    33 ≤ c.toNat ∧ c.toNat ≤ 126 := by
  have hdigit : c ∈ numeral n.natAbs → 33 ≤ c.toNat ∧ c.toNat ≤ 126 := fun hc =>
    ⟨le_trans (by decide) (digit_of_mem_numeral hc).1,
      le_trans (digit_of_mem_numeral hc).2 (by decide)⟩
  unfold signed at h
  split at h
  · rcases List.mem_cons.1 h with rfl | h
    · decide
    · exact hdigit h
  · exact hdigit h

/-! ## Prefixes and separators -/

def stripPrefix (front v : List Char) : Option (List Char) :=
  if front <+: v then some (v.drop front.length) else none

@[simp]
lemma stripPrefix_append (front v : List Char) : stripPrefix front (front ++ v) = some v := by
  rw [stripPrefix, if_pos (List.prefix_append _ _), List.drop_left]

lemma splitOn_flatMap {α β : Type*} [DecidableEq β] (sep : β) (f : α → List β) {l : List α}
    (h : ∀ a ∈ l, sep ∉ f a) : (l.flatMap fun a => f a ++ [sep]).splitOn sep = l.map f ++ [[]] := by
  induction l with
  | nil => rfl
  | cons a l ih =>
      rw [List.forall_mem_cons] at h
      rw [List.flatMap_cons, List.append_assoc, List.singleton_append,
        List.splitOn_append_cons_self_of_not_mem h.1, ih h.2, List.map_cons, List.cons_append]

end Texts
