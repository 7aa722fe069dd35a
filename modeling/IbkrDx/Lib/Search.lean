import Mathlib.Data.List.Infix

/-!
# Searching a list for a short list

`find` and `rfind` give the first and the last offset a needle stands at, `position` the first
offset of one symbol.  The lemmas say where a search ends in a list whose shape is known: a needle
that holds no separator is looked for field by field.

* `find_append_sep` — a field the needle is not in is stepped over, separator and all.
* `position_append_cons` — the first separator stands behind the symbols that are none.
* `rfind_append` — the last place of a needle is in the tail, where the tail has one.
-/

namespace Search

variable {α : Type*} [DecidableEq α]

/-- The first offset the needle stands at. -/
def find (needle : List α) : List α → Option ℕ
  | [] => if needle = [] then some 0 else none
  | a :: l => if needle <+: a :: l then some 0 else (find needle l).map (· + 1)

/-- The last offset it stands at. -/
def rfind (needle : List α) : List α → Option ℕ
  | [] => if needle = [] then some 0 else none
  | a :: l =>
      match rfind needle l with
      | some i => some (i + 1)
      | none => if needle <+: a :: l then some 0 else none

/-- The first offset of a symbol. -/
def position (s : α) (l : List α) : Option ℕ := l.findIdx? (· == s)

/-! ## One symbol -/

variable {l : List α} {s : α}

@[simp]
lemma position_append_cons (h : s ∉ l) (r : List α) :
    position s (l ++ s :: r) = some l.length := by
  have hl : ∀ a ∈ l, (a == s) = false := fun a ha => by
    simpa using fun (heq : a = s) => h (heq ▸ ha)
  have hnone : l.findIdx? (· == s) = none := List.findIdx?_eq_none_iff.2 hl
  simp [position, List.findIdx?_append, hnone, List.findIdx?_cons]

lemma position_eq_none : position s l = none ↔ s ∉ l := by
  simp only [position, List.findIdx?_eq_none_iff, beq_eq_false_iff_ne, ne_eq]
  exact ⟨fun h hs => h s hs rfl, fun h a ha heq => h (heq ▸ ha)⟩

variable {i : ℕ}

lemma position_lt (h : position s l = some i) : i < l.length := by
  rw [position, List.findIdx?_eq_some_iff_getElem] at h
  exact h.1

lemma position_eq_some (h : position s l = some i) :
    ∃ r, l = l.take i ++ s :: r ∧ s ∉ l.take i := by
  rw [position, List.findIdx?_eq_some_iff_getElem] at h
  obtain ⟨hi, hs, hlt⟩ := h
  refine ⟨l.drop (i + 1), ?_, ?_⟩
  · have hs' : l[i] = s := by simpa using hs
    rw [← hs', List.getElem_cons_drop, List.take_append_drop]
  · intro hmem
    obtain ⟨j, hj, hjs⟩ := List.mem_iff_getElem.1 hmem
    simp only [List.length_take] at hj
    rw [List.getElem_take] at hjs
    exact absurd (hlt j (by omega)) (by simp [hjs])

lemma position_append (h : position s l = some i) (r : List α) :
    position s (l ++ r) = some i := by
  obtain ⟨t, ht, hs⟩ := position_eq_some h
  have hi : (l.take i).length = i := by
    rw [List.length_take, Nat.min_eq_left (position_lt h).le]
  rw [ht, List.append_assoc, List.cons_append, position_append_cons hs, hi]

lemma position_le {r : List α} (h : position s (l ++ s :: r) = some i) :
    i ≤ l.length := by
  cases hl : position s l with
  | none =>
      rw [position_append_cons (position_eq_none.1 hl), Option.some.injEq] at h
      exact h.ge
  | some j =>
      rw [position_append hl, Option.some.injEq] at h
      exact h ▸ (position_lt hl).le

lemma position_take {n : ℕ} (h : position s l = some i) (hn : i < n) :
    position s (l.take n) = some i := by
  obtain ⟨t, ht, hs⟩ := position_eq_some h
  have hi : (l.take i).length = i := by
    rw [List.length_take, Nat.min_eq_left (position_lt h).le]
  obtain ⟨k, rfl⟩ := Nat.exists_eq_add_of_lt hn
  have hk : i + k + 1 = (l.take i).length + (k + 1) := by omega
  rw [ht, hk, List.take_length_add_append, List.take_succ_cons, position_append_cons hs, hi]

/-! ## A needle -/

variable {needle : List α}

lemma find_front (h : needle <+: l) : find needle l = some 0 := by
  cases l with
  | nil => rw [find, if_pos (by simpa using h)]
  | cons a l => rw [find, if_pos h]

lemma find_eq_none_of_not_mem {c : α} (hc : c ∈ needle) :
    ∀ {l : List α}, c ∉ l → find needle l = none
  | [], _ => by rw [find, if_neg (List.ne_nil_of_mem hc)]
  | a :: l, h => by
      rw [find, if_neg (fun hp => h (hp.subset hc)),
        find_eq_none_of_not_mem hc fun hm => h (List.mem_cons_of_mem _ hm), Option.map_none]

lemma find_le : ∀ {l : List α} {i : ℕ}, find needle l = some i → needle.length + i ≤ l.length
  | [], i, h => by
      rw [find] at h
      split at h
      · next hn => cases h; simp [hn]
      · exact absurd h (by simp)
  | a :: l, i, h => by
      rw [find] at h
      split at h
      · next hp => cases h; simpa using hp.length_le
      · obtain ⟨j, hj, rfl⟩ := Option.map_eq_some_iff.1 h
        have := find_le hj
        simp only [List.length_cons]
        omega

/-- What is found is found with anything behind. -/
lemma find_append : ∀ {l : List α} {i : ℕ}, find needle l = some i → ∀ r,
    find needle (l ++ r) = some i
  | [], i, h, r => by
      rw [find] at h
      split at h
      · next hn => subst hn; cases h; exact find_front List.nil_prefix
      · exact absurd h (by simp)
  | a :: l, i, h, r => by
      rw [find] at h
      rw [List.cons_append, find]
      by_cases hp : needle <+: a :: l
      · rw [if_pos hp] at h
        rw [← List.cons_append, if_pos (hp.trans (List.prefix_append _ r)), h]
      · rw [if_neg hp] at h
        obtain ⟨j, hj, rfl⟩ := Option.map_eq_some_iff.1 h
        have hnp : ¬ needle <+: a :: (l ++ r) := by
          intro hp'
          rcases List.prefix_or_prefix_of_prefix hp' (List.prefix_append (a :: l) r) with h' | h'
          · exact hp h'
          · -- the needle would be longer than what it was found in
            have hlen := find_le hj
            have := h'.length_le
            simp only [List.length_cons] at this
            omega
        rw [if_neg hnp, find_append hj r]
        rfl

/-- What is found is found in any front that holds it. -/
lemma find_take : ∀ {l : List α} {i n : ℕ}, find needle l = some i → needle.length + i ≤ n →
    find needle (l.take n) = some i
  | [], i, n, h, _ => by rwa [List.take_nil]
  | a :: l, i, 0, h, hn => by
      obtain rfl : needle = [] := List.eq_nil_of_length_eq_zero (by omega)
      obtain rfl : i = 0 := by omega
      rfl
  | a :: l, i, n + 1, h, hn => by
      have htake : (a :: l).take (n + 1) <+: a :: l := List.take_prefix (n + 1) (a :: l)
      rw [List.take_succ_cons] at htake ⊢
      rw [find] at h ⊢
      by_cases hp : needle <+: a :: l
      · rw [if_pos hp, Option.some.injEq] at h
        subst h
        rw [if_pos]
        refine List.prefix_of_prefix_length_le hp htake ?_
        have := hp.length_le
        simp only [List.length_take, List.length_cons] at this ⊢
        omega
      · rw [if_neg hp] at h
        obtain ⟨j, hj, rfl⟩ := Option.map_eq_some_iff.1 h
        rw [if_neg fun hp' => hp (hp'.trans htake),
          find_take hj (by omega)]
        rfl

/-- The needle stands where it is found. -/
lemma prefix_of_find : ∀ {l : List α} {i : ℕ}, find needle l = some i → needle <+: l.drop i
  | [], i, h => by
      rw [find] at h
      split at h
      · next hn => rw [hn]; exact List.nil_prefix
      · exact absurd h (by simp)
  | a :: l, i, h => by
      rw [find] at h
      split at h
      · next hp => cases h; exact hp
      · obtain ⟨j, hj, rfl⟩ := Option.map_eq_some_iff.1 h
        rw [List.drop_succ_cons]
        exact prefix_of_find hj

lemma find_of_prefix : ∀ {l : List α} {i : ℕ}, i ≤ l.length → needle <+: l.drop i →
    ∃ j ≤ i, find needle l = some j
  | l, 0, _, h => ⟨0, Nat.le_refl 0, find_front h⟩
  | a :: l, i + 1, hi, h => by
      by_cases hp : needle <+: a :: l
      · exact ⟨0, Nat.zero_le _, find_front hp⟩
      · obtain ⟨j, hj, hfind⟩ := find_of_prefix (Nat.le_of_succ_le_succ hi) h
        exact ⟨j + 1, Nat.succ_le_succ hj, by rw [find, if_neg hp, hfind, Option.map_some]⟩

omit [DecidableEq α] in
lemma prefix_append_sep (hs : s ∉ needle) {r : List α} :
    needle <+: l ++ s :: r ↔ needle <+: l := by
  constructor
  · intro h
    rcases List.prefix_or_prefix_of_prefix h (List.prefix_append l (s :: r)) with h' | ⟨t, rfl⟩
    · exact h'
    · rw [List.prefix_append_right_inj] at h
      cases t with
      | nil => simp
      | cons b t =>
          obtain ⟨u, hu⟩ := h
          exact absurd (by simp [(List.cons.inj hu).1]) hs
  · exact fun h => h.trans (List.prefix_append _ _)

/-- **A field the needle is not in is stepped over.** -/
lemma find_append_sep (hs : s ∉ needle) :
    ∀ {l : List α}, find needle l = none → ∀ r,
      find needle (l ++ s :: r) = (find needle r).map (· + (l.length + 1))
  | [], h, r => by
      have hne : needle ≠ [] := by rintro rfl; simp [find] at h
      rw [List.nil_append, find, if_neg, List.length_nil]
      · intro hp
        cases needle with
        | nil => exact hne rfl
        | cons c n =>
            obtain ⟨t, ht⟩ := hp
            exact hs (by simp [(List.cons.inj ht).1])
  | a :: l, h, r => by
      rw [find] at h
      by_cases hp : needle <+: a :: l
      · rw [if_pos hp] at h
        exact absurd h (by simp)
      · rw [if_neg hp, Option.map_eq_none_iff] at h
        rw [List.cons_append, find, if_neg, find_append_sep hs h r, Option.map_map]
        · rfl
        · rwa [← List.cons_append, prefix_append_sep hs]

/-! ## The last place -/

/-- **The last place is in the tail**, where the tail has one. -/
lemma rfind_append (h : rfind needle l = some i) :
    ∀ r : List α, rfind needle (r ++ l) = some (r.length + i)
  | [] => by simpa using h
  | a :: r => by
      rw [List.cons_append, rfind, rfind_append h r]
      simp only [List.length_cons, Option.some.injEq]
      omega

lemma rfind_eq_none_of_length_lt :
    ∀ {l : List α}, l.length < needle.length → rfind needle l = none
  | [], h => by rw [rfind, if_neg (List.ne_nil_of_length_pos h)]
  | a :: l, h => by
      simp only [List.length_cons] at h
      rw [rfind, rfind_eq_none_of_length_lt (by omega), if_neg]
      intro hp
      have := hp.length_le
      simp only [List.length_cons] at this
      omega

lemma rfind_eq_none_of_last {n : List α} (hn : n ≠ []) :
    ∀ {l : List α}, s ∉ l → rfind (s :: n) (l ++ [s]) = none
  | [], _ => rfind_eq_none_of_length_lt (by
      have := List.length_pos_iff.2 hn
      simp only [List.nil_append, List.length_cons, List.length_nil]
      omega)
  | a :: l, h => by
      rw [List.cons_append, rfind,
        rfind_eq_none_of_last hn fun hm => h (List.mem_cons_of_mem _ hm), if_neg]
      rintro ⟨t, ht⟩
      exact h (by simp [(List.cons.inj ht).1])

end Search
