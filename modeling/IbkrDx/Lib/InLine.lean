import Mathlib.Data.List.Basic

/-!
# A place held by one at a time

Those who come for a place that one may hold are put in line, and the one in front is called when
the place falls free.  Each is known by when it came.

* `InLine` — who has held the place, who holds it, who is called to it and who waits.
* **`InLine.join`**, **`InLine.serve`**, **`InLine.call`** — the one who comes last waits last, and
  the one called next is the one who has waited longest.
-/

/-- **The place and the line for it**, at a time no one in line has come at. -/
structure InLine (clock : ℕ) (served here called waiting : List ℕ) : Prop where
  one : here.length + called.length ≤ 1
  /-- Nobody waits for a place that is free. -/
  behind : waiting ≠ [] → here ++ called ≠ []
  inOrder : (served ++ (called ++ waiting)).Pairwise (· < ·)
  past : ∀ t ∈ served ++ (called ++ waiting), t < clock
  known : ∀ t ∈ here, t ∈ served

namespace InLine

variable {clock t : ℕ} {served here called waiting : List ℕ}

lemma empty (clock : ℕ) : InLine clock [] [] [] [] :=
  ⟨Nat.zero_le 1, fun h => absurd rfl h, List.Pairwise.nil, by simp, by simp⟩

lemma later (h : InLine clock served here called waiting) {clock' : ℕ} (hle : clock ≤ clock') :
    InLine clock' served here called waiting :=
  { h with past := fun t ht => Nat.lt_of_lt_of_le (h.past t ht) hle }

/-- **Who comes while the place is held waits behind the others.** -/
theorem join (h : InLine clock served here called waiting) (hheld : here ≠ []) :
    InLine (clock + 1) served here called (waiting ++ [clock]) where
  one := h.one
  behind := fun _ hnil => hheld (List.append_eq_nil_iff.1 hnil).1
  inOrder := by
    rw [← List.append_assoc, ← List.append_assoc, List.append_assoc served, List.pairwise_append]
    exact ⟨h.inOrder, List.pairwise_singleton _ _, by simpa using h.past⟩
  past := by
    intro t ht
    rw [← List.append_assoc, ← List.append_assoc, List.append_assoc served, List.mem_append] at ht
    rcases ht with ht | ht
    · exact Nat.lt_succ_of_lt (h.past t ht)
    · rw [List.mem_singleton.1 ht]
      exact Nat.lt_succ_self clock
  known := h.known

/-- **Who is called is served.** -/
theorem serve (h : InLine clock served [] [t] waiting) :
    InLine clock (served ++ [t]) [t] [] waiting where
  one := Nat.le_refl 1
  behind := by simp
  inOrder := by simpa using h.inOrder
  past := by simpa using h.past
  known := by simp

theorem serve_first (h : InLine clock served [] [] waiting) :
    InLine (clock + 1) (served ++ [clock]) [clock] [] waiting := by
  have hnone : waiting = [] := by
    by_contra hne
    exact h.behind hne rfl
  subst hnone
  refine serve ⟨Nat.le_refl 1, fun hne => absurd rfl hne, ?_, ?_, by simp⟩
  · have hpast : ∀ t ∈ served, t < clock := fun t ht => h.past t (by simp [ht])
    have horder : served.Pairwise (· < ·) := by simpa using h.inOrder
    exact List.pairwise_append.2 ⟨horder, List.pairwise_singleton _ _, by simpa using hpast⟩
  · intro t ht
    rcases List.mem_append.1 ht with ht | ht
    · exact Nat.lt_succ_of_lt (h.past t (List.mem_append_left _ ht))
    · have htime : t = clock := by simpa using ht
      rw [htime]
      exact Nat.lt_succ_self clock

/-- **With the place free, the one in front is called.** -/
theorem call (h : InLine clock served here called (t :: waiting)) :
    InLine clock served [] [t] waiting where
  one := Nat.le_refl 1
  behind := by simp
  inOrder := h.inOrder.sublist ((List.sublist_append_right called _).append_left served)
  past := fun u hu => h.past u
    (((List.sublist_append_right called _).append_left served).subset hu)
  known := by simp

lemma leave (h : InLine clock served here called waiting) {waiting' : List ℕ}
    (hsub : waiting'.Sublist waiting) : InLine clock served here called waiting' where
  one := h.one
  behind := fun hne => h.behind fun hnil => hne (List.sublist_nil.1 (hnil ▸ hsub))
  inOrder := h.inOrder.sublist ((hsub.append_left called).append_left served)
  past := fun u hu => h.past u (((hsub.append_left called).append_left served).subset hu)
  known := h.known

lemma go (h : InLine clock served here called []) {here' called' : List ℕ}
    (hhere : here'.Sublist here) (hcalled : called'.Sublist called) :
    InLine clock served here' called' [] where
  one := Nat.le_trans (Nat.add_le_add hhere.length_le hcalled.length_le) h.one
  behind := fun hne => absurd rfl hne
  inOrder := h.inOrder.sublist ((hcalled.append_right []).append_left served)
  past := fun u hu => h.past u (((hcalled.append_right []).append_left served).subset hu)
  known := fun u hu => h.known u (hhere.subset hu)

lemma served_lt (h : InLine clock served here called waiting) {u : ℕ} (ht : t ∈ served)
    (hu : u ∈ called ++ waiting) : t < u :=
  (List.pairwise_append.1 h.inOrder).2.2 t ht u hu

lemma called_lt (h : InLine clock served here called waiting) {u : ℕ} (ht : t ∈ called)
    (hu : u ∈ waiting) : t < u :=
  (List.pairwise_append.1 (List.pairwise_append.1 h.inOrder).2.1).2.2 t ht u hu

lemma free_of_called (h : InLine clock served here called waiting) (hcalled : t ∈ called) :
    here = [] ∧ called = [t] := by
  have hpos := List.length_pos_of_mem hcalled
  have hone := h.one
  refine ⟨List.length_eq_zero_iff.1 (by omega), ?_⟩
  obtain ⟨u, rfl⟩ := List.length_eq_one_iff.1 (show called.length = 1 by omega)
  rw [List.mem_singleton.1 hcalled]

end InLine
