import Mathlib.Data.List.Infix

/-!
# Edits at single positions of a list

A run of edits, each rewriting the symbol at one position.  Edits that stay inside a window leave
everything outside it alone, and edits that undo themselves are undone by the same run backwards.

* `run_outside`, `run_middle` — what a run inside a window leaves alone.
* `run_reverse` — a run of involutions followed by the same run backwards changes nothing.
-/

namespace Patch

variable {α : Type*}

/-- Rewrite the symbol at each position in turn; a position past the end is no edit. -/
def run (edits : List (ℕ × (α → α))) (l : List α) : List α :=
  edits.foldl (fun m e => m.modify e.1 e.2) l

lemma run_cons (e : ℕ × (α → α)) (edits : List (ℕ × (α → α))) (l : List α) :
    run (e :: edits) l = run edits (l.modify e.1 e.2) := rfl

lemma run_append (es fs : List (ℕ × (α → α))) (l : List α) :
    run (es ++ fs) l = run fs (run es l) := List.foldl_append

@[simp]
lemma length_run (edits : List (ℕ × (α → α))) (l : List α) : (run edits l).length = l.length := by
  induction edits generalizing l with
  | nil => rfl
  | cons e es ih => rw [run_cons, ih, List.length_modify]

def Inside (lo hi : ℕ) (edits : List (ℕ × (α → α))) : Prop := ∀ e ∈ edits, lo ≤ e.1 ∧ e.1 < hi

variable {edits : List (ℕ × (α → α))}

lemma run_outside {lo hi : ℕ} (h : Inside lo hi edits)
    (l : List α) {i : ℕ} (hi' : i < lo ∨ hi ≤ i) : (run edits l)[i]? = l[i]? := by
  induction edits generalizing l with
  | nil => rfl
  | cons e es ih =>
      have he := h e List.mem_cons_self
      rw [run_cons, ih fun f hf => h f (List.mem_cons_of_mem _ hf), List.getElem?_modify_ne _ _]
      omega

lemma run_middle {a b c : List α}
    (h : Inside a.length (a.length + b.length) edits) :
    ∃ b', b'.length = b.length ∧ run edits (a ++ b ++ c) = a ++ b' ++ c := by
  set m := run edits (a ++ b ++ c) with hm
  have hlen : m.length = a.length + b.length + c.length := by
    rw [hm, length_run]
    simp only [List.length_append]
  have hfront : m.take a.length = a := by
    refine List.ext_getElem? fun i => ?_
    rw [List.getElem?_take]
    split
    · next hi =>
        rw [hm, run_outside h _ (Or.inl hi), List.append_assoc, List.getElem?_append_left hi]
    · next hi => exact (List.getElem?_eq_none (not_lt.1 hi)).symm
  have hback : m.drop (a.length + b.length) = c := by
    refine List.ext_getElem? fun i => ?_
    rw [List.getElem?_drop, hm, run_outside h _ (Or.inr (Nat.le_add_right _ _)),
      List.getElem?_append_right (by simp only [List.length_append]; omega)]
    congr 1
    simp only [List.length_append]
    omega
  refine ⟨(m.take (a.length + b.length)).drop a.length, ?_, ?_⟩
  · simp only [List.length_drop, List.length_take]
    omega
  · have hsplit : m.take (a.length + b.length)
        = m.take a.length ++ (m.take (a.length + b.length)).drop a.length := by
      conv_lhs => rw [← List.take_append_drop a.length (m.take (a.length + b.length))]
      rw [List.take_take, Nat.min_eq_left (Nat.le_add_right _ _)]
    rw [hfront] at hsplit
    conv_lhs => rw [← List.take_append_drop (a.length + b.length) m]
    rw [hback]
    exact congrArg (· ++ c) hsplit

lemma run_reverse (h : ∀ e ∈ edits, ∀ x, e.2 (e.2 x) = x)
    (l : List α) : run edits.reverse (run edits l) = l := by
  induction edits generalizing l with
  | nil => rfl
  | cons e es ih =>
      have hid : e.2 ∘ e.2 = id := funext fun x => h e List.mem_cons_self x
      rw [List.reverse_cons, run_append, run_cons e es,
        ih fun f hf => h f (List.mem_cons_of_mem _ hf)]
      show (l.modify e.1 e.2).modify e.1 e.2 = l
      rw [List.modify_modify_eq, hid, List.modify_id]

end Patch
