import IbkrDx.Lib.Removal
import Mathlib.Data.List.Induction

/-!
# Elements grouped as they come

Elements come one after another, and each goes into the group of its key, behind those that came
before it.  A group goes by the name of the first of them.

* `groups` — the groups a list makes.
* **`grouped_groups`** — one group a key, each holding the elements of its key in order.
-/

namespace Grouping

variable {α ν κ : Type*} [DecidableEq κ] (name : α → ν) (key : ν → κ)

/-- Put an element into the group of its key, or begin one. -/
def add (gs : List (ν × List α)) (a : α) : List (ν × List α) :=
  if gs.any fun g => decide (key g.1 = key (name a)) then
    Removal.modifyFirst (fun g => decide (key g.1 = key (name a))) (fun g => (g.1, g.2 ++ [a])) gs
  else gs ++ [(name a, [a])]

def groups (l : List α) : List (ν × List α) := l.foldl (add name key) []

structure Grouped (l : List α) (gs : List (ν × List α)) : Prop where
  nodup : (gs.map fun g => key g.1).Nodup
  /-- A group holds the elements of its key, in order. -/
  members : ∀ g ∈ gs, g.2 = l.filter fun a => decide (key (name a) = key g.1)
  covers : ∀ a ∈ l, ∃ g ∈ gs, key g.1 = key (name a)
  inhabited : ∀ g ∈ gs, ∃ a ∈ l, key (name a) = key g.1

variable {name key}

lemma Grouped.add_to {l : List α} {gs : List (ν × List α)} (h : Grouped name key l gs) {a : α}
    (ha : ∃ g ∈ gs, key g.1 = key (name a)) : Grouped name key (l ++ [a]) (add name key gs a) := by
  have hany : gs.any (fun g => decide (key g.1 = key (name a))) = true := by
    simpa [List.any_eq_true] using ha
  have hpairwise : gs.Pairwise fun g g' => decide (key g.1 = key (name a)) = true →
      ¬ decide (key g'.1 = key (name a)) = true := by
    refine (List.pairwise_map.1 h.nodup).imp fun hne hg hg' => hne ?_
    exact (of_decide_eq_true hg).trans (of_decide_eq_true hg').symm
  rw [add, if_pos hany, Removal.modifyFirst_eq_map _ hpairwise]
  refine ⟨?_, ?_, ?_, ?_⟩
  · rw [List.map_map]
    refine (List.map_congr_left fun g _ => ?_) ▸ h.nodup
    simp only [Function.comp_apply]
    split_ifs <;> rfl
  · rintro _ hmem
    obtain ⟨g, hg, rfl⟩ := List.mem_map.1 hmem
    rw [List.filter_append]
    by_cases hkey : key g.1 = key (name a)
    · simp [hkey, h.members g hg]
    · simp [hkey, h.members g hg, Ne.symm hkey]
  · intro b hb
    have hfirst : ∃ g ∈ gs, key g.1 = key (name b) := by
      rcases List.mem_append.1 hb with hb | hb
      · exact h.covers b hb
      · rw [List.mem_singleton] at hb
        exact hb ▸ ha
    obtain ⟨g, hg, hkey⟩ := hfirst
    refine ⟨_, List.mem_map_of_mem hg, ?_⟩
    split_ifs <;> exact hkey
  · rintro _ hmem
    obtain ⟨g, hg, rfl⟩ := List.mem_map.1 hmem
    obtain ⟨b, hb, hkey⟩ := h.inhabited g hg
    refine ⟨b, List.mem_append_left _ hb, ?_⟩
    split_ifs <;> exact hkey

lemma Grouped.add_new {l : List α} {gs : List (ν × List α)} (h : Grouped name key l gs) {a : α}
    (ha : ¬ ∃ g ∈ gs, key g.1 = key (name a)) : Grouped name key (l ++ [a]) (add name key gs a) := by
  have hany : ¬ gs.any (fun g => decide (key g.1 = key (name a))) = true := by
    simpa [List.any_eq_true] using ha
  have hother : ∀ b ∈ l, key (name b) ≠ key (name a) := by
    intro b hb hkey
    obtain ⟨g, hg, hg'⟩ := h.covers b hb
    exact ha ⟨g, hg, hg'.trans hkey⟩
  rw [add, if_neg hany]
  refine ⟨?_, ?_, ?_, ?_⟩
  · rw [List.map_append, List.map_singleton, List.nodup_append]
    refine ⟨h.nodup, List.nodup_singleton _, ?_⟩
    rintro k hk k' hk' rfl
    obtain ⟨g, hg, rfl⟩ := List.mem_map.1 hk
    exact ha ⟨g, hg, List.mem_singleton.1 hk'⟩
  · intro g hg
    rw [List.filter_append]
    rcases List.mem_append.1 hg with hg | hg
    · have hne : key (name a) ≠ key g.1 := fun he => ha ⟨g, hg, he.symm⟩
      simp [hne, h.members g hg]
    · rw [List.mem_singleton.1 hg]
      simpa using hother
  · intro b hb
    rcases List.mem_append.1 hb with hb | hb
    · obtain ⟨g, hg, hkey⟩ := h.covers b hb
      exact ⟨g, List.mem_append_left _ hg, hkey⟩
    · rw [List.mem_singleton.1 hb]
      exact ⟨_, List.mem_append_right _ (List.mem_singleton_self _), rfl⟩
  · intro g hg
    rcases List.mem_append.1 hg with hg | hg
    · obtain ⟨b, hb, hkey⟩ := h.inhabited g hg
      exact ⟨b, List.mem_append_left _ hb, hkey⟩
    · rw [List.mem_singleton.1 hg]
      exact ⟨a, List.mem_append_right _ (List.mem_singleton_self _), rfl⟩

/-- **The groups of a list are its keys', each with its elements in order.** -/
theorem grouped_groups (l : List α) : Grouped name key l (groups name key l) := by
  induction l using List.reverseRecOn with
  | nil => exact ⟨List.nodup_nil, by simp [groups], by simp, by simp [groups]⟩
  | append_singleton l a ih =>
      rw [groups, List.foldl_append, List.foldl_cons, List.foldl_nil]
      by_cases ha : ∃ g ∈ groups name key l, key g.1 = key (name a)
      · exact ih.add_to ha
      · exact ih.add_new ha

end Grouping
