import Mathlib.Data.Multiset.Filter

/-!
# Taking one out of a list

A list is searched for the first entry of a kind, and that entry is changed or taken out.  Where it
stands is nobody's business afterwards, so what is left is stated up to order.

* `swapRemove` — the entry goes, and the last takes its place.
* `modifyFirst` — the entry is changed where it stands.
* **`perm_eraseP`**, **`perm_swapRemove`**, **`perm_modifyFirst`** — the entry, and the others as
  they were.
* `find?_of_takeWhile` — which entry the search finds first.
* `of_filter_eq_nil`, **`of_filter_eq_singleton`** — a walk over a list only one entry of which
  concerns what is looked at.
-/

namespace Removal

variable {α : Type*} (p : α → Bool)

/-- Take out the first entry of a kind, the last put in its place. -/
def swapRemove : List α → List α
  | [] => []
  | a :: l => if p a then l.getLast?.toList ++ l.dropLast else a :: swapRemove l

def modifyFirst (f : α → α) : List α → List α
  | [] => []
  | a :: l => if p a then f a :: l else a :: modifyFirst f l

variable {p}

lemma perm_rotateLast (l : List α) : (l.getLast?.toList ++ l.dropLast).Perm l := by
  rcases List.eq_nil_or_concat l with rfl | ⟨l, a, rfl⟩
  · exact List.Perm.refl _
  · simpa using (List.perm_append_singleton a l).symm

variable {l : List α}

theorem perm_swapRemove {a : α} (h : l.find? p = some a) :
    l.Perm (a :: swapRemove p l) := by
  induction l with
  | nil => simp at h
  | cons b l ih =>
      unfold swapRemove
      by_cases hb : p b = true
      · rw [List.find?_cons_of_pos hb, Option.some_inj] at h
        subst h
        rw [if_pos hb]
        exact (perm_rotateLast l).symm.cons b
      · rw [List.find?_cons_of_neg hb] at h
        rw [if_neg hb]
        exact ((ih h).cons b).trans (List.Perm.swap a b _)

theorem perm_eraseP {a : α} (h : l.find? p = some a) :
    l.Perm (a :: l.eraseP p) := by
  induction l with
  | nil => simp at h
  | cons b l ih =>
      by_cases hb : p b = true
      · rw [List.find?_cons_of_pos hb, Option.some_inj] at h
        subst h
        rw [List.eraseP_cons_of_pos hb]
      · rw [List.find?_cons_of_neg hb] at h
        rw [List.eraseP_cons_of_neg hb]
        exact ((ih h).cons b).trans (List.Perm.swap a b _)

lemma find?_of_takeWhile {k : α → Prop} [DecidablePred k] : ∀ {l : List α},
    (∀ a ∈ l.takeWhile fun a => decide (¬ k a), p a = false) → (∀ a ∈ l, k a → p a = true) →
      (∃ a ∈ l, k a) → ∃ a, l.find? p = some a ∧ k a
  | [], _, _, h => by simp at h
  | a :: l, hskip, hfound, h => by
      by_cases ha : k a
      · exact ⟨a, List.find?_cons_of_pos (hfound a List.mem_cons_self ha), ha⟩
      · simp only [List.takeWhile_cons, ha, not_false_eq_true, decide_true, if_true] at hskip
        have hl : ∃ b ∈ l, k b := by
          obtain ⟨b, hb, hkb⟩ := h
          exact ⟨b, (List.mem_cons.1 hb).resolve_left fun he => ha (he ▸ hkb), hkb⟩
        obtain ⟨b, hb, hkb⟩ := find?_of_takeWhile
          (fun b hb => hskip b (List.mem_cons_of_mem a hb))
          (fun b hb => hfound b (List.mem_cons_of_mem a hb)) hl
        refine ⟨b, ?_, hkb⟩
        rw [List.find?_cons_of_neg (by simp [hskip a List.mem_cons_self]), hb]

theorem modifyFirst_modifyFirst {f : α → α} (g : α → α)
    (hf : ∀ a, p a = true → p (f a) = true) (l : List α) :
    modifyFirst p g (modifyFirst p f l) = modifyFirst p (g ∘ f) l := by
  induction l with
  | nil => rfl
  | cons a l ih =>
      by_cases ha : p a = true
      · simp only [modifyFirst, ha, if_true, hf a ha, Function.comp_apply]
      · simp only [modifyFirst, ha, if_false, ih, Bool.false_eq_true]

lemma modifyFirst_id (l : List α) : modifyFirst p id l = l := by
  induction l with
  | nil => rfl
  | cons a l ih => simp only [modifyFirst, id_eq, ih, ite_self]

theorem perm_modifyFirst {a : α} (f : α → α) (h : l.find? p = some a) :
    (modifyFirst p f l).Perm (f a :: l.eraseP p) := by
  induction l with
  | nil => simp at h
  | cons b l ih =>
      unfold modifyFirst
      by_cases hb : p b = true
      · rw [List.find?_cons_of_pos hb, Option.some_inj] at h
        subst h
        rw [if_pos hb, List.eraseP_cons_of_pos hb]
      · rw [List.find?_cons_of_neg hb] at h
        rw [if_neg hb, List.eraseP_cons_of_neg hb]
        exact ((ih h).cons b).trans (List.Perm.swap (f a) b _)

lemma mem_modifyFirst {f : α → α} {b : α} (h : b ∈ modifyFirst p f l) :
    b ∈ l ∨ ∃ a ∈ l, p a = true ∧ b = f a := by
  induction l with
  | nil => exact Or.inl h
  | cons a l ih =>
      unfold modifyFirst at h
      split_ifs at h with ha
      · rcases List.mem_cons.1 h with rfl | h
        · exact Or.inr ⟨a, List.mem_cons_self, ha, rfl⟩
        · exact Or.inl (List.mem_cons_of_mem _ h)
      · rcases List.mem_cons.1 h with rfl | h
        · exact Or.inl List.mem_cons_self
        · refine (ih h).imp (List.mem_cons_of_mem _) ?_
          exact fun ⟨c, hc, hof⟩ => ⟨c, List.mem_cons_of_mem _ hc, hof⟩

lemma map_modifyFirst {β : Type*} {f : α → α} {g : α → β}
    (hf : ∀ a, p a = true → g (f a) = g a) (l : List α) :
    (modifyFirst p f l).map g = l.map g := by
  induction l with
  | nil => rfl
  | cons a l ih =>
      unfold modifyFirst
      split_ifs with ha
      · rw [List.map_cons, List.map_cons, hf a ha]
      · rw [List.map_cons, List.map_cons, ih]

theorem eraseP_eq_filter_of_nodup {κ : Type*} [DecidableEq κ] (key : α → κ) {k : κ} :
    ∀ {l : List α}, (l.map key).Nodup → l.eraseP (fun a => decide (key a = k))
      = l.filter fun a => decide (key a ≠ k)
  | [], _ => rfl
  | a :: l, h => by
      rw [List.map_cons, List.nodup_cons] at h
      by_cases ha : key a = k
      · rw [List.eraseP_cons_of_pos (by simpa using ha), List.filter_cons_of_neg (by simpa using ha),
          eq_comm, List.filter_eq_self]
        intro b hb
        simpa using fun (hb' : key b = k) => h.1 (List.mem_map.2 ⟨b, hb, hb'.trans ha.symm⟩)
      · rw [List.eraseP_cons_of_neg (by simpa using ha), List.filter_cons_of_pos (by simpa using ha),
          eraseP_eq_filter_of_nodup key h.2]

theorem modifyFirst_eq_map (f : α → α) : ∀ {l : List α},
    l.Pairwise (fun a b => p a = true → ¬p b = true) →
      modifyFirst p f l = l.map fun a => if p a then f a else a
  | [], _ => rfl
  | a :: l, h => by
      rw [List.pairwise_cons] at h
      unfold modifyFirst
      by_cases ha : p a = true
      · have hl : (l.map fun b => if p b then f b else b) = l :=
          (List.map_congr_left fun b hb => if_neg (h.1 b hb ha)).trans (List.map_id _)
        rw [if_pos ha, List.map_cons, if_pos ha, hl]
      · rw [if_neg ha, List.map_cons, if_neg ha, modifyFirst_eq_map f h.2]

theorem modify_map_of_nodup {β : Type*} [DecidableEq α] (h : l.Nodup) {i : ℕ} {a : α}
    (ha : l[i]? = some a) (f : β → β) (g : α → β) :
    (l.map g).modify i f = l.map fun x => if x = a then f (g x) else g x := by
  refine List.ext_getElem? fun j => ?_
  rw [List.getElem?_modify, List.getElem?_map, List.getElem?_map]
  by_cases hij : i = j
  · subst hij
    simp [ha]
  · cases hj : l[j]? with
    | none => rfl
    | some b =>
        have hne : b ≠ a := by
          rintro rfl
          obtain ⟨hi, hib⟩ := List.getElem?_eq_some_iff.1 ha
          obtain ⟨hj', hjb⟩ := List.getElem?_eq_some_iff.1 hj
          exact hij ((h.getElem_inj_iff).1 (hib.trans hjb.symm))
        simp [hne, hij]

lemma modify_length_append_singleton (f : α → α) (a : α) :
    ∀ l : List α, (l ++ [a]).modify l.length f = l ++ [f a]
  | [] => rfl
  | b :: l => by
      rw [List.cons_append, List.length_cons, List.modify_succ_cons,
        modify_length_append_singleton f a l, List.cons_append]

/-! ## What is left of a kind -/

section Kinds

variable {q : α → Bool} {l l' : List α} {a b : α}

lemma filter_of_perm (h : l.Perm (a :: l')) :
    (l.filter q : Multiset α) = if q a then a ::ₘ (l'.filter q : Multiset α) else l'.filter q := by
  rw [Multiset.coe_eq_coe.2 (h.filter q)]
  by_cases ha : q a = true
  · rw [List.filter_cons_of_pos ha, if_pos ha, Multiset.cons_coe]
  · rw [List.filter_cons_of_neg ha, if_neg ha]

lemma filter_of_perm_of_not (h : l.Perm (a :: l')) (ha : ¬q a = true) :
    (l'.filter q : Multiset α) = l.filter q := by
  rw [filter_of_perm h, if_neg ha]

lemma filter_of_perm_of_single (h : l.Perm (a :: l')) (ha : q a = true)
    (hl : (l.filter q : Multiset α) = {b}) : b = a ∧ (l'.filter q : Multiset α) = 0 := by
  rw [filter_of_perm h, if_pos ha, eq_comm, Multiset.singleton_eq_cons_iff] at hl
  exact hl

lemma filter_modifyFirst_of_not {f : α → α} (h : l.find? p = some a) (ha : ¬q a = true)
    (hf : ¬q (f a) = true) : ((modifyFirst p f l).filter q : Multiset α) = l.filter q := by
  rw [filter_of_perm (perm_modifyFirst f h), if_neg hf, filter_of_perm_of_not (perm_eraseP h) ha]

lemma filter_modifyFirst_of_single {f : α → α} (h : l.find? p = some a) (ha : q a = true)
    (hf : q (f a) = true) (hl : (l.filter q : Multiset α) = {b}) :
    b = a ∧ ((modifyFirst p f l).filter q : Multiset α) = {f a} := by
  obtain ⟨rfl, hrest⟩ := filter_of_perm_of_single (perm_eraseP h) ha hl
  refine ⟨rfl, ?_⟩
  rw [filter_of_perm (perm_modifyFirst f h), if_pos hf, hrest]
  rfl

lemma filter_eraseP_of_not (h : l.find? p = some a) (ha : ¬q a = true) :
    (l.eraseP p).filter q = l.filter q := by
  obtain ⟨hp, front, back, rfl, hfront⟩ := List.find?_eq_some_iff_append.1 h
  have hnone : ∀ b ∈ front, ¬p b = true := fun b hb => by simpa using hfront b hb
  rw [List.eraseP_append_right _ hnone, List.eraseP_cons_of_pos hp, List.filter_append,
    List.filter_append, List.filter_cons_of_neg ha]

lemma filter_eq_cons (h : l.find? p = some a) : l.filter p = a :: (l.eraseP p).filter p := by
  obtain ⟨hp, front, back, rfl, hfront⟩ := List.find?_eq_some_iff_append.1 h
  have hnone : ∀ b ∈ front, ¬p b = true := fun b hb => by simpa using hfront b hb
  rw [List.eraseP_append_right _ hnone, List.eraseP_cons_of_pos hp, List.filter_append,
    List.filter_append, List.filter_cons_of_pos hp, List.filter_eq_nil_iff.2 hnone,
    List.nil_append, List.nil_append]

lemma filter_eraseP_of_single (h : l.find? p = some a) (ha : q a = true)
    (hl : (l.filter q).length ≤ 1) : (l.eraseP p).filter q = [] := by
  have hlength := ((perm_eraseP h).filter q).length_eq
  rw [List.filter_cons_of_pos ha, List.length_cons] at hlength
  exact List.length_eq_zero_iff.1 (by omega)

end Kinds

/-! ## Walking over a list -/

section Walk

variable {σ β : Type*} (look : σ → β) {f : σ → α → σ} {about : α → Prop} [DecidablePred about]
  {l : List α}

lemma of_filter_eq_nil (other : ∀ s a, ¬about a → look (f s a) = look s)
    (h : l.filter about = []) (s : σ) : look (l.foldl f s) = look s := by
  induction l generalizing s with
  | nil => rfl
  | cons a l ih =>
      have ha : ¬about a := by simpa using List.filter_eq_nil_iff.1 h a (by simp)
      rw [List.filter_cons_of_neg (by simpa using ha)] at h
      exact (ih h _).trans (other s a ha)

/-- **One entry of concern is met as things stood, and left as it leaves them.** -/
theorem of_filter_eq_singleton (other : ∀ s a, ¬about a → look (f s a) = look s) {a : α}
    (h : l.filter about = [a]) (s : σ) :
    ∃ t, look t = look s ∧ look (l.foldl f s) = look (f t a) := by
  induction l generalizing s with
  | nil => simp at h
  | cons b l ih =>
      by_cases hb : about b
      · rw [List.filter_cons_of_pos (by simpa using hb), List.cons.injEq] at h
        obtain ⟨rfl, hrest⟩ := h
        exact ⟨s, rfl, of_filter_eq_nil look other hrest _⟩
      · rw [List.filter_cons_of_neg (by simpa using hb)] at h
        obtain ⟨t, hst, ht⟩ := ih h (f s b)
        exact ⟨t, hst.trans (other s b hb), ht⟩

end Walk

end Removal
