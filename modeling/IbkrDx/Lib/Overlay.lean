import Mathlib.Data.List.Induction
import Mathlib.Data.List.Nodup

/-!
# Laying one list of keyed entries over another

Two ways of laying a list over another under keys, and what is found under a key afterwards.

* `Overlay.put`, `Overlay.putAll` — an entry is merged into the one that has its key, where it
  stands; one whose key is new goes last.
* `Overlay.renew`, `Overlay.renewAll` — every entry with the key leaves, and the new one goes last.
* `Overlay.at?` — what is found under a key.
* **`putAll_assoc`**, **`renewAll_assoc`** — laying is associative.
* **`renewAll_finer_iff`** — under a key that tells less, what is laid is what a finer key lays
  just where no two entries differ in the finer alone.
-/

namespace Overlay

variable {α κ : Type*} [DecidableEq κ] (key : α → κ) (merge : α → α → α)

def at? (l : List α) (k : κ) : Option α := l.find? fun u => key u = k

def put : List α → α → List α
  | [], v => [v]
  | u :: l, v => if key u = key v then merge u v :: l else u :: put l v

def putAll (l l' : List α) : List α := l'.foldl (put key merge) l

/-- One entry put last, instead of those with its key. -/
def renew (l : List α) (v : α) : List α := l.filter (fun u => key u ≠ key v) ++ [v]

def renewAll (l l' : List α) : List α := l'.foldl (renew key) l

variable {key merge}

lemma at?_nil (k : κ) : at? key [] k = none := rfl

lemma at?_cons (u : α) (l : List α) (k : κ) :
    at? key (u :: l) k = if key u = k then some u else at? key l k := by
  unfold at?
  rw [List.find?_cons]
  split <;> rename_i h
  · rw [if_pos (of_decide_eq_true h)]
  · rw [if_neg (of_decide_eq_false h)]

variable {l : List α}

lemma at?_eq_none {k : κ} : at? key l k = none ↔ ∀ u ∈ l, key u ≠ k := by
  unfold at?
  rw [List.find?_eq_none]
  simp only [decide_eq_true_eq, ne_eq]

lemma at?_mem {k : κ} {u : α} (h : at? key l k = some u) : u ∈ l ∧ key u = k := by
  unfold at? at h
  exact ⟨List.mem_of_find?_eq_some h, by simpa using List.find?_some h⟩

lemma at?_of_mem (hnodup : (l.map key).Nodup) {u : α} (h : u ∈ l) :
    at? key l (key u) = some u := by
  induction l with
  | nil => exact absurd h List.not_mem_nil
  | cons v l ih =>
      rw [List.map_cons, List.nodup_cons] at hnodup
      rw [at?_cons]
      rcases List.mem_cons.1 h with rfl | hmem
      · rw [if_pos rfl]
      · have hne : key v ≠ key u := fun heq => hnodup.1 (heq ▸ List.mem_map_of_mem hmem)
        rw [if_neg hne, ih hnodup.2 hmem]

lemma at?_append (l l' : List α) (k : κ) :
    at? key (l ++ l') k = (at? key l k).or (at? key l' k) := List.find?_append

/-! ## Merging in place -/

section

variable (hkey : ∀ u v, key u = key v → key (merge u v) = key u)
include hkey

lemma map_put (l : List α) (v : α) :
    (put key merge l v).map key = if key v ∈ l.map key then l.map key else l.map key ++ [key v] := by
  induction l with
  | nil => rfl
  | cons u l ih =>
      rw [put]
      split_ifs with h hmem hmem
      · rw [List.map_cons, List.map_cons, hkey u v h]
      · exact absurd (List.mem_map.2 ⟨u, List.mem_cons_self, h⟩) hmem
      · rw [List.map_cons, ih, if_pos, List.map_cons]
        rw [List.map_cons, List.mem_cons] at hmem
        exact hmem.resolve_left fun heq => h heq.symm
      · rw [List.map_cons, ih, if_neg, List.map_cons, List.cons_append]
        rw [List.map_cons, List.mem_cons, not_or] at hmem
        exact hmem.2

lemma nodup_put {l : List α} (h : (l.map key).Nodup) (v : α) :
    ((put key merge l v).map key).Nodup := by
  rw [map_put hkey]
  split_ifs with hmem
  · exact h
  · exact List.nodup_append.2 ⟨h, List.nodup_singleton _, fun a ha b hb heq =>
      hmem (List.mem_singleton.1 hb ▸ heq ▸ ha)⟩

lemma nodup_putAll {l : List α} (h : (l.map key).Nodup) (l' : List α) :
    ((putAll key merge l l').map key).Nodup := by
  induction l' generalizing l with
  | nil => exact h
  | cons v l' ih => exact ih (nodup_put hkey h v)

lemma at?_put (l : List α) (v : α) (k : κ) :
    at? key (put key merge l v) k =
      if key v = k then some ((at? key l k).elim v (merge · v)) else at? key l k := by
  induction l with
  | nil => rw [put, at?_cons, at?_nil]; rfl
  | cons u l ih =>
      rw [put]
      split_ifs with h hk hk
      · rw [at?_cons, hkey u v h, at?_cons, if_pos (h.trans hk), if_pos (h.trans hk)]
        rfl
      · rw [at?_cons, hkey u v h, at?_cons, if_neg fun heq => hk (h.symm.trans heq),
          if_neg fun heq => hk (h.symm.trans heq)]
      · rw [at?_cons, if_neg fun heq => h (heq.trans hk.symm), ih, if_pos hk, at?_cons,
          if_neg fun heq => h (heq.trans hk.symm)]
      · rw [at?_cons, ih, if_neg hk, at?_cons]

/-- **What is found under a key**: both merged, or the one there is. -/
theorem at?_putAll {l l' : List α} (h : (l'.map key).Nodup) (k : κ) :
    at? key (putAll key merge l l') k =
      match at? key l k, at? key l' k with
      | some u, some v => some (merge u v)
      | some u, none => some u
      | none, o => o := by
  induction l' generalizing l with
  | nil =>
      rw [at?_nil]
      cases hl : at? key l k with
      | none => exact hl
      | some u => exact hl
  | cons v l' ih =>
      rw [List.map_cons, List.nodup_cons] at h
      have hrec := ih (l := put key merge l v) h.2
      rw [putAll, List.foldl_cons] at *
      rw [hrec, at?_put hkey, at?_cons]
      split_ifs with hk
      · have hnone : at? key l' k = none := at?_eq_none.2 fun u hu heq =>
          h.1 (hk ▸ heq ▸ List.mem_map_of_mem hu)
        rw [hnone]
        cases at? key l k <;> rfl
      · rfl

lemma put_put_same (hassoc : ∀ u v w, key u = key v → key v = key w →
      merge (merge u v) w = merge u (merge v w))
    (l : List α) {v w : α} (h : key v = key w) :
    put key merge (put key merge l v) w = put key merge l (merge v w) := by
  induction l with
  | nil => rw [put, put, put, if_pos h]
  | cons u l ih =>
      rw [put, put, hkey v w h]
      split_ifs with hu
      · rw [put, if_pos ((hkey u v hu).trans (hu.trans h)), hassoc u v w hu h]
      · rw [put, if_neg fun heq => hu (heq.trans h.symm), ih]

omit hkey in
lemma put_comm (hkey : ∀ u v, key u = key v → key (merge u v) = key u) {l : List α} {t w : α}
    (hw : key w ∈ l.map key) (hne : key t ≠ key w) :
    put key merge (put key merge l t) w = put key merge (put key merge l w) t := by
  induction l with
  | nil => exact absurd hw List.not_mem_nil
  | cons u l ih =>
      rw [put, put.eq_2 key merge w u l]
      split_ifs with ht hu hu
      · exact absurd (ht.symm.trans hu) hne
      · rw [put, if_neg fun heq => hu ((hkey u t ht).symm.trans heq), put, if_pos ht]
      · rw [put, if_pos hu, put, if_neg fun heq => ht ((hkey u w hu).symm.trans heq)]
      · rw [put, if_neg hu, put, if_neg ht, ih]
        rw [List.map_cons, List.mem_cons] at hw
        exact hw.resolve_left fun heq => hu heq.symm

lemma putAll_put_comm {l l' : List α} {w : α} (hw : key w ∈ l.map key)
    (hnot : key w ∉ l'.map key) :
    put key merge (putAll key merge l l') w = putAll key merge (put key merge l w) l' := by
  induction l' generalizing l with
  | nil => rfl
  | cons t l' ih =>
      rw [List.map_cons, List.mem_cons, not_or] at hnot
      have hthere : key w ∈ (put key merge l t).map key := by
        rw [map_put hkey]
        split_ifs
        · exact hw
        · exact List.mem_append_left _ hw
      have hrec := ih hthere hnot.2
      rw [putAll, List.foldl_cons] at *
      rw [hrec, put_comm hkey hw fun heq => hnot.1 heq.symm]
      rfl

lemma putAll_put (hassoc : ∀ u v w, key u = key v → key v = key w →
      merge (merge u v) w = merge u (merge v w))
    {l l' : List α} (h : (l'.map key).Nodup) (w : α) :
    putAll key merge l (put key merge l' w) = put key merge (putAll key merge l l') w := by
  induction l' generalizing l with
  | nil => rfl
  | cons v l' ih =>
      rw [List.map_cons, List.nodup_cons] at h
      rw [put]
      split_ifs with hvw
      · have hthere : key w ∈ (put key merge l v).map key := by
          rw [map_put hkey, ← hvw]
          split_ifs with hmem
          · exact hmem
          · exact List.mem_append_right _ List.mem_cons_self
        have hcomm := putAll_put_comm hkey hthere (hvw ▸ h.1)
        rw [putAll, List.foldl_cons, ← put_put_same hkey hassoc l hvw]
        exact hcomm.symm
      · exact ih h.2

/-- **Merging in place is associative.** -/
theorem putAll_assoc (hassoc : ∀ u v w, key u = key v → key v = key w →
      merge (merge u v) w = merge u (merge v w))
    {l l' : List α} (h : (l'.map key).Nodup) (l'' : List α) :
    putAll key merge (putAll key merge l l') l'' =
      putAll key merge l (putAll key merge l' l'') := by
  induction l'' generalizing l' with
  | nil => rfl
  | cons w l'' ih =>
      have hrec := ih (nodup_put hkey h w)
      rw [putAll_put hkey hassoc h] at hrec
      exact hrec

end

/-! ## Putting last -/

lemma renew_filter_same {v : α} {k : κ} (h : key v = k) :
    (renew key l v).filter (fun u => key u ≠ k) = l.filter fun u => key u ≠ k := by
  rw [renew, List.filter_append, h, List.filter_filter]
  simp [h]

lemma renew_filter_other {v : α} {k : κ} (h : key v ≠ k) :
    (renew key l v).filter (fun u => key u ≠ k) = renew key (l.filter fun u => key u ≠ k) v := by
  rw [renew, renew, List.filter_append, List.filter_filter, List.filter_filter]
  simp [h, Bool.and_comm]

lemma renewAll_filter (l l' : List α) (k : κ) :
    (renewAll key l (l'.filter fun u => key u ≠ k)).filter (fun u => key u ≠ k) =
      (renewAll key l l').filter fun u => key u ≠ k := by
  induction l' using List.reverseRecOn with
  | nil => rfl
  | append_singleton l' v ih =>
      have hlast : renewAll key l (l' ++ [v]) = renew key (renewAll key l l') v := by
        rw [renewAll, List.foldl_append]
        rfl
      rw [hlast, List.filter_append]
      by_cases h : key v = k
      · have hnil : [v].filter (fun u => decide (key u ≠ k)) = [] := by simp [h]
        rw [hnil, List.append_nil, ih, renew_filter_same h]
      · have hone : [v].filter (fun u => decide (key u ≠ k)) = [v] := by simp [h]
        have hlast' : renewAll key l (l'.filter (fun u => decide (key u ≠ k)) ++ [v]) =
            renew key (renewAll key l (l'.filter fun u => key u ≠ k)) v := by
          rw [renewAll, List.foldl_append]
          rfl
        rw [hone, hlast', renew_filter_other h, renew_filter_other h, ih]

/-- **Putting last is associative.** -/
theorem renewAll_assoc (l l' l'' : List α) :
    renewAll key (renewAll key l l') l'' = renewAll key l (renewAll key l' l'') := by
  induction l'' using List.reverseRecOn with
  | nil => rfl
  | append_singleton l'' v ih =>
      have hlast (x : List α) : renewAll key x (l'' ++ [v]) = renew key (renewAll key x l'') v := by
        rw [renewAll, List.foldl_append]
        rfl
      have hpush : renewAll key l (renew key (renewAll key l' l'') v) =
          renew key (renewAll key l ((renewAll key l' l'').filter fun u => key u ≠ key v)) v := by
        rw [renew, renewAll, List.foldl_append]
        rfl
      rw [hlast, hlast, ih, hpush, renew, renew, renewAll_filter]

lemma at?_renew (l : List α) (v : α) (k : κ) :
    at? key (renew key l v) k = if key v = k then some v else at? key l k := by
  rw [renew, at?_append, at?_cons, at?_nil]
  split_ifs with h
  · have hnone : at? key (l.filter fun u => key u ≠ key v) k = none :=
      at?_eq_none.2 fun u hu heq =>
        of_decide_eq_true (List.mem_filter.1 hu).2 (heq.trans h.symm)
    rw [hnone]
    rfl
  · rw [Option.or_none]
    unfold at?
    rw [List.find?_filter]
    refine congrArg (List.find? · l) (funext fun u => ?_)
    by_cases hu : key u = k
    · have hne : key u ≠ key v := fun heq => h (heq.symm.trans hu)
      simp [hu, Ne.symm h]
    · simp [hu]

variable {l' : List α}

/-- **What is found under a key**: the later entry, else the earlier. -/
theorem at?_renewAll (h : (l'.map key).Nodup) (k : κ) :
    at? key (renewAll key l l') k = (at? key l' k).or (at? key l k) := by
  induction l' generalizing l with
  | nil => rfl
  | cons v l' ih =>
      rw [List.map_cons, List.nodup_cons] at h
      have hrec := ih (l := renew key l v) h.2
      rw [renewAll, List.foldl_cons] at *
      rw [hrec, at?_renew, at?_cons]
      split_ifs with hk
      · have hnone : at? key l' k = none := at?_eq_none.2 fun u hu heq =>
          h.1 (hk ▸ heq ▸ List.mem_map_of_mem hu)
        rw [hnone]
        rfl
      · rfl

lemma nodup_renew (h : (l.map key).Nodup) (v : α) :
    ((renew key l v).map key).Nodup := by
  rw [renew, List.map_append, List.map_singleton]
  refine List.nodup_append.2 ⟨h.sublist (List.filter_sublist.map key), List.nodup_singleton _, ?_⟩
  intro a ha b hb heq
  obtain ⟨u, hu, rfl⟩ := List.mem_map.1 ha
  exact of_decide_eq_true (List.mem_filter.1 hu).2 (heq.trans (List.mem_singleton.1 hb))

lemma nodup_renewAll (h : (l.map key).Nodup) (l' : List α) :
    ((renewAll key l l').map key).Nodup := by
  induction l' generalizing l with
  | nil => exact h
  | cons v l' ih => exact ih (nodup_renew h v)

lemma renewAll_alone {u x y : α} (hu : u ∈ l') (hx : x ∈ renewAll key l l')
    (hy : y ∈ renewAll key l l') (hxu : key x = key u) (hyu : key y = key u) : x = y := by
  induction l' using List.reverseRecOn with
  | nil => exact absurd hu List.not_mem_nil
  | append_singleton l' v ih =>
      have hlast : renewAll key l (l' ++ [v]) = renew key (renewAll key l l') v := by
        rw [renewAll, List.foldl_append]
        rfl
      rw [hlast, renew, List.mem_append, List.mem_filter, List.mem_singleton,
        decide_eq_true_eq] at hx hy
      rcases hx with ⟨hx, hxv⟩ | rfl
      · rcases hy with ⟨hy, hyv⟩ | rfl
        · refine ih ?_ hx hy
          rcases List.mem_append.1 hu with hu | hu
          · exact hu
          · exact absurd (hxu.trans (congrArg key (List.mem_singleton.1 hu))) hxv
        · exact absurd (hxu.trans hyu.symm) hxv
      · rcases hy with ⟨hy, hyv⟩ | rfl
        · exact absurd (hyu.trans hxu.symm) hyv
        · rfl

/-! ## Under a key that tells less -/

/-- No entry laid agrees in the one key with an entry it differs from in the other. -/
def NoClash {ι : Type*} (key : α → κ) (finer : α → ι) (l l' : List α) : Prop :=
  ∀ u ∈ l', ∀ v ∈ l ++ l', key v = key u → finer v = finer u

lemma renewAll_of_noClash {ι : Type*} [DecidableEq ι] {finer : α → ι}
    (hfiner : ∀ u v, finer u = finer v → key u = key v)
    (h : NoClash key finer l l') : renewAll key l l' = renewAll finer l l' := by
  induction l' generalizing l with
  | nil => rfl
  | cons w l' ih =>
      have hrenew : renew key l w = renew finer l w := by
        rw [renew, renew]
        refine congrArg (· ++ [w]) (List.filter_congr fun v hv => decide_eq_decide.2 ?_)
        exact ⟨fun hne heq => hne (hfiner _ _ heq), fun hne heq =>
          hne (h w List.mem_cons_self v (List.mem_append_left _ hv) heq)⟩
      rw [renewAll, List.foldl_cons, renewAll, List.foldl_cons, hrenew]
      refine ih fun u hu v hv heq => h u (List.mem_cons_of_mem _ hu) v ?_ heq
      rw [renew] at hv
      simp only [List.mem_append, List.mem_filter, List.mem_cons] at hv ⊢
      tauto

/-- **Under a key that tells less**, what is found is what the finer key lays just where no two
entries differ in the finer alone. -/
theorem renewAll_finer_iff {ι : Type*} [DecidableEq ι] {finer : α → ι}
    (hfiner : ∀ u v, finer u = finer v → key u = key v)
    (hl' : (l'.map finer).Nodup) :
    (∀ k, at? finer (renewAll key l l') k = (at? finer l' k).or (at? finer l k)) ↔
      NoClash key finer l l' := by
  constructor
  · intro h u hu v hv hkey
    have hat (w : α) (hw : w ∈ l ++ l') :
        ∃ x ∈ renewAll key l l', finer x = finer w := by
      have hsome : ((at? finer l' (finer w)).or (at? finer l (finer w))) ≠ none := by
        rw [ne_eq, Option.or_eq_none_iff, at?_eq_none, at?_eq_none]
        rintro ⟨hno', hno⟩
        rcases List.mem_append.1 hw with hw | hw
        · exact hno w hw rfl
        · exact hno' w hw rfl
      obtain ⟨x, hx⟩ := Option.ne_none_iff_exists'.1 hsome
      obtain ⟨hmem, hsame⟩ := at?_mem ((h (finer w)).trans hx)
      exact ⟨x, hmem, hsame⟩
    obtain ⟨x, hx, hxu⟩ := hat u (List.mem_append_right _ hu)
    obtain ⟨y, hy, hyv⟩ := hat v hv
    have hsame := renewAll_alone hu hx hy (hfiner _ _ hxu) ((hfiner _ _ hyv).trans hkey)
    rw [← hyv, ← hxu, hsame]
  · intro h k
    rw [renewAll_of_noClash hfiner h, at?_renewAll hl']

end Overlay
