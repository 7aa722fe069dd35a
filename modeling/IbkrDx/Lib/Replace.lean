import Mathlib.Data.List.Infix

/-!
# Replacing a pattern in a text

Every occurrence of a pattern replaced by another text, from the front and without overlaps, as
standard libraries do it for strings.

* `replaceAll` — the replacement; the pattern is not empty.
* `replaceAll_absent` — a text without the pattern stays.
* `length_replaceAll_lt` — a shorter text in its place makes a text that holds it shorter.
* `not_infix_replaceAll`, `infix_of_infix_replaceAll` — replaced by one sign that does not stand in
  it, the pattern is gone, and no pattern without that sign has come in.
* **`replaceAll_eq_self_iff`** — a text stays exactly if the pattern does not stand in it.
-/

namespace Replacement

variable {α : Type*} [DecidableEq α]

/-- The text with the pattern replaced, its first `skip` signs passed over. -/
def replaceFrom (pat r : List α) : ℕ → List α → List α
  | _, [] => []
  | skip + 1, _ :: cs => replaceFrom pat r skip cs
  | 0, c :: cs =>
      if pat <+: c :: cs then r ++ replaceFrom pat r (pat.length - 1) cs
      else c :: replaceFrom pat r 0 cs

def replaceAll (pat r s : List α) : List α := replaceFrom pat r 0 s

variable {pat r : List α}

lemma replaceFrom_eq (skip : ℕ) (s : List α) :
    replaceFrom pat r skip s = replaceAll pat r (s.drop skip) := by
  induction skip generalizing s with
  | zero => rfl
  | succ skip ih =>
      cases s with
      | nil => rfl
      | cons c cs => exact ih cs

@[simp] lemma replaceAll_nil : replaceAll pat r [] = [] := rfl

lemma replaceAll_append (hne : pat ≠ []) (s : List α) :
    replaceAll pat r (pat ++ s) = r ++ replaceAll pat r s := by
  obtain ⟨p, ps, rfl⟩ := List.exists_cons_of_ne_nil hne
  have hfront : p :: ps <+: p :: (ps ++ s) := List.prefix_append (p :: ps) s
  rw [List.cons_append, replaceAll, replaceFrom, if_pos hfront, replaceFrom_eq,
    List.length_cons, Nat.add_sub_cancel, List.drop_left]

lemma replaceAll_cons {c : α} {cs : List α} (h : ¬ pat <+: c :: cs) :
    replaceAll pat r (c :: cs) = c :: replaceAll pat r cs := by
  rw [replaceAll, replaceFrom, if_neg h]
  rfl

lemma replaceAll_cons_of_ne {p c : α} {ps : List α} (h : p ≠ c) (cs : List α) :
    replaceAll (p :: ps) r (c :: cs) = c :: replaceAll (p :: ps) r cs :=
  replaceAll_cons fun hpre => h (List.cons_prefix_cons.1 hpre).1

lemma replace_induction {motive : List α → Prop} (hne : pat ≠ []) (nil : motive [])
    (here : ∀ s, motive s → motive (pat ++ s))
    (past : ∀ c cs, ¬ pat <+: c :: cs → motive cs → motive (c :: cs)) (s : List α) :
    motive s := by
  induction hlen : s.length using Nat.strongRecOn generalizing s with
  | ind n ih =>
      subst hlen
      cases s with
      | nil => exact nil
      | cons c cs =>
          by_cases hpre : pat <+: c :: cs
          · obtain ⟨rest, hrest⟩ := hpre
            rw [← hrest]
            refine here rest (ih rest.length ?_ rest rfl)
            have hpos := List.length_pos_of_ne_nil hne
            rw [← hrest, List.length_append]
            omega
          · exact past c cs hpre (ih cs.length (Nat.lt_succ_self _) cs rfl)

lemma replaceAll_absent {s : List α} (h : ¬ pat <:+: s) : replaceAll pat r s = s := by
  induction s with
  | nil => rfl
  | cons c cs ih =>
      rw [replaceAll_cons fun hpre => h hpre.isInfix,
        ih fun hinf => h (hinf.trans (List.suffix_cons c cs).isInfix)]

section Shorter

variable (hshort : r.length < pat.length)

include hshort

lemma length_replaceAll_le (s : List α) : (replaceAll pat r s).length ≤ s.length := by
  have hne : pat ≠ [] := List.ne_nil_of_length_pos (Nat.zero_lt_of_lt hshort)
  induction s using replace_induction hne with
  | nil => exact Nat.le_refl 0
  | here s ih =>
      rw [replaceAll_append hne, List.length_append, List.length_append]
      omega
  | past c cs hpre ih =>
      rw [replaceAll_cons hpre, List.length_cons, List.length_cons]
      omega

lemma length_replaceAll_lt {s : List α} (h : pat <:+: s) :
    (replaceAll pat r s).length < s.length := by
  have hne : pat ≠ [] := List.ne_nil_of_length_pos (Nat.zero_lt_of_lt hshort)
  induction s using replace_induction hne with
  | nil => exact absurd (List.infix_nil.1 h) hne
  | here s ih =>
      have hle := length_replaceAll_le hshort s
      rw [replaceAll_append hne, List.length_append, List.length_append]
      omega
  | past c cs hpre ih =>
      rcases List.infix_cons_iff.1 h with hfront | hinf
      · exact absurd hfront hpre
      · have hlt := ih hinf
        rw [replaceAll_cons hpre, List.length_cons, List.length_cons]
        omega

lemma replaceAll_eq_self_iff {s : List α} : replaceAll pat r s = s ↔ ¬ pat <:+: s :=
  ⟨fun heq hinf => absurd (congrArg List.length heq) (length_replaceAll_lt hshort hinf).ne,
    replaceAll_absent⟩

end Shorter

/-! ## One sign in the pattern's place -/

section Sign

variable {t : α}

lemma prefix_of_prefix_replaceAll (hne : pat ≠ []) (s : List α) :
    ∀ q : List α, t ∉ q → q <+: replaceAll pat [t] s → q <+: s := by
  induction s using replace_induction hne with
  | nil => exact fun q _ h => h
  | here s ih =>
      intro q ht h
      rw [replaceAll_append hne, List.singleton_append] at h
      cases q with
      | nil => exact List.nil_prefix
      | cons c q =>
          rw [(List.cons_prefix_cons.1 h).1] at ht
          exact absurd List.mem_cons_self ht
  | past c cs hpre ih =>
      intro q ht h
      rw [replaceAll_cons hpre] at h
      cases q with
      | nil => exact List.nil_prefix
      | cons d q =>
          obtain ⟨rfl, hq⟩ := List.cons_prefix_cons.1 h
          have htq : t ∉ q := fun hmem => ht (List.mem_cons_of_mem _ hmem)
          exact List.cons_prefix_cons.2 ⟨rfl, ih q htq hq⟩

lemma infix_of_infix_replaceAll (hne : pat ≠ []) {q : List α} (ht : t ∉ q) (hq : q ≠ [])
    (s : List α) (h : q <:+: replaceAll pat [t] s) : q <:+: s := by
  induction s using replace_induction hne with
  | nil => exact h
  | here s ih =>
      rw [replaceAll_append hne, List.singleton_append] at h
      rcases List.infix_cons_iff.1 h with hfront | hinf
      · obtain ⟨c, q, rfl⟩ := List.exists_cons_of_ne_nil hq
        rw [(List.cons_prefix_cons.1 hfront).1] at ht
        exact absurd List.mem_cons_self ht
      · exact (ih hinf).trans (List.suffix_append pat s).isInfix
  | past c cs hpre ih =>
      have hfront := prefix_of_prefix_replaceAll (t := t) hne (c :: cs) q ht
      rw [replaceAll_cons hpre] at h hfront
      rcases List.infix_cons_iff.1 h with hpref | hinf
      · exact (hfront hpref).isInfix
      · exact (ih hinf).trans (List.suffix_cons c cs).isInfix

lemma not_infix_replaceAll (hne : pat ≠ []) (ht : t ∉ pat) (s : List α) :
    ¬ pat <:+: replaceAll pat [t] s := by
  induction s using replace_induction hne with
  | nil => exact fun h => hne (List.infix_nil.1 h)
  | here s ih =>
      rw [replaceAll_append hne, List.singleton_append]
      intro h
      rcases List.infix_cons_iff.1 h with hfront | hinf
      · obtain ⟨c, ps, rfl⟩ := List.exists_cons_of_ne_nil hne
        rw [(List.cons_prefix_cons.1 hfront).1] at ht
        exact ht List.mem_cons_self
      · exact ih hinf
  | past c cs hpre ih =>
      have hfront := prefix_of_prefix_replaceAll (t := t) hne (c :: cs) pat ht
      rw [replaceAll_cons hpre] at hfront ⊢
      intro h
      rcases List.infix_cons_iff.1 h with hpref | hinf
      · exact hpre (hfront hpref)
      · exact ih hinf

lemma replaceAll_ne_nil (hne : pat ≠ []) {s : List α} (hs : s ≠ []) :
    replaceAll pat [t] s ≠ [] := by
  induction s using replace_induction hne with
  | nil => exact absurd rfl hs
  | here s ih =>
      rw [replaceAll_append hne]
      exact List.cons_ne_nil _ _
  | past c cs hpre ih =>
      rw [replaceAll_cons hpre]
      exact List.cons_ne_nil _ _

end Sign

lemma replaceAll_singleton (c : α) (r s : List α) :
    replaceAll [c] r s = s.flatMap fun x => if x = c then r else [x] := by
  induction s with
  | nil => rfl
  | cons x xs ih =>
      by_cases hx : x = c
      · subst hx
        have happ := replaceAll_append (r := r) (List.cons_ne_nil x []) xs
        rw [List.singleton_append] at happ
        rw [happ, List.flatMap_cons, if_pos rfl, ih]
      · rw [replaceAll_cons_of_ne (Ne.symm hx), List.flatMap_cons, if_neg hx, ih]
        rfl

end Replacement
