import Mathlib.Algebra.Order.Group.Nat
import Mathlib.Data.List.InsertIdx

/-!
# The first rows of a list that is edited

A list changes by edits that name a position.  Someone who is shown only its first rows has to be
told different edits: a row that an insertion pushes out of them goes away, and one that a removal
lets in arrives.

* `Edit` — an insertion, a replacement or a removal, and where; `Edit.Fits` — the place is there.
* `replay` — a run of edits, which fails at the first that does not fit.
* `windowed` — what the viewer of the first rows has to be told of an edit.
* **`replay_windowed`** — told that, the viewer has the first rows of the edited list.
-/

namespace Window

variable {α β : Type*}

inductive Edit (α : Type*) where
  | insert (i : ℕ) (a : α)
  | replace (i : ℕ) (a : α)
  | remove (i : ℕ)

namespace Edit

def position : Edit α → ℕ
  | .insert i _ | .replace i _ | .remove i => i

def apply : Edit α → List α → List α
  | .insert i a, l => l.insertIdx i a
  | .replace i a, l => l.set i a
  | .remove i, l => l.eraseIdx i

def Fits : Edit α → List α → Prop
  | .insert i _, l => i ≤ l.length
  | .replace i _, l => i < l.length
  | .remove i, l => i < l.length

instance decidableFits : ∀ (e : Edit α) (l : List α), Decidable (e.Fits l)
  | .insert i _, l => inferInstanceAs (Decidable (i ≤ l.length))
  | .replace i _, l => inferInstanceAs (Decidable (i < l.length))
  | .remove i, l => inferInstanceAs (Decidable (i < l.length))

/-- The edit of a list whose elements are read through a function. -/
def map (f : α → β) : Edit α → Edit β
  | .insert i a => .insert i (f a)
  | .replace i a => .replace i (f a)
  | .remove i => .remove i

@[simp]
lemma position_map (f : α → β) (e : Edit α) : (e.map f).position = e.position := by
  cases e <;> rfl

lemma fits_map (f : α → β) {e : Edit α} {l : List α} : (e.map f).Fits (l.map f) ↔ e.Fits l := by
  cases e <;> simp [map, Fits]

lemma apply_map (f : α → β) (e : Edit α) (l : List α) :
    (e.map f).apply (l.map f) = (e.apply l).map f := by
  cases e with
  | insert i a => exact (List.map_insertIdx f l i a).symm
  | replace i a => exact List.map_set.symm
  | remove i => exact List.eraseIdx_map f l i

end Edit

def replay : List (Edit α) → List α → Option (List α)
  | [], l => some l
  | e :: es, l => if e.Fits l then replay es (e.apply l) else none

lemma replay_append (es es' : List (Edit α)) (l : List α) :
    replay (es ++ es') l = (replay es l).bind (replay es') := by
  induction es generalizing l with
  | nil => rfl
  | cons e es ih =>
      rw [List.cons_append, replay, replay]
      by_cases h : e.Fits l
      · rw [if_pos h, if_pos h, ih]
      · rw [if_neg h, if_neg h]
        rfl

lemma replay_map (f : α → β) (es : List (Edit α)) (l : List α) :
    replay (es.map (Edit.map f)) (l.map f) = (replay es l).map (List.map f) := by
  induction es generalizing l with
  | nil => rfl
  | cons e es ih =>
      rw [List.map_cons, replay, replay]
      by_cases h : e.Fits l
      · rw [if_pos h, if_pos ((Edit.fits_map f).2 h), Edit.apply_map, ih]
      · rw [if_neg h, if_neg (mt (Edit.fits_map f).1 h)]
        rfl

def shown (n : Option ℕ) (l : List α) : List α :=
  match n with
  | some n => l.take n
  | none => l

def Inside (n : Option ℕ) (i : ℕ) : Prop := ∀ k, n = some k → i < k

instance decidableInside : ∀ (n : Option ℕ) (i : ℕ), Decidable (Inside n i)
  | none, _ => isTrue nofun
  | some k, i => decidable_of_iff (i < k) ⟨fun h _ hk => Option.some.inj hk ▸ h, fun h => h k rfl⟩

def pushedOut (n : Option ℕ) (l : List α) (e : Edit α) : List (Edit α) :=
  match n, e with
  | some k, .insert i _ => if i < k ∧ k ≤ l.length then [.remove (k - 1)] else []
  | _, _ => []

/-- What the viewer of the first rows of a list is told of an edit before it is made. -/
def before (n : Option ℕ) (l : List α) (e : Edit α) : List (Edit α) :=
  pushedOut n l e ++ if Inside n e.position then [e] else []

/-- What the viewer is told behind a removal: the row that has moved into the last place shown. -/
def after (n : Option ℕ) (l : List α) (e : Edit α) : List (Edit α) :=
  match n, e with
  | some k, .remove i =>
      if i < k then ((e.apply l)[k - 1]?.map (Edit.insert (k - 1))).toList else []
  | _, _ => []

/-- What the viewer of the first rows of a list is told of an edit. -/
def windowed (n : Option ℕ) (l : List α) (e : Edit α) : List (Edit α) :=
  before n l e ++ after n l e

/-! ## The first rows behind an edit -/

lemma take_insertIdx {i k : ℕ} (a : α) (l : List α) (h : i < k) :
    (l.insertIdx i a).take k = (l.take (k - 1)).insertIdx i a := by
  induction l generalizing i k with
  | nil =>
      cases i with
      | zero =>
          obtain ⟨k, rfl⟩ := Nat.exists_eq_succ_of_ne_zero h.ne'
          simp
      | succ i => simp
  | cons b l ih =>
      cases i with
      | zero =>
          obtain ⟨k, rfl⟩ := Nat.exists_eq_succ_of_ne_zero h.ne'
          simp
      | succ i =>
          obtain ⟨k, rfl⟩ := Nat.exists_eq_add_of_lt h
          have hk : i + 1 + k + 1 = (i + k + 1) + 1 := by omega
          rw [List.insertIdx_succ_cons, hk, List.take_succ_cons, ih (by omega),
            Nat.add_sub_cancel, Nat.add_sub_cancel, List.take_succ_cons, List.insertIdx_succ_cons]

lemma take_insertIdx_of_le {i k : ℕ} (a : α) (l : List α) (h : k ≤ i) :
    (l.insertIdx i a).take k = l.take k := by
  refine List.ext_getElem? fun j => ?_
  by_cases hj : j < k
  · rw [List.getElem?_take_of_lt hj, List.getElem?_take_of_lt hj,
      List.getElem?_insertIdx_of_lt (by omega)]
  · rw [List.getElem?_take_eq_none (by omega), List.getElem?_take_eq_none (by omega)]

lemma take_eraseIdx_of_le {i k : ℕ} (l : List α) (h : k ≤ i) :
    (l.eraseIdx i).take k = l.take k := by
  refine List.ext_getElem? fun j => ?_
  by_cases hj : j < k
  · rw [List.getElem?_take_of_lt hj, List.getElem?_take_of_lt hj,
      List.getElem?_eraseIdx_of_lt (by omega)]
  · rw [List.getElem?_take_eq_none (by omega), List.getElem?_take_eq_none (by omega)]

lemma eraseIdx_take {i k : ℕ} (l : List α) (h : i < k) :
    (l.take k).eraseIdx i = (l.eraseIdx i).take (k - 1) := by
  refine List.ext_getElem? fun j => ?_
  by_cases hj : j < k - 1
  · rw [List.getElem?_take_of_lt hj, List.getElem?_eraseIdx, List.getElem?_eraseIdx]
    by_cases hji : j < i
    · rw [if_pos hji, if_pos hji, List.getElem?_take_of_lt (by omega)]
    · rw [if_neg hji, if_neg hji, List.getElem?_take_of_lt (by omega)]
  · rw [List.getElem?_take_eq_none (by omega), List.getElem?_eraseIdx_of_ge (by omega),
      List.getElem?_take_eq_none (by omega)]

lemma inside_some {k i : ℕ} : Inside (some k) i ↔ i < k :=
  ⟨fun h => h k rfl, fun h _ hk => Option.some.inj hk ▸ h⟩

lemma replay_single {e : Edit α} {l : List α} (h : e.Fits l) : replay [e] l = some (e.apply l) := by
  rw [replay, if_pos h, replay]

section

variable {k i : ℕ} {a : α} {l : List α}

lemma replay_insert (hfits : i ≤ l.length) :
    replay (windowed (some k) l (.insert i a)) (l.take k) = some ((l.insertIdx i a).take k) := by
  simp only [windowed, before, pushedOut, after, inside_some, Edit.position, List.append_nil]
  by_cases hi : i < k
  · rw [if_pos hi]
    by_cases hlong : k ≤ l.length
    · have hlast : (Edit.remove (k - 1) : Edit α).Fits (l.take k) := by
        simp only [Edit.Fits, List.length_take]
        omega
      have hrest : (Edit.remove (k - 1) : Edit α).apply (l.take k) = l.take (k - 1) := by
        rw [Edit.apply, eraseIdx_take l (by omega), take_eraseIdx_of_le l (le_refl _)]
      have hin : (Edit.insert i a).Fits (l.take (k - 1)) := by
        simp only [Edit.Fits, List.length_take]
        omega
      rw [if_pos ⟨hi, hlong⟩, List.singleton_append, replay, if_pos hlast, hrest,
        replay_single hin, Edit.apply, take_insertIdx a l hi]
    · have hin : (Edit.insert i a).Fits (l.take k) := by
        simp only [Edit.Fits, List.length_take]
        omega
      rw [if_neg (fun h => hlong h.2), List.nil_append, replay_single hin, Edit.apply,
        take_insertIdx a l hi, List.take_of_length_le (by omega),
        List.take_of_length_le (by omega)]
  · rw [if_neg hi, if_neg (fun h => hi h.1), List.append_nil, replay,
      take_insertIdx_of_le a l (not_lt.1 hi)]

lemma replay_replace (hfits : i < l.length) :
    replay (windowed (some k) l (.replace i a)) (l.take k) = some ((l.set i a).take k) := by
  simp only [windowed, before, pushedOut, after, inside_some, Edit.position, List.nil_append, List.append_nil]
  by_cases hi : i < k
  · have hin : (Edit.replace i a).Fits (l.take k) := by
      simp only [Edit.Fits, List.length_take]
      omega
    rw [if_pos hi, replay_single hin, Edit.apply, List.take_set]
  · rw [if_neg hi, replay, List.take_set, List.set_eq_of_length_le]
    rw [List.length_take]
    omega

lemma replay_remove (hk : 0 < k) (hfits : i < l.length) :
    replay (windowed (some k) l (.remove i)) (l.take k) = some ((l.eraseIdx i).take k) := by
  simp only [windowed, before, pushedOut, after, inside_some, Edit.position, Edit.apply, List.nil_append]
  by_cases hi : i < k
  · have hout : (Edit.remove i : Edit α).Fits (l.take k) := by
      simp only [Edit.Fits, List.length_take]
      omega
    rw [if_pos hi, if_pos hi, List.singleton_append, replay, if_pos hout, Edit.apply,
      eraseIdx_take l hi]
    obtain ⟨j, rfl⟩ : ∃ j, k = j + 1 := ⟨k - 1, by omega⟩
    rw [Nat.add_sub_cancel, List.take_add_one]
    cases hlast : (l.eraseIdx i)[j]? with
    | none => rw [Option.map_none, Option.toList_none, replay, Option.toList_none, List.append_nil]
    | some a =>
        have hrow : ((l.eraseIdx i).take j).length = j := by
          obtain ⟨hlen, -⟩ := List.getElem?_eq_some_iff.1 hlast
          rw [List.length_take]
          omega
        have hin : (Edit.insert j a).Fits ((l.eraseIdx i).take j) := hrow.ge
        have hlastly := List.insertIdx_length_self (l := (l.eraseIdx i).take j) (x := a)
        rw [hrow] at hlastly
        rw [Option.map_some, Option.toList_some, replay_single hin, Edit.apply, hlastly,
          Option.toList_some]
  · rw [if_neg hi, if_neg hi, List.append_nil, replay, take_eraseIdx_of_le l (not_lt.1 hi)]

end

/-- **The viewer has the first rows.**  What it is told of an edit that fits the list fits the rows
it has, and makes of them the first rows of the edited list. -/
theorem replay_windowed {n : Option ℕ} (hn : ∀ k, n = some k → 0 < k) {l : List α} {e : Edit α}
    (hfits : e.Fits l) : replay (windowed n l e) (shown n l) = some (shown n (e.apply l)) := by
  cases n with
  | none =>
      have hinside : Inside none e.position := nofun
      have htold : windowed none l e = [e] := by
        cases e <;> simp only [windowed, before, pushedOut, after, if_pos hinside, List.nil_append,
          List.append_nil]
      rw [htold, replay_single (by exact hfits)]
      rfl
  | some k =>
      cases e with
      | insert i a => exact replay_insert hfits
      | replace i a => exact replay_replace hfits
      | remove i => exact replay_remove (hn k rfl) hfits

lemma inside_of_mem_windowed {n : Option ℕ} {l : List α} {e u : Edit α} (h : u ∈ windowed n l e) :
    Inside n u.position := by
  rintro k rfl
  simp only [windowed, before, pushedOut, after, List.mem_append] at h
  rcases h with (h | h) | h
  · cases e with
    | insert i a =>
        simp only [List.mem_ite_nil_right, List.mem_singleton] at h
        rw [h.2, Edit.position]
        omega
    | replace i a => cases h
    | remove i => cases h
  · rw [List.mem_ite_nil_right, List.mem_singleton] at h
    rw [h.2]
    exact h.1 k rfl
  · cases e with
    | insert i a => cases h
    | replace i a => cases h
    | remove i =>
        simp only [List.mem_ite_nil_right, Option.mem_toList, Option.map_eq_some_iff] at h
        obtain ⟨hi, a, -, rfl⟩ := h
        rw [Edit.position]
        omega

end Window
