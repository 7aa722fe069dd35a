import Mathlib.Data.List.Pairwise
import Mathlib.Order.Bounds.Basic

/-!
# Attempts shown before their answer

A value is overwritten by numbered attempts, each before it is known whether it is accepted, and
what an attempt overwrote is kept under its number against a refusal.  Answers come in any order.

* `Register` — what is shown and what is kept, as an implementation holds them.
* `Frame` — the attempts still standing, the latest first, each made over the one behind it.
* `Stands` — what of a verdict the standing attempts carry.
* **`Stands.shown_of_answered`** — with every attempt answered, the greatest accepted one is shown.
-/

namespace Attempts

variable {α : Type}

/-! ## What an implementation holds -/

/-- What is shown, and by number what an attempt overwrote. -/
structure Register (α : Type) where
  shown : α
  kept : List (ℕ × α)

namespace Register

def attempt (r : Register α) (v : ℕ) (a : α) : Register α := ⟨a, (v, r.shown) :: r.kept⟩

/-- An accepted attempt needs nothing kept against it, nor does one made before it. -/
def accept (r : Register α) (v : ℕ) : Register α :=
  { r with kept := r.kept.filter fun k => v < k.1 }

/-- A refused attempt gives back what it overwrote, and nothing made after it stands. -/
def refuse (r : Register α) (v : ℕ) : Register α :=
  match r.kept.lookup v with
  | none => r
  | some before => ⟨before, r.kept.filter fun k => k.1 < v⟩

end Register

/-! ## The attempts that stand -/

/-- An attempt that stands, and whether its answer is owed. -/
structure Frame (α : Type) where
  number : ℕ
  value : α
  owed : Bool

section

variable (base : α)

def top : List (Frame α) → α
  | [] => base
  | f :: _ => f.value

/-- What is kept against the attempts whose answer is owed. -/
def fallbacks : List (Frame α) → List (ℕ × α)
  | [] => []
  | f :: fs => if f.owed then (f.number, top base fs) :: fallbacks fs else fallbacks fs

/-- What an implementation holds of the attempts that stand. -/
def register (fs : List (Frame α)) : Register α := ⟨top base fs, fallbacks base fs⟩

end

def push (v : ℕ) (a : α) (fs : List (Frame α)) : List (Frame α) := ⟨v, a, true⟩ :: fs

/-- An answer that accepts an attempt answers for those it was made over. -/
def settle (v : ℕ) (fs : List (Frame α)) : List (Frame α) :=
  fs.map fun f => if f.number ≤ v then { f with owed := false } else f

def below (v : ℕ) (fs : List (Frame α)) : List (Frame α) := fs.filter fun f => f.number < v

/-- A refusal takes away the attempt it answers, with every later one. -/
def undo (v : ℕ) (fs : List (Frame α)) : List (Frame α) :=
  if ∃ f ∈ fs, f.number = v ∧ f.owed then below v fs else fs

def topNumber (first : ℕ) : List (Frame α) → ℕ
  | [] => first
  | f :: _ => f.number

def Descending (fs : List (Frame α)) : Prop := fs.Pairwise fun f g => g.number < f.number

/-! ## The register holds the attempts that stand -/

variable {base : α}

lemma mem_fallbacks : ∀ {fs : List (Frame α)} {k : ℕ × α}, k ∈ fallbacks base fs →
    ∃ f ∈ fs, f.number = k.1 ∧ f.owed
  | f :: fs, k, h => by
      rw [fallbacks] at h
      split at h
      · next hf =>
          rcases List.mem_cons.1 h with rfl | h
          · exact ⟨f, List.mem_cons_self, rfl, hf⟩
          · obtain ⟨g, hg, hk⟩ := mem_fallbacks h
            exact ⟨g, List.mem_cons_of_mem _ hg, hk⟩
      · obtain ⟨g, hg, hk⟩ := mem_fallbacks h
        exact ⟨g, List.mem_cons_of_mem _ hg, hk⟩

variable {fs : List (Frame α)}

lemma top_settle (base : α) (v : ℕ) : ∀ fs : List (Frame α), top base (settle v fs) = top base fs
  | [] => rfl
  | f :: fs => by
      simp only [settle, List.map_cons, top]
      split <;> rfl

lemma fallbacks_settle (base : α) (v : ℕ) : ∀ fs : List (Frame α),
    fallbacks base (settle v fs) = (fallbacks base fs).filter fun k => v < k.1
  | [] => rfl
  | f :: fs => by
      have htop := top_settle base v fs
      have ih := fallbacks_settle base v fs
      simp only [settle, List.map_cons, fallbacks] at htop ih ⊢
      by_cases hv : f.number ≤ v <;> cases hf : f.owed <;>
        simp [hv, hf, htop, ih, Nat.not_lt.2, Nat.lt_of_not_le]

lemma register_settle (base : α) (v : ℕ) (fs : List (Frame α)) :
    register base (settle v fs) = (register base fs).accept v := by
  simp only [register, Register.accept, top_settle, fallbacks_settle]

lemma below_eq_self {v : ℕ} (h : ∀ f ∈ fs, f.number < v) :
    below v fs = fs := List.filter_eq_self.2 fun f hf => decide_eq_true (h f hf)

lemma filter_eq_self_of_lt {v : ℕ} (h : ∀ f ∈ fs, f.number < v) :
    ((fallbacks base fs).filter fun k => k.1 < v) = fallbacks base fs := by
  refine List.filter_eq_self.2 fun k hk => ?_
  obtain ⟨f, hf, hn, -⟩ := mem_fallbacks hk
  exact decide_eq_true (hn ▸ h f hf)

lemma fallbacks_below (base : α) (v : ℕ) : ∀ {fs : List (Frame α)}, Descending fs →
    fallbacks base (below v fs) = (fallbacks base fs).filter fun k => k.1 < v
  | [], _ => rfl
  | f :: fs, h => by
      obtain ⟨hf, hfs⟩ := List.pairwise_cons.1 h
      have ih := fallbacks_below base v hfs
      by_cases hv : f.number < v
      · have hall : ∀ g ∈ f :: fs, g.number < v := by
          intro g hg
          rcases List.mem_cons.1 hg with rfl | hg
          · exact hv
          · exact (hf g hg).trans hv
        rw [below_eq_self hall, filter_eq_self_of_lt hall]
      · have hcons : below v (f :: fs) = below v fs := by simp [below, hv]
        rw [hcons, ih, fallbacks]
        split <;> simp [hv]

lemma lookup_fallbacks_of_lt {v : ℕ}
    (h : ∀ f ∈ fs, f.number < v) : (fallbacks base fs).lookup v = none := by
  rw [List.lookup_eq_none_iff]
  intro k hk
  obtain ⟨f, hf, hn, -⟩ := mem_fallbacks hk
  have := h f hf
  rw [bne_iff_ne]
  omega

lemma lookup_fallbacks (base : α) (v : ℕ) : ∀ {fs : List (Frame α)}, Descending fs →
    (fallbacks base fs).lookup v =
      if ∃ f ∈ fs, f.number = v ∧ f.owed then some (top base (below v fs)) else none
  | [], _ => by simp [fallbacks]
  | f :: fs, h => by
      obtain ⟨hf, hfs⟩ := List.pairwise_cons.1 h
      have ih := lookup_fallbacks base v hfs
      rcases Nat.lt_trichotomy f.number v with hv | hv | hv
      · have hall : ∀ g ∈ f :: fs, g.number < v := by
          intro g hg
          rcases List.mem_cons.1 hg with rfl | hg
          · exact hv
          · exact (hf g hg).trans hv
        rw [lookup_fallbacks_of_lt hall, if_neg]
        rintro ⟨g, hg, hn, -⟩
        have := hall g hg
        omega
      · subst hv
        have hnone : (fallbacks base fs).lookup f.number = none := lookup_fallbacks_of_lt hf
        have hbelow : below f.number (f :: fs) = fs := by
          simpa [below] using below_eq_self hf
        cases ho : f.owed with
        | true =>
            rw [if_pos ⟨f, List.mem_cons_self, rfl, ho⟩, hbelow, fallbacks, if_pos ho]
            simp
        | false =>
            rw [fallbacks, ho, if_neg (by simp), hnone, if_neg]
            rintro ⟨g, hg, hn, hgo⟩
            rcases List.mem_cons.1 hg with rfl | hg
            · rw [ho] at hgo
              exact absurd hgo (by simp)
            · have := hf g hg
              omega
      · have hbelow : below v (f :: fs) = below v fs := by simp [below, Nat.not_lt.2 hv.le]
        have hlook : (fallbacks base (f :: fs)).lookup v = (fallbacks base fs).lookup v := by
          have hne : (v == f.number) = false := beq_eq_false_iff_ne.2 (by omega)
          rw [fallbacks]
          split
          · rw [List.lookup_cons, hne]
          · rfl
        have hex : (∃ g ∈ f :: fs, g.number = v ∧ g.owed) ↔ ∃ g ∈ fs, g.number = v ∧ g.owed := by
          constructor
          · rintro ⟨g, hg, hn, ho⟩
            rcases List.mem_cons.1 hg with rfl | hg
            · omega
            · exact ⟨g, hg, hn, ho⟩
          · rintro ⟨g, hg, hgv⟩
            exact ⟨g, List.mem_cons_of_mem _ hg, hgv⟩
        rw [hlook, ih, hbelow]
        simp only [hex]

lemma register_undo (base : α) (v : ℕ) (h : Descending fs) :
    register base (undo v fs) = (register base fs).refuse v := by
  have hlook := lookup_fallbacks base v h
  unfold undo Register.refuse
  split_ifs at hlook ⊢ with hv
  · simp only [register, hlook, fallbacks_below base v h]
  · simp only [register, hlook]

/-! ## Verdicts -/

/-- **The attempts that stand.**  Numbered up to `issued` from behind `first`, which stands for
what there was before any: an answered one was accepted, one made over another is accepted only
where that is, and whatever no longer stands was not accepted. -/
structure Stands (ok : ℕ → Prop) (first issued : ℕ) (value : ℕ → α) (fs : List (Frame α)) :
    Prop where
  descending : Descending fs
  bounds : ∀ f ∈ fs, first < f.number ∧ f.number ≤ issued
  values : ∀ f ∈ fs, f.value = value f.number
  accepted : ∀ f ∈ fs, f.owed = false → ok f.number
  chained : fs.Pairwise fun f g => ok f.number → ok g.number
  gone : ∀ v, first < v → v ≤ issued → (∀ f ∈ fs, f.number ≠ v) → ¬ ok v

namespace Stands

variable {ok : ℕ → Prop} {first issued : ℕ} {value : ℕ → α} {fs : List (Frame α)}

lemma start (ok : ℕ → Prop) (first : ℕ) (value : ℕ → α) : Stands ok first first value [] where
  descending := List.Pairwise.nil
  bounds := by simp
  values := by simp
  accepted := by simp
  chained := List.Pairwise.nil
  gone := fun v hv hv' => absurd hv' (by omega)

variable {f : Frame α}

lemma ok_of_le (h : Stands ok first issued value fs) {g : Frame α} (hf : f ∈ fs) (hg : g ∈ fs)
    (hle : f.number ≤ g.number) (hok : ok g.number) : ok f.number := by
  have hR : ∀ x ∈ fs, ∀ y ∈ fs, x.number < y.number → ok y.number → ok x.number := by
    refine List.Pairwise.forall_of_forall_of_flip (fun x _ hlt => absurd hlt (lt_irrefl _)) ?_ ?_
    · exact h.descending.imp fun hxy hlt => absurd hlt (lt_asymm hxy)
    · refine h.chained.imp ?_
      intro x y hxy _
      exact hxy
  rcases hle.lt_or_eq with hlt | heq
  · exact hR f hf g hg hlt hok
  · rwa [heq]

variable {v : ℕ}

lemma exists_frame (h : Stands ok first issued value fs) (hv : first < v)
    (hv' : v ≤ issued) (hok : ok v) : ∃ f ∈ fs, f.number = v := by
  by_contra hno
  refine h.gone v hv hv' (fun f hf hn => hno ⟨f, hf, hn⟩) hok

lemma push (h : Stands ok first issued value fs) (a : α)
    (hchain : ok (issued + 1) → ok (topNumber first fs)) (hfirst : first ≤ issued) :
    Stands ok first (issued + 1) (Function.update value (issued + 1) a)
      (push (issued + 1) a fs) where
  descending := List.pairwise_cons.2
    ⟨fun f hf => Nat.lt_succ_of_le (h.bounds f hf).2, h.descending⟩
  bounds := by
    intro f hf
    rcases List.mem_cons.1 hf with rfl | hf
    · exact ⟨Nat.lt_succ_of_le hfirst, le_rfl⟩
    · have := h.bounds f hf
      omega
  values := by
    intro f hf
    rcases List.mem_cons.1 hf with rfl | hf
    · simp
    · rw [Function.update_of_ne (by have := h.bounds f hf; omega)]
      exact h.values f hf
  accepted := by
    intro f hf ho
    rcases List.mem_cons.1 hf with rfl | hf
    · exact absurd ho (by simp)
    · exact h.accepted f hf ho
  chained := by
    refine List.pairwise_cons.2 ⟨fun g hg hok => ?_, h.chained⟩
    cases fs with
    | nil => exact absurd hg (by simp)
    | cons f rest =>
        refine h.ok_of_le hg List.mem_cons_self ?_ (hchain hok)
        rcases List.mem_cons.1 hg with rfl | hg
        · exact le_rfl
        · exact ((List.pairwise_cons.1 h.descending).1 g hg).le
  gone := by
    intro v hv hv' hno
    have hne : v ≠ issued + 1 := fun heq =>
      hno _ List.mem_cons_self (by exact heq.symm)
    exact h.gone v hv (by omega) fun f hf => hno f (List.mem_cons_of_mem _ hf)

lemma mem_settle (hf : f ∈ settle v fs) :
    ∃ g ∈ fs, g.number = f.number ∧ g.value = f.value ∧
      (f.owed = false → g.owed = false ∨ g.number ≤ v) := by
  obtain ⟨g, hg, rfl⟩ := List.mem_map.1 hf
  refine ⟨g, hg, ?_⟩
  split
  · next hle => exact ⟨rfl, rfl, fun _ => Or.inr hle⟩
  · exact ⟨rfl, rfl, Or.inl⟩

lemma owed_of_mem_settle (hf : f ∈ Attempts.settle v fs)
    (ho : f.owed = true) : v < f.number ∧ f ∈ fs := by
  obtain ⟨g, hg, rfl⟩ := List.mem_map.1 hf
  split at ho
  · exact absurd ho (by simp)
  · next hle =>
      rw [if_neg hle]
      exact ⟨Nat.lt_of_not_le hle, hg⟩

lemma settle (h : Stands ok first issued value fs) (hok : ok v) (hv : v ≤ issued) :
    Stands ok first issued value (settle v fs) := by
  have hnum : ∀ f : Frame α, (if f.number ≤ v then { f with owed := false } else f).number
      = f.number := fun f => by split <;> rfl
  constructor
  case descending =>
    refine List.pairwise_map.2 (h.descending.imp fun {f g} hfg => ?_)
    rwa [hnum, hnum]
  case bounds =>
    intro f hf
    obtain ⟨g, hg, hn, -, -⟩ := mem_settle hf
    rw [← hn]
    exact h.bounds g hg
  case values =>
    intro f hf
    obtain ⟨g, hg, hn, hval, -⟩ := mem_settle hf
    rw [← hn, ← hval]
    exact h.values g hg
  case accepted =>
    intro f hf ho
    obtain ⟨g, hg, hn, -, hg'⟩ := mem_settle hf
    rw [← hn]
    rcases hg' ho with hgo | hle
    · exact h.accepted g hg hgo
    · have hgt := (h.bounds g hg).1
      obtain ⟨e, he, hen⟩ := h.exists_frame (by omega) hv hok
      exact h.ok_of_le hg he (by omega) (by rwa [hen])
  case chained =>
    refine List.pairwise_map.2 (h.chained.imp fun {f g} hfg => ?_)
    rwa [hnum, hnum]
  case gone =>
    intro w hw hw' hno
    refine h.gone w hw hw' fun f hf hn => ?_
    refine hno _ (List.mem_map.2 ⟨f, hf, rfl⟩) ?_
    rw [hnum, hn]

lemma undo (h : Stands ok first issued value fs) (hok : ¬ ok v) :
    Stands ok first issued value (undo v fs) := by
  unfold Attempts.undo
  split
  case isFalse => exact h
  case isTrue hv =>
    obtain ⟨g, hg, hgv, -⟩ := hv
    have hsub : (below v fs).Sublist fs := List.filter_sublist
    constructor
    case descending => exact h.descending.sublist hsub
    case bounds => exact fun f hf => h.bounds f (hsub.mem hf)
    case values => exact fun f hf => h.values f (hsub.mem hf)
    case accepted => exact fun f hf => h.accepted f (hsub.mem hf)
    case chained => exact h.chained.sublist hsub
    case gone =>
      intro w hw hw' hno hokw
      obtain ⟨f, hf, hfw⟩ := h.exists_frame hw hw' hokw
      by_cases hlt : f.number < v
      · exact hno f (List.mem_filter.2 ⟨hf, decide_eq_true hlt⟩) hfw
      · exact hok (hgv ▸ h.ok_of_le hg hf (by omega) (hfw ▸ hokw))

lemma owed_of_mem_undo (hf : f ∈ Attempts.undo v fs)
    (ho : f.owed = true) : f.number ≠ v ∧ f ∈ fs := by
  unfold Attempts.undo at hf
  split at hf
  · obtain ⟨hmem, hlt⟩ := List.mem_filter.1 hf
    exact ⟨(of_decide_eq_true hlt).ne, hmem⟩
  · next hno => exact ⟨fun hn => hno ⟨f, hf, hn, ho⟩, hf⟩

lemma undo_eq_self (h : Stands ok first issued value fs) (hv : v ≤ first) :
    Attempts.undo v fs = fs := by
  refine if_neg ?_
  rintro ⟨f, hf, hn, -⟩
  have := (h.bounds f hf).1
  omega

end Stands

end Attempts
