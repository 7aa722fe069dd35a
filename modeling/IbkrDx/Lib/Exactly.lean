import IbkrDx.Lib.Reader
import Mathlib.Data.List.Infix

/-!
# Readers that need all they take

A reader of a list that takes a text off its front and gives a value, whatever stands behind the
text, and that fails on every shorter front of it.

* `takeN`, `readMany` — so many elements as they are, and so many values.
* `Exactly` — the reader takes a text whole, and no less of it.
* `Consumes` — the reader only ever drops elements off the front, also where it fails.
* **`exactly_readMany`** — values written one behind the other are read one after the other.
-/

namespace Reader

variable {α β γ ι : Type}

/-- The next `n` elements, or nothing where fewer are left; those are then gone. -/
def takeN (n : ℕ) : Reader (List β) (List β) := do
  let s ← get
  if s.length < n then
    set ([] : List β)
    failure
  set (s.drop n)
  return s.take n

def readMany (m : Reader (List β) α) : ℕ → Reader (List β) (List α)
  | 0 => pure []
  | n + 1 => do
      let a ← m
      let as ← readMany m n
      return a :: as

/-! ## Whole texts -/

/-- The reader takes the text whole and gives a value; of less of it, it makes nothing. -/
structure Exactly (m : Reader (List β) α) (w : List β) (a : α) : Prop where
  gives : ∀ rest, Gives m (w ++ rest) a rest
  needs : ∀ p, p <+: w → p ≠ w → (m.outcome p).1 = none

section

variable {m : Reader (List β) α} {f : α → Reader (List β) γ} {w w' : List β} {a : α} {c : γ}

lemma exactly_pure (a : α) : Exactly (pure a : Reader (List β) α) [] a :=
  ⟨fun rest => gives_pure a rest, fun _ hp hne => absurd (List.prefix_nil.1 hp) hne⟩

lemma Exactly.bind (hm : Exactly m w a) (hf : Exactly (f a) w' c) :
    Exactly (m >>= f) (w ++ w') c := by
  refine ⟨fun rest => ?_, fun p hp hne => ?_⟩
  · rw [List.append_assoc]
    exact (hm.gives (w' ++ rest)).bind (hf.gives rest)
  · rcases le_total p.length w.length with hle | hle
    · have hpw : p <+: w := List.prefix_of_prefix_length_le hp (List.prefix_append w w') hle
      by_cases hall : p = w
      · subst hall
        have hfirst : m.outcome p = (some a, []) := by
          have hgives := hm.gives []
          rwa [List.append_nil] at hgives
        have hw' : [] ≠ w' := by
          rintro rfl
          exact hne (List.append_nil p).symm
        rw [outcome_bind_some hfirst]
        exact hf.needs [] List.nil_prefix hw'
      · rcases hout : m.outcome p with ⟨_ | b, s⟩
        · rw [outcome_bind_none hout]
        · have hnone := hm.needs p hpw hall
          rw [hout] at hnone
          exact absurd hnone (Option.some_ne_none b)
    · obtain ⟨q, rfl⟩ := List.prefix_of_prefix_length_le (List.prefix_append w w') hp hle
      have hq : q <+: w' := (List.prefix_append_right_inj w).1 hp
      rw [outcome_bind_some (hm.gives q)]
      exact hf.needs q hq fun heq => hne (heq ▸ rfl)

lemma Exactly.map (hm : Exactly m w a) (g : α → γ) :
    Exactly (do let x ← m; pure (g x)) w (g a) := by
  have h := hm.bind (f := fun x => pure (g x)) (exactly_pure (g a))
  rwa [List.append_nil] at h

lemma exactly_takeN {n : ℕ} (h : w.length = n) : Exactly (takeN n) w w := by
  subst h
  refine ⟨fun rest => ?_, fun p hp hne => ?_⟩
  · refine (gives_get _).bind ?_
    rw [if_neg (by rw [List.length_append]; omega), List.take_left, List.drop_left]
    exact (gives_set _ _).bind (gives_pure _ _)
  · have hlt : p.length < w.length := by
      refine lt_of_le_of_ne hp.length_le fun hlen => hne ?_
      exact hp.eq_of_length hlen
    have hget : (get : Reader (List β) (List β)).outcome p = (some p, p) := gives_get p
    rw [takeN, outcome_bind_some hget, if_pos hlt]
    rfl

lemma exactly_take {o : Option α} (h : o = some a) :
    Exactly (take o : Reader (List β) α) [] a :=
  ⟨fun rest => gives_take h rest, fun _ hp hne => absurd (List.prefix_nil.1 hp) hne⟩

lemma exactly_readMany {wire : ι → List β} {value : ι → α} {l : List ι}
    (h : ∀ i ∈ l, Exactly m (wire i) (value i)) :
    Exactly (readMany m l.length) (l.flatMap wire) (l.map value) := by
  induction l with
  | nil => exact exactly_pure []
  | cons i l ih =>
      have hfirst := h i List.mem_cons_self
      have hrest := ih fun j hj => h j (List.mem_cons_of_mem i hj)
      exact hfirst.bind (hrest.map fun as => value i :: as)

end

/-! ## What is left -/

/-- The reader drops elements off the front and no others. -/
def Consumes (m : Reader (List β) α) : Prop := ∀ s, (m.outcome s).2 <:+ s

section

variable {m : Reader (List β) α} {f : α → Reader (List β) γ}

lemma consumes_pure (a : α) : Consumes (pure a : Reader (List β) α) := fun s => List.suffix_refl s

lemma consumes_failure : Consumes (failure : Reader (List β) α) := fun s => List.suffix_refl s

lemma consumes_take (o : Option α) : Consumes (take o : Reader (List β) α) :=
  fun s => List.suffix_refl s

lemma Consumes.bind (hm : Consumes m) (hf : ∀ a, Consumes (f a)) : Consumes (m >>= f) := by
  intro s
  have hfirst := hm s
  rcases hout : m.outcome s with ⟨_ | a, s'⟩
  · rw [outcome_bind_none hout]
    rwa [hout] at hfirst
  · rw [hout] at hfirst
    rw [outcome_bind_some hout]
    exact (hf a s').trans hfirst

lemma consumes_takeN (n : ℕ) : Consumes (takeN n : Reader (List β) (List β)) := by
  intro s
  have hget : (get : Reader (List β) (List β)).outcome s = (some s, s) := gives_get s
  rw [takeN, outcome_bind_some hget]
  by_cases hlt : s.length < n
  · rw [if_pos hlt]
    exact List.nil_suffix
  · rw [if_neg hlt]
    exact List.drop_suffix n s

lemma Consumes.readMany (hm : Consumes m) (n : ℕ) : Consumes (readMany m n) := by
  induction n with
  | zero => exact consumes_pure []
  | succ n ih => exact hm.bind fun a => ih.bind fun as => consumes_pure (a :: as)

end

end Reader
