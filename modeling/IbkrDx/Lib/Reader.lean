import Mathlib.Control.Monad.Basic

/-!
# Readers that keep what they had read

A reader takes its values off a state and may fail part way; what it read before it failed stays
read.  `OptionT (StateM σ)` is that: the state outlives the failure.

* `Reader.Gives` — a reader gives a value and leaves a state.
* `Reader.Keeps` — a reader leaves some view of the state as it found it, whether it fails or not.
* `Reader.Safe` — a reader that fails has left the view as it found it.
* **`Reader.Keeps.bind_safe`** — reads that keep a view, followed by a commit that cannot fail, fail
  without having moved it.
-/

/-- A reader of a state `σ`: a failure keeps the state. -/
abbrev Reader (σ α : Type) := OptionT (StateM σ) α

namespace Reader

variable {σ τ α β ν : Type}

def outcome (m : Reader σ α) (s : σ) : Option α × σ := Id.run (StateT.run (OptionT.run m) s)

def onFst (m : Reader σ α) : Reader (σ × τ) α :=
  OptionT.mk fun s => pure ((m.outcome s.1).1, ((m.outcome s.1).2, s.2))

def getSnd : Reader (σ × τ) τ := OptionT.mk fun s => pure (some s.2, s)

/-- Write the second of two parts of a state. -/
def setSnd (t : τ) : Reader (σ × τ) Unit := OptionT.mk fun s => pure (some (), (s.1, t))

def take (o : Option α) : Reader σ α := OptionT.mk (pure o)

@[simp] lemma outcome_pure (a : α) (s : σ) : outcome (pure a) s = (some a, s) := rfl

@[simp] lemma outcome_failure (s : σ) : outcome (failure : Reader σ α) s = (none, s) := rfl

@[simp] lemma outcome_take (o : Option α) (s : σ) : outcome (take o) s = (o, s) := rfl

@[simp] lemma outcome_onFst (m : Reader σ α) (s : σ × τ) :
    outcome (onFst m) s = ((m.outcome s.1).1, ((m.outcome s.1).2, s.2)) := rfl

@[simp] lemma outcome_setSnd (t : τ) (s : σ × τ) : outcome (setSnd t) s = (some (), (s.1, t)) := rfl

variable {m : Reader σ α} {f : α → Reader σ β}

lemma outcome_bind_some {s s' : σ} {a : α}
    (h : m.outcome s = (some a, s')) : outcome (m >>= f) s = (f a).outcome s' := by
  simp only [outcome] at h
  simp only [outcome, OptionT.run_bind, Option.elimM, StateT.run_bind]
  show Id.run (StateT.run (Option.elim (Id.run (StateT.run (OptionT.run m) s)).1 _ _)
    (Id.run (StateT.run (OptionT.run m) s)).2) = _
  rw [h]
  rfl

lemma outcome_bind_none {s s' : σ}
    (h : m.outcome s = (none, s')) : outcome (m >>= f) s = (none, s') := by
  simp only [outcome] at h
  simp only [outcome, OptionT.run_bind, Option.elimM, StateT.run_bind]
  show Id.run (StateT.run (Option.elim (Id.run (StateT.run (OptionT.run m) s)).1 _ _)
    (Id.run (StateT.run (OptionT.run m) s)).2) = _
  rw [h]
  rfl

/-! ## What a reader gives -/

/-- From `s` the reader gives `a` and leaves `s'`. -/
def Gives (m : Reader σ α) (s : σ) (a : α) (s' : σ) : Prop := m.outcome s = (some a, s')

lemma gives_pure (a : α) (s : σ) : Gives (pure a) s a s := rfl

lemma gives_get (s : σ) : Gives (get : Reader σ σ) s s s := rfl

lemma gives_set (s t : σ) : Gives (set t : Reader σ PUnit) s ⟨⟩ t := rfl

lemma gives_take {o : Option α} {a : α} (h : o = some a) (s : σ) : Gives (take o) s a s := by
  rw [Gives, outcome_take, h]

lemma gives_getSnd (s : σ × τ) : Gives getSnd s s.2 s := rfl

lemma gives_setSnd (t : τ) (s : σ × τ) : Gives (setSnd t) s () (s.1, t) := rfl

lemma Gives.bind {s s' s'' : σ} {a : α} {b : β}
    (hm : Gives m s a s') (hf : Gives (f a) s' b s'') : Gives (m >>= f) s b s'' := by
  rw [Gives, outcome_bind_some hm]
  exact hf

lemma Gives.onFst {s s' : σ} {a : α} (h : Gives m s a s') (t : τ) :
    Gives (Reader.onFst m) (s, t) a (s', t) := by
  rw [Gives] at h
  rw [Gives, outcome_onFst, h]

lemma Gives.of_bind {s s'' : σ} {b : β}
    (h : Gives (m >>= f) s b s'') : ∃ a s', Gives m s a s' ∧ Gives (f a) s' b s'' := by
  rcases hm : m.outcome s with ⟨_ | a, s'⟩
  · rw [Gives, outcome_bind_none hm] at h
    cases h
  · rw [Gives, outcome_bind_some hm] at h
    exact ⟨a, s', hm, h⟩

lemma Gives.pure_eq {a b : α} {s s' : σ} (h : Gives (pure a) s b s') : b = a ∧ s' = s := by
  rw [Gives, outcome_pure] at h
  cases h
  exact ⟨rfl, rfl⟩

lemma outcome_bind_congr {g : α → Reader σ β} {s : σ}
    (h : ∀ a s', Gives m s a s' → (f a).outcome s' = (g a).outcome s') :
    outcome (m >>= f) s = outcome (m >>= g) s := by
  rcases hm : m.outcome s with ⟨_ | a, s'⟩
  · rw [outcome_bind_none hm, outcome_bind_none hm]
  · rw [outcome_bind_some hm, outcome_bind_some hm, h a s' hm]

/-! ## What a failure leaves -/

def Keeps (view : σ → ν) (m : Reader σ α) : Prop := ∀ s, view (m.outcome s).2 = view s

def Safe (view : σ → ν) (m : Reader σ α) : Prop :=
  ∀ s, (m.outcome s).1 = none → view (m.outcome s).2 = view s

variable {view : σ → ν}

lemma keeps_pure (a : α) : Keeps view (pure a : Reader σ α) := fun _ => rfl

lemma keeps_take (o : Option α) : Keeps view (take o : Reader σ α) := fun _ => rfl

lemma keeps_getSnd : Keeps Prod.snd (getSnd : Reader (σ × τ) τ) := fun _ => rfl

lemma keeps_onFst (m : Reader σ α) : Keeps Prod.snd (onFst m : Reader (σ × τ) α) := fun _ => rfl

lemma safe_setSnd (t : τ) (a : α) :
    Safe Prod.snd (do setSnd t; pure a : Reader (σ × τ) α) := by
  intro s h
  rw [outcome_bind_some (outcome_setSnd t s)] at h
  exact absurd h (by simp)

lemma Keeps.bind_safe (hm : Keeps view m)
    (hf : ∀ a, Safe view (f a)) : Safe view (m >>= f) := by
  intro s h
  have hfirst := hm s
  rcases hout : m.outcome s with ⟨_ | a, s'⟩
  · rw [outcome_bind_none hout, ← hfirst, hout]
  · rw [outcome_bind_some hout] at h ⊢
    rw [hf a s' h, ← hfirst, hout]

lemma Keeps.bind (hm : Keeps view m)
    (hf : ∀ a, Keeps view (f a)) : Keeps view (m >>= f) := by
  intro s
  have hfirst := hm s
  rcases hout : m.outcome s with ⟨_ | a, s'⟩
  · rw [outcome_bind_none hout, ← hfirst, hout]
  · rw [outcome_bind_some hout, hf a s', ← hfirst, hout]

end Reader
