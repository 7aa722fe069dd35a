import Mathlib.Tactic.Lemma
import Mathlib.Tactic.TypeStar

/-!
# Runs of a step function

A machine takes one event after another.  What every event of a run finds is said with `Along`, so
that a condition on the events and a property of the steps are stated the same way.

* `run` — the state a run leaves.
* `Along` — every event of a run is as asked, at the state it finds.
* **`Along.invariant`** — what each such step keeps, a run of them keeps.
* **`Along.mono`** — what follows of a step at a state of the invariant follows along a run.
-/

namespace Runs

variable {σ ε : Type*} (step : σ → ε → σ)

def run (s : σ) (es : List ε) : σ := es.foldl step s

/-- Each event of a run finds a state at which `P` holds of it. -/
def Along (P : σ → ε → Prop) (s : σ) : List ε → Prop
  | [] => True
  | e :: es => P s e ∧ Along P (step s e) es

instance decidableAlong (P : σ → ε → Prop) [∀ s e, Decidable (P s e)] :
    ∀ (s : σ) (es : List ε), Decidable (Along step P s es)
  | _, [] => isTrue trivial
  | s, e :: es =>
      have := decidableAlong P (step s e) es
      inferInstanceAs (Decidable (P s e ∧ _))

variable {step}

/-- **An invariant of a step is one of a run.** -/
theorem Along.invariant {Inv : σ → Prop} {P : σ → ε → Prop}
    (hstep : ∀ s e, Inv s → P s e → Inv (step s e)) {s : σ} (h : Inv s) {es : List ε}
    (hrun : Along step P s es) : Inv (run step s es) := by
  induction es generalizing s with
  | nil => exact h
  | cons e es ih => exact ih (hstep s e h hrun.1) hrun.2

/-- **A property of the steps an invariant allows holds along a run.** -/
theorem Along.mono {Inv : σ → Prop} {P Q : σ → ε → Prop}
    (hstep : ∀ s e, Inv s → P s e → Inv (step s e)) (hgood : ∀ s e, Inv s → P s e → Q s e)
    {s : σ} (h : Inv s) {es : List ε} (hrun : Along step P s es) : Along step Q s es := by
  induction es generalizing s with
  | nil => exact trivial
  | cons e es ih => exact ⟨hgood s e h hrun.1, ih (hstep s e h hrun.1) hrun.2⟩

lemma Along.of_forall {P : σ → ε → Prop} (h : ∀ s e, P s e) (s : σ) (es : List ε) :
    Along step P s es := by
  induction es generalizing s with
  | nil => exact trivial
  | cons e es ih => exact ⟨h s e, ih (step s e)⟩

lemma Along.of_append {P : σ → ε → Prop} {s : σ} {es es' : List ε}
    (h : Along step P s (es ++ es')) : Along step P s es := by
  induction es generalizing s with
  | nil => exact trivial
  | cons e es ih => exact ⟨h.1, ih h.2⟩

lemma Along.and {P Q : σ → ε → Prop} {s : σ} {es : List ε} (hP : Along step P s es)
    (hQ : Along step Q s es) : Along step (fun s e => P s e ∧ Q s e) s es := by
  induction es generalizing s with
  | nil => exact trivial
  | cons e es ih => exact ⟨⟨hP.1, hQ.1⟩, ih hP.2 hQ.2⟩

end Runs
