import Mathlib.Data.List.Infix

/-!
# Reading a stream that arrives in chunks

A stream is a run of words laid end to end, and a transport delivers it cut anywhere: inside a
word, between two of them, several at once.  A reader holds what it has not read yet, appends each
chunk to it and takes off whatever whole words stand at the front.  This file says when such a
reader is independent of the cuts.

* `exists_cut` — where a prefix of a stream ends: behind some whole words, in the middle of the
  next one.
* `Reading` — what one pass over a buffer gives: the words read, what is left, and how many
  symbols were thrown away.
* `Reads` — the two facts about a reader the whole argument rests on: a whole word at the front is
  taken and the rest read on, and the front of a word is waited for.
* **`Reads.readings_stream`** — a reader with those two facts gives back the words of the stream,
  in order, whatever the chunks are, and throws nothing away.
-/

namespace Cut

variable {α F : Type*}

/-- `q` is the proper front of the next of the words `fs`, or nothing where there is none. -/
structure IsFront (enc : F → List α) (fs : List F) (q : List α) : Prop where
  ended : fs = [] → q = []
  front : ∀ f hs, fs = f :: hs → q <+: enc f ∧ q ≠ enc f

/-- **Where a prefix of a stream ends.**  A prefix of the words `fs` laid end to end is some of
the words whole, and behind them the proper front of the next one — or nothing, at the end. -/
theorem exists_cut (enc : F → List α) :
    ∀ (fs : List F) {p : List α}, p <+: fs.flatMap enc →
      ∃ gs hs q, fs = gs ++ hs ∧ p = gs.flatMap enc ++ q ∧ IsFront enc hs q
  | [], p, h => by
      have hp : p = [] := by simpa using h
      exact ⟨[], [], [], rfl, by simp [hp], ⟨fun _ => rfl, by simp⟩⟩
  | f :: fs, p, h => by
      rw [List.flatMap_cons] at h
      by_cases hf : enc f <+: p
      · -- the first word is whole, and the rest of the prefix is a prefix of the rest
        obtain ⟨p', rfl⟩ := hf
        rw [List.prefix_append_right_inj] at h
        obtain ⟨gs, hs, q, rfl, rfl, hfront⟩ := exists_cut enc fs h
        exact ⟨f :: gs, hs, q, rfl, by simp, hfront⟩
      · refine ⟨[], f :: fs, p, rfl, by simp, by simp, ?_⟩
        rintro f' hs' heq
        obtain ⟨rfl, rfl⟩ := List.cons.inj heq
        refine ⟨?_, fun hpe => hf (hpe ▸ List.prefix_refl _)⟩
        rcases List.prefix_or_prefix_of_prefix h (List.prefix_append _ _) with hp | hp
        · exact hp
        · exact absurd hp hf

structure Reading (F α : Type*) where
  frames : List F
  rest : List α
  dropped : ℕ

def Reading.cons (f : F) (r : Reading F α) : Reading F α :=
  ⟨f :: r.frames, r.rest, r.dropped⟩

/-- One pass over each chunk behind what the pass before it left. -/
def readings (run : List α → Reading F α) : List α → List (List α) → List (Reading F α)
  | _, [] => []
  | rest, c :: cs => run (rest ++ c) :: readings run (run (rest ++ c)).rest cs

/-- What is left unread once every chunk has been passed over. -/
def leftOver (run : List α → Reading F α) : List α → List (List α) → List α
  | rest, [] => rest
  | rest, c :: cs => leftOver run (run (rest ++ c)).rest cs

/-- A reader of the words `good` admits, written by `enc`. -/
structure Reads (enc : F → List α) (good : F → Prop) (run : List α → Reading F α) : Prop where
  /-- A word is never written as nothing. -/
  ne : ∀ f, good f → enc f ≠ []
  nil : run [] = ⟨[], [], 0⟩
  /-- A whole word at the front is taken, and the rest is read on. -/
  whole : ∀ f tail, good f → run (enc f ++ tail) = (run tail).cons f
  /-- The front of a word is waited for. -/
  part : ∀ f q, good f → q <+: enc f → q ≠ enc f → run q = ⟨[], q, 0⟩

namespace Reads

variable {enc : F → List α} {good : F → Prop} {run : List α → Reading F α}

lemma run_append (H : Reads enc good run) (tail : List α) :
    ∀ gs : List F, (∀ f ∈ gs, good f) →
      run (gs.flatMap enc ++ tail)
        = ⟨gs ++ (run tail).frames, (run tail).rest, (run tail).dropped⟩
  | [], _ => by simp
  | f :: gs, hgood => by
      rw [List.flatMap_cons, List.append_assoc, H.whole f _ (hgood f List.mem_cons_self),
        run_append H tail gs fun g hg => hgood g (List.mem_cons_of_mem _ hg)]
      rfl

lemma run_front (H : Reads enc good run) {fs : List F} (hgood : ∀ f ∈ fs, good f) {q : List α}
    (hq : IsFront enc fs q) : run q = ⟨[], q, 0⟩ := by
  cases fs with
  | nil => rw [hq.ended rfl, H.nil]
  | cons f hs =>
      obtain ⟨hpre, hne⟩ := hq.front f hs rfl
      exact H.part f q (hgood f List.mem_cons_self) hpre hne

lemma run_prefix (H : Reads enc good run) {fs : List F} (hgood : ∀ f ∈ fs, good f) {p : List α}
    (hp : p <+: fs.flatMap enc) :
    ∃ gs hs q, fs = gs ++ hs ∧ p = gs.flatMap enc ++ q ∧ run p = ⟨gs, q, 0⟩ ∧
      IsFront enc hs q := by
  obtain ⟨gs, hs, q, rfl, rfl, hfront⟩ := exists_cut enc fs hp
  refine ⟨gs, hs, q, rfl, rfl, ?_, hfront⟩
  rw [H.run_append q gs fun f hf => hgood f (List.mem_append_left _ hf),
    H.run_front (fun f hf => hgood f (List.mem_append_right _ hf)) hfront]
  simp

lemma readings_front (H : Reads enc good run) :
    ∀ (chunks : List (List α)) (rest : List α) (fs : List F), (∀ f ∈ fs, good f) →
      rest ++ chunks.flatten = fs.flatMap enc → IsFront enc fs rest →
      (readings run rest chunks).flatMap Reading.frames = fs ∧ leftOver run rest chunks = [] ∧
        ∀ r ∈ readings run rest chunks, r.dropped = 0
  | [], rest, fs, _, heq, hfront => by
      cases fs with
      | nil => simp [readings, leftOver, hfront.ended rfl]
      | cons f hs =>
          -- nothing is left to arrive, so the front of a word held here would be all of it
          obtain ⟨hpre, hne⟩ := hfront.front f hs rfl
          have hlen := congrArg List.length heq
          simp only [List.flatten_nil, List.append_nil, List.flatMap_cons,
            List.length_append] at hlen
          exact absurd (hpre.eq_of_length_le (by omega)) hne
  | c :: cs, rest, fs, hgood, heq, _ => by
      have hpre : rest ++ c <+: fs.flatMap enc := by
        rw [← heq, List.flatten_cons, ← List.append_assoc]
        exact List.prefix_append _ _
      obtain ⟨gs, hs, q, rfl, hq, hrun, hfront⟩ := H.run_prefix hgood hpre
      have hrest : q ++ cs.flatten = hs.flatMap enc := by
        rw [List.flatten_cons, ← List.append_assoc, hq, List.flatMap_append,
          List.append_assoc] at heq
        exact List.append_cancel_left heq
      obtain ⟨hframes, hleft, hdropped⟩ := readings_front H cs q hs
        (fun f hf => hgood f (List.mem_append_right _ hf)) hrest hfront
      simp only [readings, leftOver, hrun, List.flatMap_cons, List.forall_mem_cons, hframes, hleft,
        true_and]
      exact hdropped

/-- **The cuts do not matter.**  Whatever chunks a stream of good words arrives in, the passes over
them give its words back in order, leave nothing over and throw nothing away. -/
theorem readings_stream (H : Reads enc good run) (fs : List F) (hgood : ∀ f ∈ fs, good f)
    (chunks : List (List α)) (hchunks : chunks.flatten = fs.flatMap enc) :
    (readings run [] chunks).flatMap Reading.frames = fs ∧ leftOver run [] chunks = [] ∧
      ∀ r ∈ readings run [] chunks, r.dropped = 0 := by
  refine H.readings_front chunks [] fs hgood (by simpa using hchunks) ⟨fun _ => rfl, ?_⟩
  rintro f hs rfl
  exact ⟨List.nil_prefix, (H.ne f (hgood f List.mem_cons_self)).symm⟩

end Reads

end Cut
