import IbkrDx.Client.Polls
import IbkrDx.Lib.Runs

/-!
# Who is told of an account's figures

`prepare_account_updates` and `account_figures_that_moved` of `client_core/mod.rs`, under the reads
of `api/client/dispatch.rs`: what a figure was last stated as is kept when it is polled, and told
later, or dropped by an answer or a withdrawal, or laid under the session's last poll.

* **`account_figures_told`** — every event of a clean run tells right.

The downloads are numbered as they begin, and what is heard is kept, the latest first; no figure is
told by either.
-/

namespace IbkrDx

open Overlay Runs

structure StatedBook where
  stated : List AccountFieldUpdate := []
  complete : Bool := false
  download : ℕ := 0

def StatedBook.noteValue (b : StatedBook) (f : AccountFieldUpdate) : StatedBook :=
  { b with stated := put AccountFieldUpdate.figure (fun _ new => new) b.stated f }

/-- `account_download_is_pending`. -/
def StatedBook.pending (b : StatedBook) : StatedBook :=
  { b with complete := false, download := b.download + 1 }

/-- `account_download_is_settled`. -/
def StatedBook.settled (b : StatedBook) : StatedBook := { b with complete := true }

abbrev LastStated := Bool × String × String → Option String

def figuresThatMoved (ledgerOnly : Bool) :
    List AccountFieldUpdate → LastStated → List AccountFieldUpdate × LastStated
  | [], already => ([], already)
  | f :: stated, already =>
      if ledgerOnly && !f.ledger then figuresThatMoved ledgerOnly stated already
      else if already f.figure = some f.value then figuresThatMoved ledgerOnly stated already
      else
        let rest := figuresThatMoved ledgerOnly stated
          (Function.update already f.figure (some f.value))
        (f :: rest.1, rest.2)

def Moved (ledgerOnly : Bool) (already : LastStated) (f : AccountFieldUpdate) : Prop :=
  (ledgerOnly = true → f.ledger = true) ∧ already f.figure ≠ some f.value

instance (ledgerOnly : Bool) (already : LastStated) : DecidablePred (Moved ledgerOnly already) :=
  fun _ => inferInstanceAs (Decidable (_ ∧ _))

/-- No value is told twice running of a figure; the latest comes first. -/
def NoneTwice : List AccountFieldUpdate → Prop
  | [] => True
  | f :: l => (at? AccountFieldUpdate.figure l f.figure).map (·.value) ≠ some f.value ∧ NoneTwice l

structure FigureTeller (A : Type) where
  account : A
  ledgerOnly : Bool := false
  lastStated : LastStated := fun _ => none
  polled : Option (List AccountFieldUpdate) := none
  heard : List AccountFieldUpdate := []

namespace FigureTeller

variable {A : Type}

def batch (t : FigureTeller A) : List AccountFieldUpdate := t.polled.getD []

def laid : Option (List AccountFieldUpdate) → Option (List AccountFieldUpdate) →
    Option (List AccountFieldUpdate)
  | some a, some b => some (layFields a b)
  | a, b => b.or a

def poll (t : FigureTeller A) (stated : List AccountFieldUpdate) : FigureTeller A :=
  { t with
    lastStated := (figuresThatMoved t.ledgerOnly stated t.lastStated).2
    polled := laid t.polled (some (figuresThatMoved t.ledgerOnly stated t.lastStated).1) }

def pollMoved (t : FigureTeller A) (stated : List AccountFieldUpdate) : FigureTeller A :=
  if (figuresThatMoved t.ledgerOnly stated t.lastStated).1 = [] then t else t.poll stated

def hear (t : FigureTeller A) : FigureTeller A :=
  { t with polled := none, heard := t.batch.reverse ++ t.heard }

/-- What moved since a poll is kept apart from what that poll took, and from what was heard before
it. -/
def LaidApart (t : FigureTeller A) (stated : List AccountFieldUpdate) : Prop :=
  ∀ polled ∈ t.polled.toList, ∀ x ∈ stated, Moved t.ledgerOnly t.lastStated x →
    (∀ y ∈ polled, y.pair = x.pair → y.figure = x.figure) ∧
    (∀ y ∈ stated, Moved t.ledgerOnly t.lastStated y → y.pair = x.pair → y.figure = x.figure) ∧
    (at? AccountFieldUpdate.figure t.heard x.figure).map (·.value) ≠ some x.value

instance (t : FigureTeller A) (stated : List AccountFieldUpdate) :
    Decidable (t.LaidApart stated) :=
  inferInstanceAs (Decidable (∀ polled ∈ t.polled.toList, ∀ x ∈ stated, _ → _ ∧ _ ∧ _))

end FigureTeller

structure PolledEnd where
  download : ℕ
  complete : Bool
  /-- The figures stated when those told with it were taken. -/
  stated : List (Bool × String × String)

structure ToldEnd extends PolledEnd where
  after : List AccountFieldUpdate

/-- The accounts, who is told of them, and where the reader stands. -/
structure FigureDesk (A : Type) where
  own : A
  books : A → StatedBook := fun _ => {}
  subscribed : Bool := false
  updates : FigureTeller A := { account := own }
  endSent : Bool := false
  polledEnd : Option PolledEnd := none
  ends : List ToldEnd := []
  watchers : List ℤ := []
  multi : ℤ → FigureTeller A := fun _ => { account := own }
  /-- Figures taken whose download has not been asked after yet, and whether an answer took them. -/
  taking : Option (Bool × List (Bool × String × String)) := none
  due : List ℤ := []
  reading : Bool := false
  ended : Bool := false
  /-- What was stated as the read began, and what has been since. -/
  asOf : A → List AccountFieldUpdate := fun _ => []
  since : List (A × AccountFieldUpdate) := []
  /-- The downloads the read has found whole. -/
  stood : List ℕ := []

/-- What the venue states, what the reader does, and what the session's records say. -/
inductive FigureEvent (A : Type) where
  | states (a : A) (f : AccountFieldUpdate)
  | pends (a : A)
  | settles (a : A)
  /-- A read begins with the subscribed account's figures. -/
  | begins
  /-- Whether its download is over is read, beside them. -/
  | asksAfterTheEnd
  | pollsNext
  | asksUpdates (account : A)
  | retiresUpdates
  | asksMulti (reqId : ℤ) (account : A) (ledgerAndNlv : Bool)
  | retiresMulti (reqId : ℤ)
  | delivers
  | closes

namespace FigureDesk

variable {A : Type} [DecidableEq A]

def book (d : FigureDesk A) : StatedBook := d.books d.updates.account

def setBook (d : FigureDesk A) (a : A) (b : StatedBook) : FigureDesk A :=
  { d with books := Function.update d.books a b }

def Ready (d : FigureDesk A) : Prop := d.taking = none ∧ d.due = [] ∧ d.ended = false

instance (d : FigureDesk A) : Decidable d.Ready := inferInstanceAs (Decidable (_ ∧ _ ∧ _))

def standing (d : FigureDesk A) : List ℕ := if d.book.complete then [d.book.download] else []

/-- `prepare_account_updates`, up to the figures. -/
def takeFigures (d : FigureDesk A) (answer : Bool) : FigureDesk A :=
  if d.subscribed = false then d
  else if d.book.stated = [] then { d with stood := d.stood ++ d.standing }
  else
    { d with
      updates := d.updates.poll d.book.stated
      taking := some (answer, d.book.stated.map AccountFieldUpdate.figure) }

/-- `deliver_account_batch`. -/
def deliverUpdates (d : FigureDesk A) : FigureDesk A :=
  { d with
    updates := d.updates.hear
    polledEnd := none
    ends := d.polledEnd.toList.map (fun e => ⟨e, d.updates.hear.heard⟩) ++ d.ends }

/-- Whether the download is over is read, and its end polled where it had not been seen over. -/
def readFlag (d : FigureDesk A) (figures : List (Bool × String × String)) : FigureDesk A :=
  { d with
    taking := none
    endSent := d.book.complete
    stood := d.stood ++ d.standing
    polledEnd := d.polledEnd.or
      (if !d.endSent && d.book.complete then some ⟨d.book.download, d.book.complete, figures⟩
        else none) }

/-- `prepare_account_updates`, from the figures on. -/
def readTheEnd (d : FigureDesk A) : FigureDesk A :=
  match d.taking with
  | none => d
  | some (answer, figures) =>
      if answer then (d.readFlag figures).deliverUpdates else d.readFlag figures

def deliverState (d : FigureDesk A) : FigureDesk A :=
  { d.deliverUpdates with
    multi := fun r => if r ∈ d.watchers then (d.multi r).hear else d.multi r
    reading := false }

/-- `subscribe_account_updates`. -/
def subscribe (d : FigureDesk A) (account : A) (subscribed : Bool) : FigureDesk A :=
  { d with
    subscribed := subscribed
    updates := { account := account }
    endSent := false
    polledEnd := none
    ends := []
    stood := [] }

def begun (d : FigureDesk A) : FigureDesk A :=
  { d with
    reading := true
    due := d.watchers
    asOf := fun a => (d.books a).stated
    since := []
    stood := [] }

def reopened (d : FigureDesk A) : FigureDesk A :=
  takeFigures { d with reading := true, asOf := fun a => (d.books a).stated, since := [] } false

def pollAgain (d : FigureDesk A) : FigureDesk A :=
  { d.reopened.readTheEnd with
    multi := fun r => if r ∈ d.watchers then
      (d.multi r).pollMoved (d.books (d.multi r).account).stated else d.multi r }

def step (d : FigureDesk A) : FigureEvent A → FigureDesk A
  | .states a f =>
      { d.setBook a ((d.books a).noteValue f) with since := (a, f) :: d.since }
  | .pends a => d.setBook a (d.books a).pending
  | .settles a => d.setBook a (d.books a).settled
  | .begins =>
      if d.Ready ∧ d.reading = false then d.begun.takeFigures false else d
  | .asksAfterTheEnd => d.readTheEnd
  | .pollsNext =>
      match d.taking, d.due with
      | none, r :: due =>
          { d with
            due := due
            multi := Function.update d.multi r
              ((d.multi r).pollMoved (d.books (d.multi r).account).stated) }
      | _, _ => d
  | .asksUpdates a => if d.Ready then (d.subscribe a true).takeFigures true else d
  | .retiresUpdates => if d.Ready then d.subscribe d.updates.account false else d
  | .asksMulti r a ledgerAndNlv =>
      if d.Ready then
        { d with
          watchers := if r ∈ d.watchers then d.watchers else d.watchers ++ [r]
          multi := Function.update d.multi r
            (({ account := a, ledgerOnly := ledgerAndNlv } : FigureTeller A).poll
              (d.books a).stated).hear }
      else d
  | .retiresMulti r =>
      if d.Ready then
        { d with
          watchers := d.watchers.filter (· ≠ r)
          multi := Function.update d.multi r { account := d.own } }
      else d
  | .delivers => if d.Ready ∧ d.reading then d.deliverState else d
  | .closes => if d.Ready then { d.pollAgain.deliverState with ended := true } else d

/-! ## What it is for -/

def Tells (d : FigureDesk A) (t : FigureTeller A) : Prop :=
  d.subscribed = true ∧ t = d.updates ∨ ∃ r ∈ d.watchers, t = d.multi r

def ReadEnds (d : FigureDesk A) : FigureEvent A → Prop
  | .delivers => d.Ready ∧ d.reading = true
  | .closes => d.Ready
  | _ => False

instance (d : FigureDesk A) : DecidablePred d.ReadEnds := fun e =>
  match e with
  | .delivers => inferInstanceAs (Decidable (_ ∧ _))
  | .closes => inferInstanceAs (Decidable d.Ready)
  | .states .. | .pends _ | .settles _ | .begins | .asksAfterTheEnd | .pollsNext | .asksUpdates _
    | .retiresUpdates | .asksMulti .. | .retiresMulti _ => isFalse not_false

/-- What it last heard of each figure asked for was stated as the read polled, or since. -/
def UpToDate (d : FigureDesk A) (t : FigureTeller A) : Prop :=
  ∀ x ∈ d.asOf t.account, (t.ledgerOnly = true → x.ledger = true) →
    ∃ y, at? AccountFieldUpdate.figure t.heard x.figure = some y ∧
      (y ∈ d.asOf t.account ∨ (t.account, y) ∈ d.since)

/-- **What an event is to leave**: no value told twice running, no end told twice, of a download
that is pending, or ahead of a figure polled with it; and after a read nobody is behind it. -/
structure TellsRight (d : FigureDesk A) (e : FigureEvent A) : Prop where
  noneTwice : ∀ t, (d.step e).Tells t → NoneTwice t.heard
  endsOnce : ((d.step e).ends.map (·.download)).Nodup
  whole : ∀ x ∈ (d.step e).ends, x.complete = true ∧
    (x.download < (d.step e).book.download ∨ (d.step e).book.complete = true) ∧
    ∀ f ∈ x.stated, ∃ y ∈ x.after, y.figure = f
  upToDate : d.ReadEnds e → ∀ t, (d.step e).Tells t → (d.step e).UpToDate t
  endsTold : d.ReadEnds e → ∀ n ∈ (d.step e).stood, n ∈ (d.step e).ends.map (·.download)

/-- A download ends once its beginning has been read, an account found whole has something stated,
and the last poll is kept apart from the one it is laid over. -/
def Clean (d : FigureDesk A) : FigureEvent A → Prop
  | .settles a => (d.books a).complete = false → a = d.updates.account → d.endSent = false
  | .begins => d.subscribed = true → d.book.complete = true → d.book.stated ≠ []
  | .asksUpdates a => (d.books a).complete = true → (d.books a).stated ≠ []
  | .closes => (d.subscribed = true → d.book.complete = true → d.book.stated ≠ []) ∧
      d.updates.LaidApart d.book.stated ∧
      ∀ r ∈ d.watchers, (d.multi r).LaidApart (d.books (d.multi r).account).stated
  | _ => True

instance (d : FigureDesk A) : DecidablePred d.Clean := fun e =>
  match e with
  | .settles _ | .begins => inferInstanceAs (Decidable (_ → _ → _))
  | .asksUpdates _ => inferInstanceAs (Decidable (_ → _))
  | .closes => inferInstanceAs (Decidable (_ ∧ _ ∧ _))
  | .states .. | .pends _ | .asksAfterTheEnd | .pollsNext | .retiresUpdates | .asksMulti ..
    | .retiresMulti _ | .delivers => isTrue trivial

end FigureDesk

/-! ## What has been told and is to be -/

open AccountFieldUpdate

lemma figuresThatMoved_eq (ledgerOnly : Bool) {stated : List AccountFieldUpdate}
    (hnodup : (stated.map figure).Nodup) (already : LastStated) :
    figuresThatMoved ledgerOnly stated already =
      (stated.filter (Moved ledgerOnly already), fun k =>
        ((at? figure (stated.filter (Moved ledgerOnly already)) k).map (·.value)).or
          (already k)) := by
  induction stated generalizing already with
  | nil => rfl
  | cons f stated ih =>
      rw [List.map_cons, List.nodup_cons] at hnodup
      rw [figuresThatMoved, ih hnodup.2, ih hnodup.2]
      split_ifs with hasked hsame
      · have hnot : ¬ Moved ledgerOnly already f := by
          intro h
          have := h.1
          simp_all
        rw [List.filter_cons_of_neg (by simpa using hnot)]
      · have hnot : ¬ Moved ledgerOnly already f := fun h => h.2 hsame
        rw [List.filter_cons_of_neg (by simpa using hnot)]
      · have hmoved : Moved ledgerOnly already f := by
          refine ⟨fun h => ?_, hsame⟩
          simpa [h] using hasked
        have hne (g : AccountFieldUpdate) (hg : g ∈ stated) : g.figure ≠ f.figure := fun heq =>
          hnodup.1 (heq ▸ List.mem_map_of_mem hg)
        have hrest : stated.filter (Moved ledgerOnly
              (Function.update already f.figure (some f.value))) =
            stated.filter (Moved ledgerOnly already) := by
          refine List.filter_congr fun g hg => decide_eq_decide.2 ?_
          rw [Moved, Moved, Function.update_of_ne (hne g hg)]
        rw [List.filter_cons_of_pos (by simpa using hmoved), hrest]
        refine Prod.ext rfl (funext fun k => ?_)
        dsimp only
        rw [at?_cons]
        split_ifs with hk
        · have hnone : at? figure (stated.filter (Moved ledgerOnly already)) k = none :=
            at?_eq_none.2 fun u hu => hk ▸ hne u (List.mem_of_mem_filter hu)
          rw [hnone, ← hk, Function.update_self]
          rfl
        · rw [Function.update_of_ne (Ne.symm hk)]

lemma at?_reverse {l : List AccountFieldUpdate} (hnodup : (l.map figure).Nodup)
    (k : Bool × String × String) : at? figure l.reverse k = at? figure l k := by
  have hrev : (l.reverse.map figure).Nodup := by
    rw [List.map_reverse]
    exact List.nodup_reverse.2 hnodup
  cases h : at? figure l k with
  | none => exact at?_eq_none.2 fun u hu => at?_eq_none.1 h u (List.mem_reverse.1 hu)
  | some u =>
      obtain ⟨hmem, rfl⟩ := at?_mem h
      exact at?_of_mem hrev (List.mem_reverse.2 hmem)

lemma NoneTwice.append {l heard : List AccountFieldUpdate} (hheard : NoneTwice heard)
    (hnodup : (l.map figure).Nodup)
    (hmoved : ∀ x ∈ l, (at? figure heard x.figure).map (·.value) ≠ some x.value) :
    NoneTwice (l.reverse ++ heard) := by
  induction l generalizing heard with
  | nil => exact hheard
  | cons x l ih =>
      rw [List.map_cons, List.nodup_cons] at hnodup
      rw [List.reverse_cons, List.append_assoc]
      have hnext : NoneTwice ([x] ++ heard) := ⟨hmoved x List.mem_cons_self, hheard⟩
      refine ih hnext hnodup.2 ?_
      intro y hy
      have hne : x.figure ≠ y.figure := fun heq => hnodup.1 (heq ▸ List.mem_map_of_mem hy)
      rw [List.singleton_append, at?_cons, if_neg hne]
      exact hmoved y (List.mem_cons_of_mem x hy)

namespace FigureTeller

variable {A : Type} {t : FigureTeller A}

/-- What was last stated has been heard or is to be, and nothing is to be heard again. -/
structure Sound (t : FigureTeller A) : Prop where
  stated : ∀ k, t.lastStated k =
    ((at? figure t.batch k).or (at? figure t.heard k)).map (·.value)
  noneTwice : NoneTwice t.heard
  moved : ∀ x ∈ t.batch, (at? figure t.heard x.figure).map (·.value) ≠ some x.value
  nodup : (t.batch.map figure).Nodup

lemma sound_fresh (a : A) (ledgerOnly : Bool) :
    Sound ({ account := a, ledgerOnly := ledgerOnly } : FigureTeller A) where
  stated _ := rfl
  noneTwice := trivial
  moved := List.forall_mem_nil _
  nodup := List.nodup_nil

lemma Sound.hear (h : t.Sound) : t.hear.Sound where
  stated k := by
    rw [FigureTeller.hear, at?_append, at?_reverse h.nodup]
    exact h.stated k
  noneTwice := h.noneTwice.append h.nodup h.moved
  moved := List.forall_mem_nil _
  nodup := List.nodup_nil

variable {stated : List AccountFieldUpdate}

lemma Sound.poll_of_none (h : t.Sound) (hnone : t.polled = none)
    (hnodup : (stated.map figure).Nodup) : (t.poll stated).Sound := by
  have hbatch : (t.poll stated).batch = stated.filter (Moved t.ledgerOnly t.lastStated) := by
    rw [batch, FigureTeller.poll, hnone, figuresThatMoved_eq _ hnodup]
    rfl
  have hlast (k : Bool × String × String) :
      t.lastStated k = (at? figure t.heard k).map (·.value) := by
    rw [h.stated, batch, hnone]
    rfl
  refine ⟨fun k => ?_, h.noneTwice, fun x hx => ?_, ?_⟩
  · rw [hbatch, FigureTeller.poll, figuresThatMoved_eq _ hnodup, Option.map_or]
    exact congrArg (Option.or _) (hlast k)
  · rw [hbatch] at hx
    have hmoved : Moved t.ledgerOnly t.lastStated x := by simpa using List.of_mem_filter hx
    exact fun heq => hmoved.2 ((hlast x.figure).trans heq)
  · rw [hbatch]
    exact hnodup.sublist (List.filter_sublist.map figure)

lemma Sound.poll (h : t.Sound)
    (hnodup : (stated.map figure).Nodup) (hapart : t.LaidApart stated) :
    (t.poll stated).Sound := by
  cases hpolled : t.polled with
  | none => exact h.poll_of_none hpolled hnodup
  | some earlier =>
      have hearlier : t.batch = earlier := by rw [batch, hpolled]; rfl
      have hlast := h.stated
      have hold := h.moved
      have holdnodup := h.nodup
      rw [hearlier] at hlast hold holdnodup
      have hin (x : AccountFieldUpdate) (hx : x ∈ stated.filter (Moved t.ledgerOnly t.lastStated)) :
          x ∈ stated ∧ Moved t.ledgerOnly t.lastStated x := by
        simpa using List.mem_filter.1 hx
      have hapart' (x : AccountFieldUpdate)
          (hx : x ∈ stated.filter (Moved t.ledgerOnly t.lastStated)) :=
        hapart earlier (by rw [hpolled]; exact List.mem_singleton_self _) x (hin x hx).1
          (hin x hx).2
      have hnewnodup : ((stated.filter (Moved t.ledgerOnly t.lastStated)).map figure).Nodup :=
        hnodup.sublist (List.filter_sublist.map figure)
      have hclash : NoClash pair figure earlier
          (stated.filter (Moved t.ledgerOnly t.lastStated)) := by
        intro u hu v hv hpair
        obtain ⟨hearly, hlate, -⟩ := hapart' u hu
        rcases List.mem_append.1 hv with hv | hv
        · exact hearly v hv hpair
        · exact hlate v (hin v hv).1 (hin v hv).2 hpair
      have hbatch : (t.poll stated).batch =
          renewAll figure earlier (stated.filter (Moved t.ledgerOnly t.lastStated)) := by
        rw [batch, FigureTeller.poll, hpolled, figuresThatMoved_eq _ hnodup]
        exact renewAll_of_noClash pair_of_figure hclash
      have hlaid : ((t.poll stated).batch.map figure).Nodup := by
        rw [hbatch]
        exact nodup_renewAll holdnodup _
      refine ⟨fun k => ?_, h.noneTwice, fun x hx => ?_, hlaid⟩
      · rw [hbatch, at?_renewAll hnewnodup, FigureTeller.poll, figuresThatMoved_eq _ hnodup,
          Option.or_assoc, Option.map_or]
        exact congrArg (Option.or _) (hlast k)
      · have hat := at?_of_mem hlaid hx
        rw [hbatch, at?_renewAll hnewnodup] at hat
        rcases Option.or_eq_some_iff.1 hat with hat | ⟨-, hat⟩
        · exact (hapart' x (at?_mem hat).1).2.2
        · exact hold x (at?_mem hat).1

lemma Sound.pollMoved (h : t.Sound)
    (hnodup : (stated.map figure).Nodup) (hapart : t.LaidApart stated) :
    (t.pollMoved stated).Sound := by
  unfold FigureTeller.pollMoved
  split_ifs
  · exact h
  · exact h.poll hnodup hapart

lemma laidApart_of_none (h : t.polled = none) (stated : List AccountFieldUpdate) :
    t.LaidApart stated := by
  intro polled hpolled
  rw [h] at hpolled
  exact absurd hpolled List.not_mem_nil

lemma lastStated_poll (hnodup : (stated.map figure).Nodup)
    {x : AccountFieldUpdate} (hx : x ∈ stated) (hasked : t.ledgerOnly = true → x.ledger = true) :
    (t.poll stated).lastStated x.figure = some x.value := by
  have hnew : ((stated.filter (Moved t.ledgerOnly t.lastStated)).map figure).Nodup :=
    hnodup.sublist (List.filter_sublist.map figure)
  rw [FigureTeller.poll, figuresThatMoved_eq _ hnodup]
  dsimp only
  by_cases hmoved : Moved t.ledgerOnly t.lastStated x
  · rw [at?_of_mem hnew (List.mem_filter.2 ⟨hx, decide_eq_true hmoved⟩)]
    rfl
  · have hsame : t.lastStated x.figure = some x.value := by
      by_contra hne
      exact hmoved ⟨hasked, hne⟩
    have hnone : at? figure (stated.filter (Moved t.ledgerOnly t.lastStated)) x.figure = none := by
      refine at?_eq_none.2 fun u hu heq => hmoved ?_
      rw [← List.inj_on_of_nodup_map hnodup (List.mem_of_mem_filter hu) hx heq]
      simpa using List.of_mem_filter hu
    rw [hnone, hsame]
    rfl

lemma lastStated_pollMoved (t : FigureTeller A)
    (hnodup : (stated.map figure).Nodup) :
    (t.pollMoved stated).lastStated = (t.poll stated).lastStated := by
  unfold FigureTeller.pollMoved
  split_ifs with h
  · rw [figuresThatMoved_eq _ hnodup] at h
    rw [FigureTeller.poll, figuresThatMoved_eq _ hnodup]
    dsimp only at h ⊢
    rw [h]
    rfl
  · rfl

lemma pollMoved_kept (t : FigureTeller A) (stated : List AccountFieldUpdate) :
    (t.pollMoved stated).account = t.account ∧ (t.pollMoved stated).ledgerOnly = t.ledgerOnly := by
  unfold FigureTeller.pollMoved
  split_ifs <;> exact ⟨rfl, rfl⟩

lemma lastStated_poll_mono (hnodup : (stated.map figure).Nodup)
    {k : Bool × String × String} (h : t.lastStated k ≠ none) :
    (t.poll stated).lastStated k ≠ none := by
  rw [FigureTeller.poll, figuresThatMoved_eq _ hnodup, ne_eq, Option.or_eq_none_iff]
  exact fun hnone => h hnone.2

/-- It was last stated what was stated as of a read, or since. -/
def Covers (t : FigureTeller A) (asOf : List AccountFieldUpdate)
    (since : List (A × AccountFieldUpdate)) : Prop :=
  ∀ x ∈ asOf, (t.ledgerOnly = true → x.ledger = true) → ∃ y, y.figure = x.figure ∧
    t.lastStated y.figure = some y.value ∧ (y ∈ asOf ∨ (t.account, y) ∈ since)

lemma Covers.mono {asOf : List AccountFieldUpdate} {since since' : List (A × AccountFieldUpdate)}
    (h : t.Covers asOf since) (hsince : since ⊆ since') : t.Covers asOf since' := by
  intro x hx hasked
  obtain ⟨y, hfigure, hlast, hwhen⟩ := h x hx hasked
  exact ⟨y, hfigure, hlast, hwhen.imp_right fun hmem => hsince hmem⟩

end FigureTeller

namespace FigureDesk

variable {A : Type} {d : FigureDesk A}

def endsKnown (d : FigureDesk A) : List ℕ :=
  d.polledEnd.toList.map (·.download) ++ d.ends.map (·.download)

structure Sound (d : FigureDesk A) : Prop where
  figures : ∀ a, ((d.books a).stated.map figure).Nodup
  kept : ∀ a, ∀ x ∈ d.asOf a, ∃ y ∈ (d.books a).stated, y.figure = x.figure
  since : ∀ a, ∀ y ∈ (d.books a).stated, y ∈ d.asOf a ∨ (a, y) ∈ d.since
  updates : d.updates.Sound
  everyFigure : d.updates.ledgerOnly = false
  multi : ∀ r, (d.multi r).Sound
  unreadMulti : ∀ r, d.reading = false ∨ r ∈ d.due ∨ r ∉ d.watchers → (d.multi r).polled = none
  watchers : d.watchers.Nodup
  due : d.due.Sublist d.watchers
  dueRead : d.reading = false → d.due = []
  taking : ∀ p ∈ d.taking, d.subscribed = true ∧ ∀ k ∈ p.2, d.updates.lastStated k ≠ none
  polledEnd : ∀ e ∈ d.polledEnd,
    e.complete = true ∧ ∀ k ∈ e.stated, d.updates.lastStated k ≠ none
  ends : ∀ x ∈ d.ends, x.complete = true ∧ ∀ k ∈ x.stated, ∃ y ∈ x.after, y.figure = k
  unsubscribed : d.subscribed = false → d.endSent = false ∧ d.taking = none
  endsOnce : d.endsKnown.Nodup
  endsOver : ∀ n ∈ d.endsKnown, n < d.book.download ∨
    n = d.book.download ∧ d.book.complete = true ∧ d.endSent = true
  latched : d.endSent = true → d.book.complete = true → d.book.download ∈ d.endsKnown
  stood : ∀ n ∈ d.stood, n ∈ d.endsKnown

/-- What is polled is of the read there is, and an end is polled once its download was seen over. -/
structure Unmixed (d : FigureDesk A) : Prop where
  unread : d.reading = false → d.taking = none → d.updates.polled = none
  unreadEnd : d.reading = false → d.polledEnd = none
  taking : d.taking ≠ none → d.polledEnd = none
  taken : ∀ p ∈ d.taking, p.1 = false → d.reading = true
  sent : d.polledEnd ≠ none → d.endSent = true

/-- Nobody a read has come to is behind what it began with. -/
structure Covered (d : FigureDesk A) : Prop where
  updates : d.reading = true → d.subscribed = true →
    d.updates.Covers (d.asOf d.updates.account) d.since
  multi : d.reading = true → ∀ r ∈ d.watchers, r ∉ d.due →
    (d.multi r).Covers (d.asOf (d.multi r).account) d.since

lemma sound_initial (own : A) : Sound ({ own := own } : FigureDesk A) where
  figures _ := List.nodup_nil
  kept _ _ hx := absurd hx List.not_mem_nil
  since _ _ hy := absurd hy List.not_mem_nil
  updates := FigureTeller.sound_fresh own false
  everyFigure := rfl
  multi _ := FigureTeller.sound_fresh own false
  unreadMulti _ _ := rfl
  watchers := List.nodup_nil
  due := List.Sublist.refl _
  dueRead _ := rfl
  taking _ h := nomatch h
  polledEnd _ h := nomatch h
  ends := List.forall_mem_nil _
  unsubscribed _ := ⟨rfl, rfl⟩
  endsOnce := List.nodup_nil
  endsOver := List.forall_mem_nil _
  latched h := absurd h Bool.false_ne_true
  stood := List.forall_mem_nil _

lemma unmixed_initial (own : A) : Unmixed ({ own := own } : FigureDesk A) where
  unread _ _ := rfl
  unreadEnd _ := rfl
  taking h := absurd rfl h
  taken _ h := nomatch h
  sent h := absurd rfl h

lemma covered_initial (own : A) : Covered ({ own := own } : FigureDesk A) where
  updates h := absurd h Bool.false_ne_true
  multi h := absurd h Bool.false_ne_true

lemma Sound.covers_poll (h : d.Sound) (t : FigureTeller A) :
    (t.poll (d.books t.account).stated).Covers (d.asOf t.account) d.since := by
  intro x hx hasked
  obtain ⟨y, hy, hfigure⟩ := h.kept t.account x hx
  have hledger : t.ledgerOnly = true → y.ledger = true := fun hl =>
    (congrArg Prod.fst hfigure).trans (hasked hl)
  exact ⟨y, hfigure, FigureTeller.lastStated_poll (h.figures t.account) hy hledger,
    h.since t.account y hy⟩

lemma Sound.covers_pollMoved (h : d.Sound) (t : FigureTeller A) :
    (t.pollMoved (d.books t.account).stated).Covers
      (d.asOf (t.pollMoved (d.books t.account).stated).account) d.since := by
  have hlast := FigureTeller.lastStated_pollMoved t (h.figures t.account)
  obtain ⟨hacct, hledger⟩ := t.pollMoved_kept (d.books t.account).stated
  intro x hx hasked
  rw [hlast, hacct]
  rw [hacct] at hx
  rw [hledger] at hasked
  exact h.covers_poll t x hx hasked

/-! ## A read -/

lemma Sound.opened (h : d.Sound) :
    Sound { d with reading := true, asOf := fun a => (d.books a).stated, since := [] } :=
  { h with
    kept := fun _ x hx => ⟨x, hx, rfl⟩
    since := fun _ _ hy => Or.inl hy
    unreadMulti := fun r hr => h.unreadMulti r (Or.inr (hr.resolve_left fun hread => nomatch hread))
    dueRead := fun hread => nomatch hread }

lemma Sound.begun (h : d.Sound) (hreading : d.reading = false) : d.begun.Sound :=
  { h.opened with
    unreadMulti := fun r _ => h.unreadMulti r (Or.inl hreading)
    due := List.Sublist.refl _
    dueRead := fun hread => nomatch hread
    stood := List.forall_mem_nil _ }

lemma Sound.takeFigures (h : d.Sound) (answer : Bool)
    (hwhole : d.subscribed = true → d.book.complete = true → d.book.stated ≠ [])
    (hapart : d.updates.LaidApart d.book.stated) : (d.takeFigures answer).Sound := by
  unfold FigureDesk.takeFigures
  split_ifs with hsub hnil
  · exact h
  · refine { h with stood := fun n hn => ?_ }
    have hnone : d.standing = [] := by
      rw [standing, if_neg]
      exact fun hcomplete => hwhole (eq_true_of_ne_false hsub) hcomplete hnil
    rw [hnone] at hn
    exact h.stood n (by simpa using hn)
  · have hnodup := h.figures d.updates.account
    refine { h with
      updates := h.updates.poll hnodup hapart
      taking := fun p hp => ?_
      polledEnd := fun e he => ⟨(h.polledEnd e he).1, fun k hk =>
        FigureTeller.lastStated_poll_mono hnodup ((h.polledEnd e he).2 k hk)⟩
      unsubscribed := fun hun => absurd hun hsub }
    obtain rfl := Option.some.inj hp
    refine ⟨eq_true_of_ne_false hsub, fun k hk => ?_⟩
    obtain ⟨x, hx, rfl⟩ := List.mem_map.1 hk
    have hasked : d.updates.ledgerOnly = true → x.ledger = true := by
      rw [h.everyFigure]
      exact fun hl => nomatch hl
    exact (FigureTeller.lastStated_poll hnodup hx hasked).trans_ne (Option.some_ne_none _)

lemma Sound.covers_takeFigures (h : d.Sound) (answer : Bool)
    (hsub : (d.takeFigures answer).subscribed = true) :
    (d.takeFigures answer).updates.Covers
      ((d.takeFigures answer).asOf (d.takeFigures answer).updates.account)
      (d.takeFigures answer).since := by
  unfold FigureDesk.takeFigures at hsub ⊢
  split_ifs at hsub ⊢ with hun hnil
  · exact absurd (hun.symm.trans hsub) Bool.false_ne_true
  · intro x hx
    obtain ⟨y, hy, -⟩ := h.kept _ x hx
    rw [book] at hnil
    exact absurd (hnil ▸ hy) List.not_mem_nil
  · exact h.covers_poll d.updates

lemma Sound.readFlag (h : d.Sound) (hsent : d.polledEnd ≠ none → d.endSent = true)
    {answer : Bool} {figures : List (Bool × String × String)}
    (htaking : d.taking = some (answer, figures)) : (d.readFlag figures).Sound := by
  obtain ⟨hsub, hfigures⟩ := h.taking _ htaking
  have hun : d.subscribed = false → (d.readFlag figures).endSent = false ∧
      (d.readFlag figures).taking = none := fun hun =>
    absurd (hun.symm.trans hsub) Bool.false_ne_true
  by_cases hfinished : d.endSent = false ∧ d.book.complete = true
  · obtain ⟨hunsent, hcomplete⟩ := hfinished
    have hnone : d.polledEnd = none := by
      by_contra hsome
      exact absurd (hunsent.symm.trans (hsent hsome)) Bool.false_ne_true
    have hnew : (d.readFlag figures).polledEnd =
        some ⟨d.book.download, d.book.complete, figures⟩ := by
      rw [FigureDesk.readFlag, hnone, hunsent, hcomplete]
      rfl
    have hbefore (n : ℕ) (hn : n ∈ d.endsKnown) : n < d.book.download := by
      refine (h.endsOver n hn).resolve_right fun hthis => ?_
      exact absurd (hunsent.symm.trans hthis.2.2) Bool.false_ne_true
    have hknown : (d.readFlag figures).endsKnown = d.book.download :: d.endsKnown := by
      rw [endsKnown, hnew, endsKnown, hnone]
      rfl
    refine { h with
      taking := fun _ hp => nomatch hp
      polledEnd := fun e he => ?_
      unsubscribed := hun
      endsOnce := ?_
      endsOver := fun n hn => ?_
      latched := fun _ _ => ?_
      stood := fun n hn => ?_ }
    · rw [hnew] at he
      obtain rfl := Option.some.inj he
      exact ⟨hcomplete, hfigures⟩
    · rw [hknown]
      exact List.nodup_cons.2 ⟨fun hn => Nat.lt_irrefl _ (hbefore _ hn), h.endsOnce⟩
    · rw [hknown] at hn
      rcases List.mem_cons.1 hn with rfl | hn
      · exact Or.inr ⟨rfl, hcomplete, hcomplete⟩
      · exact Or.inl (hbefore n hn)
    · rw [hknown]
      exact List.mem_cons_self
    · have hstanding : d.standing = [d.book.download] := by rw [standing, if_pos hcomplete]
      rw [FigureDesk.readFlag, hstanding] at hn
      rw [hknown]
      rcases List.mem_append.1 hn with hn | hn
      · exact List.mem_cons_of_mem _ (h.stood n hn)
      · exact List.mem_cons.2 (Or.inl (List.mem_singleton.1 hn))
  · have hsame : (d.readFlag figures).polledEnd = d.polledEnd := by
      have hno : (!d.endSent && d.book.complete) = false := by
        simpa [Bool.and_eq_false_iff] using hfinished
      rw [FigureDesk.readFlag, hno]
      exact Option.or_none
    have hknown : (d.readFlag figures).endsKnown = d.endsKnown := by
      rw [endsKnown, hsame]
      rfl
    have hbefore : d.book.complete = true → d.endSent = true := fun hcomplete =>
      eq_true_of_ne_false fun hunsent => hfinished ⟨hunsent, hcomplete⟩
    refine { h with
      taking := fun _ hp => nomatch hp
      polledEnd := fun e he => h.polledEnd e (hsame ▸ he)
      unsubscribed := hun
      endsOnce := hknown ▸ h.endsOnce
      endsOver := fun n hn => ?_
      latched := fun _ hcomplete => ?_
      stood := fun n hn => ?_ }
    · exact (h.endsOver n (hknown ▸ hn)).imp_right fun hthis => ⟨hthis.1, hthis.2.1, hthis.2.1⟩
    · rw [hknown]
      exact h.latched (hbefore hcomplete) hcomplete
    · rw [hknown]
      rcases List.mem_append.1 hn with hn | hn
      · exact h.stood n hn
      · rw [standing] at hn
        split_ifs at hn with hcomplete
        · rw [List.mem_singleton.1 hn]
          exact h.latched (hbefore hcomplete) hcomplete
        · exact absurd hn List.not_mem_nil

lemma endsKnown_deliverUpdates (d : FigureDesk A) : d.deliverUpdates.endsKnown = d.endsKnown := by
  simp only [endsKnown, deliverUpdates, List.map_append, List.map_map, Option.toList_none,
    List.map_nil, List.nil_append]
  rfl

lemma Sound.deliverUpdates (h : d.Sound) : d.deliverUpdates.Sound := by
  have hknown := endsKnown_deliverUpdates d
  refine { h with
    updates := h.updates.hear
    polledEnd := fun _ he => nomatch he
    ends := fun x hx => ?_
    endsOnce := hknown ▸ h.endsOnce
    endsOver := hknown ▸ h.endsOver
    latched := hknown ▸ h.latched
    stood := hknown ▸ h.stood }
  rcases List.mem_append.1 hx with hx | hx
  · obtain ⟨e, he, rfl⟩ := List.mem_map.1 hx
    obtain ⟨hcomplete, hstated⟩ := h.polledEnd e (Option.mem_toList.1 he)
    refine ⟨hcomplete, fun k hk => ?_⟩
    have hlast : d.updates.lastStated k = (at? figure d.updates.hear.heard k).map (·.value) :=
      h.updates.hear.stated k
    have hsome : at? figure d.updates.hear.heard k ≠ none := fun hnone =>
      hstated k hk (by rw [hlast, hnone]; rfl)
    obtain ⟨y, hy⟩ := Option.ne_none_iff_exists'.1 hsome
    exact ⟨y, at?_mem hy⟩
  · exact h.ends x hx

lemma Sound.readTheEnd (h : d.Sound) (hsent : d.polledEnd ≠ none → d.endSent = true) :
    d.readTheEnd.Sound := by
  unfold FigureDesk.readTheEnd
  split
  · exact h
  · rename_i htaking
    split_ifs
    · exact (h.readFlag hsent htaking).deliverUpdates
    · exact h.readFlag hsent htaking

lemma Sound.deliverState (h : d.Sound) (hdue : d.due = []) : d.deliverState.Sound := by
  refine { h.deliverUpdates with
    multi := fun r => ?_
    unreadMulti := fun r _ => ?_
    dueRead := fun _ => hdue }
  · unfold FigureDesk.deliverState
    dsimp only
    split_ifs
    · exact (h.multi r).hear
    · exact h.multi r
  · unfold FigureDesk.deliverState
    dsimp only
    split_ifs with hr
    · rfl
    · exact h.unreadMulti r (Or.inr (Or.inr hr))

/-! ## What the records say -/

lemma Sound.subscribe (h : d.Sound) (htaking : d.taking = none) (a : A) (subscribed : Bool) :
    (d.subscribe a subscribed).Sound :=
  { h with
    updates := FigureTeller.sound_fresh a false
    everyFigure := rfl
    taking := fun p hp => absurd (htaking.symm.trans hp) (Option.some_ne_none p).symm
    polledEnd := fun _ he => nomatch he
    ends := List.forall_mem_nil _
    unsubscribed := fun _ => ⟨rfl, htaking⟩
    endsOnce := List.nodup_nil
    endsOver := List.forall_mem_nil _
    latched := fun hsent => nomatch hsent
    stood := List.forall_mem_nil _ }

lemma Sound.setMulti (h : d.Sound) (hdue : d.due = []) (r : ℤ) {t : FigureTeller A}
    (ht : t.Sound) (hnone : t.polled = none) {watchers : List ℤ} (hnodup : watchers.Nodup)
    (hothers : ∀ s ∈ d.watchers, s ≠ r → s ∈ watchers) :
    Sound { d with watchers := watchers, multi := Function.update d.multi r t } := by
  refine { h with
    multi := fun s => ?_
    unreadMulti := fun s hs => ?_
    watchers := hnodup
    due := hdue ▸ List.nil_sublist _ }
  · by_cases hsr : s = r
    · subst hsr
      dsimp only
      rw [Function.update_self]
      exact ht
    · dsimp only
      rw [Function.update_of_ne hsr]
      exact h.multi s
  · by_cases hsr : s = r
    · subst hsr
      dsimp only
      rw [Function.update_self]
      exact hnone
    · dsimp only
      rw [Function.update_of_ne hsr]
      exact h.unreadMulti s (hs.imp_right (Or.imp_right fun hs hmem => hs (hothers s hmem hsr)))

/-! ## The last poll -/

lemma Sound.reopened (h : d.Sound) (hclean : d.Clean .closes) : d.reopened.Sound :=
  h.opened.takeFigures false hclean.1 hclean.2.1

lemma kept_reopened (d : FigureDesk A) : d.reopened.readTheEnd.multi = d.multi ∧
    d.reopened.readTheEnd.watchers = d.watchers ∧ d.reopened.readTheEnd.reading = true ∧
    d.reopened.readTheEnd.due = d.due := by
  unfold readTheEnd reopened takeFigures
  split_ifs <;> split <;> (try split_ifs) <;> exact ⟨rfl, rfl, rfl, rfl⟩

lemma taking_readTheEnd (d : FigureDesk A) : d.readTheEnd.taking = none := by
  unfold readTheEnd
  split
  · assumption
  · split_ifs <;> rfl

lemma Sound.pollAgain (h : d.Sound) (hu : d.Unmixed) (hclean : d.Clean .closes)
    (hready : d.Ready) : d.pollAgain.Sound := by
  have hsent : d.reopened.polledEnd ≠ none → d.reopened.endSent = true := by
    unfold FigureDesk.reopened FigureDesk.takeFigures
    split_ifs <;> exact hu.sent
  have hpolled := (h.reopened hclean).readTheEnd hsent
  obtain ⟨-, hwatchers, hreading, hdue⟩ := kept_reopened d
  refine { hpolled with
    multi := fun r => ?_
    unreadMulti := fun r hr => ?_ }
  · unfold FigureDesk.pollAgain
    dsimp only
    split_ifs with hr
    · exact (h.multi r).pollMoved (h.figures _) (hclean.2.2 r hr)
    · exact h.multi r
  · have hno : r ∉ d.watchers := by
      rcases hr with hread | hr | hno
      · exact nomatch hreading.symm.trans hread
      · exact absurd (hready.2.1 ▸ hdue ▸ hr) List.not_mem_nil
      · exact fun hmem => hno (hwatchers ▸ hmem)
    unfold FigureDesk.pollAgain
    dsimp only
    rw [if_neg hno]
    exact h.unreadMulti r (Or.inr (Or.inr hno))

lemma unmixed_takeFigures {answer : Bool} (htaking : d.taking = none)
    (hnone : d.updates.polled = none) (hend : d.polledEnd = none)
    (hread : answer = false → d.reading = true) : (d.takeFigures answer).Unmixed := by
  have hsent : d.polledEnd ≠ none → d.endSent = true := fun h => absurd hend h
  unfold takeFigures
  split_ifs
  · exact ⟨fun _ _ => hnone, fun _ => hend, fun _ => hend, fun p hp =>
      absurd (htaking.symm.trans hp) (Option.some_ne_none p).symm, hsent⟩
  · exact ⟨fun _ _ => hnone, fun _ => hend, fun _ => hend, fun p hp =>
      absurd (htaking.symm.trans hp) (Option.some_ne_none p).symm, hsent⟩
  · refine ⟨fun _ h => absurd h (Option.some_ne_none _), fun _ => hend, fun _ => hend,
      fun p hp => ?_, hsent⟩
    obtain rfl := Option.some.inj hp
    exact hread

lemma Unmixed.deliverState (htaking : d.taking = none) : d.deliverState.Unmixed :=
  ⟨fun _ _ => rfl, fun _ => rfl, fun _ => rfl, fun p hp =>
    absurd (htaking.symm.trans hp) (Option.some_ne_none p).symm, fun h => absurd rfl h⟩

lemma Unmixed.readTheEnd (hu : d.Unmixed) : d.readTheEnd.Unmixed := by
  unfold FigureDesk.readTheEnd
  split
  · exact hu
  · rename_i answer figures htaking
    split_ifs with hanswer
    · exact ⟨fun _ _ => rfl, fun _ => rfl, fun _ => rfl, fun _ hp => (nomatch hp),
        fun h => absurd rfl h⟩
    · have hread : d.reading = true := hu.taken _ htaking (eq_false_of_ne_true hanswer)
      have hnot : d.reading ≠ false := fun h => nomatch hread.symm.trans h
      refine ⟨fun h _ => absurd h hnot, fun h => absurd h hnot, fun h => absurd rfl h,
        fun _ hp => (nomatch hp), fun hsome => ?_⟩
      have hnone : d.polledEnd = none := hu.taking (htaking ▸ Option.some_ne_none _)
      by_contra hpending
      have hpending : d.book.complete = false := eq_false_of_ne_true hpending
      have hno : (!d.endSent && d.book.complete) = false := by rw [hpending, Bool.and_false]
      refine hsome ?_
      rw [readFlag, hnone, hno]
      rfl

/-! ## Nobody is behind -/

lemma Covered.readTheEnd (hc : d.Covered) : d.readTheEnd.Covered := by
  unfold FigureDesk.readTheEnd
  split
  · exact hc
  · split_ifs <;> exact ⟨hc.updates, hc.multi⟩

lemma Covered.setMulti (hc : d.Covered) (watchers due : List ℤ) {r : ℤ} {t : FigureTeller A}
    (ht : t.Covers (d.asOf t.account) d.since)
    (hothers : ∀ s ∈ watchers, s ≠ r → s ∉ due → s ∈ d.watchers ∧ s ∉ d.due) :
    Covered { d with watchers := watchers, due := due, multi := Function.update d.multi r t } where
  updates := hc.updates
  multi hread s hs hdue := by
    dsimp only
    by_cases hsr : s = r
    · subst hsr
      rw [Function.update_self]
      exact ht
    · rw [Function.update_of_ne hsr]
      obtain ⟨hwatches, hpolled⟩ := hothers s hs hsr hdue
      exact hc.multi hread s hwatches hpolled

lemma Sound.covered_pollAgain (h : d.Sound) : d.pollAgain.Covered := by
  have hopened := h.opened
  obtain ⟨hmulti, hwatchers, -, -⟩ := kept_reopened d
  constructor
  · intro _ hsub
    have hsame : d.reopened.readTheEnd.subscribed = d.reopened.subscribed := by
      unfold FigureDesk.readTheEnd
      split
      · rfl
      · split_ifs <;> rfl
    have hcovers := hopened.covers_takeFigures false (hsame ▸ hsub)
    unfold FigureDesk.pollAgain FigureDesk.readTheEnd
    dsimp only
    split
    · exact hcovers
    · split_ifs <;> exact hcovers
  · intro _ r hr _
    have hkept : d.reopened.readTheEnd.asOf = (fun a => (d.books a).stated) ∧
        d.reopened.readTheEnd.since = [] := by
      unfold FigureDesk.readTheEnd FigureDesk.reopened FigureDesk.takeFigures
      split_ifs <;> split <;> (try split_ifs) <;> exact ⟨rfl, rfl⟩
    have hmem : r ∈ d.watchers := hwatchers ▸ hr
    unfold FigureDesk.pollAgain
    dsimp only
    rw [if_pos hmem, hkept.1, hkept.2]
    exact hopened.covers_pollMoved (d.multi r)

/-! ## Every event -/

variable [DecidableEq A]

lemma book_setBook (d : FigureDesk A) (a : A) (b : StatedBook) :
    (d.setBook a b).book = if d.updates.account = a then b else d.book := by
  unfold book setBook
  exact Function.update_apply _ _ _ _

lemma Sound.states (h : d.Sound) (a : A) (f : AccountFieldUpdate) :
    (d.step (.states a f)).Sound := by
  have hput : ∀ u v : AccountFieldUpdate, u.figure = v.figure → v.figure = u.figure :=
    fun _ _ h => h.symm
  have hbook (b : A) : ((d.step (.states a f)).books b).stated =
      if b = a then put figure (fun _ new => new) (d.books a).stated f
      else (d.books b).stated := by
    rw [step, setBook]
    dsimp only
    rw [Function.update_apply]
    split_ifs
    · rfl
    · rfl
  have hsame : (d.step (.states a f)).book.complete = d.book.complete ∧
      (d.step (.states a f)).book.download = d.book.download := by
    have hset := book_setBook d a ((d.books a).noteValue f)
    have heq : (d.step (.states a f)).book = (d.setBook a ((d.books a).noteValue f)).book := rfl
    rw [heq, hset]
    split_ifs with hacct
    · rw [← hacct]
      exact ⟨rfl, rfl⟩
    · exact ⟨rfl, rfl⟩
  refine { h with
    figures := fun b => ?_
    kept := fun b x hx => ?_
    since := fun b y hy => ?_
    endsOver := fun n hn => ?_
    latched := fun hsent hcomplete => ?_ }
  · rw [hbook]
    split_ifs
    · exact nodup_put hput (h.figures a) f
    · exact h.figures b
  · obtain ⟨y, hy, hfigure⟩ := h.kept b x hx
    rw [hbook]
    split_ifs with hb
    · have hmem : x.figure ∈ (put figure (fun _ new => new) (d.books a).stated f).map figure := by
        have hold : x.figure ∈ (d.books a).stated.map figure :=
          List.mem_map.2 ⟨y, hb ▸ hy, hfigure⟩
        rw [map_put hput]
        split_ifs
        · exact hold
        · exact List.mem_append_left _ hold
      exact List.mem_map.1 hmem
    · exact ⟨y, hy, hfigure⟩
  · rw [hbook] at hy
    split_ifs at hy with hb
    · have hat := at?_of_mem (nodup_put hput (h.figures a) f) hy
      rw [at?_put hput] at hat
      split_ifs at hat with hf
      · refine Or.inr (List.mem_cons.2 (Or.inl ?_))
        cases hold : at? figure (d.books a).stated y.figure with
        | none =>
            rw [hold] at hat
            rw [hb, ← Option.some.inj hat]
            rfl
        | some u =>
            rw [hold] at hat
            rw [hb, ← Option.some.inj hat]
            rfl
      · subst hb
        exact (h.since b y (at?_mem hat).1).imp_right (List.mem_cons_of_mem _)
    · exact (h.since b y hy).imp_right (List.mem_cons_of_mem _)
  · rw [hsame.1, hsame.2]
    exact h.endsOver n hn
  · rw [hsame.2]
    exact h.latched hsent (hsame.1 ▸ hcomplete)

lemma Sound.setBook (h : d.Sound) {a : A} {b : StatedBook} (hstated : b.stated = (d.books a).stated)
    (hover : d.updates.account = a → ∀ n ∈ d.endsKnown, n < b.download ∨
      n = b.download ∧ b.complete = true ∧ d.endSent = true)
    (hlatched : d.updates.account = a → d.endSent = true → b.complete = true →
      b.download ∈ d.endsKnown) : (d.setBook a b).Sound := by
  have hsame (c : A) : ((d.setBook a b).books c).stated = (d.books c).stated := by
    unfold FigureDesk.setBook
    dsimp only
    rw [Function.update_apply]
    split_ifs with hc
    · rw [hstated, hc]
    · rfl
  refine { h with
    figures := fun c => ?_
    kept := fun c => ?_
    since := fun c => ?_
    endsOver := fun n hn => ?_
    latched := fun hsent hcomplete => ?_ }
  · rw [hsame]
    exact h.figures c
  · rw [hsame]
    exact h.kept c
  · rw [hsame]
    exact h.since c
  · rw [book_setBook]
    split_ifs with hacct
    · exact hover hacct n hn
    · exact h.endsOver n hn
  · rw [book_setBook] at hcomplete ⊢
    split_ifs at hcomplete ⊢ with hacct
    · exact hlatched hacct hsent hcomplete
    · exact h.latched hsent hcomplete

lemma Sound.pends (h : d.Sound) (a : A) : (d.step (.pends a)).Sound := by
  refine h.setBook rfl (fun hacct n hn => Or.inl ?_) (fun _ _ hcomplete => nomatch hcomplete)
  have hle : n < d.book.download ∨ n = d.book.download := (h.endsOver n hn).imp_right And.left
  rw [book, hacct] at hle
  exact Nat.lt_succ_of_le (hle.elim Nat.le_of_lt Nat.le_of_eq)

lemma Sound.settles (h : d.Sound) {a : A} (hclean : d.Clean (.settles a)) :
    (d.step (.settles a)).Sound := by
  refine h.setBook rfl (fun hacct n hn => ?_) (fun hacct hsent _ => ?_)
  · subst hacct
    exact (h.endsOver n hn).imp_right fun hthis => ⟨hthis.1, rfl, hthis.2.2⟩
  · subst hacct
    refine h.latched hsent ?_
    by_contra hpending
    exact absurd ((hclean (Bool.eq_false_iff.2 hpending) rfl).symm.trans hsent) Bool.false_ne_true

lemma Sound.begins (h : d.Sound) (hu : d.Unmixed) (hclean : d.Clean .begins) :
    (d.step .begins).Sound := by
  rw [step]
  split_ifs with hready
  · obtain ⟨⟨htaking, -, -⟩, hreading⟩ := hready
    exact (h.begun hreading).takeFigures false hclean
      (FigureTeller.laidApart_of_none (hu.unread hreading htaking) _)
  · exact h

lemma Sound.pollsNext (h : d.Sound) : (d.step .pollsNext).Sound := by
  rw [step]
  split
  · rename_i r due htaking hdue
    have hsub : (r :: due).Sublist d.watchers := hdue ▸ h.due
    have hnodup : (r :: due).Nodup := h.watchers.sublist hsub
    have hnone : (d.multi r).polled = none :=
      h.unreadMulti r (Or.inr (Or.inl (hdue ▸ List.mem_cons_self)))
    have hreading : d.reading ≠ false := fun hread =>
      absurd (hdue.symm.trans (h.dueRead hread)) (List.cons_ne_nil _ _)
    refine { h with
      multi := fun s => ?_
      unreadMulti := fun s hs => ?_
      due := (List.sublist_cons_self r due).trans hsub
      dueRead := fun hread => absurd hread hreading }
    · by_cases hsr : s = r
      · subst hsr
        dsimp only
        rw [Function.update_self]
        exact (h.multi s).pollMoved (h.figures _) (FigureTeller.laidApart_of_none hnone _)
      · dsimp only
        rw [Function.update_of_ne hsr]
        exact h.multi s
    · have hsr : s ≠ r := by
        rintro rfl
        rcases hs with hread | hs | hs
        · exact hreading hread
        · exact (List.nodup_cons.1 hnodup).1 hs
        · exact hs (hsub.subset List.mem_cons_self)
      dsimp only
      rw [Function.update_of_ne hsr]
      refine h.unreadMulti s (hs.imp_right (Or.imp_left fun hs => ?_))
      rw [hdue]
      exact List.mem_cons_of_mem r hs
  · exact h

lemma Sound.asksUpdates (h : d.Sound) {a : A} (hclean : d.Clean (.asksUpdates a)) :
    (d.step (.asksUpdates a)).Sound := by
  rw [step]
  split_ifs with hready
  · exact (h.subscribe hready.1 a true).takeFigures true (fun _ => hclean)
      (FigureTeller.laidApart_of_none rfl _)
  · exact h

lemma Sound.retiresUpdates (h : d.Sound) : (d.step .retiresUpdates).Sound := by
  rw [step]
  split_ifs with hready
  · exact h.subscribe hready.1 _ false
  · exact h

lemma Sound.asksMulti (h : d.Sound) (r : ℤ) (a : A) (ledgerAndNlv : Bool) :
    (d.step (.asksMulti r a ledgerAndNlv)).Sound := by
  rw [step]
  split_ifs with hready hmem
  · exact h.setMulti hready.2.1 r (((FigureTeller.sound_fresh a ledgerAndNlv).poll_of_none rfl
      (h.figures a)).hear) rfl h.watchers fun s hs _ => hs
  · refine h.setMulti hready.2.1 r (((FigureTeller.sound_fresh a ledgerAndNlv).poll_of_none rfl
      (h.figures a)).hear) rfl ?_ fun s hs _ => List.mem_append_left _ hs
    refine List.nodup_append.2 ⟨h.watchers, List.nodup_singleton r, fun s hs s' hs' heq => ?_⟩
    exact hmem (List.mem_singleton.1 hs' ▸ heq ▸ hs)
  · exact h

lemma Sound.retiresMulti (h : d.Sound) (r : ℤ) : (d.step (.retiresMulti r)).Sound := by
  rw [step]
  split_ifs with hready
  · refine h.setMulti hready.2.1 r (FigureTeller.sound_fresh d.own false) rfl
      (h.watchers.filter _) fun s hs hsr => List.mem_filter.2 ⟨hs, decide_eq_true hsr⟩
  · exact h

lemma Sound.delivers (h : d.Sound) : (d.step .delivers).Sound := by
  rw [step]
  split_ifs with hready
  · exact h.deliverState hready.1.2.1
  · exact h

lemma Sound.closes (h : d.Sound) (hu : d.Unmixed) (hclean : d.Clean .closes) :
    (d.step .closes).Sound := by
  rw [step]
  split_ifs with hready
  · have hdue : d.pollAgain.due = [] := (kept_reopened d).2.2.2.trans hready.2.1
    exact { (h.pollAgain hu hclean hready).deliverState hdue with }
  · exact h

lemma Sound.step (h : d.Sound) (hu : d.Unmixed) (e : FigureEvent A) (hclean : d.Clean e) :
    (d.step e).Sound := by
  cases e with
  | states a f => exact h.states a f
  | pends a => exact h.pends a
  | settles a => exact h.settles hclean
  | begins => exact h.begins hu hclean
  | asksAfterTheEnd => exact h.readTheEnd hu.sent
  | pollsNext => exact h.pollsNext
  | asksUpdates a => exact h.asksUpdates hclean
  | retiresUpdates => exact h.retiresUpdates
  | asksMulti r a ledgerAndNlv => exact h.asksMulti r a ledgerAndNlv
  | retiresMulti r => exact h.retiresMulti r
  | delivers => exact h.delivers
  | closes => exact h.closes hu hclean

lemma Unmixed.step (hu : d.Unmixed) (e : FigureEvent A) : (d.step e).Unmixed := by
  cases e with
  | states a f => exact { hu with }
  | pends a => exact { hu with }
  | settles a => exact { hu with }
  | begins =>
      rw [FigureDesk.step]
      split_ifs with hready
      · exact unmixed_takeFigures hready.1.1 (hu.unread hready.2 hready.1.1)
          (hu.unreadEnd hready.2) fun _ => rfl
      · exact hu
  | asksAfterTheEnd => exact hu.readTheEnd
  | pollsNext =>
      rw [FigureDesk.step]
      split
      · exact { hu with }
      · exact hu
  | asksUpdates a =>
      rw [FigureDesk.step]
      split_ifs with hready
      · exact unmixed_takeFigures hready.1 rfl rfl fun h => nomatch h
      · exact hu
  | retiresUpdates =>
      rw [FigureDesk.step]
      split_ifs with hready
      · exact ⟨fun _ _ => rfl, fun _ => rfl, fun _ => rfl, fun p hp =>
          absurd (hready.1.symm.trans hp) (Option.some_ne_none p).symm, fun h => absurd rfl h⟩
      · exact hu
  | asksMulti r a ledgerAndNlv =>
      rw [FigureDesk.step]
      split_ifs
      · exact { hu with }
      · exact { hu with }
      · exact hu
  | retiresMulti r =>
      rw [FigureDesk.step]
      split_ifs
      · exact { hu with }
      · exact hu
  | delivers =>
      rw [FigureDesk.step]
      split_ifs with hready
      · exact Unmixed.deliverState hready.1.1
      · exact hu
  | closes =>
      rw [FigureDesk.step]
      split_ifs with hready
      · have htaking : d.pollAgain.taking = none := d.reopened.taking_readTheEnd
        exact { Unmixed.deliverState htaking with }
      · exact hu

lemma Covered.step (hc : d.Covered) (h : d.Sound) (e : FigureEvent A) :
    (d.step e).Covered := by
  cases e with
  | states a f =>
      exact ⟨fun hread hsub => (hc.updates hread hsub).mono (List.subset_cons_self _ _),
        fun hread r hr hdue => (hc.multi hread r hr hdue).mono (List.subset_cons_self _ _)⟩
  | pends a => exact ⟨hc.updates, hc.multi⟩
  | settles a => exact ⟨hc.updates, hc.multi⟩
  | begins =>
      rw [FigureDesk.step]
      split_ifs with hready
      · refine ⟨fun _ => (h.begun hready.2).covers_takeFigures false,
          fun _ r hr hdue => absurd ?_ hdue⟩
        unfold takeFigures at hr ⊢
        split_ifs at hr ⊢ <;> exact hr
      · exact hc
  | asksAfterTheEnd => exact hc.readTheEnd
  | pollsNext =>
      rw [FigureDesk.step]
      split
      · rename_i r due htaking hdue
        refine hc.setMulti d.watchers due (h.covers_pollMoved (d.multi r)) ?_
        intro s hs hsr hno
        rw [hdue, List.mem_cons, not_or]
        exact ⟨hs, hsr, hno⟩
      · exact hc
  | asksUpdates a =>
      rw [FigureDesk.step]
      split_ifs with hready
      · refine ⟨fun _ => (h.subscribe hready.1 a true).covers_takeFigures true, ?_⟩
        unfold takeFigures
        split_ifs <;> exact hc.multi
      · exact hc
  | retiresUpdates =>
      rw [FigureDesk.step]
      split_ifs with hready
      · exact ⟨fun _ hsub => (nomatch hsub), hc.multi⟩
      · exact hc
  | asksMulti r a ledgerAndNlv =>
      rw [FigureDesk.step]
      split_ifs with hready hmem
      · exact hc.setMulti _ d.due (h.covers_poll ⟨a, ledgerAndNlv, fun _ => none, none, []⟩)
          fun s hs _ hno => ⟨hs, hno⟩
      · refine hc.setMulti _ d.due
          (h.covers_poll ⟨a, ledgerAndNlv, fun _ => none, none, []⟩) fun s hs hsr hno => ⟨?_, hno⟩
        exact (List.mem_append.1 hs).resolve_right fun hlast => hsr (List.mem_singleton.1 hlast)
      · exact hc
  | retiresMulti r =>
      rw [FigureDesk.step]
      split_ifs with hready
      · refine ⟨hc.updates, fun hread s hs hdue => ?_⟩
        obtain ⟨hs, hsr⟩ := List.mem_filter.1 hs
        dsimp only
        rw [Function.update_of_ne (of_decide_eq_true hsr)]
        exact hc.multi hread s hs hdue
      · exact hc
  | delivers =>
      rw [FigureDesk.step]
      split_ifs
      · exact ⟨fun hread => (nomatch hread), fun hread => nomatch hread⟩
      · exact hc
  | closes =>
      rw [FigureDesk.step]
      split_ifs
      · exact ⟨fun hread => (nomatch hread), fun hread => nomatch hread⟩
      · exact hc

end FigureDesk

lemma FigureTeller.Sound.heard_of_covers {A : Type} {t : FigureTeller A} (h : t.Sound)
    (hnone : t.polled = none) {asOf : List AccountFieldUpdate}
    {since : List (A × AccountFieldUpdate)} (hcovers : t.Covers asOf since)
    {x : AccountFieldUpdate} (hx : x ∈ asOf) (hasked : t.ledgerOnly = true → x.ledger = true) :
    ∃ y, at? figure t.heard x.figure = some y ∧ (y ∈ asOf ∨ (t.account, y) ∈ since) := by
  obtain ⟨y, hfigure, hlast, hwhen⟩ := hcovers x hx hasked
  have hheard : (at? figure t.heard y.figure).map (·.value) = some y.value := by
    rw [← hlast, h.stated, FigureTeller.batch, hnone]
    rfl
  obtain ⟨z, hz, hvalue⟩ := Option.map_eq_some_iff.1 hheard
  have hsame : z = y := by
    have hzy := (at?_mem hz).2
    cases z
    cases y
    simp_all [figure]
  exact ⟨y, by rw [← hfigure, hz, hsame], hwhen⟩

namespace FigureDesk

variable {A : Type} {d : FigureDesk A}

lemma Sound.told_deliverState (h : d.Sound) (hc : d.Covered) (hread : d.reading = true)
    (hdue : d.due = []) :
    (∀ t, d.deliverState.Tells t → d.deliverState.UpToDate t) ∧
      ∀ n ∈ d.deliverState.stood, n ∈ d.deliverState.ends.map (·.download) := by
  have hdone := h.deliverState hdue
  constructor
  · rintro t (⟨hsub, rfl⟩ | ⟨r, hr, rfl⟩)
    · intro x hx hasked
      exact hdone.updates.heard_of_covers rfl (hc.updates hread hsub) hx hasked
    · have hhear : d.deliverState.multi r = (d.multi r).hear := if_pos hr
      have hsound := hdone.multi r
      rw [hhear] at hsound ⊢
      intro x hx hasked
      exact hsound.heard_of_covers rfl (hc.multi hread r hr (hdue ▸ List.not_mem_nil)) hx hasked
  · exact fun n hn => hdone.stood n hn

variable [DecidableEq A]

lemma Sound.tellsRight (h : d.Sound) (hu : d.Unmixed) (hc : d.Covered) {e : FigureEvent A}
    (hclean : d.Clean e) : d.TellsRight e := by
  have hnext := h.step hu e hclean
  have hends : ∀ x ∈ (d.step e).ends, x.download ∈ (d.step e).endsKnown := fun x hx =>
    List.mem_append_right _ (List.mem_map_of_mem hx)
  have hread : d.ReadEnds e → (∀ t, (d.step e).Tells t → (d.step e).UpToDate t) ∧
      ∀ n ∈ (d.step e).stood, n ∈ (d.step e).ends.map (·.download) := by
    intro hends
    cases e with
    | delivers =>
        have hready : d.Ready ∧ d.reading = true := hends
        rw [FigureDesk.step, if_pos hready]
        exact h.told_deliverState hc hready.2 hready.1.2.1
    | closes =>
        have hready : d.Ready := hends
        obtain ⟨-, -, hreading, hdue⟩ := kept_reopened d
        rw [FigureDesk.step, if_pos hready]
        exact (h.pollAgain hu hclean hready).told_deliverState h.covered_pollAgain hreading
          (hdue.trans hready.2.1)
    | _ => exact hends.elim
  refine ⟨?_, ?_, fun x hx => ?_, fun hends => (hread hends).1, fun hends => (hread hends).2⟩
  · rintro t (⟨-, rfl⟩ | ⟨r, -, rfl⟩)
    · exact hnext.updates.noneTwice
    · exact (hnext.multi r).noneTwice
  · exact hnext.endsOnce.sublist (List.sublist_append_right _ _)
  · obtain ⟨hcomplete, hstated⟩ := hnext.ends x hx
    exact ⟨hcomplete, (hnext.endsOver _ (hends x hx)).imp_right fun hthis => hthis.2.1, hstated⟩

end FigureDesk

/-- **Account figures are told**: along every run that keeps its downloads and its last poll apart,
each event tells right, whichever accounts and requests it is of. -/
theorem account_figures_told {A : Type} [DecidableEq A] (own : A) (es : List (FigureEvent A))
    (hclean : Along FigureDesk.step FigureDesk.Clean { own := own } es) :
    Along FigureDesk.step FigureDesk.TellsRight { own := own } es := by
  have hkeeps (d : FigureDesk A) (e : FigureEvent A) (h : d.Sound ∧ d.Unmixed ∧ d.Covered)
      (hthis : d.Clean e) : (d.step e).Sound ∧ (d.step e).Unmixed ∧ (d.step e).Covered :=
    ⟨h.1.step h.2.1 e hthis, h.2.1.step e, h.2.2.step h.1 e⟩
  exact hclean.mono hkeeps (fun d e h hthis => h.1.tellsRight h.2.1 h.2.2 hthis)
    ⟨FigureDesk.sound_initial own, FigureDesk.unmixed_initial own,
      FigureDesk.covered_initial own⟩

/-- Two downloads, each read as it begins and when it is over, and a close that finds a figure
moved since its read polled. -/
def twoDownloads : List (FigureEvent String) :=
  [.states "DU1" ⟨false, "NetLiquidation", "100", "USD"⟩,
    .states "DU1" ⟨true, "CashBalance", "7", "EUR"⟩, .settles "DU1",
    .asksUpdates "DU1", .asksAfterTheEnd, .asksMulti 9 "DU1" true,
    .pends "DU1", .begins, .asksAfterTheEnd, .pollsNext, .delivers,
    .states "DU1" ⟨true, "CashBalance", "8", "EUR"⟩, .settles "DU1",
    .begins, .asksAfterTheEnd, .pollsNext,
    .states "DU1" ⟨true, "CashBalance", "9", "EUR"⟩, .closes]

theorem account_figures_told_twice_downloaded :
    Along FigureDesk.step FigureDesk.TellsRight { own := "DU1" } twoDownloads ∧
      ((run FigureDesk.step { own := "DU1" } twoDownloads).ends.map (·.download)) = [1, 0] ∧
      ((run FigureDesk.step { own := "DU1" } twoDownloads).multi 9).heard.map (·.value) =
        ["9", "7"] :=
  ⟨account_figures_told "DU1" twoDownloads (by decide), by decide,
    by decide⟩

def unseenDownload : List (FigureEvent String) :=
  [.states "DU1" ⟨false, "NetLiquidation", "100", "USD"⟩, .settles "DU1",
    .asksUpdates "DU1", .asksAfterTheEnd, .pends "DU1", .settles "DU1",
    .begins, .asksAfterTheEnd, .delivers]

/-- A close that finds an account's figure and its ledger's moved since its read polled. -/
def figuresOfOneName : List (FigureEvent String) :=
  [.states "DU1" ⟨false, "NetLiquidation", "100", "USD"⟩, .asksUpdates "DU1", .asksAfterTheEnd,
    .begins, .asksAfterTheEnd, .states "DU1" ⟨false, "NetLiquidation", "101", "USD"⟩,
    .states "DU1" ⟨true, "NetLiquidation", "40", "USD"⟩, .closes]

/-- The second end is never told, and of two figures of one name and currency the first is lost. -/
theorem end_and_figure_untold :
    ¬ Along FigureDesk.step FigureDesk.TellsRight { own := "DU1" } unseenDownload ∧
      ¬ Along FigureDesk.step FigureDesk.TellsRight { own := "DU1" } figuresOfOneName := by
  constructor
  · intro h
    have hlast := h.2.2.2.2.2.2.2.2.1
    exact absurd (hlast.endsTold (by decide) 1 (by decide)) (by decide)
  · intro h
    have hlast := h.2.2.2.2.2.2.2.1
    obtain ⟨y, hy, hwhen⟩ := hlast.upToDate (by decide) _ (Or.inl ⟨by decide, rfl⟩)
      ⟨false, "NetLiquidation", "101", "USD"⟩ (by decide) (by decide)
    have hheard : y = ⟨false, "NetLiquidation", "100", "USD"⟩ :=
      Option.some.inj (hy.symm.trans (by decide))
    subst hheard
    revert hwhen
    decide

end IbkrDx
