import Mathlib.Data.List.Induction
import Mathlib.Data.List.Nodup
import Mathlib.Data.List.Perm.Subperm
import Mathlib.Order.Nat
import IbkrDx.Lib.Runs

/-!
# Bar requests waiting their turn

`take_historical_request`, `send_next_historical` and `start_historical_request` of
`hot_loop/mod.rs`, with the drop and the reconnect of `hmds/mod.rs`: fifty bar requests are in
flight at most, and the others wait in the order they were taken.

* **`bars_in_turn`** — so they are after every run, and a lap leaves none waiting that could start.

A request is known by how many were taken before it.  What sending one comes to is the venue's and
the texts' affair, and any of it may happen.
-/

namespace IbkrDx

/-- How many bar requests are answered at once. -/
def historicalInFlightCap : ℕ := 50

structure BarRequest where
  seq : ℕ
  reqId : ℕ
  keepUpToDate : Bool
  deriving DecidableEq

/-- What a request was asked with, as far as asking it again goes. -/
structure ArrivingAsk where
  reqId : ℕ
  schedule : Bool
  deriving DecidableEq

inductive SendOutcome where
  /-- An argument it cannot state. -/
  | refused
  /-- Its actions could not be asked for, or leave no stretch to ask. -/
  | letGo
  /-- Its bars are asked for, under one name or two. -/
  | asked (pair : Bool)
  /-- Its actions are asked for first. -/
  | waits
  deriving DecidableEq

structure BarStart where
  seq : ℕ
  reqId : ℕ
  answering : Bool
  deriving DecidableEq

/-- What the historical connection holds of bar requests, and what has become of each. -/
structure HistDesk where
  connected : Bool := true
  held : List ℕ := []
  pendingHistorical : List ℕ := []
  pendingSchedule : List ℕ := []
  barAsks : List ArrivingAsk := []
  askedAgain : List ArrivingAsk := []
  histQueue : List BarRequest := []
  keepUpToDate : List ℕ := []
  rtbarSubs : List ℕ := []
  taken : ℕ := 0
  started : List BarStart := []
  refused : List ℕ := []
  withdrawn : List ℕ := []

namespace HistDesk

/-- Whether a bar request answers under a number, or waits to. -/
def answering (d : HistDesk) (n : ℕ) : Bool :=
  decide (n ∈ d.held ∨ n ∈ d.pendingHistorical ∨ n ∈ d.askedAgain.map ArrivingAsk.reqId ∨
    n ∈ d.histQueue.map BarRequest.reqId)

def stillArriving (d : HistDesk) (a : ArrivingAsk) : Bool :=
  if a.schedule then decide (a.reqId ∈ d.pendingSchedule) else decide (a.reqId ∈ d.held)

def noteAsk (d : HistDesk) (a : ArrivingAsk) : HistDesk :=
  { d with barAsks := d.barAsks.filter (fun b => b ≠ a && d.stillArriving b) ++ [a] }

/-- A number's query, in the place of the one before it; a pair goes out under two names. -/
def openQuery (d : HistDesk) (n : ℕ) (pair : Bool) : HistDesk :=
  if pair then { d with pendingHistorical := d.pendingHistorical.filter (· ≠ n) ++ [n, n] }
  else if n ∈ d.pendingHistorical then d
  else { d with pendingHistorical := d.pendingHistorical ++ [n] }

def sendHistorical (outcome : SendOutcome) (n : ℕ) (d : HistDesk) : HistDesk × Bool :=
  if outcome = .refused ∨ d.answering n then (d, false)
  else
    let holding := { d with held := d.held ++ [n] }.noteAsk ⟨n, false⟩
    match outcome with
    | .asked pair => (holding.openQuery n pair, true)
    | .waits => (holding, true)
    | _ => ({ holding with held := holding.held.filter (· ≠ n) }, false)

/-- Start one bar request: its query, and for one kept up to date its stream. -/
def startHistorical (outcome : SendOutcome) (r : BarRequest) (d : HistDesk) : HistDesk :=
  match sendHistorical outcome r.reqId d with
  | (sent, true) =>
      let started := { sent with started := sent.started ++ [⟨r.seq, r.reqId, d.answering r.reqId⟩] }
      if r.keepUpToDate then
        { started with
          keepUpToDate := r.reqId :: started.keepUpToDate
          rtbarSubs := started.rtbarSubs ++ [r.reqId] }
      else started
  | (sent, false) => { sent with refused := sent.refused ++ [r.seq] }

def sendEach (outcome : ℕ → SendOutcome) : List BarRequest → HistDesk → HistDesk
  | [], d => { d with histQueue := [] }
  | r :: rest, d =>
      if d.connected ∧ d.held.length < historicalInFlightCap then
        sendEach outcome rest (startHistorical (outcome r.seq) r { d with histQueue := rest })
      else { d with histQueue := r :: rest }

/-- Start the held bar requests whose turn has come. -/
def sendNextHistorical (outcome : ℕ → SendOutcome) (d : HistDesk) : HistDesk :=
  sendEach outcome d.histQueue d

/-- Take a bar request in: refuse what is refusable on the spot, and stand the rest in order. -/
def takeHistorical (outcome : ℕ → SendOutcome) (badArguments : Bool) (n : ℕ) (keep : Bool)
    (d : HistDesk) : HistDesk :=
  let r : BarRequest := ⟨d.taken, n, keep⟩
  let d := { d with taken := d.taken + 1 }
  if badArguments ∨ d.answering n ∨ ¬ d.connected ∨
      (keep ∧ n ∉ d.keepUpToDate ∧ n ∈ d.rtbarSubs) then
    { d with refused := d.refused ++ [r.seq] }
  else sendNextHistorical outcome { d with histQueue := d.histQueue ++ [r] }

def cancelHistorical (n : ℕ) (d : HistDesk) : HistDesk :=
  let gone := d.histQueue.filter (·.reqId = n)
  { d with
    askedAgain := d.askedAgain.filter (·.reqId ≠ n)
    histQueue := d.histQueue.filter (·.reqId ≠ n)
    withdrawn := d.withdrawn ++ gone.map BarRequest.seq
    keepUpToDate := d.keepUpToDate.filter (· ≠ n)
    rtbarSubs := if n ∈ d.keepUpToDate then d.rtbarSubs.filter (· ≠ n) else d.rtbarSubs
    pendingHistorical := d.pendingHistorical.erase n
    pendingSchedule := d.pendingSchedule.erase n
    held := d.held.erase n }

def letGoOfBarRequest (n : ℕ) (d : HistDesk) : HistDesk :=
  { d with
    held := d.held.filter (· ≠ n)
    pendingHistorical := d.pendingHistorical.filter (· ≠ n)
    pendingSchedule := d.pendingSchedule.filter (· ≠ n)
    rtbarSubs := d.rtbarSubs.filter (· ≠ n) }

/-- What each request is told of a drop: one kept up to date ends, any other still arriving is asked
again once the connection is back. -/
def tellOfTheDrop (d : HistDesk) : HistDesk :=
  let ended := d.keepUpToDate.foldl (fun d n => d.letGoOfBarRequest n) d
  let waiting := ended.barAsks.filter ended.stillArriving
  waiting.foldl (fun d a => { d.letGoOfBarRequest a.reqId with askedAgain := d.askedAgain ++ [a] })
    { ended with keepUpToDate := [], barAsks := [] }

def disconnect (d : HistDesk) : HistDesk :=
  { { d with connected := false }.tellOfTheDrop with
    held := [], pendingHistorical := [], pendingSchedule := [] }

def askAgain (outcome : ℕ → SendOutcome) (d : HistDesk) (a : ArrivingAsk) : HistDesk :=
  if a.schedule then
    { d with pendingSchedule := d.pendingSchedule ++ [a.reqId] }.noteAsk a
  else (sendHistorical (outcome a.reqId) a.reqId d).1

def reconnect (outcome : ℕ → SendOutcome) (d : HistDesk) : HistDesk :=
  d.askedAgain.foldl (askAgain outcome) { d with connected := true, askedAgain := [] }

def giveUp (d : HistDesk) : HistDesk :=
  { d with askedAgain := [], histQueue := [], refused := d.refused ++ d.histQueue.map BarRequest.seq }

end HistDesk

/-- What can happen to the historical connection's bar requests. -/
inductive BarTurnEvent where
  | take (outcome : ℕ → SendOutcome) (badArguments : Bool) (reqId : ℕ) (keepUpToDate : Bool)
  | cancel (reqId : ℕ)
  /-- A series ends, whichever way: its last page, a refusal of its query or its actions, a reply that
  cannot be read, a fold that fails. -/
  | ended (reqId : ℕ) (keepsQuery keepsStream : Bool)
  /-- A query ends, its series or not. -/
  | answered (reqId : ℕ)
  /-- A held series asks its next stretch. -/
  | stretch (reqId : ℕ) (pair : Bool)
  | streamAsked (reqId : ℕ)
  | streamEnded (reqId : ℕ)
  | scheduleAsked (reqId : ℕ)
  | scheduleEnded (reqId : ℕ)
  | dropped
  | reconnected (outcome : ℕ → SendOutcome)
  | givenUp
  | lap (outcome : ℕ → SendOutcome)

open HistDesk in
def HistDesk.step (d : HistDesk) : BarTurnEvent → HistDesk
  | .take outcome bad n keep => d.takeHistorical outcome bad n keep
  | .cancel n => d.cancelHistorical n
  | .ended n keepsQuery keepsStream =>
      { d with
        held := d.held.filter (· ≠ n)
        pendingHistorical :=
          if keepsQuery then d.pendingHistorical else d.pendingHistorical.filter (· ≠ n)
        keepUpToDate := if keepsStream then d.keepUpToDate else d.keepUpToDate.filter (· ≠ n)
        rtbarSubs := if keepsStream then d.rtbarSubs else d.rtbarSubs.filter (· ≠ n) }
  | .answered n => { d with pendingHistorical := d.pendingHistorical.erase n }
  | .stretch n pair => if n ∈ d.held then d.openQuery n pair else d
  | .streamAsked n => { d with rtbarSubs := d.rtbarSubs ++ [n] }
  | .streamEnded n => { d with rtbarSubs := d.rtbarSubs.filter (· ≠ n) }
  | .scheduleAsked n =>
      if d.connected then
        { d with pendingSchedule := d.pendingSchedule ++ [n] }.noteAsk ⟨n, true⟩
      else d
  | .scheduleEnded n => { d with pendingSchedule := d.pendingSchedule.erase n }
  | .dropped => d.disconnect
  | .reconnected outcome => if d.connected then d else d.reconnect outcome
  | .givenUp => if d.connected then d else d.giveUp
  | .lap outcome => d.sendNextHistorical outcome

/-! ## What is kept -/

/-- **Requests are started in turn**: in the order they were taken, fifty in flight at most, each
started, refused, withdrawn or waiting and one of these once, and none under a number that answers a
bar request. -/
structure StartedInTurn (d : HistDesk) : Prop where
  inOrder : (d.started.map BarStart.seq ++ d.histQueue.map BarRequest.seq).Pairwise (· < ·)
  capped : d.held.length ≤ historicalInFlightCap
  once : (d.started.map BarStart.seq ++ d.refused ++ d.withdrawn ++
    d.histQueue.map BarRequest.seq).Perm (List.range d.taken)
  alone : ∀ s ∈ d.started, s.answering = false

namespace HistDesk

structure Orderly (d : HistDesk) : Prop where
  turn : StartedInTurn d
  heldOnce : d.held.Nodup
  asksOnce : d.barAsks.Nodup
  down : d.connected = false → d.held = []
  up : d.connected = true → d.askedAgain = []
  againCapped : (d.askedAgain.filter fun a => !a.schedule).length ≤ historicalInFlightCap

variable {d : HistDesk} {asks : List ArrivingAsk}

lemma Orderly.frame (h : Orderly d) {held pending scheduled kept streams : List ℕ}
    (hheld : held.Nodup) (hasks : asks.Nodup)
    (hcap : held.length ≤ historicalInFlightCap) (hdown : d.connected = false → held = []) :
    Orderly { d with
      held := held, pendingHistorical := pending, pendingSchedule := scheduled, barAsks := asks
      keepUpToDate := kept, rtbarSubs := streams } where
  turn := ⟨h.turn.inOrder, hcap, h.turn.once, h.turn.alone⟩
  heldOnce := hheld
  asksOnce := hasks
  down := hdown
  up := h.up
  againCapped := h.againCapped

lemma Orderly.less (h : Orderly d) {held pending scheduled kept streams : List ℕ}
    (hheld : held.Sublist d.held) :
    Orderly { d with
      held := held, pendingHistorical := pending, pendingSchedule := scheduled
      keepUpToDate := kept, rtbarSubs := streams } :=
  h.frame (h.heldOnce.sublist hheld) h.asksOnce (hheld.length_le.trans h.turn.capped)
    fun hdown => List.sublist_nil.1 (h.down hdown ▸ hheld)

lemma nodup_noteAsk (h : asks.Nodup) (a : ArrivingAsk)
    (p : ArrivingAsk → Bool) : (asks.filter (fun b => b ≠ a && p b) ++ [a]).Nodup := by
  refine List.nodup_append.2 ⟨h.sublist List.filter_sublist, List.nodup_singleton a, ?_⟩
  intro b hb c hc heq
  have hne := (List.mem_filter.1 hb).2
  rw [Bool.and_eq_true, decide_eq_true_eq] at hne
  exact hne.1 (heq.trans (List.mem_singleton.1 hc))

lemma openQuery_frame (d : HistDesk) (n : ℕ) (pair : Bool) :
    ∃ pending, d.openQuery n pair = { d with pendingHistorical := pending } := by
  rw [openQuery]
  split_ifs
  · exact ⟨_, rfl⟩
  · exact ⟨_, rfl⟩
  · exact ⟨_, rfl⟩

lemma sendHistorical_frame (outcome : SendOutcome) (n : ℕ) (d : HistDesk) :
    ∃ held asks pending, (sendHistorical outcome n d).1 =
        { d with held := held, barAsks := asks, pendingHistorical := pending } ∧
      (d.held.Nodup → held.Nodup) ∧ held.length ≤ d.held.length + 1 ∧
      (d.barAsks.Nodup → asks.Nodup) ∧
      ((sendHistorical outcome n d).2 = true → d.answering n = false) := by
  rw [sendHistorical]
  split_ifs with hrefused
  · exact ⟨d.held, d.barAsks, d.pendingHistorical, rfl, id, Nat.le_succ _, id,
      fun h => h.elim⟩
  · rw [not_or, Bool.not_eq_true] at hrefused
    have hnot : n ∉ d.held := fun hmem => by
      have hanswering := hrefused.2
      unfold answering at hanswering
      exact of_decide_eq_false hanswering (Or.inl hmem)
    have hholding : d.held.Nodup → (d.held ++ [n]).Nodup := fun h =>
      List.nodup_append.2 ⟨h, List.nodup_singleton n, fun a ha b hb heq =>
        hnot (List.mem_singleton.1 hb ▸ heq ▸ ha)⟩
    have hlength : (d.held ++ [n]).length = d.held.length + 1 := List.length_append
    cases outcome with
    | refused => exact absurd rfl hrefused.1
    | letGo =>
        exact ⟨_, _, _, rfl, fun h => (hholding h).sublist List.filter_sublist,
          (List.length_filter_le _ _).trans hlength.le, fun h => nodup_noteAsk h _ _,
          fun h => absurd (show false = true from h) (by decide)⟩
    | asked pair =>
        obtain ⟨pending, hpending⟩ :=
          openQuery_frame ({ d with held := d.held ++ [n] }.noteAsk ⟨n, false⟩) n pair
        refine ⟨d.held ++ [n], ({ d with held := d.held ++ [n] }.noteAsk ⟨n, false⟩).barAsks,
          pending, ?_, hholding, hlength.le, fun h => nodup_noteAsk h _ _, fun _ => hrefused.2⟩
        exact hpending
    | waits =>
        exact ⟨_, _, _, rfl, hholding, hlength.le, fun h => nodup_noteAsk h _ _,
          fun _ => hrefused.2⟩

lemma orderly_start {r : BarRequest} {rest : List BarRequest}
    (h : Orderly { d with histQueue := r :: rest }) (hup : d.connected = true)
    (hroom : d.held.length < historicalInFlightCap) (outcome : SendOutcome) :
    Orderly (startHistorical outcome r { d with histQueue := rest }) ∧
      (startHistorical outcome r { d with histQueue := rest }).histQueue = rest ∧
      (startHistorical outcome r { d with histQueue := rest }).connected = true := by
  obtain ⟨held, asks, pending, hsent, hnodup, hlength, hasks, hfree⟩ :=
    sendHistorical_frame outcome r.reqId { d with histQueue := rest }
  have hheld : held.Nodup := hnodup h.heldOnce
  have hcap : held.length ≤ historicalInFlightCap := hlength.trans hroom
  have hdown : d.connected = false → held = [] := fun hoff =>
    absurd (hup.symm.trans hoff) (by decide)
  have horder := h.turn.inOrder
  have honce := h.turn.once
  rw [startHistorical]
  generalize hs : sendHistorical outcome r.reqId { d with histQueue := rest } = sent at hsent hfree
  obtain ⟨next, went⟩ := sent
  obtain rfl : next = _ := hsent
  cases went with
  | true =>
      have hbase : Orderly { d with
          histQueue := rest, held := held, barAsks := asks, pendingHistorical := pending
          started := d.started ++
            [⟨r.seq, r.reqId, { d with histQueue := rest }.answering r.reqId⟩] } := by
        refine ⟨⟨?_, hcap, ?_, ?_⟩, hheld, hasks h.asksOnce, hdown, h.up, h.againCapped⟩
        · rw [List.map_append, List.append_assoc]
          exact horder
        · dsimp only at honce ⊢
          rw [List.map_append, List.map_singleton]
          refine List.Perm.trans ?_ honce
          rw [List.map_cons]
          simp only [List.append_assoc, List.singleton_append]
          refine List.Perm.append_left _ ?_
          rw [← List.append_assoc, ← List.append_assoc]
          exact List.perm_middle.symm
        · intro s hmem
          rcases List.mem_append.1 hmem with hmem | hmem
          · exact h.turn.alone s hmem
          · rw [List.mem_singleton.1 hmem]
            exact hfree rfl
      dsimp only
      split_ifs
      · exact ⟨hbase.less (List.Sublist.refl _), rfl, hup⟩
      · exact ⟨hbase, rfl, hup⟩
  | false =>
      refine ⟨⟨⟨?_, hcap, ?_, h.turn.alone⟩, hheld, hasks h.asksOnce, hdown, h.up, h.againCapped⟩,
        rfl, hup⟩
      · refine horder.sublist (List.Sublist.append_left ?_ _)
        exact List.sublist_cons_self _ _
      · dsimp only at honce ⊢
        refine List.Perm.trans ?_ honce
        rw [List.map_cons]
        simp only [List.append_assoc, List.singleton_append]
        refine List.Perm.append_left _ (List.Perm.append_left _ ?_)
        exact List.perm_middle.symm

lemma orderly_sendEach (outcome : ℕ → SendOutcome) {queue : List BarRequest}
    (h : Orderly { d with histQueue := queue }) : Orderly (sendEach outcome queue d) := by
  induction queue generalizing d with
  | nil => exact h
  | cons r rest ih =>
      rw [sendEach]
      split_ifs with hgo
      · obtain ⟨hstarted, hqueue, -⟩ := orderly_start h hgo.1 hgo.2 (outcome r.seq)
        refine ih ?_
        have hsame (x : HistDesk) (hx : x.histQueue = rest) : { x with histQueue := rest } = x := by
          rw [← hx]
        rw [hsame _ hqueue]
        exact hstarted
      · exact h

lemma sendEach_leaves_none (outcome : ℕ → SendOutcome) (queue : List BarRequest) (d : HistDesk)
    (hup : (sendEach outcome queue d).connected = true)
    (hroom : (sendEach outcome queue d).held.length < historicalInFlightCap) :
    (sendEach outcome queue d).histQueue = [] := by
  induction queue generalizing d with
  | nil => rfl
  | cons r rest ih =>
      rw [sendEach] at hup hroom ⊢
      split_ifs at hup hroom ⊢ with hgo
      · exact ih _ hup hroom
      · exact absurd ⟨hup, hroom⟩ hgo

lemma orderly_take (h : Orderly d) (outcome : ℕ → SendOutcome) (bad : Bool) (n : ℕ)
    (keep : Bool) : Orderly (takeHistorical outcome bad n keep d) := by
  have hin : ∀ s ∈ d.started.map BarStart.seq ++ d.histQueue.map BarRequest.seq, s < d.taken := by
    intro s hs
    refine List.mem_range.1 (h.turn.once.mem_iff.1 ?_)
    simp only [List.mem_append] at hs ⊢
    tauto
  have hrange : List.range (d.taken + 1) = List.range d.taken ++ [d.taken] := List.range_succ
  rw [takeHistorical]
  dsimp only
  split_ifs
  · refine ⟨⟨h.turn.inOrder, h.turn.capped, ?_, h.turn.alone⟩, h.heldOnce, h.asksOnce, h.down,
      h.up, h.againCapped⟩
    dsimp only
    rw [hrange]
    refine List.Perm.trans ?_ (h.turn.once.append_right [d.taken])
    simp only [List.append_assoc, List.singleton_append]
    refine List.Perm.append_left _ (List.Perm.append_left _ ?_)
    rw [← List.append_assoc]
    exact List.perm_append_singleton d.taken _ |>.symm
  · refine orderly_sendEach outcome ⟨⟨?_, h.turn.capped, ?_, h.turn.alone⟩, h.heldOnce, h.asksOnce,
      h.down, h.up, h.againCapped⟩
    · dsimp only
      rw [List.map_append, ← List.append_assoc]
      refine List.pairwise_append.2 ⟨h.turn.inOrder, List.pairwise_singleton _ _, ?_⟩
      intro s hs t ht
      rw [List.map_singleton, List.mem_singleton] at ht
      exact ht ▸ hin s hs
    · dsimp only
      rw [hrange, List.map_append, ← List.append_assoc]
      exact h.turn.once.append_right _

lemma orderly_cancel (h : Orderly d) (n : ℕ) : Orderly (cancelHistorical n d) := by
  have hless : Orderly { d with held := d.held.erase n } :=
    @Orderly.less d h _ d.pendingHistorical d.pendingSchedule d.keepUpToDate d.rtbarSubs
      List.erase_sublist
  refine ⟨⟨?_, hless.turn.capped, ?_, h.turn.alone⟩, hless.heldOnce, h.asksOnce, hless.down, ?_, ?_⟩
  · exact h.turn.inOrder.sublist (List.Sublist.append_left (List.filter_sublist.map _) _)
  · refine List.Perm.trans ?_ h.turn.once
    rw [cancelHistorical]
    dsimp only
    simp only [List.append_assoc]
    refine List.Perm.append_left _ (List.Perm.append_left _ (List.Perm.append_left _ ?_))
    rw [← List.map_append]
    refine List.Perm.map _ ?_
    have hsplit := List.filter_append_perm (fun r : BarRequest => decide (r.reqId = n)) d.histQueue
    simpa only [decide_not] using hsplit
  · intro hup
    rw [cancelHistorical]
    dsimp only
    rw [h.up hup, List.filter_nil]
  · refine le_trans (List.Sublist.length_le ?_) h.againCapped
    exact List.filter_sublist.filter _

/-! ## The drop -/

lemma letGo_foldl (kept : List ℕ) (d : HistDesk) :
    ∃ held pending scheduled streams,
      kept.foldl (fun d n => d.letGoOfBarRequest n) d =
        { d with
          held := held, pendingHistorical := pending, pendingSchedule := scheduled
          rtbarSubs := streams } ∧ held.Sublist d.held := by
  induction kept generalizing d with
  | nil => exact ⟨d.held, _, _, _, rfl, List.Sublist.refl _⟩
  | cons n kept ih =>
      obtain ⟨held, pending, scheduled, streams, heq, hsub⟩ := ih (d.letGoOfBarRequest n)
      exact ⟨held, pending, scheduled, streams, heq, hsub.trans List.filter_sublist⟩

lemma askedAgain_foldl (waiting : List ArrivingAsk) (d : HistDesk) :
    ∃ held pending scheduled streams,
      waiting.foldl (fun d a =>
          { d.letGoOfBarRequest a.reqId with askedAgain := d.askedAgain ++ [a] }) d =
        { d with
          held := held, pendingHistorical := pending, pendingSchedule := scheduled
          rtbarSubs := streams, askedAgain := d.askedAgain ++ waiting } := by
  induction waiting generalizing d with
  | nil => exact ⟨d.held, _, _, _, by rw [List.append_nil]; rfl⟩
  | cons a waiting ih =>
      obtain ⟨held, pending, scheduled, streams, heq⟩ :=
        ih { d.letGoOfBarRequest a.reqId with askedAgain := d.askedAgain ++ [a] }
      refine ⟨held, pending, scheduled, streams, ?_⟩
      rw [List.foldl_cons, heq]
      simp only [letGoOfBarRequest, List.append_assoc, List.singleton_append]

lemma length_stillArriving (hasks : asks.Nodup) (d : HistDesk) :
    ((asks.filter d.stillArriving).filter fun a => !a.schedule).length ≤ d.held.length := by
  have hnodup : (((asks.filter d.stillArriving).filter fun a => !a.schedule).map
      ArrivingAsk.reqId).Nodup := by
    refine List.Nodup.map_on ?_ ((hasks.filter _).filter _)
    intro a ha b hb heq
    have hschedule (c : ArrivingAsk)
        (hc : c ∈ (asks.filter d.stillArriving).filter fun a => !a.schedule) : c.schedule = false := by
      have hnot := (List.mem_filter.1 hc).2
      rwa [Bool.not_eq_true'] at hnot
    rcases a with ⟨n, s⟩
    rcases b with ⟨m, t⟩
    rw [ArrivingAsk.mk.injEq]
    exact ⟨heq, (hschedule _ ha).trans (hschedule _ hb).symm⟩
  rw [← List.length_map (f := ArrivingAsk.reqId)]
  refine (hnodup.subperm fun n hn => ?_).length_le
  obtain ⟨a, ha, rfl⟩ := List.mem_map.1 hn
  obtain ⟨hmem, hbar⟩ := List.mem_filter.1 ha
  have hstill := (List.mem_filter.1 hmem).2
  rw [Bool.not_eq_true'] at hbar
  rw [stillArriving, hbar, if_neg Bool.false_ne_true] at hstill
  exact of_decide_eq_true hstill

lemma orderly_disconnect (h : Orderly d) : Orderly d.disconnect := by
  obtain ⟨held, pending, scheduled, streams, hended, hsub⟩ :=
    letGo_foldl d.keepUpToDate { d with connected := false }
  obtain ⟨held', pending', scheduled', streams', hwaiting⟩ := askedAgain_foldl
    (d.barAsks.filter (HistDesk.stillArriving { d with
      connected := false, held := held, pendingHistorical := pending, pendingSchedule := scheduled
      rtbarSubs := streams }))
    { d with
      connected := false, held := held, pendingHistorical := pending, pendingSchedule := scheduled
      rtbarSubs := streams, keepUpToDate := [], barAsks := [] }
  have hdrop : d.disconnect = { d with
      connected := false, held := [], pendingHistorical := [], pendingSchedule := []
      rtbarSubs := streams', keepUpToDate := [], barAsks := []
      askedAgain := d.askedAgain ++ d.barAsks.filter (HistDesk.stillArriving { d with
        connected := false, held := held, pendingHistorical := pending
        pendingSchedule := scheduled, rtbarSubs := streams }) } := by
    rw [disconnect, tellOfTheDrop]
    dsimp only
    rw [hended]
    dsimp only
    rw [hwaiting]
  rw [hdrop]
  refine ⟨⟨h.turn.inOrder, Nat.zero_le _, h.turn.once, h.turn.alone⟩, List.nodup_nil,
    List.nodup_nil, fun _ => rfl, fun hup => absurd hup Bool.false_ne_true, ?_⟩
  have hbars := length_stillArriving h.asksOnce { d with
    connected := false, held := held, pendingHistorical := pending, pendingSchedule := scheduled
    rtbarSubs := streams }
  have hlength := hsub.length_le
  have hagain := h.againCapped
  have hcap := h.turn.capped
  dsimp only at hlength ⊢
  rw [List.filter_append, List.length_append]
  cases hup : d.connected with
  | true =>
      rw [h.up hup, List.filter_nil, List.length_nil, Nat.zero_add]
      exact hbars.trans (hlength.trans hcap)
  | false =>
      rw [h.down hup, List.length_nil] at hlength
      exact Nat.add_le_add hagain (hbars.trans hlength)

/-! ## The reconnect -/

lemma askAgain_foldl (outcome : ℕ → SendOutcome) (again : List ArrivingAsk) (d : HistDesk)
    (hheld : d.held.Nodup) (hasks : d.barAsks.Nodup) :
    ∃ held asks pending scheduled, again.foldl (askAgain outcome) d =
        { d with
          held := held, barAsks := asks, pendingHistorical := pending
          pendingSchedule := scheduled } ∧
      held.Nodup ∧ asks.Nodup ∧
      held.length ≤ d.held.length + (again.filter fun a => !a.schedule).length := by
  induction again generalizing d with
  | nil => exact ⟨d.held, d.barAsks, _, _, rfl, hheld, hasks, Nat.le_add_right _ _⟩
  | cons a again ih =>
      rw [List.foldl_cons, askAgain]
      split_ifs with hschedule
      · obtain ⟨held, asks, pending, scheduled, heq, hnodup, hasks', hlength⟩ :=
          ih ({ d with pendingSchedule := d.pendingSchedule ++ [a.reqId] }.noteAsk a) hheld
            (nodup_noteAsk hasks _ _)
        refine ⟨held, asks, pending, scheduled, heq, hnodup, hasks', ?_⟩
        have hskip : (a :: again).filter (fun a => !a.schedule) =
            again.filter fun a => !a.schedule := by
          rw [List.filter_cons, hschedule]
          rfl
        rw [hskip]
        exact hlength
      · obtain ⟨held₀, asks₀, pending₀, hsent, hnodup₀, hlength₀, hasks₀, -⟩ :=
          sendHistorical_frame (outcome a.reqId) a.reqId d
        obtain ⟨held, asks, pending, scheduled, heq, hnodup, hasks', hlength⟩ :=
          ih (sendHistorical (outcome a.reqId) a.reqId d).1 (by rw [hsent]; exact hnodup₀ hheld)
            (by rw [hsent]; exact hasks₀ hasks)
        refine ⟨held, asks, pending, scheduled, ?_, hnodup, hasks', ?_⟩
        · rw [heq, hsent]
        · rw [hsent] at hlength
          have hone : ((a :: again).filter fun a => !a.schedule).length =
              (again.filter fun a => !a.schedule).length + 1 := by
            rw [List.filter_cons, if_pos (by simpa using hschedule), List.length_cons]
          dsimp only at hlength
          omega

lemma orderly_reconnect (h : Orderly d) (hdown : d.connected = false)
    (outcome : ℕ → SendOutcome) : Orderly (d.reconnect outcome) := by
  obtain ⟨held, asks, pending, scheduled, heq, hnodup, hasks, hlength⟩ := askAgain_foldl outcome
    d.askedAgain { d with connected := true, askedAgain := [] } h.heldOnce h.asksOnce
  rw [reconnect, heq]
  have hagain := h.againCapped
  dsimp only at hlength
  rw [h.down hdown, List.length_nil, Nat.zero_add] at hlength
  exact ⟨⟨h.turn.inOrder, hlength.trans hagain, h.turn.once, h.turn.alone⟩, hnodup, hasks,
    fun hoff => absurd (show true = false from hoff) (by decide), fun _ => rfl, Nat.zero_le _⟩

lemma orderly_giveUp (h : Orderly d) : Orderly d.giveUp := by
  refine ⟨⟨?_, h.turn.capped, ?_, h.turn.alone⟩, h.heldOnce, h.asksOnce, h.down, fun _ => rfl,
    Nat.zero_le _⟩
  · have hstarted := (List.pairwise_append.1 h.turn.inOrder).1
    rw [giveUp]
    simpa using hstarted
  · refine List.Perm.trans ?_ h.turn.once
    rw [giveUp]
    dsimp only
    simp only [List.map_nil, List.append_nil, List.append_assoc]
    exact List.Perm.append_left _ (List.Perm.append_left _ List.perm_append_comm)

lemma orderly_step (h : Orderly d) (e : BarTurnEvent) : Orderly (d.step e) := by
  cases e with
  | take outcome bad n keep => exact orderly_take h outcome bad n keep
  | cancel n => exact orderly_cancel h n
  | ended n keepsQuery keepsStream => exact h.less List.filter_sublist
  | answered n => exact h.less (List.Sublist.refl _)
  | stretch n pair =>
      rw [step]
      split_ifs
      · rw [openQuery]
        split_ifs
        · exact h.less (List.Sublist.refl _)
        · exact h
        · exact h.less (List.Sublist.refl _)
      · exact h
  | streamAsked n => exact h.less (List.Sublist.refl _)
  | streamEnded n => exact h.less (List.Sublist.refl _)
  | scheduleAsked n =>
      rw [step]
      split_ifs
      · exact h.frame h.heldOnce (nodup_noteAsk h.asksOnce _ _) h.turn.capped h.down
      · exact h
  | scheduleEnded n => exact h.less (List.Sublist.refl _)
  | dropped => exact orderly_disconnect h
  | reconnected outcome =>
      rw [step]
      split_ifs with hup
      · exact h
      · exact orderly_reconnect h (Bool.not_eq_true _ ▸ hup) outcome
  | givenUp =>
      rw [step]
      split_ifs with hup
      · exact h
      · exact orderly_giveUp h
  | lap outcome => exact orderly_sendEach outcome h

lemma orderly_fresh : Orderly {} :=
  ⟨⟨List.Pairwise.nil, Nat.zero_le _, List.Perm.refl _, fun _ h => nomatch h⟩, List.nodup_nil,
    List.nodup_nil, fun _ => rfl, fun _ => rfl, Nat.zero_le _⟩

end HistDesk

/-- **Bar requests wait their turn.**  After every run they have been started in the order they were
taken, fifty are in flight at most, each has been started, refused or withdrawn or is waiting, and
one of these once, and none was started under a number a bar request was answering under; and a lap
leaves none waiting that could start. -/
theorem bars_in_turn (es : List BarTurnEvent) :
    StartedInTurn (Runs.run HistDesk.step {} es) ∧
      ∀ outcome : ℕ → SendOutcome,
        let d := (Runs.run HistDesk.step {} es).step (.lap outcome)
        d.connected = true → d.held.length < historicalInFlightCap → d.histQueue = [] := by
  have hstep : ∀ (d : HistDesk) (e : BarTurnEvent), d.Orderly → True → (d.step e).Orderly :=
    fun d e h _ => HistDesk.orderly_step h e
  have horderly : HistDesk.Orderly (Runs.run HistDesk.step {} es) :=
    Runs.Along.invariant hstep HistDesk.orderly_fresh
      (Runs.Along.of_forall (fun _ _ => trivial) _ _)
  exact ⟨horderly.turn, fun outcome => HistDesk.sendEach_leaves_none outcome _ _⟩

/-- **A request is started under the number of a live bar stream**, which is another call's, in
another id space. -/
theorem bars_under_a_stream :
    let d := Runs.run HistDesk.step {}
      [.streamAsked 7, .take (fun _ => .asked false) false 7 false]
    7 ∈ d.rtbarSubs ∧ d.started = [⟨0, 7, false⟩] := by
  decide

end IbkrDx
