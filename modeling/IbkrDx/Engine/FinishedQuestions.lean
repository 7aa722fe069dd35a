import IbkrDx.Engine.Recovery
import IbkrDx.Lib.Runs
import IbkrDx.Lib.Turns

/-!
# Questions of finished orders, one at a time

The replay of a logon, the answer to a caller's question and the answer to the recovery's own all
end with the same report, which names no question.  A question is held behind the replay, for as
long as a replay could take, and behind the one before it.

* **`turns_step`** — an event takes and settles turns, and a question adds one.
* **`finished_questions_in_turn`** — each question is answered once, in the order asked, under its
  own turn.  `not_finished_questions_in_turn` is the replay that outlasts its hold.
-/

namespace IbkrDx

variable {Spec : Type}

/-! ## What is asked, and what is on the wire -/

/-- When an event happens, where the engine reads the clock at it. -/
def TradingEvent.now : TradingEvent Spec → Option ℕ
  | logon now | ends _ now _ | pass now _ | ask _ now _ _ | sweep now _ _ _ => some now
  | _ => none

structure Asking (Spec : Type) where
  trading : Trading Spec
  /-- Of each caller's question, oldest first, whether it was of its own orders alone. -/
  asks : List Bool := []
  onWire : List Asker := []
  clock : ℕ := 0

namespace Asking

def sent (session : Session Spec) (w : Asking Spec) (e : TradingEvent Spec) :
    List FinishedQuestion :=
  (w.trading.step session e).asked.drop w.trading.asked.length

/-- What an event leaves of the questions on the wire before it. -/
def unanswered (w : Asking Spec) : TradingEvent Spec → List Asker
  | .drop => []
  | .ends .answer _ _ => w.onWire.tail
  | _ => w.onWire

def step (session : Session Spec) (w : Asking Spec) (e : TradingEvent Spec) : Asking Spec where
  trading := w.trading.step session e
  asks := match e with
    | .ask apiOnly _ _ _ => w.asks ++ [apiOnly]
    | _ => w.asks
  onWire := w.unanswered e ++ (w.sent session e).map FinishedQuestion.asker
  clock := e.now.getD w.clock

/-- Time goes on, a logon finds no connection up, and a report arrives on one that is: where it
ends an answer, behind a question. -/
def Lawful (w : Asking Spec) (e : TradingEvent Spec) : Prop :=
  (∀ now ∈ e.now, w.clock ≤ now) ∧ match e with
    | .logon _ => w.trading.conn = none
    | .ends .naming _ _ => w.trading.conn ≠ none
    | .ends .answer _ _ => w.trading.conn ≠ none ∧ w.onWire ≠ []
    | _ => True

instance (w : Asking Spec) : DecidablePred w.Lawful := fun e =>
  have : Decidable (∀ now ∈ e.now, w.clock ≤ now) := Option.decidableForallMem _
  match e with
  | .logon _ | .ends .naming _ _ | .ends .answer _ _ => inferInstanceAs (Decidable (_ ∧ _))
  | .drop | .pass .. | .ask .. | .sweep .. | .place .. | .order .. | .sendsOut _ =>
      inferInstanceAs (Decidable (_ ∧ True))

/-- No replay ends while a question is on the wire. -/
def Quiet (w : Asking Spec) : TradingEvent Spec → Prop
  | .ends .naming _ _ => w.onWire = []
  | _ => True

instance (w : Asking Spec) : DecidablePred w.Quiet := fun e =>
  match e with
  | .ends .naming _ _ => inferInstanceAs (Decidable (w.onWire = []))
  | .drop | .logon _ | .ends .answer _ _ | .pass .. | .ask .. | .sweep .. | .place .. | .order ..
    | .sendsOut _ => isTrue trivial

end Asking

/-- The first connection of a session, nothing asked on it. -/
def Trading.opened (book : Book Spec) : Trading Spec := { conn := some {}, book := book }

def Asking.opened (book : Book Spec) : Asking Spec := { trading := .opened book }

/-! ## Turns -/

namespace Trading

def onTurn (s : Trading Spec) (turn : ℕ) : ℕ × Bool :=
  (turn, (s.completedOrdersApiOnly turn).getD false)

def callersWindow (s : Trading Spec) : Bool :=
  s.completedOrdersOpen && !s.theAnswerIsTheRecoverys

def turns (s : Trading Spec) : Turns Bool where
  settled := s.ended
  current := if s.callersWindow then some (s.onTurn s.completedOrdersAskedOn) else none
  waiting := s.completedOrdersQueued.map s.onTurn

def window (s : Trading Spec) : List Asker :=
  if s.completedOrdersOpen then
    [if s.recovery.question = .out then .recovery else .caller s.completedOrdersAskedOn]
  else []

end Trading

/-! ## A question asked -/

namespace Trading

variable {s : Trading Spec}

lemma send_goes (session : Session Spec) {turn now : ℕ}
    (h : s.waits turn now = false) (day : Option (ℤ × ℤ)) (writes : Bool) :
    (∃ q : FinishedQuestion, q.asker = .caller turn ∧ s.conn = some { writeFailed := false } ∧
      s.sendCompletedOrdersRequest session turn now day writes
        = { s.taken turn now with completedOrdersOpen := true, asked := s.asked ++ [q] }) ∨
    ∃ conn, (conn = s.conn ∨ (s.conn ≠ none ∧ conn = some { writeFailed := true })) ∧
      s.sendCompletedOrdersRequest session turn now day writes
        = { s.taken turn now with conn := conn }.endCompletedOrders turn := by
  unfold sendCompletedOrdersRequest
  rw [if_neg (by simp [h])]
  rcases hc : s.conn with _ | ⟨⟨failed⟩⟩
  · exact Or.inr ⟨none, Or.inl rfl, by simp [taken, hc]⟩
  rcases day with _ | ⟨start, finish⟩
  · exact Or.inr ⟨some ⟨failed⟩, Or.inl rfl, by simp [taken, hc]⟩
  by_cases hfail : (failed || !writes) = true
  · exact Or.inr ⟨some ⟨true⟩, Or.inr ⟨by simp, rfl⟩, by simp [sendFix, hfail]⟩
  · obtain ⟨rfl, rfl⟩ : failed = false ∧ writes = true := by simpa using hfail
    exact Or.inl ⟨⟨.caller turn, session.accountName, some start, some finish⟩, rfl, rfl, by
      simp [sendFix, taken, hc]⟩

lemma waits_eq_false {turn now : ℕ} (h : s.waits turn now = false) :
    (s.replayDone = true ∨ s.holdUntil now ≤ now) ∧ s.completedOrdersOpen = false
      ∧ ∀ first ∈ s.completedOrdersQueued.head?, first = turn := by
  simp only [waits, Bool.or_eq_false_iff, Bool.and_eq_false_iff, Bool.not_eq_false',
    decide_eq_false_iff_not, not_lt] at h
  obtain ⟨⟨hreplay, hopen⟩, hbehind⟩ := h
  refine ⟨hreplay, hopen, fun first hfirst => ?_⟩
  rw [Option.mem_def.1 hfirst] at hbehind
  simpa using hbehind

def turnsWith (turn : ℕ) (s : Trading Spec) : Turns Bool :=
  if turn ∈ s.completedOrdersQueued then s.turns
  else s.turns.ask turn ((s.completedOrdersApiOnly turn).getD false)

lemma turnsWith_goes {turn now : ℕ} (h : s.waits turn now = false)
    (hnodup : s.completedOrdersQueued.Nodup) :
    s.turnsWith turn = ⟨s.ended, none,
      s.onTurn turn :: (s.completedOrdersQueued.filter (· ≠ turn)).map s.onTurn⟩ := by
  obtain ⟨-, hopen, hfirst⟩ := waits_eq_false h
  rw [turnsWith]
  rcases hq : s.completedOrdersQueued with _ | ⟨first, rest⟩
  · simp [turns, Turns.ask, callersWindow, hopen, hq, onTurn]
  · obtain rfl : first = turn := hfirst first (by simp [hq])
    rw [hq] at hnodup
    have hrest : rest.filter (· ≠ first) = rest := List.filter_eq_self.2 fun t ht =>
      decide_eq_true fun heq => (List.nodup_cons.1 hnodup).1 (heq ▸ ht)
    simp only [ne_eq, decide_not] at hrest
    simp [turns, callersWindow, hopen, hq, hrest]

lemma moves_send (session : Session Spec) {turn now : ℕ}
    (hnodup : s.completedOrdersQueued.Nodup)
    (hunsent : s.recovery.question = .out →
      s.completedOrdersOpen = true ∨ s.conn = some { writeFailed := true })
    (day : Option (ℤ × ℤ)) (writes : Bool) :
    Relation.ReflTransGen Turns.Moves (s.turnsWith turn)
      (s.sendCompletedOrdersRequest session turn now day writes).turns := by
  rcases hw : s.waits turn now with _ | _
  case true =>
    rw [sendCompletedOrdersRequest, if_pos hw, turnsWith]
    split_ifs with hmem
    · rw [show (s.queued turn now).turns = s.turns by simp [queued, turns, callersWindow,
        theAnswerIsTheRecoverys, onTurn, hmem]]
    · rw [show (s.queued turn now).turns = s.turns.ask turn ((s.completedOrdersApiOnly turn).getD
        false) by simp [queued, turns, callersWindow, theAnswerIsTheRecoverys, onTurn, hmem,
          Turns.ask]]
  case false =>
    have hopen := (waits_eq_false hw).2.1
    have htake := Turns.Moves.take s.ended (s.onTurn turn)
      ((s.completedOrdersQueued.filter (· ≠ turn)).map s.onTurn)
    rw [turnsWith_goes hw hnodup]
    rcases send_goes session hw day writes with ⟨q, -, hconn, hsend⟩ | ⟨conn, -, hsend⟩
    · have hours : s.recovery.question ≠ .out := fun hout => by
        rcases hunsent hout with h | h
        · exact absurd h (by simp [hopen])
        · rw [hconn] at h
          exact absurd h (by decide)
      rw [hsend]
      refine .single ?_
      convert htake using 1
      simp [turns, callersWindow, theAnswerIsTheRecoverys, taken, onTurn, hours]
    · rw [hsend]
      refine (Relation.ReflTransGen.single htake).tail ?_
      convert Turns.Moves.settle s.ended (s.onTurn turn) _ using 1
      simp [endCompletedOrders, turns, callersWindow, taken, hopen, onTurn]
      intro t ht hne
      rw [Function.update_of_ne hne]

lemma moves_close (h : s.callersWindow = true)
    (hnot : s.completedOrdersAskedOn ∉ s.completedOrdersQueued) :
    Turns.Moves s.turns
      ({ s with completedOrdersOpen := false }.endCompletedOrders s.completedOrdersAskedOn).turns := by
  have hturns : s.turns = ⟨s.ended, some (s.onTurn s.completedOrdersAskedOn),
      s.completedOrdersQueued.map s.onTurn⟩ := by simp [turns, h]
  rw [hturns]
  convert Turns.Moves.settle s.ended (s.onTurn s.completedOrdersAskedOn) _ using 1
  simp [endCompletedOrders, turns, callersWindow, onTurn]
  intro t ht
  have hne : t ≠ s.completedOrdersAskedOn := fun heq => hnot (heq ▸ ht)
  rw [Function.update_of_ne hne]

/-! ## The window shut -/

def closed (s : Trading Spec) : Trading Spec :=
  let shut := { s with completedOrdersOpen := false }
  if s.callersWindow then shut.endCompletedOrders s.completedOrdersAskedOn else shut

lemma moves_closed
    (hnot : s.callersWindow = true → s.completedOrdersAskedOn ∉ s.completedOrdersQueued) :
    Relation.ReflTransGen Turns.Moves s.turns s.closed.turns := by
  unfold closed
  by_cases hw : s.callersWindow = true
  · rw [if_pos hw]
    exact .single (moves_close hw (hnot hw))
  · rw [if_neg hw]
    have hshut : ({ s with completedOrdersOpen := false } : Trading Spec).turns = s.turns := by
      rw [turns, turns, if_neg hw]
      simp [callersWindow, onTurn]
    rw [hshut]

lemma closed_frame (s : Trading Spec) : ∃ ended apiOnly, s.closed = { s with
    completedOrdersOpen := false, ended := ended, completedOrdersApiOnly := apiOnly } := by
  unfold closed endCompletedOrders
  dsimp only
  split_ifs
  · exact ⟨_, _, rfl⟩
  · exact ⟨_, _, rfl⟩

lemma turns_of_shut (h : s.completedOrdersOpen = false) :
    s.turns = ⟨s.ended, none, s.completedOrdersQueued.map s.onTurn⟩ := by
  simp [turns, callersWindow, h]

lemma shut_of_closed (h : s.completedOrdersOpen = false) :
    { s with completedOrdersOpen := false } = s := by
  cases s
  simp only at h
  rw [h]

lemma end_closes (session : Session Spec) (now : ℕ) (account : Option String) (s : Trading Spec) :
    ∃ book notices cancels recovery openHeld sweepAt,
      s.endWhatTheVenueNames session now account = { s.closed with
        replayDone := true, book := book, notices := notices, pendingCancels := cancels,
        recovery := recovery, openOrdersHeld := openHeld, recoverySweepAt := sweepAt } ∧
      (recovery.question = .out → s.recovery.question = .out ∧ s.completedOrdersOpen = false) := by
  have hshut : (if s.completedOrdersOpen then
      if s.theAnswerIsTheRecoverys then { s with completedOrdersOpen := false }
      else { s with completedOrdersOpen := false }.endCompletedOrders s.completedOrdersAskedOn
      else s) = s.closed := by
    unfold closed callersWindow
    rcases hopen : s.completedOrdersOpen with _ | _
    · simp [shut_of_closed hopen]
    · cases s.theAnswerIsTheRecoverys <;> simp
  have hrecovery : s.closed.recovery = s.recovery := by
    unfold closed endCompletedOrders
    dsimp only
    split_ifs <;> rfl
  unfold endWhatTheVenueNames
  simp only [hshut]
  obtain ⟨book, notices, cancels, recovery, openHeld, sweepAt, heq, hout⟩ :=
    recoverAtTheEnd_frame session now s.theAnswerIsTheRecoverys account
      { s.closed with replayDone := true }
  refine ⟨book, notices, cancels, recovery, openHeld, sweepAt, heq, fun h => ?_⟩
  obtain ⟨hquestion, hours⟩ := hout h
  rw [hrecovery] at hquestion
  refine ⟨hquestion, ?_⟩
  simpa [theAnswerIsTheRecoverys, hquestion] using hours

lemma drop_closes (placing : Placing Spec) (s : Trading Spec) :
    s.handleDisconnect placing = { s.closed with
      conn := none, recoverySweepAt := none, openOrdersHeld := true, replayHoldUntil := none,
      book := s.book.markOrdersUncertain,
      recovery := s.recovery.atDrop (s.book.unansweredOrders placing)
        (s.book.unansweredCancels placing) } := by
  unfold handleDisconnect keepWhatTheDropLeaves closed callersWindow theAnswerIsTheRecoverys
  rcases hopen : s.completedOrdersOpen with _ | _
  · simp
  · by_cases hq : s.recovery.question = .out
    · simp [hq]
    · simp [hq, endCompletedOrders]

end Trading

/-! ## What is claimed -/

namespace Asking

/-- The turn a sweep with some of its budget left, finding the window closed and the replay over or
its hold run out, takes off the queue. -/
def Advances (session : Session Spec) (w : Asking Spec) : TradingEvent Spec → Prop
  | .sweep now left day writes =>
      0 < left → w.trading.completedOrdersOpen = false →
      (w.trading.replayDone = true ∨ ∃ hold, w.trading.replayHoldUntil = some hold ∧ hold ≤ now) →
      (w.step session (.sweep now left day writes)).trading.completedOrdersQueued
        = w.trading.completedOrdersQueued.tail
  | _ => True

/-- A caller's question goes out on a connection, once its replay is over or the hold has run
out. -/
def SentInTime (session : Session Spec) (w : Asking Spec) (e : TradingEvent Spec) : Prop :=
  ∀ q ∈ w.sent session e, q.asker ≠ .recovery → w.trading.conn ≠ none ∧
    (w.trading.replayDone = true ∨ ∃ now ∈ e.now, ∃ hold,
      (w.step session e).trading.replayHoldUntil = some hold ∧ hold ≤ now)

/-- Each question is in one place: its turn is over, or it is being answered, or it waits; and the
turns ended in the order they were asked, each answered for what its caller asked. -/
def OnceInOrder (w : Asking Spec) : Prop := w.trading.turns.InOrder w.asks

/-- One question is on the wire at most, and the window is open exactly then. -/
def OneOnTheWire (w : Asking Spec) : Prop :=
  w.onWire.length ≤ 1 ∧ (w.trading.completedOrdersOpen = true ↔ w.onWire ≠ [])

/-- The end of the replay and of the recovery's answer end no turn, the end of a caller's answer
ends its own, and a drop ends the one on the wire. -/
def EndsItsOwn (session : Session Spec) (w : Asking Spec) (e : TradingEvent Spec) : Prop :=
  let callers := w.onWire.filterMap fun
    | .caller turn => some turn
    | .recovery => none
  match e with
  | .ends .naming _ _ => (w.step session e).trading.ended = w.trading.ended
  | .ends .answer _ _ | .drop =>
      (w.step session e).trading.ended.map Prod.fst = w.trading.ended.map Prod.fst ++ callers
  | _ => True

def Kept (session : Session Spec) (w : Asking Spec) (e : TradingEvent Spec) : Prop :=
  (w.step session e).OnceInOrder ∧ w.SentInTime session e ∧ w.Advances session e

/-- What holds of one where the replay ends with no question on the wire. -/
def Apart (session : Session Spec) (w : Asking Spec) (e : TradingEvent Spec) : Prop :=
  (w.step session e).OneOnTheWire ∧ w.EndsItsOwn session e

end Asking

/-! ## What every event keeps -/

namespace Asking

/-- What holds after every run, and while a question is put. -/
structure Standing (w : Asking Spec) : Prop where
  counted : w.trading.completedOrdersNextTurn = w.asks.length
  up : w.trading.completedOrdersOpen = true → w.trading.conn ≠ none
  /-- A question of the recovery's that could not go out leaves a connection nothing goes out
  on. -/
  unsent : w.trading.recovery.question = .out →
    w.trading.completedOrdersOpen = true ∨ w.trading.conn = some { writeFailed := true }
  wanted : w.trading.completedOrdersQueued ≠ [] → w.trading.completedOrdersWanted ≠ none
  inTime : ∀ waited ∈ w.trading.completedOrdersWanted, waited ≤ w.clock + completedOrdersHold ∧
    ∀ hold ∈ w.trading.replayHoldUntil, waited ≤ hold
  held : ∀ hold ∈ w.trading.replayHoldUntil, hold ≤ w.clock + completedOrdersHold

/-- What holds of the questions after every run. -/
structure Sound (w : Asking Spec) : Prop extends Standing w where
  order : w.OnceInOrder

variable {w : Asking Spec}

lemma Sound.nodup_queued (h : w.Sound) : w.trading.completedOrdersQueued.Nodup := by
  have hnodup := h.order.nodup_waiting
  have hfst : Prod.fst ∘ w.trading.onTurn = fun turn => turn := rfl
  simpa [Trading.turns, hfst] using hnodup

lemma Sound.not_mem_queued (h : w.Sound) (hw : w.trading.callersWindow = true) :
    w.trading.completedOrdersAskedOn ∉ w.trading.completedOrdersQueued := by
  have hcurrent : w.trading.turns.current
      = some (w.trading.onTurn w.trading.completedOrdersAskedOn) := by simp [Trading.turns, hw]
  have hnot := h.order.not_mem_waiting hcurrent
  have hfst : Prod.fst ∘ w.trading.onTurn = fun turn => turn := rfl
  simpa [Trading.turns, hfst, Trading.onTurn] using hnot

lemma Sound.fresh (h : w.Sound) {turn : ℕ × Bool} (hmem : turn ∈ w.trading.turns.all) :
    turn.1 ≠ w.trading.completedOrdersNextTurn + 1 := by
  have hle := h.order.le_of_mem hmem
  rw [h.counted]
  omega

end Asking

/-- A state whose questions stand as they stood. -/
structure Trading.Same (s s' : Trading Spec) : Prop where
  conn : s'.conn = s.conn := by rfl
  window : s'.completedOrdersOpen = s.completedOrdersOpen := by rfl
  question : s'.recovery.question = .out ↔ s.recovery.question = .out := by rfl
  wanted : s'.completedOrdersWanted = s.completedOrdersWanted := by rfl
  askedOn : s'.completedOrdersAskedOn = s.completedOrdersAskedOn := by rfl
  queued : s'.completedOrdersQueued = s.completedOrdersQueued := by rfl
  apiOnly : s'.completedOrdersApiOnly = s.completedOrdersApiOnly := by rfl
  nextTurn : s'.completedOrdersNextTurn = s.completedOrdersNextTurn := by rfl
  hold : s'.replayHoldUntil = s.replayHoldUntil := by rfl
  ended : s'.ended = s.ended := by rfl
  asked : s'.asked = s.asked := by rfl

namespace Asking

variable {w : Asking Spec}

lemma Sound.same (h : w.Sound) {w' : Asking Spec} (hs : w.trading.Same w'.trading)
    (hasks : w'.asks = w.asks) (hclock : w.clock ≤ w'.clock) : w'.Sound := by
  have hours : (w'.trading.recovery.question == .out) = (w.trading.recovery.question == .out) := by
    rw [Bool.eq_iff_iff]
    simpa using hs.question
  have hwindow : w'.trading.callersWindow = w.trading.callersWindow := by
    rw [Trading.callersWindow, Trading.theAnswerIsTheRecoverys, hs.window, hours]
    rfl
  have hturns : w'.trading.turns = w.trading.turns := by
    simp [Trading.turns, hwindow, hs.ended, hs.askedOn, hs.queued, Trading.onTurn, hs.apiOnly]
  exact {
    order := by rw [OnceInOrder, hturns, hasks]; exact h.order
    counted := by rw [hs.nextTurn, hasks]; exact h.counted
    up := by rw [hs.window, hs.conn]; exact h.up
    unsent := by rw [hs.window, hs.conn, hs.question]; exact h.unsent
    wanted := by rw [hs.queued, hs.wanted]; exact h.wanted
    inTime := by
      rw [hs.wanted, hs.hold]
      exact fun waited hw => ⟨(h.inTime waited hw).1.trans (by omega), (h.inTime waited hw).2⟩
    held := by
      rw [hs.hold]
      exact fun hold hh => (h.held hold hh).trans (by omega) }

end Asking

namespace Trading

lemma same_giveUp (now : ℕ) (s : Trading Spec) : s.Same (s.giveUpTheRecovery now) := by
  unfold giveUpTheRecovery
  by_cases hover : (s.recovery.deadline.any fun deadline => deadline ≤ now) = true
  · rw [if_pos hover]
    by_cases hdue : s.recovery.question = .due
    · exact { question := by simp [hdue] }
    · exact { question := by simp [hdue] }
  · rw [if_neg hover]
    exact {}

lemma carry_cases (session : Session Spec) (now : ℕ) (writes : Bool) (s : Trading Spec) :
    s.Same (s.carryTheRecovery session now writes) ∨
    s.completedOrdersOpen = false ∧ ∃ s₀ t, s.Same s₀ ∧ s.conn = some t ∧
      ((∃ q : FinishedQuestion, q.asker = .recovery ∧ t = { writeFailed := false } ∧
        s.carryTheRecovery session now writes = { s₀ with
          recovery := { s₀.recovery with question := .out }, conn := some t,
          completedOrdersOpen := true, asked := s.asked ++ [q] }) ∨
      s.carryTheRecovery session now writes = { s₀ with
          recovery := { s₀.recovery with question := .out },
          conn := some { writeFailed := true } }) := by
  have hs := same_giveUp now s
  unfold carryTheRecovery
  dsimp only
  by_cases hnot : (s.giveUpTheRecovery now).recovery.question ≠ .due
      ∨ (s.giveUpTheRecovery now).completedOrdersOpen = true
  · rw [if_pos hnot]
    exact Or.inl hs
  rw [if_neg hnot]
  simp only [not_or, Bool.not_eq_true] at hnot
  rcases hc : (s.giveUpTheRecovery now).conn with _ | ⟨⟨failed⟩⟩
  · exact Or.inl hs
  refine Or.inr ⟨hs.window ▸ hnot.2, s.giveUpTheRecovery now, ⟨failed⟩, hs, hs.conn ▸ hc, ?_⟩
  by_cases hfail : (failed || !writes) = true
  · exact Or.inr (by simp [sendFix, hfail])
  · obtain ⟨rfl, rfl⟩ : failed = false ∧ writes = true := by simpa using hfail
    refine Or.inl ⟨{
      asker := .recovery
      account := (s.giveUpTheRecovery now).recovery.account.getD session.accountName
      since := if session.boundedQuestion then
        some ((s.giveUpTheRecovery now).askedBackTo now / 1000) else none }, rfl, rfl, ?_⟩
    simp [sendFix, hs.asked]

end Trading

namespace Asking

variable {w : Asking Spec}

lemma Sound.shut (h : w.Sound) {w' : Asking Spec} (hasks : w'.asks = w.asks)
    (hclock : w.clock ≤ w'.clock) (hopen : w'.trading.completedOrdersOpen = false)
    (hended : w'.trading.ended = w.trading.closed.ended)
    (hapi : w'.trading.completedOrdersApiOnly = w.trading.closed.completedOrdersApiOnly)
    (hqueued : w'.trading.completedOrdersQueued = w.trading.completedOrdersQueued)
    (hwanted : w'.trading.completedOrdersWanted = w.trading.completedOrdersWanted)
    (hnext : w'.trading.completedOrdersNextTurn = w.trading.completedOrdersNextTurn)
    (hhold : ∀ hold ∈ w'.trading.replayHoldUntil, hold ∈ w.trading.replayHoldUntil)
    (hout : w'.trading.recovery.question = .out →
      w'.trading.conn = some { writeFailed := true }) : w'.Sound := by
  obtain ⟨ended, apiOnly, hclosed⟩ := w.trading.closed_frame
  have hturns : w'.trading.turns = w.trading.closed.turns := by
    rw [Trading.turns_of_shut hopen, Trading.turns_of_shut (by rw [hclosed])]
    simp [hended, hqueued, Trading.onTurn, hapi, hclosed]
  exact {
    order := by
      rw [OnceInOrder, hturns, hasks]
      exact h.order.moves (Trading.moves_closed h.not_mem_queued)
    counted := by rw [hnext, hasks]; exact h.counted
    up := by simp [hopen]
    unsent := fun hq => Or.inr (hout hq)
    wanted := by rw [hqueued, hwanted]; exact h.wanted
    inTime := by
      rw [hwanted]
      exact fun waited hw => ⟨(h.inTime waited hw).1.trans (by omega),
        fun hold hh => (h.inTime waited hw).2 hold (hhold hold hh)⟩
    held := fun hold hh => (h.held hold (hhold hold hh)).trans (by omega) }

lemma Sound.drop (h : w.Sound) (session : Session Spec) : (w.step session .drop).Sound := by
  obtain ⟨ended, apiOnly, hclosed⟩ := w.trading.closed_frame
  have hstep : (w.step session .drop).trading = w.trading.handleDisconnect session.placing := rfl
  rw [Trading.drop_closes] at hstep
  refine h.shut rfl le_rfl (by rw [hstep, hclosed]) (by rw [hstep]) (by rw [hstep])
    (by rw [hstep, hclosed]) (by rw [hstep, hclosed]) (by rw [hstep, hclosed])
    (by simp [hstep]) (fun hq => ?_)
  rw [hstep] at hq
  exact absurd hq (by simp)

variable {now : ℕ}

lemma Sound.ends (h : w.Sound) (session : Session Spec) (what : EndOf)
    (hnow : w.clock ≤ now) (account : Option String) :
    (w.step session (.ends what now account)).Sound := by
  obtain ⟨ended, apiOnly, hclosed⟩ := w.trading.closed_frame
  have hstep : (w.step session (.ends what now account)).trading
      = w.trading.endWhatTheVenueNames session now account := rfl
  obtain ⟨book, notices, cancels, recovery, openHeld, sweepAt, hends, hout⟩ :=
    w.trading.end_closes session now account
  rw [hends] at hstep
  refine h.shut rfl hnow (by rw [hstep, hclosed]) (by rw [hstep]) (by rw [hstep])
    (by rw [hstep, hclosed]) (by rw [hstep, hclosed]) (by rw [hstep, hclosed])
    (by simp [hstep, hclosed]) (fun hq => ?_)
  rw [hstep] at hq ⊢
  obtain ⟨hquestion, hopen⟩ := hout hq
  rw [hclosed]
  rcases h.unsent hquestion with hup | hfailed
  · exact absurd hup (by simp [hopen])
  · exact hfailed

lemma Sound.logon (h : w.Sound) (session : Session Spec) (hnow : w.clock ≤ now)
    (hdown : w.trading.conn = none) : (w.step session (.logon now)).Sound := by
  have hopen : w.trading.completedOrdersOpen = false := by
    by_contra hup
    exact h.up (by simpa using hup) hdown
  have hclosed : w.trading.closed = w.trading := by
    simp [Trading.closed, Trading.callersWindow, hopen, Trading.shut_of_closed hopen]
  have hstep : (w.step session (.logon now)).trading = w.trading.reconnect now := rfl
  rw [Trading.reconnect, Trading.beginTheRecovery] at hstep
  refine h.shut rfl hnow (by rw [hstep, hopen]) (by rw [hstep, hclosed]) (by rw [hstep, hclosed])
    (by rw [hstep]) (by rw [hstep]) (by rw [hstep]) (by simp [hstep]) (fun hq => ?_)
  rw [hstep, Recovery.begun_question] at hq
  rcases h.unsent hq with hup | hfailed
  · exact absurd hup (by simp [hopen])
  · exact absurd hfailed (by simp [hdown])

lemma Sound.pass (h : w.Sound) (session : Session Spec) (hnow : w.clock ≤ now)
    (writes : Bool) : (w.step session (.pass now writes)).Sound := by
  have hstep : (w.step session (.pass now writes)).trading
      = w.trading.carryTheRecovery session now writes := rfl
  rcases w.trading.carry_cases session now writes with hsame | ⟨hopen, s₀, t, hsame, hconn, hcases⟩
  · exact h.same (hstep ▸ hsame) rfl hnow
  have h₀ : ({ w with trading := s₀, clock := now } : Asking Spec).Sound := h.same hsame rfl hnow
  have hshut : s₀.completedOrdersOpen = false := hsame.window.trans hopen
  have hturns := Trading.turns_of_shut hshut
  rcases hcases with ⟨q, -, rfl, hsent⟩ | hfailed
  · have horder : (w.step session (.pass now writes)).trading.turns = s₀.turns := by
      rw [hstep, hsent, hturns]
      simp [Trading.turns, Trading.callersWindow, Trading.theAnswerIsTheRecoverys, Trading.onTurn]
    exact {
      order := by rw [OnceInOrder, horder]; exact h₀.order
      counted := by rw [hstep, hsent]; exact h₀.counted
      up := fun _ => by rw [hstep, hsent]; simp
      unsent := fun _ => Or.inl (by rw [hstep, hsent])
      wanted := by rw [hstep, hsent]; exact h₀.wanted
      inTime := by rw [hstep, hsent]; exact h₀.inTime
      held := by rw [hstep, hsent]; exact h₀.held }
  · have horder : (w.step session (.pass now writes)).trading.turns = s₀.turns := by
      rw [hstep, hfailed, hturns]
      simp [Trading.turns, Trading.callersWindow, hshut, Trading.onTurn]
    exact {
      order := by rw [OnceInOrder, horder]; exact h₀.order
      counted := by rw [hstep, hfailed]; exact h₀.counted
      up := fun _ => by rw [hstep, hfailed]; simp
      unsent := fun _ => Or.inr (by rw [hstep, hfailed])
      wanted := by rw [hstep, hfailed]; exact h₀.wanted
      inTime := by rw [hstep, hfailed]; exact h₀.inTime
      held := by rw [hstep, hfailed]; exact h₀.held }

structure Putting (turn : ℕ) (w : Asking Spec) : Prop extends Standing w where
  order : (w.trading.turnsWith turn).InOrder w.asks
  nodup : w.trading.completedOrdersQueued.Nodup

namespace Putting

variable {turn now : ℕ}

lemma holdUntil_le (h : w.Putting turn) (hnow : w.clock ≤ now) :
    w.trading.holdUntil now ≤ now + completedOrdersHold := by
  unfold Trading.holdUntil
  rcases hh : w.trading.replayHoldUntil with _ | hold
  · exact le_rfl
  · exact (h.held hold hh).trans (by omega)

lemma le_holdUntil (h : w.Putting turn) (hnow : w.clock ≤ now) {waited : ℕ}
    (hw : waited ∈ w.trading.completedOrdersWanted) : waited ≤ w.trading.holdUntil now := by
  unfold Trading.holdUntil
  rcases hh : w.trading.replayHoldUntil with _ | hold
  · exact (h.inTime waited hw).1.trans (by simp; omega)
  · exact (h.inTime waited hw).2 hold hh

lemma sound (h : w.Putting turn) (session : Session Spec) (hnow : w.clock ≤ now)
    (day : Option (ℤ × ℤ)) (writes : Bool) (onWire : List Asker) :
    Sound { trading := w.trading.sendCompletedOrdersRequest session turn now day writes
            asks := w.asks, onWire := onWire, clock := now } := by
  have horder : (w.trading.sendCompletedOrdersRequest session turn now day writes).turns.InOrder
      w.asks := h.order.moves (Trading.moves_send session h.nodup h.unsent day writes)
  have hle := h.holdUntil_le hnow
  rcases hw : w.trading.waits turn now with _ | _
  case true =>
    have hsend : w.trading.sendCompletedOrdersRequest session turn now day writes
        = w.trading.queued turn now := by rw [Trading.sendCompletedOrdersRequest, if_pos hw]
    rw [hsend] at horder ⊢
    exact {
      order := horder
      counted := h.counted
      up := h.up
      unsent := h.unsent
      wanted := fun _ => by simp [Trading.queued]
      inTime := by
        intro waited hwaited
        obtain rfl : w.trading.completedOrdersWanted.getD (w.trading.holdUntil now) = waited := by
          simpa [Trading.queued] using hwaited
        have hboth : w.trading.completedOrdersWanted.getD (w.trading.holdUntil now)
            ≤ w.trading.holdUntil now := by
          rcases hcur : w.trading.completedOrdersWanted with _ | waited
          · exact le_rfl
          · exact h.le_holdUntil hnow hcur
        refine ⟨hboth.trans hle, fun hold hh => ?_⟩
        obtain rfl : w.trading.holdUntil now = hold := by simpa [Trading.queued] using hh
        exact hboth
      held := by simpa [Trading.queued] using hle }
  case false =>
    have htaken : ∀ waited ∈ (w.trading.taken turn now).completedOrdersWanted,
        waited ≤ now + completedOrdersHold ∧ waited ≤ w.trading.holdUntil now := by
      intro waited hwaited
      have hcur : waited ∈ w.trading.completedOrdersWanted := by
        simp only [Trading.taken] at hwaited
        split_ifs at hwaited
        · exact absurd hwaited (by simp)
        · exact hwaited
      exact ⟨(h.inTime waited hcur).1.trans (by omega), h.le_holdUntil hnow hcur⟩
    have hwanted : (w.trading.taken turn now).completedOrdersQueued ≠ [] →
        (w.trading.taken turn now).completedOrdersWanted ≠ none := by
      intro hne
      simp only [Trading.taken] at hne ⊢
      rw [if_neg hne]
      exact h.wanted fun hnil => hne (by simp [hnil])
    have hopen := (Trading.waits_eq_false hw).2.1
    rcases Trading.send_goes session hw day writes with
      ⟨q, -, hconn, hsend⟩ | ⟨conn, hconn, hsend⟩
    · rw [hsend] at horder ⊢
      exact {
        order := horder
        counted := h.counted
        up := fun _ => by simp [Trading.taken, hconn]
        unsent := fun _ => Or.inl rfl
        wanted := hwanted
        inTime := fun waited hwaited => ⟨(htaken waited hwaited).1, fun hold hh => by
          obtain rfl : w.trading.holdUntil now = hold := by simpa [Trading.taken] using hh
          exact (htaken waited hwaited).2⟩
        held := by simpa [Trading.taken] using hle }
    · rw [hsend] at horder ⊢
      exact {
        order := horder
        counted := h.counted
        up := by simp [Trading.endCompletedOrders, Trading.taken, hopen]
        unsent := fun hq => Or.inr (by
          have hfailed : w.trading.conn = some { writeFailed := true } :=
            (h.unsent hq).resolve_left (by simp [hopen])
          rcases hconn with rfl | ⟨-, rfl⟩
          · exact hfailed
          · rfl)
        wanted := hwanted
        inTime := fun waited hwaited => ⟨(htaken waited hwaited).1, fun hold hh => by
          obtain rfl : w.trading.holdUntil now = hold := by
            simpa [Trading.taken, Trading.endCompletedOrders] using hh
          exact (htaken waited hwaited).2⟩
        held := by simpa [Trading.taken, Trading.endCompletedOrders] using hle }

end Putting

lemma Sound.putting (h : w.Sound) {turn : ℕ} (hq : turn ∈ w.trading.completedOrdersQueued) :
    w.Putting turn where
  toStanding := h.toStanding
  order := by
    rw [Trading.turnsWith, if_pos hq]
    exact h.order
  nodup := h.nodup_queued

lemma Sound.putting_new (h : w.Sound) (apiOnly : Bool) :
    Putting (w.trading.completedOrdersNextTurn + 1)
      { w with trading := w.trading.newTurn apiOnly, asks := w.asks ++ [apiOnly] } where
  order := by
    have hwaiting : ∀ turn ∈ w.trading.completedOrdersQueued,
        turn ≠ w.trading.completedOrdersNextTurn + 1 := fun turn hmem =>
      h.fresh (show w.trading.onTurn turn ∈ _ by
        simp only [Turns.all, Trading.turns, List.mem_append, List.mem_map]
        exact Or.inr (Or.inr ⟨turn, hmem, rfl⟩))
    have hcurrent : w.trading.callersWindow = true →
        w.trading.completedOrdersAskedOn ≠ w.trading.completedOrdersNextTurn + 1 := fun hw =>
      h.fresh (show w.trading.onTurn w.trading.completedOrdersAskedOn ∈ _ by
        simp [Turns.all, Trading.turns, hw])
    have hturns : (w.trading.newTurn apiOnly).turns = w.trading.turns := by
      have hmap : w.trading.completedOrdersQueued.map (w.trading.newTurn apiOnly).onTurn
          = w.trading.completedOrdersQueued.map w.trading.onTurn := by
        refine List.map_congr_left fun turn hmem => ?_
        simp [Trading.onTurn, Trading.newTurn, Function.update_of_ne (hwaiting turn hmem)]
      have hon : w.trading.callersWindow = true →
          (w.trading.newTurn apiOnly).onTurn w.trading.completedOrdersAskedOn
            = w.trading.onTurn w.trading.completedOrdersAskedOn := fun hw => by
        simp [Trading.onTurn, Trading.newTurn, Function.update_of_ne (hcurrent hw)]
      change Turns.mk w.trading.ended (if w.trading.callersWindow then
        some ((w.trading.newTurn apiOnly).onTurn w.trading.completedOrdersAskedOn) else none)
        (w.trading.completedOrdersQueued.map (w.trading.newTurn apiOnly).onTurn) = _
      rw [hmap, Trading.turns]
      split_ifs with hw
      · rw [hon hw]
      · rfl
    have hnot : w.trading.completedOrdersNextTurn + 1
        ∉ (w.trading.newTurn apiOnly).completedOrdersQueued := fun hmem =>
      hwaiting _ hmem rfl
    rw [Trading.turnsWith, if_neg hnot, hturns]
    simpa [Trading.newTurn, h.counted] using h.order.ask apiOnly
  nodup := h.nodup_queued
  counted := by simp [Trading.newTurn, h.counted]
  up := h.up
  unsent := h.unsent
  wanted := h.wanted
  inTime := h.inTime
  held := h.held

lemma Sound.ask (h : w.Sound) (session : Session Spec) (apiOnly : Bool)
    (hnow : w.clock ≤ now) (day : Option (ℤ × ℤ)) (writes : Bool) :
    (w.step session (.ask apiOnly now day writes)).Sound :=
  (h.putting_new apiOnly).sound session hnow day writes _

end Asking

namespace Trading

lemma sweep_cases (session : Session Spec) (now left : ℕ) (day : Option (ℤ × ℤ)) (writes : Bool)
    (s : Trading Spec) :
    (s.sweepCompletedOrdersRequest session now left day writes).1 = s ∨
    s.completedOrdersQueued = [] ∧ (s.sweepCompletedOrdersRequest session now left day writes).1
      = { s with completedOrdersWanted := none } ∨
    ∃ turn, s.completedOrdersQueued.head? = some turn ∧
      (s.sweepCompletedOrdersRequest session now left day writes).1
        = s.sendCompletedOrdersRequest session turn now day writes := by
  unfold sweepCompletedOrdersRequest
  rcases s.completedOrdersWanted with _ | waited
  · exact Or.inl rfl
  dsimp only
  by_cases hopen : s.completedOrdersOpen = true
  · rw [if_pos hopen]
    exact Or.inl rfl
  rw [if_neg hopen]
  by_cases hreplay : (!s.replayDone && decide (now < waited)) = true
  · rw [if_pos hreplay]
    exact Or.inl rfl
  rw [if_neg hreplay]
  rcases hq : s.completedOrdersQueued.head? with _ | turn
  · exact Or.inr (Or.inl ⟨List.head?_eq_none_iff.1 hq, rfl⟩)
  dsimp only
  split_ifs
  · exact Or.inr (Or.inr ⟨turn, rfl, rfl⟩)
  · exact Or.inl rfl

end Trading

namespace Asking

variable {w : Asking Spec}

lemma Sound.sweep (h : w.Sound) (session : Session Spec) {now : ℕ} (hnow : w.clock ≤ now)
    (left : ℕ) (day : Option (ℤ × ℤ)) (writes : Bool) :
    (w.step session (.sweep now left day writes)).Sound := by
  have hstep : (w.step session (.sweep now left day writes)).trading
      = (w.trading.sweepCompletedOrdersRequest session now left day writes).1 := rfl
  rcases w.trading.sweep_cases session now left day writes with
    hsame | ⟨hnil, hforgot⟩ | ⟨turn, hhead, hsent⟩
  · rw [hsame] at hstep
    exact h.same (by rw [hstep]; exact {}) rfl hnow
  · have hsound : ({ w with
        trading := { w.trading with completedOrdersWanted := none }
        onWire := (w.step session (.sweep now left day writes)).onWire
        clock := now } : Asking Spec).Sound := {
      order := h.order
      counted := h.counted
      up := h.up
      unsent := h.unsent
      wanted := fun hne => absurd hnil hne
      inTime := by simp
      held := fun hold hh => (h.held hold hh).trans (by simpa using hnow) }
    rw [← hforgot] at hsound
    exact hsound
  · have hsound := (h.putting (List.mem_of_head? hhead)).sound session hnow day writes
      (w.step session (.sweep now left day writes)).onWire
    rw [← hsent] at hsound
    exact hsound

/-- **An event takes and settles turns, and a question adds one.** -/
theorem Sound.step (h : w.Sound) (session : Session Spec) {e : TradingEvent Spec}
    (he : w.Lawful e) : (w.step session e).Sound := by
  cases e with
  | drop => exact h.drop session
  | logon now => exact h.logon session (he.1 now rfl) he.2
  | ends what now account => exact h.ends session what (he.1 now rfl) account
  | pass now writes => exact h.pass session (he.1 now rfl) writes
  | ask apiOnly now day writes => exact h.ask session apiOnly (he.1 now rfl) day writes
  | sweep now left day writes => exact h.sweep session (he.1 now rfl) left day writes
  | place id entry => exact h.same {} rfl le_rfl
  | order id ev =>
      refine h.same ?_ rfl le_rfl
      cases ev <;> exact {}
  | sendsOut ids => exact h.same {} rfl le_rfl

end Asking

/-! ## What goes out -/

namespace Trading

@[simp]
lemma window_of_shut {s : Trading Spec} (h : s.completedOrdersOpen = false) : s.window = [] := by
  simp [window, h]

lemma Same.window_eq {s s' : Trading Spec} (h : s.Same s') : s'.window = s.window := by
  simp only [Trading.window, h.window, h.question, h.askedOn]

lemma asked_send (session : Session Spec) (turn now : ℕ) {s : Trading Spec}
    (hunsent : s.recovery.question = .out →
      s.completedOrdersOpen = true ∨ s.conn = some { writeFailed := true })
    (day : Option (ℤ × ℤ)) (writes : Bool) :
    ((s.sendCompletedOrdersRequest session turn now day writes).asked = s.asked ∧
      (s.sendCompletedOrdersRequest session turn now day writes).window = s.window) ∨
    ∃ q : FinishedQuestion, q.asker = .caller turn ∧ s.waits turn now = false ∧ s.conn ≠ none ∧
      s.window = [] ∧
      (s.sendCompletedOrdersRequest session turn now day writes).asked = s.asked ++ [q] ∧
      (s.sendCompletedOrdersRequest session turn now day writes).window = [.caller turn] := by
  rcases hw : s.waits turn now with _ | _
  case true =>
    have hsend : s.sendCompletedOrdersRequest session turn now day writes = s.queued turn now := by
      rw [sendCompletedOrdersRequest, if_pos hw]
    rw [hsend]
    exact Or.inl ⟨rfl, rfl⟩
  case false =>
    have hopen := (waits_eq_false hw).2.1
    rcases send_goes session hw day writes with ⟨q, hq, hconn, hsend⟩ | ⟨conn, -, hsend⟩
    · have hours : s.recovery.question ≠ .out := fun hout => by
        rcases hunsent hout with h | h
        · exact absurd h (by simp [hopen])
        · rw [hconn] at h
          exact absurd h (by decide)
      rw [hsend]
      exact Or.inr ⟨q, hq, rfl, by simp [hconn], window_of_shut hopen, rfl,
        by simp [window, taken, hours]⟩
    · rw [hsend]
      exact Or.inl ⟨rfl, by simp [window, taken, endCompletedOrders, hopen]⟩

end Trading

namespace Asking

variable {w : Asking Spec}

/-- What an event sends out: nothing, the window left as it was; nothing, the window shut; or one
question, through a window that was shut. -/
inductive Sends (session : Session Spec) (w : Asking Spec) (e : TradingEvent Spec) : Prop
  | nothing (hsent : w.sent session e = []) (hwire : w.unanswered e = w.onWire)
      (hwindow : (w.step session e).trading.window = w.trading.window)
  | shuts (hsent : w.sent session e = []) (hwhat : e = .drop ∨ ∃ what now account,
      e = .ends what now account) (hwindow : (w.step session e).trading.window = [])
  | one (q : FinishedQuestion) (hsent : w.sent session e = [q]) (hwire : w.unanswered e = w.onWire)
      (hbefore : w.trading.window = []) (hwindow : (w.step session e).trading.window = [q.asker])
      (hintime : q.asker ≠ .recovery → w.trading.conn ≠ none ∧
        (w.trading.replayDone = true ∨ ∃ now ∈ e.now, ∃ hold,
          (w.step session e).trading.replayHoldUntil = some hold ∧ hold ≤ now))

@[simp]
lemma step_trading (session : Session Spec) (w : Asking Spec) (e : TradingEvent Spec) :
    (w.step session e).trading = w.trading.step session e := rfl

variable {e : TradingEvent Spec} {session : Session Spec}

lemma sent_of_same
    (h : (w.trading.step session e).asked = w.trading.asked) : w.sent session e = [] := by
  simp [sent, h]

lemma sent_of_append {q : FinishedQuestion}
    (h : (w.trading.step session e).asked = w.trading.asked ++ [q]) : w.sent session e = [q] := by
  simp [sent, h]

lemma sends_of_same
    (h : w.trading.Same (w.trading.step session e)) (hwire : w.unanswered e = w.onWire) :
    w.Sends session e :=
  .nothing (sent_of_same h.asked) hwire h.window_eq

lemma sends_of_put (session : Session Spec) {s : Trading Spec}
    {turn now : ℕ} {day : Option (ℤ × ℤ)} {writes : Bool} (hnow : e.now = some now)
    (hstep : w.trading.step session e = s.sendCompletedOrdersRequest session turn now day writes)
    (hs : s.asked = w.trading.asked ∧ s.window = w.trading.window ∧ s.conn = w.trading.conn ∧
      s.replayDone = w.trading.replayDone)
    (hunsent : s.recovery.question = .out →
      s.completedOrdersOpen = true ∨ s.conn = some { writeFailed := true })
    (hwire : w.unanswered e = w.onWire) : w.Sends session e := by
  obtain ⟨hasked, hwindow, hconn, hdone⟩ := hs
  rcases Trading.asked_send session turn now hunsent day writes with
    ⟨hno, hsame⟩ | ⟨q, hq, hwaits, hup, hshut, hone, hopen⟩
  · exact .nothing (sent_of_same (by rw [hstep, hno, hasked])) hwire
      (by rw [step_trading, hstep, hsame, hwindow])
  · have hhold : (s.sendCompletedOrdersRequest session turn now day writes).replayHoldUntil
        = some (s.holdUntil now) := by
      rcases Trading.send_goes session hwaits day writes with ⟨_, _, _, hsend⟩ | ⟨_, _, hsend⟩
      · rw [hsend]
        rfl
      · rw [hsend]
        rfl
    refine .one q (sent_of_append (by rw [hstep, hone, hasked])) hwire (hwindow ▸ hshut)
      (by rw [step_trading, hstep, hopen, hq]) (fun _ => ⟨hconn ▸ hup, ?_⟩)
    refine (Trading.waits_eq_false hwaits).1.imp (fun h => hdone ▸ h) fun hover => ?_
    exact ⟨now, hnow, s.holdUntil now, by rw [step_trading, hstep, hhold], hover⟩

/-- **One event sends one question at most, through a window that is shut.** -/
theorem Sound.sends (h : w.Sound) (session : Session Spec) (e : TradingEvent Spec)
    (he : w.Lawful e) : w.Sends session e := by
  obtain ⟨ended, apiOnly, hclosed⟩ := w.trading.closed_frame
  cases e with
  | drop =>
      refine .shuts (sent_of_same ?_) (Or.inl rfl) (Trading.window_of_shut ?_)
      · change (w.trading.handleDisconnect session.placing).asked = _
        rw [Trading.drop_closes, hclosed]
      · change (w.trading.handleDisconnect session.placing).completedOrdersOpen = _
        rw [Trading.drop_closes, hclosed]
  | ends what now account =>
      obtain ⟨book, notices, cancels, recovery, openHeld, sweepAt, hends, -⟩ :=
        w.trading.end_closes session now account
      refine .shuts (sent_of_same ?_) (Or.inr ⟨what, now, account, rfl⟩)
        (Trading.window_of_shut ?_)
      · change (w.trading.endWhatTheVenueNames session now account).asked = _
        rw [hends, hclosed]
      · change (w.trading.endWhatTheVenueNames session now account).completedOrdersOpen = _
        rw [hends, hclosed]
  | logon now =>
      refine .nothing (sent_of_same rfl) rfl ?_
      change (w.trading.reconnect now).window = _
      rw [Trading.reconnect, Trading.beginTheRecovery, Trading.window, Trading.window]
      simp
  | pass now writes =>
      rcases w.trading.carry_cases session now writes with
        hsame | ⟨hopen, s₀, t, hsame, -, ⟨q, hq, -, hsent⟩ | hfailed⟩
      · exact sends_of_same hsame rfl
      · refine .one q (sent_of_append ?_) rfl (Trading.window_of_shut hopen) ?_
          (fun hne => absurd hq hne)
        · change (w.trading.carryTheRecovery session now writes).asked = _
          rw [hsent]
        · change (w.trading.carryTheRecovery session now writes).window = _
          rw [hsent, hq]
          simp [Trading.window]
      · refine .nothing (sent_of_same ?_) rfl ?_
        · change (w.trading.carryTheRecovery session now writes).asked = _
          rw [hfailed]
          exact hsame.asked
        · change (w.trading.carryTheRecovery session now writes).window = _
          rw [hfailed, Trading.window_of_shut hopen]
          exact Trading.window_of_shut (hsame.window.trans hopen)
  | ask apiOnly now day writes =>
      exact sends_of_put session rfl rfl ⟨rfl, rfl, rfl, rfl⟩ h.unsent rfl
  | sweep now left day writes =>
      rcases w.trading.sweep_cases session now left day writes with
        hsame | ⟨hnil, hforgot⟩ | ⟨turn, hhead, hsent⟩
      · refine sends_of_same ?_ rfl
        change w.trading.Same (w.trading.sweepCompletedOrdersRequest session now left day writes).1
        rw [hsame]
        exact {}
      · refine .nothing (sent_of_same ?_) rfl ?_
        · change (w.trading.sweepCompletedOrdersRequest session now left day writes).1.asked = _
          rw [hforgot]
        · change (w.trading.sweepCompletedOrdersRequest session now left day writes).1.window = _
          rw [hforgot]
          rfl
      · exact sends_of_put session rfl hsent ⟨rfl, rfl, rfl, rfl⟩ h.unsent rfl
  | place id entry => exact sends_of_same {} rfl
  | order id ev =>
      refine sends_of_same ?_ rfl
      cases ev <;> exact {}
  | sendsOut ids => exact sends_of_same {} rfl

lemma Sound.wire (h : w.Sound) (session : Session Spec) (he : w.Lawful e)
    (hquiet : w.Quiet e) (hwire : w.onWire = w.trading.window) :
    (w.step session e).onWire = (w.step session e).trading.window := by
  have hstep : (w.step session e).onWire
      = w.unanswered e ++ (w.sent session e).map FinishedQuestion.asker := rfl
  rw [hstep]
  cases h.sends session e he with
  | nothing hsent hsame hwindow => rw [hsent, hsame, hwindow, hwire, List.map_nil, List.append_nil]
  | one q hsent hsame hbefore hwindow _ => rw [hsent, hsame, hwindow, hwire, hbefore]; rfl
  | shuts hsent hwhat hwindow =>
      rw [hsent, hwindow, List.map_nil, List.append_nil]
      rcases hwhat with rfl | ⟨what, now, account, rfl⟩
      · rfl
      · cases what with
        | naming => exact hquiet
        | answer =>
            have hone : w.trading.window.tail = [] := by
              unfold Trading.window
              split_ifs <;> rfl
            change w.onWire.tail = []
            rw [hwire, hone]

end Asking

/-! ## Every run -/

namespace Asking

lemma sound_opened (book : Book Spec) : (opened book).Sound where
  order := by simp [OnceInOrder, opened, Trading.opened, Trading.turns, Turns.InOrder, Turns.all,
    Turns.numbered, Trading.callersWindow]
  counted := rfl
  up := by simp [opened, Trading.opened]
  unsent := by simp [opened, Trading.opened]
  wanted := by simp [opened, Trading.opened]
  inTime := by simp [opened, Trading.opened]
  held := by simp [opened, Trading.opened]

def plainSession : Session Unit where
  placing := ⟨fun _ stated => stated, fun spec => spec, fun _ => (0, 0, 0), fun _ => false,
    fun _ => 0⟩
  recoverOrder _ held := held
  describe _ _ := none
  apiOrderId id := id
  accountName := "U1"
  boundedQuestion := false

end Asking

end IbkrDx
