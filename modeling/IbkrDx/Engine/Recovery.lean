import Mathlib.Data.Finset.Sort
import IbkrDx.Engine.Revisions

/-!
# The trading connection, dropped and recovered

What the engine keeps of the trading connection across its drops, from
`engine/hot_loop/ccp/recovery.rs` and the questions of finished orders in
`engine/hot_loop/ccp/mod.rs`: a drop keeps the orders it leaves unanswered, a logon begins to
recover them, and the report stating its contract `*` ends what the venue names and every answer to
what it has finished alike.

Times are milliseconds on one clock.  What an order is described as to its program, and the number
its program gave it, are the session's.
-/

namespace IbkrDx

variable {Spec : Type}

/-! ## The book -/

def OrderStatus.inDoubt : OrderStatus → OrderStatus
  | pendingSubmit | preSubmitted | submitted | pendingCancel | pendingReplace | partiallyFilled
  | inactive => uncertain
  | status => status

namespace OrderEntry

def state (e : OrderEntry Spec) : Option OrderStatus := e.order.map Order.status

def isUnanswered (placing : Placing Spec) (e : OrderEntry Spec) : Bool :=
  (e.state == some .pendingSubmit || (e.state == some .uncertain && !e.venueNamed))
    && !e.submitted.any placing.whatIf

def isUnansweredCancel (placing : Placing Spec) (e : OrderEntry Spec) : Bool :=
  e.state == some .pendingCancel && !e.submitted.any placing.whatIf

def markUncertain (e : OrderEntry Spec) : OrderEntry Spec :=
  { e with order := e.order.map fun o => { o with status := o.status.inDoubt } }

end OrderEntry

structure Book (Spec : Type) where
  entries : OrderId → OrderEntry Spec
  ids : Finset OrderId
  covers : ∀ id, (entries id).order.isSome = true → id ∈ ids

namespace Book

def state (b : Book Spec) (id : OrderId) : Option OrderStatus := (b.entries id).state

def set (b : Book Spec) (id : OrderId) (e : OrderEntry Spec) : Book Spec where
  entries := Function.update b.entries id e
  ids := insert id b.ids
  covers := by
    intro other h
    by_cases heq : other = id
    · exact heq ▸ Finset.mem_insert_self _ _
    · rw [Function.update_of_ne heq] at h
      exact Finset.mem_insert_of_mem (b.covers other h)

def unansweredOrders (placing : Placing Spec) (b : Book Spec) : List OrderId :=
  (b.ids.filter fun id => (b.entries id).isUnanswered placing).sort

def unansweredCancels (placing : Placing Spec) (b : Book Spec) : List OrderId :=
  (b.ids.filter fun id => (b.entries id).isUnansweredCancel placing).sort

def markOrdersUncertain (b : Book Spec) : Book Spec where
  entries id := (b.entries id).markUncertain
  ids := b.ids
  covers := by
    intro id h
    exact b.covers id (by simpa [OrderEntry.markUncertain] using h)

end Book

/-! ## The state -/

def recoveryBound : ℕ := 60000

def recoveryPushGrace : ℕ := 30000

def completedOrdersHold : ℕ := 3000

def cannotTransmit : ℤ := 106

/-- Where the recovery's question of what the venue has finished stands. -/
inductive Question where
  | none
  /-- To be asked on the next pass. -/
  | due
  /-- Asked; its answer ends at the report stating its contract `*`. -/
  | out
  deriving DecidableEq

structure Recovery where
  unanswered : List OrderId := []
  cancelling : List OrderId := []
  /-- `until`: when it is given up on. -/
  deadline : Option ℕ := none
  /-- Whether the connection now up began it. -/
  here : Bool := false
  question : Question := .none
  /-- Whether what the drop left waiting may go out. -/
  isOver : Bool := false
  sentOnce : Finset OrderId := ∅
  latestReport : ℤ := 0
  account : Option String := none

/-- Whether the drop left the recovery anything to settle. -/
def Recovery.holds (r : Recovery) : Bool := r.unanswered != [] || r.cancelling != []

def Recovery.atDrop (unanswered cancelling : List OrderId) (r : Recovery) : Recovery :=
  let asked := { r with isOver := false, question := .none }
  if r.deadline.isSome then { asked with here := false }
  else { asked with
    unanswered := if r.unanswered = [] then unanswered else r.unanswered
    cancelling := if r.cancelling = [] then cancelling else r.cancelling }

@[simp]
lemma Recovery.atDrop_question (unanswered cancelling : List OrderId) (r : Recovery) :
    (r.atDrop unanswered cancelling).question = .none := by
  unfold Recovery.atDrop
  dsimp only
  split_ifs <;> rfl

/-- What a logon leaves of the recovery: begun, where a drop left something and none is under
way. -/
def Recovery.begun (now : ℕ) (r : Recovery) : Recovery :=
  if r.holds && r.deadline.isNone then
    { r with deadline := some (now + recoveryBound), here := true }
  else r

@[simp]
lemma Recovery.begun_question (now : ℕ) (r : Recovery) : (r.begun now).question = r.question := by
  unfold Recovery.begun
  split_ifs <;> rfl

def Recovery.judged (r : Recovery) : Recovery :=
  { r with unanswered := [], cancelling := [], deadline := none, here := false }

inductive Asker where
  | caller (turn : ℕ)
  | recovery
  deriving DecidableEq

structure FinishedQuestion where
  asker : Asker
  account : String
  since : Option ℤ := none
  upTo : Option ℤ := none
  deriving DecidableEq

structure Transport where
  writeFailed : Bool := false
  deriving DecidableEq

structure OrderNotice where
  orderId : OrderId
  code : ℤ
  text : String
  deriving DecidableEq

structure Session (Spec : Type) where
  placing : Placing Spec
  recoverOrder : OrderReport → Option Order → Option Order
  describe : OrderId → OrderEntry Spec → Option String
  /-- The number its program gave an order. -/
  apiOrderId : OrderId → ℤ
  accountName : String
  /-- Whether the logon offers a question bounded in time. -/
  boundedQuestion : Bool

structure Trading (Spec : Type) where
  conn : Option Transport
  book : Book Spec
  recovery : Recovery := {}
  /-- Whether a question of finished orders is being answered. -/
  completedOrdersOpen : Bool := false
  completedOrdersWanted : Option ℕ := none
  completedOrdersAskedOn : ℕ := 0
  completedOrdersQueued : List ℕ := []
  /-- Of a turn that is not over, whether its caller asked for its own orders alone. -/
  completedOrdersApiOnly : ℕ → Option Bool := fun _ => none
  completedOrdersNextTurn : ℕ := 0
  replayHoldUntil : Option ℕ := none
  replayDone : Bool := false
  recoverySweepAt : Option ℕ := none
  openOrdersHeld : Bool := false
  /-- The turns that ended, oldest first, each with what its answer is scoped to. -/
  ended : List (ℕ × Bool) := []
  pendingCancels : List OrderId := []
  notices : List OrderNotice := []
  asked : List FinishedQuestion := []

namespace Trading

def sendFix (t : Transport) (writes : Bool) : Transport × Bool :=
  if t.writeFailed || !writes then ({ writeFailed := true }, false) else (t, true)

/-! ## Callers' questions -/

def endCompletedOrders (turn : ℕ) (s : Trading Spec) : Trading Spec :=
  { s with
    ended := s.ended ++ [(turn, (s.completedOrdersApiOnly turn).getD false)]
    completedOrdersApiOnly := Function.update s.completedOrdersApiOnly turn none }

/-- How long a question waits for the replay, where the venue does not end it. -/
def holdUntil (now : ℕ) (s : Trading Spec) : ℕ :=
  s.replayHoldUntil.getD (now + completedOrdersHold)

/-- Whether a question on this turn waits: for the replay, for the answer being assembled, or for
one asked before it. -/
def waits (turn now : ℕ) (s : Trading Spec) : Bool :=
  let theReplayCouldStillBeRunning := !s.replayDone && decide (now < s.holdUntil now)
  let behindAnEarlier := s.completedOrdersQueued.head?.any (· != turn)
  theReplayCouldStillBeRunning || s.completedOrdersOpen || behindAnEarlier

def queued (turn now : ℕ) (s : Trading Spec) : Trading Spec :=
  { s with
    replayHoldUntil := some (s.holdUntil now)
    completedOrdersWanted := some (s.completedOrdersWanted.getD (s.holdUntil now))
    completedOrdersQueued := if turn ∈ s.completedOrdersQueued then s.completedOrdersQueued
      else s.completedOrdersQueued ++ [turn] }

def taken (turn now : ℕ) (s : Trading Spec) : Trading Spec :=
  let queued := s.completedOrdersQueued.filter (· ≠ turn)
  { s with
    replayHoldUntil := some (s.holdUntil now)
    completedOrdersQueued := queued
    completedOrdersWanted := if queued = [] then none else s.completedOrdersWanted
    completedOrdersAskedOn := turn }

/-- Ask what the venue has finished on this turn, or hold the question.  `day` is the session's day,
where its start and its end can be read. -/
def sendCompletedOrdersRequest (session : Session Spec) (turn now : ℕ) (day : Option (ℤ × ℤ))
    (writes : Bool) (s : Trading Spec) : Trading Spec :=
  if s.waits turn now then s.queued turn now
  else
    let taken := s.taken turn now
    match s.conn, day with
    | none, _ | some _, none => taken.endCompletedOrders turn
    | some t, some (start, finish) =>
        match sendFix t writes with
        | (t, true) =>
            { taken with
              conn := some t
              completedOrdersOpen := true
              asked := taken.asked ++
                [⟨.caller turn, session.accountName, some start, some finish⟩] }
        | (t, false) => { taken with conn := some t }.endCompletedOrders turn

def newTurn (apiOnly : Bool) (s : Trading Spec) : Trading Spec :=
  let turn := s.completedOrdersNextTurn + 1
  { s with
    completedOrdersNextTurn := turn
    completedOrdersApiOnly := Function.update s.completedOrdersApiOnly turn (some apiOnly) }

def askCompletedOrders (session : Session Spec) (apiOnly : Bool) (now : ℕ) (day : Option (ℤ × ℤ))
    (writes : Bool) (s : Trading Spec) : Trading Spec :=
  let numbered := s.newTurn apiOnly
  numbered.sendCompletedOrdersRequest session numbered.completedOrdersNextTurn now day writes

/-- Send the question held longest, where nothing holds it now.  The second part is what is left of
the budget. -/
def sweepCompletedOrdersRequest (session : Session Spec) (now left : ℕ) (day : Option (ℤ × ℤ))
    (writes : Bool) (s : Trading Spec) : Trading Spec × ℕ :=
  match s.completedOrdersWanted with
  | none => (s, left)
  | some waitedSince =>
      if s.completedOrdersOpen then (s, left)
      else if !s.replayDone && decide (now < waitedSince) then (s, left)
      else match s.completedOrdersQueued.head? with
        | none => ({ s with completedOrdersWanted := none }, left)
        | some turn =>
            if 0 < left then
              (s.sendCompletedOrdersRequest session turn now day writes, left - 1)
            else (s, left)

/-! ## The recovery -/

/-- Keep the orders a drop leaves sent and unanswered, where no recovery keeps some. -/
def keepWhatTheDropLeaves (placing : Placing Spec) (s : Trading Spec) : Trading Spec :=
  { s with
    openOrdersHeld := true
    completedOrdersOpen :=
      if s.recovery.question = .out then false else s.completedOrdersOpen
    recovery := s.recovery.atDrop (s.book.unansweredOrders placing)
      (s.book.unansweredCancels placing) }

def handleDisconnect (placing : Placing Spec) (s : Trading Spec) : Trading Spec :=
  let kept := { s with conn := none, recoverySweepAt := none }.keepWhatTheDropLeaves placing
  let unheld := { kept with replayHoldUntil := none }
  let closed :=
    if unheld.completedOrdersOpen then
      { unheld with completedOrdersOpen := false }.endCompletedOrders unheld.completedOrdersAskedOn
    else unheld
  { closed with book := closed.book.markOrdersUncertain }

/-- A logon begins the recovery, where a drop left something and none is under way. -/
def beginTheRecovery (now : ℕ) (s : Trading Spec) : Trading Spec :=
  { s with recovery := s.recovery.begun now }

def reconnect (now : ℕ) (s : Trading Spec) : Trading Spec :=
  { ({ s with conn := some {}, replayDone := false }.beginTheRecovery now) with
    recoverySweepAt := some (now + recoveryPushGrace) }

def letGoOfWhatWaited (now : ℕ) (s : Trading Spec) : Trading Spec :=
  { s with
    recovery := { s.recovery with isOver := true }
    openOrdersHeld := false
    recoverySweepAt := s.recoverySweepAt.map fun _ => now }

def theAnswerIsTheRecoverys (s : Trading Spec) : Bool :=
  s.completedOrdersOpen && s.recovery.question == .out

/-- Whether one of an order's family is among those still to be judged. -/
def familyToCome (placing : Placing Spec) (b : Book Spec) (orderId : OrderId)
    (later : List OrderId) : Bool :=
  let parent := fun id => ((b.entries id).submitted.map placing.parentId).getD 0
  later.any fun id => parent id == orderId || (parent orderId != 0 && parent id == parent orderId)

/-- Judge the orders kept, in their order: one still in doubt is held inactive. -/
def judgeEach (session : Session Spec) : List OrderId → Trading Spec → Trading Spec
  | [], s => s
  | orderId :: later, s =>
      if s.book.state orderId = some .uncertain then
        let entry := (s.book.entries orderId).setOrderStatusForced .inactive
        let held := { s with book := s.book.set orderId entry }
        let told :=
          if familyToCome session.placing s.book orderId later
              || orderId ∉ s.recovery.sentOnce then held
          else match session.describe orderId entry with
            | none => held
            | some description =>
                { held with notices := held.notices ++ [⟨orderId, cannotTransmit,
                  "Can't transmit order id:" ++ toString (session.apiOrderId orderId) ++ ", "
                    ++ description⟩] }
        judgeEach session later told
      else judgeEach session later s

/-- One cancellation kept: written again where the answers show the order working. -/
def settleAnUnansweredCancel (s : Trading Spec) (orderId : OrderId) : Trading Spec :=
  match s.book.state orderId with
  | none | some .pendingCancel | some .uncertain => s
  | some status =>
      if status.isTerminal then s
      else { s with pendingCancels := s.pendingCancels ++ [orderId] }

def judgeWhatTheDropLeft (session : Session Spec) (s : Trading Spec) : Trading Spec :=
  let judged := judgeEach session s.recovery.unanswered
    { s with recovery := { s.recovery with unanswered := [], deadline := none, here := false } }
  s.recovery.cancelling.foldl settleAnUnansweredCancel
    { judged with recovery := { judged.recovery with cancelling := [] } }

def recoverAtTheEnd (session : Session Spec) (now : ℕ) (ours : Bool) (account : Option String)
    (s : Trading Spec) : Trading Spec :=
  if ours then
    { s with recovery := { s.recovery with question := .none } }.judgeWhatTheDropLeft session
      |>.letGoOfWhatWaited now
  else if s.recovery.here && s.recovery.holds && s.recovery.question == .none then
    { s with recovery := { s.recovery with account := account, question := .due } }
  else if s.recovery.question = .none then s.letGoOfWhatWaited now
  else s

/-- The report stating its contract `*`. -/
def endWhatTheVenueNames (session : Session Spec) (now : ℕ) (account : Option String)
    (s : Trading Spec) : Trading Spec :=
  let theRecoverys := s.theAnswerIsTheRecoverys
  let closed :=
    if s.completedOrdersOpen then
      let shut := { s with completedOrdersOpen := false }
      if theRecoverys then shut else shut.endCompletedOrders s.completedOrdersAskedOn
    else s
  { closed with replayDone := true }.recoverAtTheEnd session now theRecoverys account

/-- How far back the recovery's question asks, in milliseconds. -/
def askedBackTo (now : ℕ) (s : Trading Spec) : ℤ :=
  let sent := (s.recovery.unanswered ++ s.recovery.cancelling).filterMap fun id =>
    (s.book.entries id).placedAt.filter fun at_ => 0 < at_
  let wentOut := sent.min?.map fun at_ => at_ - 1000
  let floor : ℤ := now - 86400000 + 1000
  if s.recovery.latestReport = 0 then wentOut.getD floor
  else max ((wentOut.map fun at_ => min at_ s.recovery.latestReport).getD s.recovery.latestReport)
    floor

def giveUpTheRecovery (now : ℕ) (s : Trading Spec) : Trading Spec :=
  if s.recovery.deadline.any fun deadline => deadline ≤ now then
    { s with
      openOrdersHeld := false
      recovery := { s.recovery with
        unanswered := []
        cancelling := []
        deadline := none
        here := false
        question := if s.recovery.question = .due then .none else s.recovery.question } }
  else s

/-- A pass of the loop: give the recovery up where its bound has passed, and ask its question where
it is due. -/
def carryTheRecovery (session : Session Spec) (now : ℕ) (writes : Bool) (s : Trading Spec) :
    Trading Spec :=
  let s := s.giveUpTheRecovery now
  if s.recovery.question ≠ .due ∨ s.completedOrdersOpen then s
  else match s.conn with
    | none => s
    | some t =>
        let out := { s with recovery := { s.recovery with question := .out } }
        match sendFix t writes with
        | (t, true) =>
            { out with
              conn := some t
              completedOrdersOpen := true
              asked := out.asked ++ [{
                asker := .recovery
                account := s.recovery.account.getD session.accountName
                since := if session.boundedQuestion then some (s.askedBackTo now / 1000)
                  else none }] }
        | (t, false) => { out with conn := some t }

/-! ## What happens -/

def noteReportTime (r : OrderReport) (s : Trading Spec) : Trading Spec :=
  { s with recovery := { s.recovery with
      latestReport := (r.time.map (max s.recovery.latestReport)).getD s.recovery.latestReport } }

def orderStep (session : Session Spec) (id : OrderId) (ev : OrderEvent Spec) (s : Trading Spec) :
    Trading Spec :=
  let entry := (s.book.entries id).step session.placing session.recoverOrder id ev
  let moved := { s with book := s.book.set id entry }
  match ev with
  | .report r => moved.noteReportTime r
  | _ => moved

/-! ## What is left alone -/

lemma judgeEach_frame (session : Session Spec) (ids : List OrderId) (s : Trading Spec) :
    ∃ book notices, judgeEach session ids s = { s with book := book, notices := notices } := by
  induction ids generalizing s with
  | nil => exact ⟨s.book, s.notices, rfl⟩
  | cons id later ih =>
      unfold judgeEach
      dsimp only
      split_ifs
      · obtain ⟨book, notices, heq⟩ := ih { s with book := s.book.set id _ }
        exact ⟨book, notices, heq⟩
      · split
        · obtain ⟨book, notices, heq⟩ := ih { s with book := s.book.set id _ }
          exact ⟨book, notices, heq⟩
        · obtain ⟨book, notices, heq⟩ :=
            ih { s with book := s.book.set id _, notices := s.notices ++ [_] }
          exact ⟨book, notices, heq⟩
      · exact ih s

lemma settle_frame (ids : List OrderId) (s : Trading Spec) :
    ∃ cancels, ids.foldl settleAnUnansweredCancel s = { s with pendingCancels := cancels } := by
  induction ids generalizing s with
  | nil => exact ⟨s.pendingCancels, rfl⟩
  | cons id later ih =>
      have hone : ∃ cancels, settleAnUnansweredCancel s id = { s with pendingCancels := cancels } := by
        unfold settleAnUnansweredCancel
        split
        · exact ⟨_, rfl⟩
        · exact ⟨_, rfl⟩
        · exact ⟨_, rfl⟩
        · split
          · exact ⟨_, rfl⟩
          · exact ⟨_, rfl⟩
      obtain ⟨cancels, hcancels⟩ := hone
      obtain ⟨rest, hrest⟩ := ih { s with pendingCancels := cancels }
      exact ⟨rest, by rw [List.foldl_cons, hcancels, hrest]⟩

lemma judgeWhatTheDropLeft_frame (session : Session Spec) (s : Trading Spec) :
    ∃ book notices cancels, s.judgeWhatTheDropLeft session = { s with
      book := book, notices := notices, pendingCancels := cancels,
      recovery := s.recovery.judged } := by
  unfold judgeWhatTheDropLeft
  obtain ⟨book, notices, hjudged⟩ := judgeEach_frame session s.recovery.unanswered
    { s with recovery := { s.recovery with unanswered := [], deadline := none, here := false } }
  simp only [hjudged]
  obtain ⟨cancels, hcancels⟩ := settle_frame s.recovery.cancelling { s with
    book := book, notices := notices, recovery := s.recovery.judged }
  exact ⟨book, notices, cancels, hcancels⟩

lemma recoverAtTheEnd_frame (session : Session Spec) (now : ℕ) (ours : Bool)
    (account : Option String) (s : Trading Spec) :
    ∃ book notices cancels recovery openHeld sweepAt,
      s.recoverAtTheEnd session now ours account = { s with
        book := book, notices := notices, pendingCancels := cancels, recovery := recovery,
        openOrdersHeld := openHeld, recoverySweepAt := sweepAt } ∧
      (recovery.question = .out → s.recovery.question = .out ∧ ours = false) := by
  unfold recoverAtTheEnd
  cases ours with
  | true =>
      obtain ⟨book, notices, cancels, hjudged⟩ := judgeWhatTheDropLeft_frame session
        { s with recovery := { s.recovery with question := .none } }
      simp only [if_true, hjudged]
      exact ⟨book, notices, cancels, _, _, _, rfl, by simp [Recovery.judged]⟩
  | false =>
      simp only [Bool.false_eq_true, if_false]
      split_ifs with hdue hnone
      · exact ⟨_, _, _, _, _, _, rfl, by simp⟩
      · exact ⟨_, _, _, _, _, _, rfl, by simp [hnone]⟩
      · exact ⟨_, _, _, _, _, _, rfl, by simp⟩

end Trading

/-- What the report stating its contract `*` ends: what the venue names, or the answer to a
question.  The report itself does not say. -/
inductive EndOf where
  | naming
  | answer
  deriving DecidableEq

inductive TradingEvent (Spec : Type) where
  | drop
  | logon (now : ℕ)
  /-- The report stating its contract `*` arrives, carrying an account or none. -/
  | ends (what : EndOf) (now : ℕ) (account : Option String)
  | pass (now : ℕ) (writes : Bool)
  /-- A caller asks what the venue has finished. -/
  | ask (apiOnly : Bool) (now : ℕ) (day : Option (ℤ × ℤ)) (writes : Bool)
  /-- The questions held are swept. -/
  | sweep (now left : ℕ) (day : Option (ℤ × ℤ)) (writes : Bool)
  | place (id : OrderId) (entry : OrderEntry Spec)
  /-- A replace, a cancel, a report or a cancel reject of one order. -/
  | order (id : OrderId) (ev : OrderEvent Spec)
  /-- The recovery sends these placements out. -/
  | sendsOut (ids : Finset OrderId)

def Trading.step (session : Session Spec) (s : Trading Spec) : TradingEvent Spec → Trading Spec
  | .drop => s.handleDisconnect session.placing
  | .logon now => s.reconnect now
  | .ends _ now account => s.endWhatTheVenueNames session now account
  | .pass now writes => s.carryTheRecovery session now writes
  | .ask apiOnly now day writes => s.askCompletedOrders session apiOnly now day writes
  | .sweep now left day writes => (s.sweepCompletedOrdersRequest session now left day writes).1
  | .place id entry => { s with book := s.book.set id entry }
  | .order id ev => s.orderStep session id ev
  | .sendsOut ids =>
      { s with recovery := { s.recovery with sentOnce := s.recovery.sentOnce ∪ ids } }

end IbkrDx
