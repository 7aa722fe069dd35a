import IbkrDx.Engine.FinishedQuestions

/-!
# A recovery judges each order once

A drop keeps the orders the venue had not answered, a logon begins to recover them, and they are
judged when the venue has ended both what it names and what it has finished.

* **`recoveries_judge_once`** — every event is good in a run in which no drop keeps an order on both
  lists.  `not_recoveries_judge_once` is a second drop that does.
-/

namespace IbkrDx

variable {Spec : Type}

/-! ## What is judged, and what is written again -/

namespace Book

@[simp]
lemma state_set (b : Book Spec) (id : OrderId) (e : OrderEntry Spec) (other : OrderId) :
    (b.set id e).state other = if other = id then e.state else b.state other := by
  unfold Book.state Book.set
  by_cases h : other = id
  · subst h
    simp
  · simp [h]

lemma state_markOrdersUncertain (b : Book Spec) (id : OrderId) :
    b.markOrdersUncertain.state id = (b.state id).map OrderStatus.inDoubt := by
  simp only [Book.state, markOrdersUncertain, OrderEntry.state, OrderEntry.markUncertain,
    Option.map_map]
  rfl

lemma mem_unansweredOrders {placing : Placing Spec} {b : Book Spec} {id : OrderId} :
    id ∈ b.unansweredOrders placing ↔ id ∈ b.ids ∧ (b.entries id).isUnanswered placing = true := by
  simp [unansweredOrders]

lemma mem_unansweredCancels {placing : Placing Spec} {b : Book Spec} {id : OrderId} :
    id ∈ b.unansweredCancels placing ↔
      id ∈ b.ids ∧ (b.entries id).isUnansweredCancel placing = true := by
  simp [unansweredCancels]

lemma nodup_unansweredCancels (placing : Placing Spec) (b : Book Spec) :
    (b.unansweredCancels placing).Nodup := Finset.sort_nodup _ _

end Book

namespace OrderEntry

lemma state_of_isUnanswered {placing : Placing Spec} {e : OrderEntry Spec}
    (h : e.isUnanswered placing = true) : e.state = some .pendingSubmit ∨ e.state = some .uncertain := by
  simp only [isUnanswered, Bool.and_eq_true, Bool.or_eq_true, beq_iff_eq] at h
  exact h.1.imp id And.left

lemma state_of_isUnansweredCancel {placing : Placing Spec} {e : OrderEntry Spec}
    (h : e.isUnansweredCancel placing = true) : e.state = some .pendingCancel := by
  simp only [isUnansweredCancel, Bool.and_eq_true, beq_iff_eq] at h
  exact h.1

lemma state_setOrderStatusForced (status : OrderStatus) (e : OrderEntry Spec) :
    (e.setOrderStatusForced status).state = e.state.map fun _ => status := by
  simp [OrderEntry.state, setOrderStatusForced, Option.map_map, Function.comp_def]

end OrderEntry

namespace Trading

def state (s : Trading Spec) (id : OrderId) : Option OrderStatus := s.book.state id

lemma judgeEach_state (session : Session Spec) (ids : List OrderId) (s : Trading Spec)
    (id : OrderId) : (judgeEach session ids s).state id =
      if id ∈ ids ∧ s.state id = some .uncertain then some .inactive else s.state id := by
  induction ids generalizing s with
  | nil => simp [judgeEach]
  | cons first later ih =>
      unfold judgeEach
      by_cases hdoubt : s.book.state first = some .uncertain
      · rw [if_pos hdoubt]
        have htold : ∀ told : Trading Spec,
            told.book = s.book.set first ((s.book.entries first).setOrderStatusForced .inactive) →
            (judgeEach session later told).state id
              = if id ∈ first :: later ∧ s.state id = some .uncertain then some .inactive
                else s.state id := by
          intro told hbook
          have hfirst : (s.book.entries first).state = some .uncertain := hdoubt
          rw [ih]
          simp only [Trading.state, hbook, Book.state_set, OrderEntry.state_setOrderStatusForced,
            hfirst, Option.map_some]
          by_cases heq : id = first
          · subst heq
            simp [hdoubt]
          · simp [heq]
        refine htold _ ?_
        split_ifs
        · rfl
        · split <;> rfl
      · rw [if_neg hdoubt, ih]
        by_cases heq : id = first
        · subst heq
          simp [Trading.state, hdoubt]
        · simp [heq]

def writtenAgain (s : Trading Spec) (id : OrderId) : Bool :=
  match s.state id with
  | none | some .pendingCancel | some .uncertain => false
  | some status => !status.isTerminal

lemma settle_eq (ids : List OrderId) (s : Trading Spec) :
    ids.foldl settleAnUnansweredCancel s
      = { s with pendingCancels := s.pendingCancels ++ ids.filter s.writtenAgain } := by
  induction ids generalizing s with
  | nil => simp
  | cons id later ih =>
      have hone : settleAnUnansweredCancel s id
          = { s with pendingCancels := s.pendingCancels ++ [id].filter s.writtenAgain } := by
        rcases hs : s.book.state id with _ | status
        · simp [settleAnUnansweredCancel, writtenAgain, state, hs]
        · cases status <;>
            simp [settleAnUnansweredCancel, writtenAgain, state, hs, OrderStatus.isTerminal]
      rw [List.foldl_cons, hone, ih]
      have hsame : ∀ cancels, ({ s with pendingCancels := cancels } : Trading Spec).writtenAgain
          = s.writtenAgain := fun _ => rfl
      have hsplit : (id :: later).filter s.writtenAgain
          = [id].filter s.writtenAgain ++ later.filter s.writtenAgain := by
        rw [← List.filter_append, List.singleton_append]
      simp only [hsame, hsplit, List.append_assoc]

lemma judgeWhatTheDropLeft_eq (session : Session Spec) (s : Trading Spec) :
    ∃ book notices, s.judgeWhatTheDropLeft session = { s with
        book := book, notices := notices, recovery := s.recovery.judged,
        pendingCancels := s.pendingCancels
          ++ s.recovery.cancelling.filter { s with book := book }.writtenAgain } ∧
      ∀ id, book.state id = if id ∈ s.recovery.unanswered ∧ s.state id = some .uncertain then
        some .inactive else s.state id := by
  have hstate := judgeEach_state session s.recovery.unanswered
    { s with recovery := { s.recovery with unanswered := [], deadline := none, here := false } }
  obtain ⟨book, notices, hjudged⟩ := judgeEach_frame session s.recovery.unanswered
    { s with recovery := { s.recovery with unanswered := [], deadline := none, here := false } }
  rw [hjudged] at hstate
  refine ⟨book, notices, ?_, hstate⟩
  unfold judgeWhatTheDropLeft
  simp only [hjudged, settle_eq]
  rfl

end Trading

/-! ## What is claimed -/

/-- The trading connection, beside what a drop kept and what the venue has stated since. -/
structure Recovering (Spec : Type) where
  asking : Asking Spec
  /-- The orders unanswered, and the cancels, as the drop that began the recovery kept them. -/
  kept : List OrderId × List OrderId := ([], [])
  /-- The orders the venue has stated since the last drop, in a state other than in doubt. -/
  stated : Finset OrderId := ∅
  rewritten : List OrderId := []

namespace Recovering

def trading (w : Recovering Spec) : Trading Spec := w.asking.trading

def writes (session : Session Spec) (w : Recovering Spec) (e : TradingEvent Spec) : List OrderId :=
  (w.trading.step session e).pendingCancels.drop w.trading.pendingCancels.length

def step (session : Session Spec) (w : Recovering Spec) (e : TradingEvent Spec) :
    Recovering Spec where
  asking := w.asking.step session e
  kept := match e with
    | .drop =>
        if w.trading.recovery.deadline.isSome then w.kept
        else ((w.trading.step session e).recovery.unanswered,
          (w.trading.step session e).recovery.cancelling)
    | _ => w.kept
  stated := match e with
    | .drop => ∅
    | .order id (.report _) | .order id (.cancelReject _ _) =>
        if (w.trading.step session e).state id = some .uncertain then w.stated
        else insert id w.stated
    | _ => w.stated
  rewritten := match e with
    | .drop => if w.trading.recovery.deadline.isSome then w.rewritten else []
    | _ => w.rewritten ++ w.writes session e

/-- Time goes on; a logon finds no connection up, and what the venue sends arrives on one that is;
it ends what it names once on each, and a question it has not been asked is not answered; no
question goes out ahead of the end of the naming; and the order queue holds back what names an order
in doubt. -/
def Lawful (w : Recovering Spec) (e : TradingEvent Spec) : Prop :=
  w.asking.Lawful e ∧ match e with
  | .ends .naming _ _ => w.trading.replayDone = false
  | .ask _ now _ _ | .sweep now _ _ _ =>
      w.trading.replayDone = true ∨ w.trading.conn = none ∨ now < w.trading.holdUntil now
  | .order _ (.report _) | .order _ (.cancelReject _ _) => w.trading.conn ≠ none
  | .order id (.modify _) | .order id .cancel | .place id _ =>
      w.trading.state id ≠ some .uncertain
  | _ => True

instance (w : Recovering Spec) : DecidablePred w.Lawful := fun e =>
  match e with
  | .ends .naming _ _ | .ask .. | .sweep .. | .order _ (.report _) | .order _ (.cancelReject _ _)
    | .order _ (.modify _) | .order _ .cancel | .place .. => inferInstanceAs (Decidable (_ ∧ _))
  | .drop | .logon _ | .ends .answer _ _ | .pass .. | .sendsOut _ =>
      inferInstanceAs (Decidable (_ ∧ True))

/-- No drop keeps, beside a cancel it finds kept, the order the cancel is of. -/
def Apart (placing : Placing Spec) (w : Recovering Spec) : TradingEvent Spec → Prop
  | .drop => w.trading.recovery.deadline = none → w.trading.recovery.unanswered = [] →
      ∀ id ∈ w.trading.recovery.cancelling,
        (w.trading.book.entries id).isUnanswered placing = false
  | _ => True

instance (placing : Placing Spec) (w : Recovering Spec) : DecidablePred (w.Apart placing) :=
  fun e => match e with
  | .drop => inferInstanceAs (Decidable (_ → _ → _))
  | .logon _ | .ends .. | .pass .. | .ask .. | .sweep .. | .place .. | .order .. | .sendsOut _ =>
      isTrue trivial

/-- Both answers are over with this event: what the venue names, and what it has finished. -/
def BothEnd (w : Recovering Spec) (e : TradingEvent Spec) : Prop :=
  (∃ now account, e = .ends .answer now account) ∧ w.trading.replayDone = true ∧
    w.asking.onWire = [.recovery]

/-- An order changed by an end was kept at the drop, was still in doubt when both answers had ended,
and is inactive. -/
def JudgesRightly (session : Session Spec) (w : Recovering Spec) (e : TradingEvent Spec) : Prop :=
  ∀ what now account, e = .ends what now account → ∀ id,
    (w.trading.step session e).state id ≠ w.trading.state id →
      w.BothEnd e ∧ id ∈ w.kept.1 ∧ w.trading.state id = some .uncertain ∧
        (w.trading.step session e).state id = some .inactive

/-- A cancel written again was outstanding at the drop, of an order the venue has stated since as
neither over nor being cancelled, and is written once in a recovery. -/
def RewritesRightly (session : Session Spec) (w : Recovering Spec) (e : TradingEvent Spec) : Prop :=
  (∃ writes, (w.trading.step session e).pendingCancels = w.trading.pendingCancels ++ writes) ∧
  (w.writes session e).Nodup ∧
  ∀ id ∈ w.writes session e, w.BothEnd e ∧ id ∈ w.kept.2 ∧ id ∈ w.stated ∧ id ∉ w.rewritten ∧
    ∃ status, w.trading.state id = some status ∧ status ≠ .pendingCancel ∧ status ≠ .uncertain ∧
      status.isTerminal = false

/-- A drop that finds no recovery under way keeps what it finds unanswered, and where an earlier
drop of the same outage kept some, that. -/
def KeepsRightly (session : Session Spec) (w : Recovering Spec) (e : TradingEvent Spec) : Prop :=
  e = .drop → w.trading.recovery.deadline = none →
    (w.trading.conn ≠ none → (w.step session e).kept =
      (w.trading.book.unansweredOrders session.placing,
        w.trading.book.unansweredCancels session.placing)) ∧
    (∀ id ∈ (w.step session e).kept.1,
      id ∈ w.trading.book.unansweredOrders session.placing ∨ id ∈ w.kept.1) ∧
    ∀ id ∈ (w.step session e).kept.2,
      id ∈ w.trading.book.unansweredCancels session.placing ∨ id ∈ w.kept.2

def AsksAlone (w : Recovering Spec) : Prop :=
  Asker.recovery ∈ w.asking.onWire → w.asking.onWire = [.recovery] ∧ w.trading.conn ≠ none ∧
    w.trading.theAnswerIsTheRecoverys = true

/-- The end of both answers, and the bound, leave nothing kept. -/
def LeavesNothing (session : Session Spec) (w : Recovering Spec) (e : TradingEvent Spec) : Prop :=
  (w.BothEnd e ∨ ∃ now writes, e = .pass now writes ∧
    ∃ deadline, w.trading.recovery.deadline = some deadline ∧ deadline ≤ now) →
  (w.trading.step session e).recovery.unanswered = [] ∧
    (w.trading.step session e).recovery.cancelling = [] ∧
    (w.trading.step session e).recovery.deadline = none

/-- Where both answers end, no order kept is left in doubt. -/
def JudgesAll (session : Session Spec) (w : Recovering Spec) (e : TradingEvent Spec) : Prop :=
  w.BothEnd e → ∀ id ∈ w.trading.recovery.unanswered,
    (w.trading.step session e).state id ≠ some .uncertain

structure Good (session : Session Spec) (w : Recovering Spec) (e : TradingEvent Spec) : Prop where
  judges : w.JudgesRightly session e
  all : w.JudgesAll session e
  rewrites : w.RewritesRightly session e
  keeps : w.KeepsRightly session e
  asks : (w.step session e).AsksAlone
  leaves : w.LeavesNothing session e

def opened (book : Book Spec) : Recovering Spec := { asking := .opened book }

end Recovering

/-! ## What the events do to the recovery -/

namespace Trading

structure Stands (s s' : Trading Spec) : Prop where
  unanswered : s'.recovery.unanswered = s.recovery.unanswered := by rfl
  cancelling : s'.recovery.cancelling = s.recovery.cancelling := by rfl
  deadline : s'.recovery.deadline = s.recovery.deadline := by rfl
  here : s'.recovery.here = s.recovery.here := by rfl
  question : s'.recovery.question = s.recovery.question := by rfl
  conn : s'.conn = none ↔ s.conn = none := by rfl
  replayDone : s'.replayDone = s.replayDone := by rfl
  cancels : s'.pendingCancels = s.pendingCancels := by rfl

lemma send_stands (session : Session Spec) (turn now : ℕ) (s : Trading Spec)
    (day : Option (ℤ × ℤ)) (writes : Bool) :
    s.Stands (s.sendCompletedOrdersRequest session turn now day writes) ∧
      (s.sendCompletedOrdersRequest session turn now day writes).book = s.book ∧
      ((s.sendCompletedOrdersRequest session turn now day writes).completedOrdersOpen = true →
        s.completedOrdersOpen = true ∨
          s.conn ≠ none ∧ (s.replayDone = true ∨ s.holdUntil now ≤ now)) := by
  rcases hw : s.waits turn now with _ | _
  case true =>
    rw [sendCompletedOrdersRequest, if_pos hw]
    exact ⟨{}, rfl, Or.inl⟩
  case false =>
    rcases send_goes session hw day writes with ⟨q, -, hconn, hsend⟩ | ⟨conn, hconn, hsend⟩
    · rw [hsend]
      exact ⟨{ }, rfl, fun _ => Or.inr ⟨by simp [hconn], (waits_eq_false hw).1⟩⟩
    · rw [hsend]
      refine ⟨{ conn := ?_ }, rfl, Or.inl⟩
      rcases hconn with rfl | ⟨hup, rfl⟩
      · rfl
      · simp [endCompletedOrders, hup]

lemma sweep_stands (session : Session Spec) (now left : ℕ) (s : Trading Spec)
    (day : Option (ℤ × ℤ)) (writes : Bool) :
    s.Stands (s.sweepCompletedOrdersRequest session now left day writes).1 ∧
      (s.sweepCompletedOrdersRequest session now left day writes).1.book = s.book ∧
      ((s.sweepCompletedOrdersRequest session now left day writes).1.completedOrdersOpen = true →
        s.completedOrdersOpen = true ∨
          s.conn ≠ none ∧ (s.replayDone = true ∨ s.holdUntil now ≤ now)) := by
  rcases s.sweep_cases session now left day writes with hsame | ⟨-, hforgot⟩ | ⟨turn, -, hsent⟩
  · rw [hsame]
    exact ⟨{}, rfl, Or.inl⟩
  · rw [hforgot]
    exact ⟨{}, rfl, Or.inl⟩
  · rw [hsent]
    exact send_stands session turn now s day writes

lemma carry_frame (session : Session Spec) (now : ℕ) (writes : Bool) (s : Trading Spec) :
    ∃ question, (s.carryTheRecovery session now writes).recovery
        = { (s.giveUpTheRecovery now).recovery with question := question } ∧
      (question = (s.giveUpTheRecovery now).recovery.question ∨
        (s.giveUpTheRecovery now).recovery.question = .due ∧ s.conn ≠ none) ∧
      (s.carryTheRecovery session now writes).book = s.book ∧
      ((s.carryTheRecovery session now writes).conn = none ↔ s.conn = none) ∧
      (s.carryTheRecovery session now writes).replayDone = s.replayDone ∧
      (s.carryTheRecovery session now writes).pendingCancels = s.pendingCancels ∧
      ((s.carryTheRecovery session now writes).completedOrdersOpen = true →
        s.completedOrdersOpen = true ∨ (s.giveUpTheRecovery now).recovery.question = .due) := by
  obtain ⟨hbook, hconn, hdone, hcancels, hopen⟩ : (s.giveUpTheRecovery now).book = s.book ∧
      (s.giveUpTheRecovery now).conn = s.conn ∧
      (s.giveUpTheRecovery now).replayDone = s.replayDone ∧
      (s.giveUpTheRecovery now).pendingCancels = s.pendingCancels ∧
      (s.giveUpTheRecovery now).completedOrdersOpen = s.completedOrdersOpen := by
    unfold giveUpTheRecovery
    split_ifs <;> exact ⟨rfl, rfl, rfl, rfl, rfl⟩
  unfold carryTheRecovery
  dsimp only
  by_cases hnot : (s.giveUpTheRecovery now).recovery.question ≠ .due
      ∨ (s.giveUpTheRecovery now).completedOrdersOpen = true
  · rw [if_pos hnot]
    exact ⟨_, rfl, Or.inl rfl, hbook, by rw [hconn], hdone, hcancels, fun h => Or.inl (hopen ▸ h)⟩
  rw [if_neg hnot]
  simp only [not_or, not_not, Bool.not_eq_true] at hnot
  rcases hc : (s.giveUpTheRecovery now).conn with _ | t
  · exact ⟨_, rfl, Or.inl rfl, hbook, by rw [hconn], hdone, hcancels, fun h => Or.inl (hopen ▸ h)⟩
  have hup : s.conn ≠ none := by simp [← hconn, hc]
  dsimp only
  rcases hsend : sendFix t writes with ⟨t', sent⟩
  cases sent with
  | true =>
      exact ⟨_, rfl, Or.inr ⟨hnot.1, hup⟩, hbook, by simp [hup], hdone, hcancels,
        fun _ => Or.inr hnot.1⟩
  | false =>
      exact ⟨_, rfl, Or.inr ⟨hnot.1, hup⟩, hbook, by simp [hup], hdone, hcancels,
        fun h => Or.inl (hopen ▸ h)⟩

lemma end_cases (session : Session Spec) (now : ℕ) (account : Option String) (s : Trading Spec)
    {s' : Trading Spec} (hs' : s' = s.endWhatTheVenueNames session now account) :
    s'.replayDone = true ∧ s'.completedOrdersOpen = false ∧ s'.conn = s.conn ∧
    ((s.theAnswerIsTheRecoverys = true ∧ s'.recovery = { s.recovery.judged with
          question := .none, isOver := true } ∧
        s'.pendingCancels = s.pendingCancels ++ s.recovery.cancelling.filter s'.writtenAgain ∧
        ∀ id, s'.state id = if id ∈ s.recovery.unanswered ∧ s.state id = some .uncertain then
          some .inactive else s.state id) ∨
      s.theAnswerIsTheRecoverys = false ∧ s'.book = s.book ∧
        s'.pendingCancels = s.pendingCancels ∧ ∃ question isOver account,
          s'.recovery = { s.recovery with
            question := question, isOver := isOver, account := account } ∧
          (question = s.recovery.question ∨ s.recovery.here = true)) := by
  obtain ⟨shut, hopen, hconn, hbook, hcancels, hrecovery, hend⟩ : ∃ shut : Trading Spec,
      shut.completedOrdersOpen = false ∧ shut.conn = s.conn ∧ shut.book = s.book ∧
      shut.pendingCancels = s.pendingCancels ∧ shut.recovery = s.recovery ∧
      s' = { shut with replayDone := true }.recoverAtTheEnd session now
        s.theAnswerIsTheRecoverys account := by
    rcases hopen : s.completedOrdersOpen with _ | _
    · exact ⟨s, hopen, rfl, rfl, rfl, rfl, by simp [hs', endWhatTheVenueNames, hopen]⟩
    · rcases hours : s.theAnswerIsTheRecoverys with _ | _
      · exact ⟨{ s with completedOrdersOpen := false }.endCompletedOrders
          s.completedOrdersAskedOn, rfl, rfl, rfl, rfl, rfl, by
            simp [hs', endWhatTheVenueNames, hopen, hours]⟩
      · exact ⟨{ s with completedOrdersOpen := false }, rfl, rfl, rfl, rfl, rfl, by
          simp [hs', endWhatTheVenueNames, hopen, hours]⟩
  rcases hours : s.theAnswerIsTheRecoverys with _ | _
  · rw [hours, recoverAtTheEnd, if_neg (by simp)] at hend
    dsimp only at hend
    split_ifs at hend with hdue hnone
    · subst hend
      refine ⟨rfl, hopen, hconn, Or.inr ⟨rfl, hbook, hcancels, .due, s.recovery.isOver, account, ?_,
        Or.inr ?_⟩⟩
      · simp [hrecovery]
      · simp only [hrecovery, Bool.and_eq_true] at hdue
        exact hdue.1.1
    · subst hend
      exact ⟨rfl, hopen, hconn, Or.inr ⟨rfl, hbook, hcancels, s.recovery.question, true,
        s.recovery.account, by simp [letGoOfWhatWaited, hrecovery], Or.inl rfl⟩⟩
    · subst hend
      exact ⟨rfl, hopen, hconn, Or.inr ⟨rfl, hbook, hcancels, s.recovery.question,
        s.recovery.isOver, s.recovery.account, by simp [hrecovery], Or.inl rfl⟩⟩
  · obtain ⟨book, notices, hjudged, hstate⟩ := judgeWhatTheDropLeft_eq session
      { shut with
        replayDone := true
        recovery := { shut.recovery with question := .none } }
    rw [hours, recoverAtTheEnd, if_pos rfl, hjudged] at hend
    subst hend
    refine ⟨rfl, hopen, hconn, Or.inl ⟨rfl, ?_, ?_, ?_⟩⟩
    · simp [letGoOfWhatWaited, Recovery.judged, hrecovery]
    · simp only [letGoOfWhatWaited, hrecovery, hcancels]
      rfl
    · simp only [hrecovery, Trading.state, hbook] at hstate
      exact hstate

end Trading

/-! ## The invariant -/

namespace Recovering

/-- What the flags of the recovery say of one another, and of the lists it keeps. -/
structure Sound (w : Recovering Spec) : Prop where
  asking : w.asking.Sound
  wire : w.asking.onWire = w.trading.window
  replayed : w.trading.completedOrdersOpen = true ∨ w.trading.recovery.question ≠ .none →
    w.trading.replayDone = true
  down : w.trading.conn = none → w.trading.recovery.question = .none
  /-- A connection with no recovery under way has nothing to recover. -/
  settled : w.trading.conn ≠ none → w.trading.recovery.deadline = none →
    w.trading.recovery.unanswered = [] ∧ w.trading.recovery.cancelling = []
  here : w.trading.recovery.here = true →
    w.trading.recovery.deadline ≠ none ∧ w.trading.conn ≠ none
  asked : w.trading.recovery.question ≠ .none → w.trading.recovery.here = true ∨
    w.trading.recovery.unanswered = [] ∧ w.trading.recovery.cancelling = []
  keptOrders : w.trading.recovery.unanswered = [] ∨ w.trading.recovery.unanswered = w.kept.1
  keptCancels : w.trading.recovery.cancelling = [] ∨ w.trading.recovery.cancelling = w.kept.2
  once : w.kept.2.Nodup
  apart : w.kept.1.Disjoint w.kept.2
  /-- What a drop keeps stays in doubt until a logon. -/
  doubted : w.trading.recovery.deadline = none →
    ∀ id ∈ w.trading.recovery.unanswered ++ w.trading.recovery.cancelling,
      w.trading.state id = some .uncertain
  stated : w.trading.recovery.here = true →
    ∀ id ∈ w.trading.recovery.unanswered ++ w.trading.recovery.cancelling,
      w.trading.state id = some .uncertain ∨ id ∈ w.stated
  unwritten : w.trading.recovery.cancelling ≠ [] → w.rewritten = []

variable {w w' : Recovering Spec}

lemma Sound.stands (h : w.Sound) (hs : w.trading.Stands w'.trading) (hasking : w'.asking.Sound)
    (hwire : w'.asking.onWire = w'.trading.window)
    (hopen : w'.trading.completedOrdersOpen = true →
      w.trading.completedOrdersOpen = true ∨ w.trading.replayDone = true)
    (hdoubt : ∀ id, w.trading.state id = some .uncertain →
      w'.trading.state id = some .uncertain ∨ w.trading.conn ≠ none ∧ id ∈ w'.stated)
    (hstated : w.stated ⊆ w'.stated) (hkept : w'.kept = w.kept)
    (hrewritten : w'.rewritten = w.rewritten) : w'.Sound where
  asking := hasking
  wire := hwire
  replayed hor := by
    rw [hs.replayDone]
    rw [hs.question] at hor
    rcases hor with hup | hq
    · exact (hopen hup).elim (fun hup => h.replayed (Or.inl hup)) id
    · exact h.replayed (Or.inr hq)
  down := by rw [hs.conn, hs.question]; exact h.down
  settled := by
    rw [ne_eq, hs.conn, hs.deadline, hs.unanswered, hs.cancelling]
    exact h.settled
  here := by rw [hs.here, hs.deadline, ne_eq, ne_eq, hs.conn]; exact h.here
  asked := by rw [hs.question, hs.here, hs.unanswered, hs.cancelling]; exact h.asked
  keptOrders := by rw [hs.unanswered, hkept]; exact h.keptOrders
  keptCancels := by rw [hs.cancelling, hkept]; exact h.keptCancels
  once := hkept ▸ h.once
  apart := hkept ▸ h.apart
  doubted := by
    rw [hs.deadline, hs.unanswered, hs.cancelling]
    intro hdeadline id hid
    rcases hdoubt id (h.doubted hdeadline id hid) with hstill | ⟨hup, -⟩
    · exact hstill
    · obtain ⟨hnone, hnone'⟩ := h.settled hup hdeadline
      rw [hnone, hnone'] at hid
      exact absurd hid (by simp)
  stated := by
    rw [hs.here, hs.unanswered, hs.cancelling]
    intro hhere id hid
    rcases h.stated hhere id hid with hdoubted | hin
    · exact (hdoubt id hdoubted).imp_right And.right
    · exact Or.inr (hstated hin)
  unwritten := by rw [hs.cancelling, hrewritten]; exact h.unwritten

section

variable {session : Session Spec} {e : TradingEvent Spec}

@[simp]
lemma step_trading (session : Session Spec) (w : Recovering Spec) (e : TradingEvent Spec) :
    (w.step session e).trading = w.trading.step session e := rfl

lemma Lawful.quiet (h : w.Sound) (he : w.Lawful e) : w.asking.Quiet e := by
  cases e with
  | ends what now account =>
      cases what with
      | naming =>
          have hreplay : w.trading.replayDone = false := he.2
          have hshut : w.trading.completedOrdersOpen = false := by
            by_contra hup
            exact absurd (h.replayed (Or.inl (by simpa using hup))) (by simp [hreplay])
          exact h.wire.trans (Trading.window_of_shut hshut)
      | answer => trivial
  | _ => trivial

lemma Sound.asking_step (h : w.Sound) (he : w.Lawful e) : (w.step session e).asking.Sound :=
  h.asking.step session he.1

lemma Sound.wire_step (h : w.Sound) (he : w.Lawful e) :
    (w.step session e).asking.onWire = (w.step session e).trading.window :=
  h.asking.wire session he.1 (Lawful.quiet h he) h.wire

lemma rewritten_of_stands (hs : w.trading.Stands (w.trading.step session e))
    (he : e ≠ .drop) : (w.step session e).rewritten = w.rewritten := by
  have hnone : w.writes session e = [] := by simp [writes, hs.cancels]
  cases e with
  | drop => exact absurd rfl he
  | _ => simp [step, hnone]

variable {now : ℕ}

lemma Sound.put (h : w.Sound) (he : w.Lawful e)
    (hs : w.trading.Stands (w.trading.step session e))
    (hbook : (w.trading.step session e).book = w.trading.book)
    (hopen : (w.trading.step session e).completedOrdersOpen = true →
      w.trading.completedOrdersOpen = true ∨
        w.trading.conn ≠ none ∧ (w.trading.replayDone = true ∨ w.trading.holdUntil now ≤ now))
    (hheld : w.trading.replayDone = true ∨ w.trading.conn = none ∨ now < w.trading.holdUntil now)
    (hdrop : e ≠ .drop) (hstated : (w.step session e).stated = w.stated)
    (hkept : (w.step session e).kept = w.kept) : (w.step session e).Sound := by
  refine h.stands hs (h.asking_step he) (h.wire_step he) (fun hup => ?_)
    (fun id hid => Or.inl ?_) hstated.ge hkept (rewritten_of_stands hs hdrop)
  · refine (hopen hup).imp_right fun ⟨hconn, hpast⟩ => ?_
    rcases hheld with hdone | hnone | hlt
    · exact hdone
    · exact absurd hnone hconn
    · exact hpast.resolve_right (by omega)
  · rw [step_trading, Trading.state, hbook]
    exact hid

lemma Sound.order (h : w.Sound) (he : w.Lawful e)
    (hs : w.trading.Stands (w.trading.step session e))
    (hopen : (w.trading.step session e).completedOrdersOpen = w.trading.completedOrdersOpen)
    (hdoubt : ∀ id, w.trading.state id = some .uncertain →
      (w.trading.step session e).state id = some .uncertain ∨
        w.trading.conn ≠ none ∧ id ∈ (w.step session e).stated)
    (hdrop : e ≠ .drop) (hstated : w.stated ⊆ (w.step session e).stated)
    (hkept : (w.step session e).kept = w.kept) : (w.step session e).Sound :=
  h.stands hs (h.asking_step he) (h.wire_step he) (fun hup => Or.inl (hopen ▸ hup)) hdoubt hstated
    hkept (rewritten_of_stands hs hdrop)

lemma orderStep_state (id : OrderId) (ev : OrderEvent Spec) (s : Trading Spec) {other : OrderId}
    (h : other ≠ id) : (s.orderStep session id ev).state other = s.state other := by
  cases ev <;> simp [Trading.orderStep, Trading.state, Trading.noteReportTime, h]

lemma Sound.orderEvent (h : w.Sound) {id : OrderId} {ev : OrderEvent Spec}
    (he : w.Lawful (.order id ev)) : (w.step session (.order id ev)).Sound := by
  have hs : w.trading.Stands (w.trading.step session (.order id ev)) := by cases ev <;> exact {}
  have hopen : (w.trading.step session (.order id ev)).completedOrdersOpen
      = w.trading.completedOrdersOpen := by cases ev <;> rfl
  have hother : ∀ other, other ≠ id → w.trading.state other = some .uncertain →
      (w.trading.step session (.order id ev)).state other = some .uncertain := by
    intro other hne hdoubted
    rw [← hdoubted]
    exact orderStep_state id ev w.trading hne
  -- what the venue sends states the order or leaves it in doubt
  have hsent : ∀ (stated : Finset OrderId),
      stated = (if (w.trading.step session (.order id ev)).state id = some .uncertain then w.stated
        else insert id w.stated) → w.trading.conn ≠ none →
      w.stated ⊆ stated ∧ ∀ other, w.trading.state other = some .uncertain →
        (w.trading.step session (.order id ev)).state other = some .uncertain ∨
          w.trading.conn ≠ none ∧ other ∈ stated := by
    intro stated heq hup
    by_cases hdoubted : (w.trading.step session (.order id ev)).state id = some .uncertain
    · rw [if_pos hdoubted] at heq
      subst heq
      refine ⟨fun _ hx => hx, fun other ho => Or.inl ?_⟩
      by_cases hne : other = id
      · exact hne ▸ hdoubted
      · exact hother other hne ho
    · rw [if_neg hdoubted] at heq
      subst heq
      refine ⟨Finset.subset_insert _ _, fun other ho => ?_⟩
      by_cases hne : other = id
      · exact Or.inr ⟨hup, hne ▸ Finset.mem_insert_self _ _⟩
      · exact Or.inl (hother other hne ho)
  have hasked : w.trading.state id ≠ some .uncertain → ∀ other,
      w.trading.state other = some .uncertain →
        (w.trading.step session (.order id ev)).state other = some .uncertain := by
    intro hnot other ho
    exact hother other (fun heq => hnot (heq ▸ ho)) ho
  cases ev with
  | modify req =>
      exact h.order he hs hopen (fun other ho => Or.inl (hasked he.2 other ho)) (by simp)
        (fun _ hx => hx) rfl
  | cancel =>
      exact h.order he hs hopen (fun other ho => Or.inl (hasked he.2 other ho)) (by simp)
        (fun _ hx => hx) rfl
  | report r =>
      obtain ⟨hsub, hdoubt⟩ := hsent _ rfl he.2
      exact h.order he hs hopen hdoubt (by simp) hsub rfl
  | cancelReject rejectType name =>
      obtain ⟨hsub, hdoubt⟩ := hsent _ rfl he.2
      exact h.order he hs hopen hdoubt (by simp) hsub rfl

/-! ## A drop -/

lemma drop_frame (session : Session Spec) (w : Recovering Spec) :
    (w.trading.step session .drop).conn = none ∧
    (w.trading.step session .drop).completedOrdersOpen = false ∧
    (w.trading.step session .drop).book = w.trading.book.markOrdersUncertain ∧
    (w.trading.step session .drop).pendingCancels = w.trading.pendingCancels ∧
    (w.trading.step session .drop).recovery = w.trading.recovery.atDrop
      (w.trading.book.unansweredOrders session.placing)
      (w.trading.book.unansweredCancels session.placing) := by
  obtain ⟨ended, apiOnly, hclosed⟩ := w.trading.closed_frame
  have hstep : w.trading.step session .drop = w.trading.handleDisconnect session.placing := rfl
  rw [hstep, Trading.drop_closes, hclosed]
  exact ⟨rfl, rfl, rfl, rfl, rfl⟩

lemma atDrop_lists {r : Recovery} (hdeadline : r.deadline = none) (orders cancels : List OrderId) :
    (r.atDrop orders cancels).unanswered = (if r.unanswered = [] then orders else r.unanswered) ∧
    (r.atDrop orders cancels).cancelling = (if r.cancelling = [] then cancels else r.cancelling) ∧
    (r.atDrop orders cancels).deadline = none ∧ (r.atDrop orders cancels).here = r.here := by
  simp [Recovery.atDrop, hdeadline]

lemma inDoubt_of_kept (session : Session Spec) {w : Recovering Spec} {id : OrderId}
    (h : w.trading.state id = some .uncertain ∨
      id ∈ w.trading.book.unansweredOrders session.placing ∨
      id ∈ w.trading.book.unansweredCancels session.placing) :
    w.trading.book.markOrdersUncertain.state id = some .uncertain := by
  rw [Book.state_markOrdersUncertain]
  rcases h with hdoubted | horder | hcancel
  · rw [show w.trading.book.state id = some .uncertain from hdoubted]
    rfl
  · rcases OrderEntry.state_of_isUnanswered (Book.mem_unansweredOrders.1 horder).2 with hs | hs
    · rw [show w.trading.book.state id = some .pendingSubmit from hs]
      rfl
    · rw [show w.trading.book.state id = some .uncertain from hs]
      rfl
  · rw [show w.trading.book.state id = some .pendingCancel from
      OrderEntry.state_of_isUnansweredCancel (Book.mem_unansweredCancels.1 hcancel).2]
    rfl

lemma disjoint_unanswered (placing : Placing Spec) (b : Book Spec) :
    (b.unansweredOrders placing).Disjoint (b.unansweredCancels placing) := by
  intro id horder hcancel
  have hstate := OrderEntry.state_of_isUnansweredCancel (Book.mem_unansweredCancels.1 hcancel).2
  rcases OrderEntry.state_of_isUnanswered (Book.mem_unansweredOrders.1 horder).2 with hs | hs
  · exact absurd (hstate.symm.trans hs) (by decide)
  · exact absurd (hstate.symm.trans hs) (by decide)

lemma Sound.drop_kept (h : w.Sound) (hapart : w.Apart session.placing .drop) :
    (w.step session .drop).kept.2.Nodup ∧
      (w.step session .drop).kept.1.Disjoint (w.step session .drop).kept.2 := by
  obtain ⟨-, -, -, -, hrecovery⟩ := drop_frame session w
  rcases hdeadline : w.trading.recovery.deadline with _ | deadline
  case some => simpa [step, hdeadline] using And.intro h.once h.apart
  have hkept : (w.step session .drop).kept =
      ((w.trading.step session .drop).recovery.unanswered,
        (w.trading.step session .drop).recovery.cancelling) := by simp [step, hdeadline]
  obtain ⟨horders, hcancels, -, -⟩ := atDrop_lists hdeadline
    (w.trading.book.unansweredOrders session.placing)
    (w.trading.book.unansweredCancels session.placing)
  rw [hkept, hrecovery]
  dsimp only
  rw [horders, hcancels]
  by_cases hnone : w.trading.recovery.unanswered = []
  · rw [if_pos hnone]
    by_cases hnone' : w.trading.recovery.cancelling = []
    · rw [if_pos hnone']
      exact ⟨Book.nodup_unansweredCancels _ _, disjoint_unanswered _ _⟩
    · rw [if_neg hnone']
      refine ⟨h.keptCancels.resolve_left hnone' ▸ h.once, fun id horder hcancel => ?_⟩
      have hanswered := hapart hdeadline hnone id hcancel
      rw [(Book.mem_unansweredOrders.1 horder).2] at hanswered
      exact absurd hanswered (by simp)
  · rw [if_neg hnone]
    by_cases hnone' : w.trading.recovery.cancelling = []
    · rw [if_pos hnone']
      refine ⟨Book.nodup_unansweredCancels _ _, fun id horder hcancel => ?_⟩
      have hdoubted := h.doubted hdeadline id (List.mem_append_left _ horder)
      have hcancelling :=
        OrderEntry.state_of_isUnansweredCancel (Book.mem_unansweredCancels.1 hcancel).2
      exact absurd (hcancelling.symm.trans hdoubted) (by decide)
    · rw [if_neg hnone', h.keptCancels.resolve_left hnone', h.keptOrders.resolve_left hnone]
      exact ⟨h.once, h.apart⟩

lemma Sound.drop (h : w.Sound) (he : w.Lawful .drop) (hapart : w.Apart session.placing .drop) :
    (w.step session .drop).Sound := by
  obtain ⟨hconn, hopen, hbook, hpending, hrecovery⟩ := drop_frame session w
  obtain ⟨honce, hdisjoint⟩ := h.drop_kept hapart
  have hquestion : (w.trading.step session .drop).recovery.question = .none := by simp [hrecovery]
  have hhere : (w.trading.step session .drop).recovery.here = false := by
    rw [hrecovery]
    rcases hdeadline : w.trading.recovery.deadline with _ | deadline
    · rw [(atDrop_lists hdeadline _ _).2.2.2]
      by_contra hup
      exact (h.here (by simpa using hup)).1 hdeadline
    · simp [Recovery.atDrop, hdeadline]
  refine
    { asking := h.asking_step he
      wire := h.wire_step he
      replayed := by simp [hopen, hquestion]
      down := fun _ => hquestion
      settled := by simp [hconn]
      here := by simp [hhere]
      asked := by simp [hquestion]
      keptOrders := ?_
      keptCancels := ?_
      once := honce
      apart := hdisjoint
      doubted := ?_
      stated := by simp [hhere]
      unwritten := ?_ }
  all_goals
    rw [step_trading, hrecovery]
    rcases hdeadline : w.trading.recovery.deadline with _ | deadline
  · exact Or.inr (by simp [step, hdeadline, hrecovery])
  · simpa [step, hdeadline, Recovery.atDrop] using h.keptOrders
  · exact Or.inr (by simp [step, hdeadline, hrecovery])
  · simpa [step, hdeadline, Recovery.atDrop] using h.keptCancels
  · intro _ id hid
    obtain ⟨horders, hcancels, -, -⟩ := atDrop_lists hdeadline
      (w.trading.book.unansweredOrders session.placing)
      (w.trading.book.unansweredCancels session.placing)
    rw [Trading.state, hbook]
    refine inDoubt_of_kept session ?_
    rw [horders, hcancels] at hid
    rcases List.mem_append.1 hid with hid | hid
    · split_ifs at hid
      · exact Or.inr (Or.inl hid)
      · exact Or.inl (h.doubted hdeadline id (List.mem_append_left _ hid))
    · split_ifs at hid
      · exact Or.inr (Or.inr hid)
      · exact Or.inl (h.doubted hdeadline id (List.mem_append_right _ hid))
  · simp [Recovery.atDrop, hdeadline]
  · simp [step, hdeadline]
  · simpa [step, hdeadline, Recovery.atDrop] using h.unwritten

/-! ## A logon, a pass, an end -/

lemma begun_cases (now : ℕ) (r : Recovery) :
    (r.deadline = none ∧
      r.begun now = { r with deadline := some (now + recoveryBound), here := true }) ∨
    (r.deadline = none → r.unanswered = [] ∧ r.cancelling = []) ∧ r.begun now = r := by
  unfold Recovery.begun
  by_cases hbegins : (r.holds && r.deadline.isNone) = true
  · rw [if_pos hbegins]
    rw [Bool.and_eq_true, Option.isNone_iff_eq_none] at hbegins
    exact Or.inl ⟨hbegins.2, rfl⟩
  · rw [if_neg hbegins]
    refine Or.inr ⟨fun hdeadline => ?_, rfl⟩
    simpa [hdeadline, Recovery.holds] using hbegins

lemma Sound.logon (h : w.Sound) (he : w.Lawful (.logon now)) :
    (w.step session (.logon now)).Sound := by
  have hdown : w.trading.conn = none := he.1.2
  have hquestion := h.down hdown
  have hshut : w.trading.completedOrdersOpen = false := by
    by_contra hup
    exact h.asking.up (Bool.eq_true_of_not_eq_false hup) hdown
  have hstep : w.trading.step session (.logon now) = w.trading.reconnect now := rfl
  rw [Trading.reconnect, Trading.beginTheRecovery] at hstep
  have hnone : w.writes session (.logon now) = [] := by simp [writes, hstep]
  have hstate : ∀ id, (w.trading.step session (.logon now)).state id = w.trading.state id :=
    fun _ => rfl
  have hlists : (w.trading.recovery.begun now).unanswered = w.trading.recovery.unanswered ∧
      (w.trading.recovery.begun now).cancelling = w.trading.recovery.cancelling := by
    unfold Recovery.begun
    split_ifs <;> exact ⟨rfl, rfl⟩
  have hrecovery : (w.trading.step session (.logon now)).recovery
      = w.trading.recovery.begun now := by rw [hstep]
  have hnohere : w.trading.recovery.here = false := by
    by_contra hup
    exact (h.here (Bool.eq_true_of_not_eq_false hup)).2 hdown
  refine
    { asking := h.asking_step he
      wire := h.wire_step he
      replayed := by simp [hstep, hshut, hquestion]
      down := by simp [hstep]
      settled := ?_
      here := ?_
      asked := by simp [hstep, hquestion]
      keptOrders := by rw [step_trading, hrecovery, hlists.1]; exact h.keptOrders
      keptCancels := by rw [step_trading, hrecovery, hlists.2]; exact h.keptCancels
      once := h.once
      apart := h.apart
      doubted := ?_
      stated := ?_
      unwritten := by
        rw [step_trading, hrecovery, hlists.2]
        simpa [step, hnone] using h.unwritten }
  all_goals
    rw [step_trading, hrecovery]
    rcases begun_cases now w.trading.recovery with ⟨hnodeadline, hbegun⟩ | ⟨hempty, hbegun⟩
    all_goals rw [hbegun]
  · simp
  · exact fun _ => hempty
  · exact fun _ => ⟨by simp, by simp [hstep]⟩
  · exact fun hhere => absurd hhere (by simp [hnohere])
  · simp
  · exact h.doubted
  · exact fun _ id hid => Or.inl (h.doubted hnodeadline id hid)
  · exact fun hhere => absurd hhere (by simp [hnohere])

lemma giveUp_cases (now : ℕ) (s : Trading Spec) :
    (∃ deadline, s.recovery.deadline = some deadline ∧ deadline ≤ now) ∧
      (∃ question, (s.giveUpTheRecovery now).recovery = { s.recovery.judged with
        question := question } ∧ (question ≠ .none → s.recovery.question ≠ .none)) ∨
    (¬ ∃ deadline, s.recovery.deadline = some deadline ∧ deadline ≤ now) ∧
      s.giveUpTheRecovery now = s := by
  unfold Trading.giveUpTheRecovery
  by_cases hpast : (s.recovery.deadline.any fun deadline => deadline ≤ now) = true
  · rw [if_pos hpast]
    obtain ⟨deadline, hdeadline, hle⟩ := Option.any_eq_true _ _ |>.1 hpast
    refine Or.inl ⟨⟨deadline, hdeadline, by simpa using hle⟩, _, rfl, fun hq => ?_⟩
    split_ifs at hq
    · exact absurd rfl hq
    · exact hq
  · rw [if_neg hpast]
    refine Or.inr ⟨fun ⟨deadline, hdeadline, hle⟩ => hpast ?_, rfl⟩
    simp [hdeadline, hle]

lemma Sound.pass (h : w.Sound) {writes : Bool} (he : w.Lawful (.pass now writes)) :
    (w.step session (.pass now writes)).Sound := by
  obtain ⟨question, hrecovery, hquestion, hbook, hconn, hdone, hcancels, hopen⟩ :=
    w.trading.carry_frame session now writes
  change (w.trading.step session (.pass now writes)).recovery = _ at hrecovery
  change (w.trading.step session (.pass now writes)).book = _ at hbook
  change (w.trading.step session (.pass now writes)).conn = none ↔ _ at hconn
  change (w.trading.step session (.pass now writes)).replayDone = _ at hdone
  change (w.trading.step session (.pass now writes)).pendingCancels = _ at hcancels
  change (w.trading.step session (.pass now writes)).completedOrdersOpen = _ → _ at hopen
  have hnone : w.writes session (.pass now writes) = [] := by simp [Recovering.writes, hcancels]
  have hrewritten : (w.step session (.pass now writes)).rewritten = w.rewritten := by
    simp [step, hnone]
  have hstate : ∀ id, (w.trading.step session (.pass now writes)).state id = w.trading.state id :=
    fun id => by rw [Trading.state, hbook]; rfl
  -- a question due was due before, or its answer was awaited
  have hasked : (w.trading.giveUpTheRecovery now).recovery.question ≠ .none →
      w.trading.recovery.question ≠ .none := by
    rcases giveUp_cases now w.trading with ⟨-, q, hgive, hq⟩ | ⟨-, hgive⟩
    · rw [hgive]
      exact hq
    · rw [hgive]
      exact fun hq => hq
  have hdue : question ≠ .none → (w.trading.giveUpTheRecovery now).recovery.question ≠ .none := by
    intro hq
    rcases hquestion with rfl | ⟨hdue, -⟩
    · exact hq
    · simp [hdue]
  have hdown : w.trading.conn = none → question = .none := by
    intro hnoconn
    by_contra hq
    exact hasked (hdue hq) (h.down hnoconn)
  refine
    { asking := h.asking_step he
      wire := h.wire_step he
      replayed := fun hor => ?_
      down := fun hnoconn => by
        rw [step_trading, hrecovery]
        exact hdown (hconn.1 hnoconn)
      settled := ?_
      here := ?_
      asked := ?_
      keptOrders := ?_
      keptCancels := ?_
      once := h.once
      apart := h.apart
      doubted := ?_
      stated := ?_
      unwritten := ?_ }
  · rw [step_trading, hdone]
    rw [step_trading, hrecovery] at hor
    rcases hor with hup | hq
    · rcases hopen hup with hup | hdue'
      · exact h.replayed (Or.inl hup)
      · exact h.replayed (Or.inr (hasked (by simp [hdue'])))
    · exact h.replayed (Or.inr (hasked (hdue hq)))
  all_goals
    rw [step_trading, hrecovery]
    rcases giveUp_cases now w.trading with ⟨-, _, hgive, -⟩ | ⟨-, hgive⟩
    all_goals rw [hgive]
  · exact fun _ _ => ⟨rfl, rfl⟩
  · rw [ne_eq, hconn]
    exact h.settled
  · simp [Recovery.judged]
  · rw [ne_eq, ne_eq, hconn]
    exact h.here
  · exact fun _ => Or.inr ⟨rfl, rfl⟩
  · exact fun hq => h.asked (hasked (hdue hq))
  · exact Or.inl rfl
  · exact h.keptOrders
  · exact Or.inl rfl
  · exact h.keptCancels
  · simp [Recovery.judged]
  · exact fun hdeadline id hid => (hstate id).trans (h.doubted hdeadline id hid)
  · simp [Recovery.judged]
  · exact fun hhere id hid => (h.stated hhere id hid).imp_left (hstate id).trans
  · simp [Recovery.judged]
  · rw [hrewritten]
    exact h.unwritten

lemma Sound.ends (h : w.Sound) {what : EndOf} {account : Option String}
    (he : w.Lawful (.ends what now account)) :
    (w.step session (.ends what now account)).Sound := by
  have hup : w.trading.conn ≠ none := by
    cases what with
    | naming => exact he.1.2
    | answer => exact he.1.2.1
  obtain ⟨hdone, hopen, hconn, hcases⟩ :=
    @Trading.end_cases _ session now account w.trading
      (w.trading.step session (.ends what now account)) rfl
  rcases hcases with ⟨-, hrecovery, -, -⟩ | ⟨-, hbook, hcancels, question, isOver, _, hrecovery,
    hquestion⟩
  · exact
      { asking := h.asking_step he
        wire := h.wire_step he
        replayed := fun _ => hdone
        down := by simp [hrecovery]
        settled := by simp [hrecovery, Recovery.judged]
        here := by simp [hrecovery, Recovery.judged]
        asked := by simp [hrecovery]
        keptOrders := Or.inl (by simp [hrecovery, Recovery.judged])
        keptCancels := Or.inl (by simp [hrecovery, Recovery.judged])
        once := h.once
        apart := h.apart
        doubted := by simp [hrecovery, Recovery.judged]
        stated := by simp [hrecovery, Recovery.judged]
        unwritten := by simp [hrecovery, Recovery.judged] }
  · have hstate : ∀ id, (w.trading.step session (.ends what now account)).state id
        = w.trading.state id := fun id => by rw [Trading.state, hbook]; rfl
    have hnone : w.writes session (.ends what now account) = [] := by simp [writes, hcancels]
    refine
      { asking := h.asking_step he
        wire := h.wire_step he
        replayed := fun _ => hdone
        down := fun hnoconn => absurd (hconn.symm.trans hnoconn) hup
        settled := ?_
        here := ?_
        asked := ?_
        keptOrders := ?_
        keptCancels := ?_
        once := h.once
        apart := h.apart
        doubted := ?_
        stated := ?_
        unwritten := ?_ }
    all_goals rw [step_trading, hrecovery]
    · rw [hconn]
      exact h.settled
    · rw [hconn]
      exact h.here
    · rcases hquestion with rfl | hhere
      · exact h.asked
      · exact fun _ => Or.inl hhere
    · exact h.keptOrders
    · exact h.keptCancels
    · exact fun hdeadline id hid => (hstate id).trans (h.doubted hdeadline id hid)
    · exact fun hhere id hid => (h.stated hhere id hid).imp_left (hstate id).trans
    · simpa [step, hnone] using h.unwritten

/-- **Every event keeps the recovery sound.** -/
theorem Sound.step (h : w.Sound) (he : w.Lawful e) (hapart : w.Apart session.placing e) :
    (w.step session e).Sound := by
  cases e with
  | drop => exact h.drop he hapart
  | logon now => exact h.logon he
  | ends what now account => exact h.ends he
  | pass now writes => exact h.pass he
  | ask apiOnly now day writes =>
      obtain ⟨hs, hbook, hopen⟩ := Trading.send_stands session
        (w.trading.newTurn apiOnly).completedOrdersNextTurn now (w.trading.newTurn apiOnly) day writes
      exact h.put he { hs with } hbook hopen he.2 (by simp) rfl rfl
  | sweep now left day writes =>
      obtain ⟨hs, hbook, hopen⟩ := Trading.sweep_stands session now left w.trading day writes
      exact h.put he hs hbook hopen he.2 (by simp) rfl rfl
  | place id entry =>
      refine h.order he {} rfl (fun other ho => Or.inl ?_) (by simp) (fun _ hx => hx) rfl
      have hne : other ≠ id := fun heq => he.2 (heq ▸ ho)
      simpa [Trading.step, Trading.state, hne] using ho
  | order id ev => exact h.orderEvent he
  | sendsOut ids => exact h.order he {} rfl (fun _ ho => Or.inl ho) (by simp) (fun _ hx => hx) rfl

/-! ## What an event may do -/

lemma Sound.ours_iff (h : w.Sound) :
    w.trading.theAnswerIsTheRecoverys = true ↔ w.asking.onWire = [.recovery] := by
  rw [h.wire, Trading.theAnswerIsTheRecoverys, Trading.window]
  by_cases hopen : w.trading.completedOrdersOpen = true
  · by_cases hout : w.trading.recovery.question = .out
    · simp [hopen, hout]
    · simp [hopen, hout]
  · simp [hopen]

lemma Sound.bothEnd (h : w.Sound) {what : EndOf} {account : Option String}
    (he : w.Lawful (.ends what now account)) (hours : w.trading.theAnswerIsTheRecoverys = true) :
    w.BothEnd (.ends what now account) := by
  have hdone : w.trading.replayDone = true := by
    refine h.replayed (Or.inl ?_)
    rw [Trading.theAnswerIsTheRecoverys, Bool.and_eq_true] at hours
    exact hours.1
  refine ⟨?_, hdone, h.ours_iff.1 hours⟩
  cases what with
  | naming => exact absurd (hdone.symm.trans he.2) (by simp)
  | answer => exact ⟨now, account, rfl⟩

lemma Sound.judgesRightly (h : w.Sound) (he : w.Lawful e) : w.JudgesRightly session e := by
  rintro what now account rfl id hmoved
  obtain ⟨-, -, -, hcases⟩ :=
    @Trading.end_cases _ session now account w.trading
      (w.trading.step session (.ends what now account)) rfl
  rcases hcases with ⟨hours, -, -, hstate⟩ | ⟨-, hbook, -⟩
  · rw [hstate] at hmoved ⊢
    split_ifs at hmoved ⊢ with hjudged
    · refine ⟨h.bothEnd he hours, ?_, hjudged.2, rfl⟩
      rcases h.keptOrders with hnone | hkept
      · rw [hnone] at hjudged
        exact absurd hjudged.1 (by simp)
      · exact hkept ▸ hjudged.1
    · exact absurd rfl hmoved
  · exact absurd (by rw [Trading.state, hbook]; rfl) hmoved

lemma Sound.judgesAll (h : w.Sound) : w.JudgesAll session e := by
  rintro ⟨⟨now, account, rfl⟩, -, hwire⟩ id hid
  obtain ⟨-, -, -, hcases⟩ :=
    @Trading.end_cases _ session now account w.trading
      (w.trading.step session (.ends .answer now account)) rfl
  rcases hcases with ⟨-, -, -, hstate⟩ | ⟨hnot, -⟩
  · rw [hstate]
    split_ifs with hjudged
    · simp
    · exact fun hdoubted => hjudged ⟨hid, hdoubted⟩
  · exact absurd (h.ours_iff.2 hwire) (by simp [hnot])

lemma writes_nothing
    (hnot : ∀ what now account, e = .ends what now account →
      w.trading.theAnswerIsTheRecoverys = false) :
    (w.trading.step session e).pendingCancels = w.trading.pendingCancels := by
  cases e with
  | drop => exact (drop_frame session w).2.2.2.1
  | ends what now account =>
      obtain ⟨-, -, -, hcases⟩ :=
        @Trading.end_cases _ session now account w.trading
          (w.trading.step session (.ends what now account)) rfl
      rcases hcases with ⟨hours, -⟩ | ⟨-, -, hcancels, -⟩
      · exact absurd hours (by simp [hnot what now account rfl])
      · exact hcancels
  | pass now writes =>
      obtain ⟨-, -, -, -, -, -, hcancels, -⟩ := w.trading.carry_frame session now writes
      exact hcancels
  | ask apiOnly now day writes =>
      exact (Trading.send_stands session _ now (w.trading.newTurn apiOnly) day writes).1.cancels
  | sweep now left day writes =>
      exact (Trading.sweep_stands session now left w.trading day writes).1.cancels
  | order id ev => cases ev <;> rfl
  | logon now => rfl
  | place id entry => rfl
  | sendsOut ids => rfl

lemma Sound.rewritesRightly (h : w.Sound) (he : w.Lawful e) : w.RewritesRightly session e := by
  by_cases hours : (∃ what now account, e = .ends what now account) ∧
      w.trading.theAnswerIsTheRecoverys = true
  · obtain ⟨⟨what, now, account, rfl⟩, hours⟩ := hours
    obtain ⟨-, -, -, hcases⟩ :=
      @Trading.end_cases _ session now account w.trading
        (w.trading.step session (.ends what now account)) rfl
    obtain ⟨-, hcancels, hstate⟩ := (hcases.resolve_right fun hnot =>
      absurd hours (by simp [hnot.1])).2
    have hwrites : w.writes session (.ends what now account) = w.trading.recovery.cancelling.filter
        (w.trading.step session (.ends what now account)).writtenAgain := by
      rw [writes, hcancels, List.drop_left]
    refine ⟨⟨_, hcancels⟩, ?_, fun id hid => ?_⟩
    · rw [hwrites]
      refine List.Nodup.filter _ ?_
      rcases h.keptCancels with hnone | hkept
      · rw [hnone]
        exact List.nodup_nil
      · exact hkept ▸ h.once
    rw [hwrites] at hid
    obtain ⟨hcancelling, hagain⟩ := List.mem_filter.1 hid
    have hsome : w.trading.recovery.cancelling ≠ [] := List.ne_nil_of_mem hcancelling
    have hkept : id ∈ w.kept.2 := h.keptCancels.resolve_left hsome ▸ hcancelling
    -- its order was kept on the one list alone, so the judgement leaves it where it stands
    have hsame : (w.trading.step session (.ends what now account)).state id = w.trading.state id := by
      rw [hstate, if_neg]
      rintro ⟨horder, -⟩
      rcases h.keptOrders with hnone | hkeptOrders
      · rw [hnone] at horder
        exact absurd horder (by simp)
      · exact h.apart (hkeptOrders ▸ horder) hkept
    have hasks : w.trading.recovery.question ≠ .none := by
      rw [Trading.theAnswerIsTheRecoverys, Bool.and_eq_true, beq_iff_eq] at hours
      simp [hours.2]
    have hhere := (h.asked hasks).resolve_right fun hnone => hsome hnone.2
    rw [Trading.writtenAgain, hsame] at hagain
    refine ⟨h.bothEnd he hours, hkept, ?_, by simp [h.unwritten hsome], ?_⟩
    · refine (h.stated hhere id (List.mem_append_right _ hcancelling)).resolve_left fun hdoubted => ?_
      rw [hdoubted] at hagain
      exact absurd hagain (by simp)
    · rcases hs : w.trading.state id with _ | status
      · rw [hs] at hagain
        exact absurd hagain (by simp)
      · rw [hs] at hagain
        refine ⟨status, rfl, ?_, ?_, ?_⟩
        all_goals cases status <;> simp_all
  · have hnone : (w.trading.step session e).pendingCancels = w.trading.pendingCancels := by
      refine writes_nothing fun what now account heq => ?_
      by_contra hup
      exact hours ⟨⟨what, now, account, heq⟩, Bool.eq_true_of_not_eq_false hup⟩
    have hwrites : w.writes session e = [] := by simp [writes, hnone]
    exact ⟨⟨[], by simp [hnone]⟩, by simp [hwrites], by simp [hwrites]⟩

lemma Sound.keepsRightly (h : w.Sound) : w.KeepsRightly session e := by
  rintro rfl hdeadline
  obtain ⟨-, -, -, -, hrecovery⟩ := drop_frame session w
  obtain ⟨horders, hcancels, -, -⟩ := atDrop_lists hdeadline
    (w.trading.book.unansweredOrders session.placing)
    (w.trading.book.unansweredCancels session.placing)
  have hkept : (w.step session .drop).kept =
      ((if w.trading.recovery.unanswered = [] then w.trading.book.unansweredOrders session.placing
          else w.trading.recovery.unanswered),
        if w.trading.recovery.cancelling = [] then w.trading.book.unansweredCancels session.placing
          else w.trading.recovery.cancelling) := by
    have hleft : (w.step session .drop).kept =
        ((w.trading.step session .drop).recovery.unanswered,
          (w.trading.step session .drop).recovery.cancelling) := by
      simp [Recovering.step, hdeadline]
    rw [hleft, hrecovery, horders, hcancels]
  rw [hkept]
  refine ⟨fun hup => ?_, fun id hid => ?_, fun id hid => ?_⟩
  · rw [if_pos (h.settled hup hdeadline).1, if_pos (h.settled hup hdeadline).2]
  · dsimp only at hid
    split_ifs at hid with hnone
    · exact Or.inl hid
    · exact Or.inr (h.keptOrders.resolve_left hnone ▸ hid)
  · dsimp only at hid
    split_ifs at hid with hnone
    · exact Or.inl hid
    · exact Or.inr (h.keptCancels.resolve_left hnone ▸ hid)

lemma Sound.asksAlone (h : w.Sound) : w.AsksAlone := by
  intro hasked
  rw [h.wire, Trading.window] at hasked
  split_ifs at hasked with hopen hout
  · have hours : w.trading.theAnswerIsTheRecoverys = true := by
      simp [Trading.theAnswerIsTheRecoverys, hopen, hout]
    exact ⟨h.ours_iff.1 hours, h.asking.up hopen, hours⟩
  · exact absurd hasked (by simp)
  · exact absurd hasked (by simp)

lemma Sound.leavesNothing (h : w.Sound) : w.LeavesNothing session e := by
  rintro (⟨⟨now, account, rfl⟩, -, hwire⟩ | ⟨now, writes, rfl, hpast⟩)
  · obtain ⟨-, -, -, hcases⟩ :=
      @Trading.end_cases _ session now account w.trading
        (w.trading.step session (.ends .answer now account)) rfl
    obtain ⟨hrecovery, -⟩ := (hcases.resolve_right fun hnot =>
      absurd (h.ours_iff.2 hwire) (by simp [hnot.1])).2
    rw [hrecovery]
    exact ⟨rfl, rfl, rfl⟩
  · obtain ⟨question, hrecovery, -⟩ := w.trading.carry_frame session now writes
    rcases giveUp_cases now w.trading with ⟨-, _, hgive, -⟩ | ⟨hnot, -⟩
    · rw [hgive] at hrecovery
      change (w.trading.carryTheRecovery session now writes).recovery.unanswered = [] ∧
        (w.trading.carryTheRecovery session now writes).recovery.cancelling = [] ∧
        (w.trading.carryTheRecovery session now writes).recovery.deadline = none
      rw [hrecovery]
      exact ⟨rfl, rfl, rfl⟩
    · exact absurd hpast hnot

end

/-! ## Every run -/

lemma sound_opened (book : Book Spec) : (opened book).Sound where
  asking := Asking.sound_opened book
  wire := rfl
  replayed := by simp [opened, Asking.opened, Trading.opened, trading]
  down := by simp [opened, Asking.opened, Trading.opened, trading]
  settled := by simp [opened, Asking.opened, Trading.opened, trading]
  here := by simp [opened, Asking.opened, Trading.opened, trading]
  asked := by simp [opened, Asking.opened, Trading.opened, trading]
  keptOrders := Or.inl rfl
  keptCancels := Or.inl rfl
  once := List.nodup_nil
  apart := List.disjoint_nil_left _
  doubted := by simp [opened, Asking.opened, Trading.opened, trading]
  stated := by simp [opened, Asking.opened, Trading.opened, trading]
  unwritten := fun _ => rfl

/-- **A recovery judges each order once, and writes a cancel again only where the venue holds its
order working.**  In every run in which no drop keeps, beside a cancel kept at an earlier drop of
the same outage, the order the cancel is of. -/
theorem recoveries_judge_once (session : Session Spec) (book : Book Spec)
    (es : List (TradingEvent Spec))
    (hrun : Runs.Along (step session) Lawful (opened book) es)
    (hapart : Runs.Along (step session) (Apart session.placing) (opened book) es) :
    Runs.Along (step session) (Good session) (opened book) es := by
  refine Runs.Along.mono (fun w e h he => h.step he.1 he.2) (fun w e h he => ?_)
    (sound_opened book) (hrun.and hapart)
  exact
    { judges := h.judgesRightly he.1
      all := h.judgesAll
      rewrites := h.rewritesRightly he.1
      keeps := h.keepsRightly
      asks := (h.step he.1 he.2).asksAlone
      leaves := h.leavesNothing }

def bookOf (states : List (OrderId × OrderStatus)) : Book Unit where
  entries id := { order := (states.lookup id).map fun status => ⟨0, .buy, 1, 0, 50, 48, 0, 0, status⟩ }
  ids := (states.map Prod.fst).toFinset
  covers := by
    intro id h
    rw [Option.isSome_map, List.lookup_isSome_iff] at h
    obtain ⟨entry, hmem, heq⟩ := h
    exact List.mem_toFinset.2 (List.mem_map.2 ⟨entry, hmem, (beq_iff_eq.1 heq).symm⟩)

/-- A drop, the orders recovered: the venue names the one whose cancel was lost, and not the other. -/
def recovered : List (TradingEvent Unit) :=
  [.drop, .logon 0, .order 5 (.report { name := none, ordStatus := "0" }), .ends .naming 10 none,
    .pass 20 true, .ends .answer 30 none]

theorem recoveries_judge_once_recovered :
    Runs.Along (step Asking.plainSession) (Good Asking.plainSession)
      (opened (bookOf [(5, .pendingCancel), (7, .pendingSubmit)])) recovered ∧
    (Runs.run (step Asking.plainSession) (opened (bookOf [(5, .pendingCancel), (7, .pendingSubmit)]))
      recovered).trading.state 7 = some .inactive ∧
    (Runs.run (step Asking.plainSession) (opened (bookOf [(5, .pendingCancel), (7, .pendingSubmit)]))
      recovered).rewritten = [5] :=
  ⟨recoveries_judge_once _ _ _ (by decide +kernel) (by decide +kernel), by decide +kernel,
    by decide +kernel⟩

/-- **A second drop before a logon has the cancel of an order no answer names written again.** -/
theorem not_recoveries_judge_once :
    ¬ ∀ (session : Session Unit) (book : Book Unit) (es : List (TradingEvent Unit)),
      Runs.Along (step session) Lawful (opened book) es →
      Runs.Along (step session) (Good session) (opened book) es := by
  intro h
  have hgood := h Asking.plainSession (bookOf [(5, .pendingCancel)])
    [.drop, .drop, .logon 0, .ends .naming 10 none, .pass 20 true, .ends .answer 30 none]
    (by decide +kernel)
  have hlast := hgood.2.2.2.2.2.1.rewrites.2.2 5 (by decide +kernel)
  exact absurd hlast.2.2.1 (by decide +kernel)

end Recovering

end IbkrDx
