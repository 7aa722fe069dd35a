import IbkrDx.Lib.Runs
import Mathlib.Data.Nat.Notation
import Mathlib.Order.Basic

/-!
# Rebuilding the quote feed

What the engine does about a quote feed that goes, from `reliability/mod.rs`, `reliability/retry.rs`
and the quote feed's own part of `engine/hot_loop/mod.rs`: a budget of attempts, a ladder of waits,
and the halts that end it.  A duration is in milliseconds, and one call of the source reads the clock
once; the trading connection and the other farms are what they tell the session.

* **`feed_dialled_as_allowed`** — what holds of every attempt, in every run.
-/

namespace IbkrDx.FeedRecovery

/-! ## Reasons -/

inductive DisconnectReason where
  | transport
  | noResponse
  | authorizationFailed
  | unsupported
  | takenOver
  | notReady
  | byDesign
  | recoveryExhausted
  | engineStopped
  deriving DecidableEq

inductive Recovery where
  | retry
  | retrySlowly
  | stop
  deriving DecidableEq

def DisconnectReason.recovery : DisconnectReason → Recovery
  | .transport | .noResponse => .retry
  | .takenOver | .engineStopped => .stop
  | .notReady => .retrySlowly
  | .authorizationFailed | .unsupported | .byDesign | .recoveryExhausted => .stop

def DisconnectReason.isTerminal (reason : DisconnectReason) : Bool := reason.recovery = .stop

def slowFloor : ℕ := 30000

def delayFor (reason : DisconnectReason) (ladder : ℕ) : ℕ :=
  match reason.recovery with
  | .retry => ladder
  | .retrySlowly => max ladder slowFloor
  | .stop => 0

def ladderMs : List ℕ := [0, 5000, 15000, 30000, 50000, 60000]

def rung (failures : ℕ) : ℕ := ladderMs.getD (min failures 5) 0

def jitterSpan (failures : ℕ) : ℕ := min (5000 + 5000 * failures) 20000

/-- `random` is what the generator draws. -/
def reconnectBackoff (failures random : ℕ) : ℕ :=
  min (2000 + rung failures + random % jitterSpan failures) 82000

/-! ## The budget -/

inductive ReconnectPolicy where
  | automatic
  | manual
  deriving DecidableEq

structure ReconnectConfig where
  policy : ReconnectPolicy := .automatic
  maxAttempts : Option ℕ := none
  maxElapsed : Option ℕ := none
  stableWindow : ℕ := 60000

structure RecoveryBudget where
  attempts : ℕ := 0
  started : Option ℕ := none
  healthySince : Option ℕ := none

namespace RecoveryBudget

variable (b : RecoveryBudget) (cfg : ReconnectConfig) (now : ℕ)

def recordAttempt : RecoveryBudget := ⟨b.attempts + 1, some (b.started.getD now), none⟩

def recordConnected : RecoveryBudget :=
  { b with healthySince := some (b.healthySince.getD now) }

/-- Whether `settle` gives the budget back. -/
def givesBack (stableWindow : ℕ) (whole : Bool) : Bool :=
  whole && b.healthySince.any fun since => stableWindow ≤ now - since

def settle (stableWindow : ℕ) (whole : Bool) : RecoveryBudget :=
  if !whole then { b with healthySince := none }
  else if b.givesBack now stableWindow whole then { b with attempts := 0, started := none }
  else b

def outOfTime : Bool :=
  match cfg.maxElapsed, b.started with
  | some most, some started => most ≤ now - started
  | _, _ => false

def mayRetry : Bool :=
  cfg.policy = .automatic && !cfg.maxAttempts.any (· ≤ b.attempts) && !b.outOfTime cfg now

def isSpent : Bool := cfg.maxAttempts.any (· ≤ b.attempts) || b.outOfTime cfg now

end RecoveryBudget

/-! ## The feed -/

/-- What the loop holds of the quote feed's recovery, and what it reads of the session. -/
structure Feed where
  disconnected : Bool := false
  pending : Bool := false
  nextAttemptAt : Option ℕ := none
  reconnectAttempt : ℕ := 0
  connectedAt : Option ℕ := none
  budget : RecoveryBudget := {}
  halted : Option DisconnectReason := none
  reconnectHalted : Option DisconnectReason := none
  tradingDown : Bool := false

inductive Answer where
  | connected
  | failed (reason : DisconnectReason)
  | vanished

inductive Event where
  | drops (now : ℕ)
  | trading (down : Bool)
  /-- A caller hands in a connection of its own. -/
  | handsIn
  /-- Another transport ends the session's recovery. -/
  | halts (reason : DisconnectReason)
  | settles (now : ℕ)
  | abandons (now : ℕ)
  /-- `answer` is what the worker has sent by now. -/
  | polls (now : ℕ) (answer : Option Answer) (random : ℕ)
  | schedules (now : ℕ) (credentials : Bool) (random : ℕ)

/-- What is seen of the feed from outside. -/
inductive Act where
  | went (now : ℕ)
  | dialled (now : ℕ)
  | failed (now : ℕ) (reason : DisconnectReason)
  | vanished (now : ℕ)
  | installed (now : ℕ)
  | handedIn
  /-- The feed is given up on. -/
  | gaveUp
  /-- The session's recovery is. -/
  | over
  | settled (now : ℕ) (up back : Bool)

namespace Feed

variable (cfg : ReconnectConfig) (s : Feed) (now : ℕ)

def haltRecovery (reason : DisconnectReason) : Feed × List Act :=
  if s.reconnectHalted.isSome then (s, [])
  else ({ s with reconnectHalted := some reason, pending := false }, [.over])

/-- The feed is halted where the trading connection is up, and the session where it is not. -/
def stopFor (reason : DisconnectReason) : Feed × List Act :=
  if !s.tradingDown then ({ s with halted := some reason, pending := false }, [.gaveUp])
  else
    let (s, acts) := s.haltRecovery reason
    ({ s with pending := false }, acts)

/-- `report_recovery_exhausted`, of the farm. -/
def reportRecoveryExhausted : Feed × List Act :=
  ({ s with halted := some .recoveryExhausted, pending := false }, [.gaveUp])

def reconnectFarm : Feed := { s with halted := none, disconnected := false }

def clearHaltIfItWasNotSettled : Feed :=
  { s with reconnectHalted := s.reconnectHalted.filter (·.isTerminal) }

def pollFarmReconnect (answer : Option Answer) (random : ℕ) : Feed × List Act :=
  if !s.pending then (s, [])
  else match answer with
    | none => (s, [])
    | some .connected =>
        if s.reconnectHalted.any (·.isTerminal) then ({ s with pending := false }, [.vanished now])
        else
          ({ s.reconnectFarm.clearHaltIfItWasNotSettled with
              connectedAt := some now
              budget := s.budget.recordConnected now
              nextAttemptAt := none
              pending := false }, [.installed now])
    | some (.failed reason) =>
        if reason.isTerminal then
          let (s, acts) := s.stopFor reason
          (s, acts ++ [.failed now reason])
        else
          ({ s with
              nextAttemptAt :=
                some (now + delayFor reason (reconnectBackoff s.reconnectAttempt random))
              pending := false }, [.failed now reason])
    | some .vanished =>
        ({ s with
            pending := false
            nextAttemptAt := some (now + reconnectBackoff s.reconnectAttempt random) },
          [.vanished now])

def maybeSpawnFarmReconnect (credentials : Bool) (random : ℕ) : Feed × List Act :=
  if !s.disconnected || s.pending || s.reconnectHalted.isSome || s.halted.isSome then (s, [])
  else if !s.budget.mayRetry cfg now then
    if s.budget.isSpent cfg now then s.reportRecoveryExhausted else (s, [])
  else
    let s := { s with
      reconnectAttempt :=
        if s.connectedAt.any fun up => cfg.stableWindow ≤ now - up then 0 else s.reconnectAttempt
      connectedAt := none }
    match s.nextAttemptAt with
    | none =>
        ({ s with nextAttemptAt := some (now + reconnectBackoff s.reconnectAttempt random) }, [])
    | some due =>
        if due ≤ now then
          let s := { s with nextAttemptAt := none, budget := s.budget.recordAttempt now }
          if credentials then
            ({ s with reconnectAttempt := s.reconnectAttempt + 1, pending := true },
              [.dialled now])
          else
            let (s, acts) := s.stopFor .authorizationFailed
            ({ s with nextAttemptAt := some (now + 60000) }, acts)
        else (s, [])

/-- `abandon_recovery_past_its_deadline`, of the farm. -/
def abandonRecoveryPastItsDeadline : Feed × List Act :=
  if s.reconnectHalted.isSome then (s, [])
  else if s.pending && s.budget.outOfTime cfg now then s.reportRecoveryExhausted
  else (s, [])

/-- One event, and what is seen of it, latest first. -/
def step : Event → Feed × List Act
  | .drops now => ({ s with disconnected := true }, [.went now])
  | .trading down => ({ s with tradingDown := down }, [])
  | .handsIn => (s.reconnectFarm, [.handedIn])
  | .halts reason => s.haltRecovery reason
  | .settles now =>
      ({ s with budget := s.budget.settle now cfg.stableWindow !s.disconnected },
        [.settled now (!s.disconnected)
          (s.budget.givesBack now cfg.stableWindow !s.disconnected)])
  | .abandons now => s.abandonRecoveryPastItsDeadline cfg now
  | .polls now answer random => s.pollFarmReconnect now answer random
  | .schedules now credentials random => s.maybeSpawnFarmReconnect cfg now credentials random

end Feed

/-! ## What a run shows -/

section

variable (past : List Act)

def down : Bool :=
  (past.findSome? fun
    | .went _ => some true
    | .installed _ | .handedIn => some false
    | _ => none).getD false

def inFlight : Bool :=
  (past.findSome? fun
    | .dialled _ => some true
    | .failed .. | .vanished _ | .installed _ | .gaveUp | .over => some false
    | _ => none).getD false

def givenUp : Bool :=
  (past.findSome? fun
    | .gaveUp => some true
    | .installed _ | .handedIn => some false
    | _ => none).getD false

def sessionOver : Bool := past.any fun
  | .over => true
  | _ => false

/-- Since when a connection has been up, found up each time, with nothing dialled behind it. -/
def upSince : Option ℕ :=
  (past.findSome? fun
    | .installed now => some (some now)
    | .dialled _ | .settled _ false _ => some none
    | _ => none).getD none

/-- The attempts since the budget was last given back, latest first. -/
def spent : List Act → List ℕ
  | [] => []
  | .settled _ _ true :: _ => []
  | .dialled now :: past => now :: spent past
  | _ :: past => spent past

/-- The attempts since a connection was last installed. -/
def tries : List Act → ℕ
  | [] => 0
  | .installed _ :: _ => 0
  | .dialled _ :: past => tries past + 1
  | _ :: past => tries past

/-- The least the ladder asks for behind so many attempts. -/
def leastWait (tries : ℕ) : ℕ := 2000 + rung tries

/-- Whether nothing has come behind a connection this client installed, or the start. -/
def rested : Bool :=
  (past.findSome? fun
    | .installed _ => some true
    | .went _ | .dialled _ | .failed .. | .vanished _ | .handedIn => some false
    | _ => none).getD true

/-- The moment before which the last answer asks that nothing be dialled, or the loss of a
connection with no answer behind it. -/
def notBefore : List Act → ℕ
  | [] => 0
  | .went now :: past => if rested past then now + leastWait 0 else notBefore past
  | .failed now reason :: past =>
      match reason.recovery with
      | .retry => now + leastWait (tries past)
      | .retrySlowly => now + max (leastWait (tries past)) slowFloor
      | .stop => notBefore past
  | .vanished now :: past => now + leastWait (tries past)
  | .installed _ :: _ | .handedIn :: _ => 0
  | _ :: past => notBefore past

end

structure MayDial (cfg : ReconnectConfig) (now : ℕ) (past : List Act) : Prop where
  automatic : cfg.policy = .automatic
  down : down past = true
  alone : inFlight past = false
  feed : givenUp past = false
  session : sessionOver past = false
  attempts : ∀ most ∈ cfg.maxAttempts, (spent past).length < most
  elapsed : ∀ most ∈ cfg.maxElapsed, ∀ first ∈ (spent past).getLast?, now < first + most
  waited : notBefore past ≤ now

/-- Every attempt was let start; what is installed was dialled, in a session that is not over; and
the budget was given back for a connection that had held. -/
def Allowed (cfg : ReconnectConfig) : List Act → Prop
  | [] => True
  | .dialled now :: past => MayDial cfg now past ∧ Allowed cfg past
  | .installed _ :: past => (inFlight past = true ∧ sessionOver past = false) ∧ Allowed cfg past
  | .settled now up true :: past =>
      (up = true ∧ ∃ since ∈ upSince past, cfg.stableWindow ≤ now - since) ∧ Allowed cfg past
  | _ :: past => Allowed cfg past

/-- A feed with what has been seen of it, and the latest moment read. -/
structure Seen where
  feed : Feed := {}
  past : List Act := []
  clock : ℕ := 0

def Event.moment : Event → Option ℕ
  | .drops now | .settles now | .abandons now | .polls now _ _ | .schedules now _ _ => some now
  | _ => none

def Seen.step (cfg : ReconnectConfig) (w : Seen) (e : Event) : Seen :=
  let (feed, acts) := w.feed.step cfg e
  ⟨feed, acts ++ w.past, e.moment.getD w.clock⟩

/-- Time does not run back, and what ends a session's recovery is a reason not to go on. -/
def Proper (w : Seen) : Event → Prop
  | .halts reason => reason.isTerminal = true
  | e => ∀ now ∈ e.moment, w.clock ≤ now

/-! ## What a run keeps -/

structure Sound (cfg : ReconnectConfig) (s : Feed) (past : List Act) (clock : ℕ) : Prop where
  allowed : Allowed cfg past
  down : s.disconnected = down past
  flying : s.pending = inFlight past
  feed : givenUp past = true → s.halted.isSome = true
  session : sessionOver past = true → s.reconnectHalted.any (·.isTerminal) = true
  attempts : (spent past).length ≤ s.budget.attempts
  started : ∀ first ∈ (spent past).getLast?, ∃ began ∈ s.budget.started, began ≤ first
  begun : ∀ began ∈ s.budget.started, began ≤ clock
  grounded : s.reconnectHalted.isSome = true → s.pending = false
  healthy : ∀ since ∈ s.budget.healthySince, upSince past = some since
  unhealthy : s.pending = true → s.budget.healthySince = none
  tries : tries past ≤ s.reconnectAttempt
  fresh : s.connectedAt.isSome = true → FeedRecovery.tries past = 0
  waits : notBefore past ≤ s.nextAttemptAt.getD (clock + leastWait 0)
  unscheduled : rested past = true → s.nextAttemptAt = none

variable {cfg : ReconnectConfig} {s : Feed} {past : List Act} {clock now : ℕ}

lemma rung_mono {m n : ℕ} (h : m ≤ n) : rung m ≤ rung n := by
  have hall : ∀ i < 6, ∀ j < 6, i ≤ j → ladderMs.getD i 0 ≤ ladderMs.getD j 0 := by decide
  exact hall _ (by omega) _ (by omega) (by omega)

lemma leastWait_le_reconnectBackoff {m n : ℕ} (h : m ≤ n) (random : ℕ) :
    leastWait m ≤ reconnectBackoff n random := by
  have hmono := rung_mono h
  have hall : ∀ i < 6, ladderMs.getD i 0 ≤ 60000 := by decide
  have hmost : rung m ≤ 60000 := hall _ (by omega)
  rw [leastWait, reconnectBackoff]
  generalize random % jitterSpan n = drawn
  omega

lemma Sound.later (h : Sound cfg s past clock) (hlater : clock ≤ now) :
    Sound cfg s past now := by
  refine { h with
    begun := fun began hbegan => Nat.le_trans (h.begun began hbegan) hlater
    waits := Nat.le_trans h.waits ?_ }
  cases s.nextAttemptAt with
  | none => exact Nat.add_le_add_right hlater _
  | some due => exact Nat.le_refl due

lemma rested_of_down (h : FeedRecovery.down past = true) : rested past = false := by
  induction past with
  | nil => exact absurd h (by decide)
  | cons act past ih =>
      cases act with
      | went | dialled | failed | vanished | handedIn => rfl
      | installed => exact absurd h Bool.false_ne_true
      | _ => exact ih h

lemma Sound.went (h : Sound cfg s past clock) (hlater : clock ≤ now) :
    Sound cfg { s with disconnected := true } (.went now :: past) now := by
  have hnow := h.later hlater
  refine { hnow with down := rfl, waits := ?_, unscheduled := (nofun) }
  rw [notBefore]
  split_ifs with hrested
  · dsimp only
    rw [h.unscheduled hrested]
    exact Nat.le_refl _
  · exact hnow.waits

lemma Sound.haltRecovery (h : Sound cfg s past clock) {reason : DisconnectReason}
    (hreason : reason.isTerminal = true) :
    Sound cfg (s.haltRecovery reason).1 ((s.haltRecovery reason).2 ++ past) clock := by
  unfold Feed.haltRecovery
  split_ifs with hhalted
  · exact h
  · exact { h with
      flying := rfl
      session := fun _ => hreason
      grounded := fun _ => rfl
      unhealthy := (nofun) }

lemma Feed.stopFor_idle (reason : DisconnectReason) :
    Feed.stopFor { s with pending := false } reason = s.stopFor reason := by
  unfold Feed.stopFor Feed.haltRecovery
  dsimp only
  split_ifs <;> rfl

lemma Sound.stopFor (h : Sound cfg s past clock) {reason : DisconnectReason}
    (hreason : reason.isTerminal = true) (hopen : s.reconnectHalted = none) :
    Sound cfg (s.stopFor reason).1 ((s.stopFor reason).2 ++ past) clock := by
  unfold Feed.stopFor Feed.haltRecovery
  have hnone : s.reconnectHalted.isSome = false := by rw [hopen]; rfl
  simp only [hnone, Bool.false_eq_true, if_false]
  split_ifs with hup
  · exact { h with
      flying := rfl
      feed := fun _ => rfl
      grounded := fun _ => rfl
      unhealthy := (nofun) }
  · exact { h with
      flying := rfl
      session := fun _ => hreason
      grounded := fun _ => rfl
      unhealthy := (nofun) }

lemma Sound.gaveUp (h : Sound cfg s past clock) :
    Sound cfg s.reportRecoveryExhausted.1 (s.reportRecoveryExhausted.2 ++ past) clock :=
  { h with flying := rfl, feed := fun _ => rfl, grounded := fun _ => rfl, unhealthy := (nofun) }

lemma Sound.answered (h : Sound cfg s past now) {due : ℕ} {act : Act}
    (hact : act = .vanished now ∨ ∃ reason, act = .failed now reason)
    (hdue : notBefore (act :: past) ≤ due) :
    Sound cfg { s with pending := false, nextAttemptAt := some due } (act :: past) now := by
  obtain rfl | ⟨reason, rfl⟩ := hact
  · exact { h with
      flying := rfl
      grounded := fun _ => rfl
      unhealthy := (nofun)
      waits := hdue
      unscheduled := (nofun) }
  · exact { h with
      flying := rfl
      grounded := fun _ => rfl
      unhealthy := (nofun)
      waits := hdue
      unscheduled := (nofun) }

lemma Sound.installed (h : Sound cfg s past now) (hpending : s.pending = true)
    (hopen : s.reconnectHalted = none) :
    Sound cfg { s.reconnectFarm.clearHaltIfItWasNotSettled with
      connectedAt := some now, budget := s.budget.recordConnected now, nextAttemptAt := none,
      pending := false } (.installed now :: past) now where
  allowed := by
    refine ⟨⟨h.flying ▸ hpending, ?_⟩, h.allowed⟩
    by_contra hover
    simpa [hopen] using h.session (by simpa using hover)
  down := rfl
  flying := rfl
  feed := (nofun)
  session hover := by simpa [hopen] using h.session hover
  attempts := h.attempts
  started := h.started
  begun := h.begun
  grounded _ := rfl
  healthy since hsince := by
    simpa [RecoveryBudget.recordConnected, h.unhealthy hpending, upSince] using hsince
  unhealthy := (nofun)
  tries := Nat.zero_le _
  fresh _ := rfl
  waits := Nat.zero_le _
  unscheduled _ := rfl

lemma Sound.polls (h : Sound cfg s past clock) (hlater : clock ≤ now) (answer : Option Answer)
    (random : ℕ) : Sound cfg (s.pollFarmReconnect now answer random).1
      ((s.pollFarmReconnect now answer random).2 ++ past) now := by
  unfold Feed.pollFarmReconnect
  cases hpending : s.pending with
  | false => exact h.later hlater
  | true =>
      have hopen : s.reconnectHalted = none := by
        cases hhalted : s.reconnectHalted with
        | none => rfl
        | some reason =>
            have hidle := h.grounded (by rw [hhalted]; rfl)
            rw [hpending] at hidle
            exact absurd hidle (by decide)
      have hnone : s.reconnectHalted.any (·.isTerminal) = false := by rw [hopen]; rfl
      simp only [Bool.not_true, Bool.false_eq_true, if_false, hnone]
      rcases answer with _ | _ | reason | _
      · exact h.later hlater
      · exact (h.later hlater).installed hpending hopen
      · cases hterminal : reason.isTerminal with
        | true =>
            have hstop : reason.recovery = .stop := of_decide_eq_true hterminal
            have hfailed : Sound cfg { s with pending := false } (.failed now reason :: past) now :=
              { h.later hlater with
                flying := rfl
                grounded := fun _ => rfl
                unhealthy := (nofun)
                waits := by
                  simp only [notBefore, hstop]
                  exact (h.later hlater).waits
                unscheduled := (nofun) }
            have hstopped := hfailed.stopFor hterminal hopen
            rw [Feed.stopFor_idle] at hstopped
            simp only [hterminal, if_true, List.append_assoc, List.singleton_append]
            exact hstopped
        | false =>
            simp only [hterminal, Bool.false_eq_true, if_false]
            have hdue : notBefore (.failed now reason :: past) ≤
                now + delayFor reason (reconnectBackoff s.reconnectAttempt random) := by
              have hwait := leastWait_le_reconnectBackoff h.tries random
              cases hrecovery : reason.recovery with
              | retry =>
                  simp only [notBefore, delayFor, hrecovery]
                  omega
              | retrySlowly =>
                  simp only [notBefore, delayFor, hrecovery]
                  omega
              | stop =>
                  have hstop : reason.isTerminal = true := decide_eq_true hrecovery
                  rw [hterminal] at hstop
                  exact absurd hstop (by decide)
            exact (h.later hlater).answered (.inr ⟨reason, rfl⟩) hdue
      · exact (h.later hlater).answered (.inl rfl) (Nat.add_le_add_left
          (leastWait_le_reconnectBackoff h.tries random) now)

lemma Sound.settles (h : Sound cfg s past clock) (hlater : clock ≤ now) :
    Sound cfg { s with budget := s.budget.settle now cfg.stableWindow !s.disconnected }
      (.settled now (!s.disconnected) (s.budget.givesBack now cfg.stableWindow !s.disconnected) ::
        past) now := by
  have hnow := h.later hlater
  have hdown := hnow.down
  cases hfound : s.disconnected with
  | true =>
      rw [hfound] at hdown
      exact { hnow with down := hdown, healthy := (nofun), unhealthy := fun _ => rfl }
  | false =>
      rw [hfound] at hdown
      cases hback : s.budget.givesBack now cfg.stableWindow true with
      | true =>
          have hsettled : s.budget.settle now cfg.stableWindow true =
              { s.budget with attempts := 0, started := none } := by
            simp [RecoveryBudget.settle, hback]
          obtain ⟨since, hsince, hheld⟩ : ∃ since ∈ s.budget.healthySince,
              cfg.stableWindow ≤ now - since := by
            simpa [RecoveryBudget.givesBack, Option.any_eq_true] using hback
          rw [Bool.not_false, hback, hsettled]
          exact { hnow with
            allowed := ⟨⟨rfl, since, hnow.healthy since hsince, hheld⟩, hnow.allowed⟩
            down := hdown
            attempts := Nat.le_refl 0
            started := (nofun)
            begun := (nofun) }
      | false =>
          have hsettled : s.budget.settle now cfg.stableWindow true = s.budget := by
            simp [RecoveryBudget.settle, hback]
          rw [Bool.not_false, hback, hsettled]
          exact { hnow with down := hdown }

lemma nextAttemptAt_stopFor (reason : DisconnectReason) :
    (s.stopFor reason).1.nextAttemptAt = s.nextAttemptAt := by
  unfold Feed.stopFor Feed.haltRecovery
  split_ifs <;> rfl

lemma disconnected_stopFor (reason : DisconnectReason) :
    (s.stopFor reason).1.disconnected = s.disconnected := by
  unfold Feed.stopFor Feed.haltRecovery
  split_ifs <;> rfl

lemma Sound.postponed (h : Sound cfg s past clock) (hdown : s.disconnected = true) {due : ℕ}
    (hdue : s.nextAttemptAt.getD (clock + leastWait 0) ≤ due) :
    Sound cfg { s with nextAttemptAt := some due } past clock :=
  { h with
    waits := Nat.le_trans h.waits hdue
    unscheduled := fun hrested =>
      absurd ((rested_of_down (h.down ▸ hdown)).symm.trans hrested) Bool.false_ne_true }

/-- The rung is given back to a connection that held, and no connection is counted up any more. -/
lemma Sound.rungRead (h : Sound cfg s past clock) (p : ℕ → Bool) :
    Sound cfg { s with
      reconnectAttempt := if s.connectedAt.any p then 0 else s.reconnectAttempt
      connectedAt := none } past clock := by
  refine { h with tries := ?_, fresh := (nofun) }
  show FeedRecovery.tries past ≤ if s.connectedAt.any p then 0 else s.reconnectAttempt
  split_ifs with hheld
  · obtain ⟨up, hup, -⟩ := (Option.any_eq_true _ _).1 hheld
    exact Nat.le_of_eq (h.fresh (by rw [hup]; rfl))
  · exact h.tries

lemma Sound.counted (h : Sound cfg s past now) :
    Sound cfg { s with budget := s.budget.recordAttempt now } past now := by
  refine { h with
    attempts := Nat.le_succ_of_le h.attempts
    started := fun first hfirst => ?_
    begun := fun began hbegan => ?_
    healthy := (nofun)
    unhealthy := fun _ => rfl }
  · obtain ⟨began, hbegan, hle⟩ := h.started first hfirst
    exact ⟨began, by simp [RecoveryBudget.recordAttempt, Option.mem_def.1 hbegan], hle⟩
  · obtain rfl := Option.some.inj hbegan
    cases hstarted : s.budget.started with
    | none => exact Nat.le_refl now
    | some began => exact h.begun began hstarted

lemma Sound.mayDial (h : Sound cfg s past now) (hdown : s.disconnected = true)
    (hidle : s.pending = false) (hopen : s.reconnectHalted = none) (hgoes : s.halted = none)
    (hmay : s.budget.mayRetry cfg now = true) (hdue : notBefore past ≤ now) :
    MayDial cfg now past := by
  simp only [RecoveryBudget.mayRetry, Bool.and_eq_true, decide_eq_true_eq, Bool.not_eq_true']
    at hmay
  obtain ⟨⟨hpolicy, hfew⟩, hintime⟩ := hmay
  refine ⟨hpolicy, h.down ▸ hdown, h.flying ▸ hidle, ?_, ?_, fun most hmost => ?_,
    fun most hmost first hfirst => ?_, hdue⟩
  · by_contra hup
    simpa [hgoes] using h.feed (by simpa using hup)
  · by_contra hover
    simpa [hopen] using h.session (by simpa using hover)
  · have hleft : s.budget.attempts < most := by
      simpa [Option.mem_def.1 hmost] using hfew
    exact Nat.lt_of_le_of_lt h.attempts hleft
  · obtain ⟨began, hbegan, hle⟩ := h.started first hfirst
    have hleft : now - began < most := by
      simpa [RecoveryBudget.outOfTime, Option.mem_def.1 hmost, Option.mem_def.1 hbegan] using hintime
    omega

lemma Sound.dialled (h : Sound cfg s past now) (hmay : MayDial cfg now past)
    (hopen : s.reconnectHalted = none) (hup : s.connectedAt = none) :
    Sound cfg { s with
      nextAttemptAt := none
      budget := s.budget.recordAttempt now
      reconnectAttempt := s.reconnectAttempt + 1
      pending := true } (.dialled now :: past) now := by
  have hcounted := h.counted
  refine { hcounted with
    allowed := ⟨hmay, h.allowed⟩
    flying := rfl
    attempts := Nat.succ_le_succ h.attempts
    started := fun first hfirst => ?_
    grounded := ?_
    healthy := (nofun)
    unhealthy := fun _ => rfl
    tries := Nat.succ_le_succ h.tries
    fresh := ?_
    waits := Nat.le_add_right_of_le hmay.waited
    unscheduled := (nofun) }
  · have hlast : first ∈ (now :: spent past).getLast? := hfirst
    rw [List.getLast?_cons] at hlast
    cases hpast : (spent past).getLast? with
    | none =>
        obtain rfl : now = first := by simpa [hpast] using hlast
        exact ⟨_, rfl, hcounted.begun _ rfl⟩
    | some last =>
        obtain rfl : last = first := by simpa [hpast] using hlast
        exact hcounted.started last hpast
  · simp [hopen]
  · simp [hup]

lemma Sound.schedules (h : Sound cfg s past clock) (hlater : clock ≤ now) (credentials : Bool)
    (random : ℕ) : Sound cfg (s.maybeSpawnFarmReconnect cfg now credentials random).1
      ((s.maybeSpawnFarmReconnect cfg now credentials random).2 ++ past) now := by
  have hnow := h.later hlater
  unfold Feed.maybeSpawnFarmReconnect
  by_cases hguard : (!s.disconnected || s.pending || s.reconnectHalted.isSome ||
      s.halted.isSome) = true
  · rw [if_pos hguard]
    exact hnow
  by_cases hmay : (!s.budget.mayRetry cfg now) = true
  · rw [if_neg hguard, if_pos hmay]
    split_ifs
    · exact hnow.gaveUp
    · exact hnow
  rw [if_neg hguard, if_neg hmay]
  simp only [Bool.or_eq_true, Bool.not_eq_true', not_or, Bool.not_eq_false, Bool.not_eq_true,
    Option.isSome_eq_false_iff, Option.isNone_iff_eq_none] at hguard hmay
  obtain ⟨⟨⟨hdown, hidle⟩, hopen⟩, hgoes⟩ := hguard
  have hread := hnow.rungRead fun up => cfg.stableWindow ≤ now - up
  have hwaits := hnow.waits
  dsimp only
  cases hnext : s.nextAttemptAt with
  | none =>
      rw [hnext] at hwaits
      refine hread.postponed hdown ?_
      dsimp only
      rw [hnext]
      exact Nat.add_le_add_left (leastWait_le_reconnectBackoff (Nat.zero_le _) random) now
  | some due =>
      rw [hnext] at hwaits
      dsimp only
      by_cases hdue : due ≤ now
      · have hpast := Nat.le_trans hwaits hdue
        rw [if_pos hdue]
        cases credentials with
        | true => exact hread.dialled (hnow.mayDial hdown hidle hopen hgoes hmay hpast) hopen rfl
        | false =>
            have hcleared : Sound cfg { s with
                reconnectAttempt :=
                  if s.connectedAt.any fun up => cfg.stableWindow ≤ now - up then 0
                  else s.reconnectAttempt
                connectedAt := none
                nextAttemptAt := none } past now :=
              { hread with
                waits := Nat.le_add_right_of_le hpast
                unscheduled := fun _ => rfl }
            have hstopped := hcleared.counted.stopFor
              (rfl : DisconnectReason.authorizationFailed.isTerminal = true) hopen
            refine hstopped.postponed ((disconnected_stopFor _).trans hdown) ?_
            rw [nextAttemptAt_stopFor]
            exact Nat.add_le_add_left (by decide) now
      · rw [if_neg hdue]
        refine hread.postponed hdown ?_
        dsimp only
        rw [hnext]
        exact Nat.le_refl _

lemma Sound.step {w : Seen} (h : Sound cfg w.feed w.past w.clock) {e : Event} (he : Proper w e) :
    Sound cfg (w.step cfg e).feed (w.step cfg e).past (w.step cfg e).clock := by
  cases e with
  | drops now => exact h.went (he now rfl)
  | trading down => exact { h with }
  | handsIn =>
      exact { h with
        down := rfl
        feed := (nofun)
        waits := Nat.zero_le _
        unscheduled := (nofun) }
  | halts reason => exact h.haltRecovery he
  | settles now => exact h.settles (he now rfl)
  | abandons now =>
      have hnow := h.later (he now rfl)
      show Sound cfg (w.feed.abandonRecoveryPastItsDeadline cfg now).1
        ((w.feed.abandonRecoveryPastItsDeadline cfg now).2 ++ w.past) now
      unfold Feed.abandonRecoveryPastItsDeadline
      split_ifs
      · exact hnow
      · exact hnow.gaveUp
      · exact hnow
  | polls now answer random => exact h.polls (he now rfl) answer random
  | schedules now credentials random => exact h.schedules (he now rfl) credentials random

/-! ## Every run -/

/-- **The quote feed is dialled as the caller allowed.**  Whatever drops, answers, halts and laps
follow one another, an attempt starts only while the feed is down, alone, with neither it nor the
session given up, under the automatic policy, within the attempts and the time allowed since the
budget was last given back, and not before what the last answer's reason and the ladder ask, nor
before the ladder's first rung behind the loss of the first connection or of one of its own; nothing
is installed that was not dialled, nor once the session is over; and the budget is given back only
for a connection that held for the stable window, found up each time and dialled for no more. -/
theorem feed_dialled_as_allowed (cfg : ReconnectConfig) (es : List Event)
    (hrun : Runs.Along (Seen.step cfg) Proper {} es) :
    Allowed cfg (Runs.run (Seen.step cfg) {} es).past := by
  have hstart : Sound cfg {} [] 0 :=
    ⟨trivial, rfl, rfl, nofun, nofun, Nat.le_refl 0, nofun, nofun, nofun, nofun, nofun,
      Nat.le_refl 0, nofun, Nat.zero_le _, fun _ => rfl⟩
  have hstep : ∀ (w : Seen) (e : Event), Sound cfg w.feed w.past w.clock → Proper w e →
      Sound cfg (w.step cfg e).feed (w.step cfg e).past (w.step cfg e).clock :=
    fun _ _ h he => h.step he
  exact (Runs.Along.invariant hstep hstart hrun).allowed

/-- A feed that goes is dialled twice: refused as not ready, it waits out the half minute. -/
theorem feed_dialled_as_allowed_twice :
    let es : List Event := [.drops 500, .schedules 1000 true 0, .schedules 3000 true 7,
      .polls 3500 (some (.failed .notReady)) 0, .schedules 20000 true 0, .schedules 33500 true 0,
      .polls 34000 (some .connected) 0, .settles 34001, .settles 94000]
    Allowed { maxAttempts := some 2 } (Runs.run (Seen.step { maxAttempts := some 2 }) {} es).past ∧
      (Runs.run (Seen.step { maxAttempts := some 2 }) {} es).past.map (fun
        | .dialled now => now
        | _ => 0) = [0, 0, 0, 33500, 0, 3000, 0] := by
  intro es
  exact ⟨feed_dialled_as_allowed _ es (by simp [es, Runs.Along, Proper]; decide), by decide⟩

end IbkrDx.FeedRecovery
