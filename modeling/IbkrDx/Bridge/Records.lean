import Mathlib.Algebra.Group.Int.Defs
import Mathlib.Data.Fintype.OfMap
import Mathlib.Data.List.Sort
import IbkrDx.Bridge.OrderIds
import IbkrDx.Lib.Drain

/-!
# The session's records, and the read that dispatches them

The queues a session's records wait in and the read that takes them, from `bridge/record.rs`.

* `Keeping` — by what rule a queue's records are taken, left or dropped.
* `QueueName`, `QueueName.keeping`, `takenFrom` — the session's queues, in the order they are read.
* `SessionRecords` — the counter of stamps and the queues.
* `SessionRecords.step` — a push, one queue of a read, or a reader taking its own.

A push stamps and appends under one lock and is one step; a read takes the cut, goes over one queue
after another, and puts what it took in order.  What a record says is its body, of any type.
-/

namespace IbkrDx

/-! ## Whose a record is -/

inductive Owner where
  | order (id : ℤ)
  | request (id : ℤ)
  deriving DecidableEq

inductive RecordKind where
  | bars
  | depth
  | scanner
  | answer
  | quotes
  deriving DecidableEq

namespace RecordKind

def all : List RecordKind := [bars, depth, scanner, answer, quotes]

end RecordKind

/-- The numbers readers hold: `ours_in_flight`. -/
abbrev Holding := RecordKind → ℤ → Bool

def askIdBase : ℤ := 3221225472

def engineIdBase : ℤ := 4026531840

/-- Whether a number is in the band the calls that answer ask under. -/
def isAskId (id : ℤ) : Bool := decide (askIdBase ≤ id ∧ id < engineIdBase)

def heldUnderAnyKind (held : Holding) (id : ℤ) : Bool := RecordKind.all.any fun kind => held kind id

/-- Whether a number answers a question already given up on. -/
def isAbandoned (held : Holding) (id : ℤ) : Bool := isAskId id && !heldUnderAnyKind held id

/-! ## What a read does with a record -/

/-- By what rule a queue's records are taken, in `Take::Dispatch`. -/
inductive Keeping where
  /-- `kept_back`, under this kind. -/
  | under (kind : Option RecordKind)
  /-- `error_kept_back`. -/
  | errors
  /-- The records made at calls, none of which is dropped. -/
  | calls
  /-- `kept_back` under one kind, and under another what that one takes. -/
  | both (kind other : RecordKind)

structure Waiting (α : Type*) where
  owner : Option Owner
  refuses : Bool := false
  body : α
  deriving DecidableEq

def keptBack (held : Holding) (kind : Option RecordKind) : Option Owner → Fate
  | none => .take
  | some (.order id) => if kind.any (held · id) then .leave else .take
  | some (.request id) =>
      if isAbandoned held id then .drop
      else if kind.any (held · id) then .leave
      else .take

def Keeping.fate {α : Type*} (rule : Keeping) (held : Holding) (w : Waiting α) : Fate :=
  match rule with
  | .under kind => keptBack held kind w.owner
  | .errors => match w.owner with
    | some (.request id) =>
        if isAbandoned held id then .drop
        else if heldUnderAnyKind held id then .leave
        else .take
    | _ => .take
  | .calls => match w.owner with
    | some (.request id) =>
        if w.refuses && decide (0 ≤ id ∧ id < 2 ^ 32) && heldUnderAnyKind held id then .leave
        else .take
    | _ => .take
  | .both kind other => match keptBack held (some kind) w.owner with
    | .take => keptBack held (some other) w.owner
    | fate => fate

lemma Keeping.held_of_leave {α : Type*} {rule : Keeping} {held : Holding} {w : Waiting α}
    (h : rule.fate held w = .leave) :
    ∃ kind id, held kind id = true ∧ (w.owner = some (.order id) ∨ w.owner = some (.request id)) := by
  have hany : ∀ {id}, heldUnderAnyKind held id = true → ∃ kind, held kind id = true := by
    intro id hheld
    obtain ⟨kind, -, hkind⟩ := List.any_eq_true.1 hheld
    exact ⟨kind, hkind⟩
  have hkept : ∀ {kind : Option RecordKind}, keptBack held kind w.owner = .leave →
      ∃ kind id, held kind id = true ∧
        (w.owner = some (.order id) ∨ w.owner = some (.request id)) := by
    intro kind hleave
    rcases howner : w.owner with _ | id | id
    · simp [keptBack, howner] at hleave
    · simp only [keptBack, howner] at hleave
      split_ifs at hleave with hheld
      obtain ⟨k, -, hk⟩ := Option.any_eq_true _ _ |>.1 hheld
      exact ⟨k, id, hk, Or.inl rfl⟩
    · simp only [keptBack, howner] at hleave
      split_ifs at hleave with _ hheld
      obtain ⟨k, -, hk⟩ := Option.any_eq_true _ _ |>.1 hheld
      exact ⟨k, id, hk, Or.inr rfl⟩
  cases rule with
  | under kind => exact hkept h
  | errors =>
      rcases howner : w.owner with _ | id | id
      · simp [fate, howner] at h
      · simp [fate, howner] at h
      · simp only [fate, howner] at h
        split_ifs at h with _ hheld
        obtain ⟨kind, hkind⟩ := hany hheld
        exact ⟨kind, id, hkind, Or.inr rfl⟩
  | calls =>
      rcases howner : w.owner with _ | id | id
      · simp [fate, howner] at h
      · simp [fate, howner] at h
      · simp only [fate, howner] at h
        split_ifs at h with hheld
        obtain ⟨kind, hkind⟩ := hany (Bool.and_eq_true_iff.1 hheld).2
        exact ⟨kind, id, hkind, Or.inr rfl⟩
  | both kind other =>
      simp only [fate] at h
      rcases hfirst : keptBack held (some kind) w.owner with _ | _ | _
      · rw [hfirst] at h
        exact hkept h
      · exact hkept hfirst
      · rw [hfirst] at h
        exact absurd h (by simp)

lemma Keeping.abandoned_of_drop {α : Type*} {rule : Keeping} {held : Holding} {w : Waiting α}
    (h : rule.fate held w = .drop) :
    ∃ id, w.owner = some (.request id) ∧ isAbandoned held id = true := by
  have hkept : ∀ {kind : Option RecordKind}, keptBack held kind w.owner = .drop →
      ∃ id, w.owner = some (.request id) ∧ isAbandoned held id = true := by
    intro kind hdrop
    rcases howner : w.owner with _ | id | id
    · simp [keptBack, howner] at hdrop
    · simp only [keptBack, howner] at hdrop
      split_ifs at hdrop
    · simp only [keptBack, howner] at hdrop
      split_ifs at hdrop with hab
      exact ⟨id, rfl, hab⟩
  cases rule with
  | under kind => exact hkept h
  | errors =>
      rcases howner : w.owner with _ | id | id
      · simp [fate, howner] at h
      · simp [fate, howner] at h
      · simp only [fate, howner] at h
        split_ifs at h with hab
        exact ⟨id, rfl, hab⟩
  | calls =>
      rcases howner : w.owner with _ | id | id
      · simp [fate, howner] at h
      · simp [fate, howner] at h
      · simp only [fate, howner] at h
        split_ifs at h
  | both kind other =>
      simp only [fate] at h
      rcases hfirst : keptBack held (some kind) w.owner with _ | _ | _
      · rw [hfirst] at h
        exact hkept h
      · rw [hfirst] at h
        exact absurd h (by simp)
      · exact hkept hfirst

/-! ## The queues -/

/-- The queues of a session, and the one the answers a surface builds at its calls wait in. -/
inductive QueueName where
  | sessionRecords | calls
  | orderNotices | fills | orderUpdates | charges | restatedExecutions | replacementsTaken
  | cancelRejects | orderInactive | whatIfResponses
  | tickReqParamsDirect | subscriptionFailuresDirect | tickReqParams | tbtTrades | tbtQuotes
  | tbtMids | depthDropsUnsaid | depthUpdates | tickNews | optionComputations | optionTicks
  | venueErrors | subscriptionNotices | marketDataTypes | subscriptionFailures | companionRefusals
  | realTimeBars | barUpdates
  | historicalErrors | historicalTaken | historicalData | historicalOver | ordersBound
  | headTimestamps | contractDetails | contractDetailsEnd | depthExchangesAnswers
  | calendarMetaData | calendarEvents | matchingSymbols | optionParams | scannerParams
  | advisorConfig | advisorReplaced | advisorRefused | scannerData | historicalNews | newsArticles
  | fundamentalData | histogramData | historicalTicks | historicalSchedules
  | waitingAnswers
  deriving DecidableEq

def QueueName.keeping : QueueName → Keeping
  | calls => .calls
  | orderNotices | orderInactive | whatIfResponses | historicalTaken | historicalData
  | historicalOver | headTimestamps | contractDetails | contractDetailsEnd | calendarMetaData
  | calendarEvents | matchingSymbols | optionParams | historicalNews | fundamentalData
  | histogramData | historicalSchedules => .under (some .answer)
  | depthDropsUnsaid | depthUpdates => .under (some .depth)
  | realTimeBars | barUpdates => .under (some .bars)
  | historicalErrors => .errors
  | scannerData => .both .scanner .answer
  | _ => .under none

/-- The order a read goes over them in; `none` is the day's cache of bulletins. -/
def takenFrom : List (Option QueueName) :=
  [some .sessionRecords, some .calls, some .orderNotices, some .fills, some .orderUpdates,
    some .charges, some .restatedExecutions, some .replacementsTaken, some .cancelRejects,
    some .orderInactive, some .whatIfResponses, some .tickReqParamsDirect,
    some .subscriptionFailuresDirect, some .tickReqParams, some .tbtTrades, some .tbtQuotes,
    some .tbtMids, some .depthDropsUnsaid, some .depthUpdates, some .tickNews,
    some .optionComputations, some .optionTicks, some .venueErrors, some .subscriptionNotices,
    some .marketDataTypes, some .subscriptionFailures, some .companionRefusals, none,
    some .realTimeBars, some .barUpdates, some .historicalErrors, some .historicalTaken,
    some .historicalData, some .historicalOver, some .ordersBound, some .headTimestamps,
    some .contractDetails, some .contractDetailsEnd, some .depthExchangesAnswers,
    some .calendarMetaData, some .calendarEvents, some .matchingSymbols, some .optionParams,
    some .scannerParams, some .advisorConfig, some .advisorReplaced, some .advisorRefused,
    some .scannerData, some .historicalNews, some .newsArticles, some .fundamentalData,
    some .histogramData, some .historicalTicks, some .historicalSchedules, some .waitingAnswers]

lemma nodup_takenFrom : takenFrom.Nodup := by decide

lemma mem_takenFrom (q : QueueName) : some q ∈ takenFrom := by cases q <;> decide

instance : Fintype QueueName :=
  Fintype.ofList (takenFrom.filterMap fun q => q) fun q =>
    List.mem_filterMap.2 ⟨some q, mem_takenFrom q, rfl⟩

/-! ## A read -/

/-- What a read hands out: a record of a queue, or a copy of a bulletin. -/
inductive Given (ι α β : Type*) where
  | record (queue : ι) (w : Waiting α)
  | bulletin (b : β)
  deriving DecidableEq

variable {ι α β : Type*}

def recordsOf (l : List (ℕ × Given ι α β)) : List (ℕ × ι × Waiting α) :=
  l.filterMap fun e => match e.2 with
    | .record q w => some (e.1, q, w)
    | .bulletin _ => none

structure Read (ι α β : Type*) where
  cut : ℕ
  bulletins : Bool
  /-- The numbers readers hold, as each record finds them. -/
  holding : ℕ → Holding
  plan : List (Option ι)
  out : List (ℕ × Given ι α β) := []
  left : List (ℕ × ι × Waiting α) := []
  dropped : List (ℕ × ι × Waiting α) := []

def Read.close (r : Read ι α β) : Read ι α β :=
  { r with out := r.out.insertionSort fun a b => a.1 ≤ b.1 }

/-! ## The records of a session -/

def newsBulletinLimit : ℕ := 1000

structure SessionRecords (ι α β : Type*) where
  counter : ℕ := 0
  queues : ι → List (ℕ × Waiting α) := fun _ => []
  newsBulletins : List (ℕ × β) := []
  bulletinMark : ℕ := u64Max
  reading : Option (Read ι α β) := none
  reads : List (Read ι α β) := []
  /-- What readers took out of the queues themselves. -/
  elsewhere : List (ℕ × ι × Waiting α) := []
  /-- Everything pushed, oldest first. -/
  stamped : List (ℕ × Given ι α β) := []

inductive RecordEvent (ι α β : Type*) where
  /-- A record is pushed: stamped and appended under the queue's lock. -/
  | push (queue : ι) (w : Waiting α)
  | pushBulletin (b : β)
  /-- A subscription to bulletins stands at the day's start, or here. -/
  | armBulletins (allMsgs : Bool)
  | cut (bulletins : Bool) (holding : ℕ → Holding)
  /-- The read under way goes over its next queue, or is over. -/
  | next
  | takeIf (queue : ι) (mine : ℕ → Waiting α → Bool)

namespace SessionRecords

/-- `Queue::take_below`, on one queue. -/
def takeBelow [DecidableEq ι] (rule : ι → Keeping) (q : ι) (r : Read ι α β)
    (s : SessionRecords ι α β) : SessionRecords ι α β :=
  let fate := fun e : ℕ × Waiting α => (rule q).fate (r.holding e.1) e.2
  let waiting := s.queues q
  { s with
    queues := Function.update s.queues q (Drain.kept r.cut fate waiting)
    reading := some { r with
      out := r.out ++ (Drain.picked r.cut fate waiting .take).map fun e => (e.1, .record q e.2)
      left := r.left ++ (Drain.picked r.cut fate waiting .leave).map fun e => (e.1, q, e.2)
      dropped := r.dropped ++ (Drain.picked r.cut fate waiting .drop).map fun e => (e.1, q, e.2) } }

def copyBulletins (r : Read ι α β) (s : SessionRecords ι α β) : SessionRecords ι α β :=
  if r.bulletins then
    { s with
      bulletinMark := r.cut
      reading := some { r with
        out := r.out ++ (s.newsBulletins.filter fun e =>
          decide (s.bulletinMark ≤ e.1 ∧ e.1 < r.cut)).map fun e => (e.1, .bulletin e.2) } }
  else { s with reading := some r }

def step [DecidableEq ι] (rule : ι → Keeping) (plan : List (Option ι))
    (s : SessionRecords ι α β) : RecordEvent ι α β → SessionRecords ι α β
  | .push q w =>
      { s with
        counter := s.counter + 1
        queues := Function.update s.queues q (s.queues q ++ [(s.counter, w)])
        stamped := s.stamped ++ [(s.counter, .record q w)] }
  | .pushBulletin b =>
      { s with
        counter := s.counter + 1
        newsBulletins := (if newsBulletinLimit ≤ s.newsBulletins.length then s.newsBulletins.tail
          else s.newsBulletins) ++ [(s.counter, b)]
        stamped := s.stamped ++ [(s.counter, .bulletin b)] }
  | .armBulletins allMsgs => { s with bulletinMark := if allMsgs then 0 else s.counter }
  | .cut bulletins holding =>
      match s.reading with
      | some _ => s
      | none => { s with reading := some { cut := s.counter, bulletins, holding, plan } }
  | .next =>
      match s.reading with
      | none => s
      | some r => match r.plan with
        | [] => { s with reading := none, reads := s.reads ++ [r.close] }
        | none :: rest => s.copyBulletins { r with plan := rest }
        | some q :: rest => s.takeBelow rule q { r with plan := rest }
  | .takeIf q mine =>
      { s with
        queues := Function.update s.queues q ((s.queues q).filter fun e => !mine e.1 e.2)
        elsewhere := s.elsewhere
          ++ ((s.queues q).filter fun e => mine e.1 e.2).map fun e => (e.1, q, e.2) }

end SessionRecords

end IbkrDx
