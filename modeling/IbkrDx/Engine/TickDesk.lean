import IbkrDx.Lib.Runs
import IbkrDx.Protocol.TbtStream

/-!
# Tick-by-tick streams shared by callers

The tick subscriptions of `hmds/mod.rs`, with the venue that serves them: every query for one
contract, kind and size filter is answered with the number of one stream, whose prices are moves.

* `TickDesk` — the subscriptions, and the withdrawals waiting for a number.
* `sendTbtSubscribe`, `sendTbtUnsubscribe`, `acknowledged`, `refused`, `handleTbtRecord`.
* `TickVenue` — the queries it has not answered, the answers on their way, and the streams open.
* `TickWorld` — both, a step at a time; `owed`, `Right`, `Closes` — what is right of a step.

What a record states, and where its prices get to, is a parameter, `read`, as `readRecord` reads
one.
-/

namespace IbkrDx

/-- What a query asks for: the venue serves one stream for each. -/
structure TickKey where
  instrument : ℕ
  kind : TbtKind
  ignoreSize : Bool
  deriving DecidableEq

def tbtWireKind : TbtKind → String
  | .allLast => "AllLast"
  | .last => "Last"
  | .bidAsk => "BidAsk"
  | .midPoint => "MidPoint"

/-- A caller's tick-by-tick subscription; the venue's number is nought until it is stated. -/
structure TbtSubscription (Pos : Type) where
  ignoreSize : Bool
  instrument : ℕ
  queryId : ℕ
  kind : TbtKind
  callerReqId : ℤ
  venueId : ℕ := 0
  minTick : ℤ
  sizeTick : ℚ := 0
  running : Pos

/-- The subscriptions, and the withdrawals of streams not numbered yet. -/
structure TickDesk (Pos : Type) where
  subscriptions : List (TbtSubscription Pos) := []
  withdrawnUnnumbered : ℕ → Option TickKey := fun _ => none
  withdrawn : ℕ → Option TbtKind := fun _ => none
  nextTbtReqId : ℕ := 1

/-- What a withdrawal names: the query, or the venue's number in its real-time namespace. -/
inductive TickerId where
  | query (queryId : ℕ)
  | rtTicker (venueId : ℕ)
  deriving DecidableEq

structure TickTold (Out : Type) where
  reqId : ℤ
  instrument : ℕ
  kind : TbtKind
  out : Out
  deriving DecidableEq

section

variable {Pos Rec Said Out : Type}

def TbtSubscription.key (sub : TbtSubscription Pos) : TickKey :=
  ⟨sub.instrument, sub.kind, sub.ignoreSize⟩

namespace TickDesk

/-- Whether a stream is still read under a number, or asked for by a subscription of the same
contract, kind and size filter. -/
def stillRead (subs : List (TbtSubscription Pos)) (venueId : ℕ) (key : TickKey) : Bool :=
  subs.any fun sub => sub.venueId = venueId ∨
    (sub.instrument = key.instrument ∧ tbtWireKind sub.kind = tbtWireKind key.kind ∧
      sub.ignoreSize = key.ignoreSize)

def sendTbtSubscribe [Inhabited Pos] (d : TickDesk Pos) (callerReqId : ℤ) (key : TickKey)
    (minTick : ℤ) : ℕ × TickDesk Pos :=
  (d.nextTbtReqId,
    { d with
      nextTbtReqId := d.nextTbtReqId + 1
      subscriptions := d.subscriptions ++
        [{  ignoreSize := key.ignoreSize
            instrument := key.instrument
            queryId := d.nextTbtReqId
            kind := key.kind
            callerReqId := callerReqId
            minTick := minTick
            running := default }] })

def isCallers (callerReqId : ℤ) (instrument : ℕ) (sub : TbtSubscription Pos) : Bool :=
  sub.callerReqId = callerReqId ∧ sub.instrument = instrument

/-- A subscription is gone: what is withdrawn at the venue, unless another reads the stream. -/
def withdraw (d : TickDesk Pos) (gone : TbtSubscription Pos) : Option TickerId × TickDesk Pos :=
  if gone.venueId ≠ 0 then
    if stillRead d.subscriptions gone.venueId gone.key then (none, d)
    else
      (some (.rtTicker gone.venueId),
        { d with withdrawn := Function.update d.withdrawn gone.venueId (some gone.kind) })
  else
    (some (.query gone.queryId),
      { d with
        withdrawnUnnumbered :=
          Function.update d.withdrawnUnnumbered gone.queryId (some gone.key) })

def sendTbtUnsubscribe (d : TickDesk Pos) (callerReqId : ℤ) (instrument : ℕ) :
    Option TickerId × TickDesk Pos :=
  match d.subscriptions.find? (isCallers callerReqId instrument) with
  | none => (none, d)
  | some gone =>
      withdraw { d with
        subscriptions := d.subscriptions.eraseP (isCallers callerReqId instrument) } gone

def acknowledgedLate (d : TickDesk Pos) (venueId : ℕ) (key : TickKey) :
    Option TickerId × TickDesk Pos :=
  if stillRead d.subscriptions venueId key then (none, d)
  else
    (some (.rtTicker venueId),
      { d with withdrawn := Function.update d.withdrawn venueId (some key.kind) })

/-- A subscription takes its number and its increments, and stands where another on the same stream
does. -/
def number [Inhabited Pos] (d : TickDesk Pos) (queryId venueId : ℕ) (minTick : ℤ) (sizeTick : ℚ) :
    TickDesk Pos :=
  let joined := d.subscriptions.find? fun sub => sub.queryId ≠ queryId ∧ sub.venueId = venueId
  { d with
    subscriptions := d.subscriptions.map fun sub =>
      if sub.queryId = queryId then
        { sub with
          venueId := venueId
          minTick := minTick
          sizeTick := sizeTick
          running := (joined.map (·.running)).getD default }
      else sub }

def acknowledged [Inhabited Pos] (d : TickDesk Pos) (queryId venueId : ℕ) (minTick : ℤ)
    (sizeTick : ℚ) : Option TickerId × TickDesk Pos :=
  match d.withdrawnUnnumbered queryId with
  | some key =>
      acknowledgedLate { d with
        withdrawnUnnumbered := Function.update d.withdrawnUnnumbered queryId none } venueId key
  | none => (none, d.number queryId venueId minTick sizeTick)

def refused (d : TickDesk Pos) (queryId : ℕ) : TickDesk Pos :=
  { d with subscriptions := d.subscriptions.eraseP (·.queryId = queryId) }

variable (read : TbtKind → Rec → Pos → Option (Said × Pos)) (worth : Said → ℤ → ℚ → Out)

/-- What one holder is told of a record; nothing where its increment is not known. -/
def tell (sub : TbtSubscription Pos) (said : Said) : List (TickTold Out) :=
  if sub.minTick ≤ 0 then []
  else [⟨sub.callerReqId, sub.instrument, sub.kind, worth said sub.minTick sub.sizeTick⟩]

/-- A record, read by each that holds its stream; one that cannot be read ends the frame. -/
def readFor (venueId : ℕ) (rec : Rec) :
    List (TbtSubscription Pos) → List (TickTold Out) × List (TbtSubscription Pos)
  | [] => ([], [])
  | sub :: subs =>
      if sub.venueId = venueId then
        match read sub.kind rec sub.running with
        | none => ([], sub :: subs)
        | some (said, moved) =>
            let (told, subs) := readFor venueId rec subs
            (tell worth sub said ++ told, { sub with running := moved } :: subs)
      else
        let (told, subs) := readFor venueId rec subs
        (told, sub :: subs)

/-- One record of a frame, which names its stream; where nobody holds it, it is stepped over. -/
def handleTbtRecord (d : TickDesk Pos) (venueId : ℕ) (rec : Rec) :
    List (TickTold Out) × TickDesk Pos :=
  let (told, subs) := readFor read worth venueId rec d.subscriptions
  (told, { d with subscriptions := subs })

end TickDesk

/-! ## The venue -/

/-- A stream that is open, and where its prices stand.  `opened` tells it from another that had its
number before. -/
structure TickStream (Pos : Type) where
  venueId : ℕ
  key : TickKey
  stands : Pos
  opened : ℕ

/-- The answer to a query, on its way: the number of its stream, and which stream that is. -/
structure TickAnswer where
  key : TickKey
  venueId : ℕ
  opened : ℕ
  deriving DecidableEq

structure TickVenue (Pos : Type) where
  asked : ℕ → Option TickKey := fun _ => none
  answers : ℕ → Option TickAnswer := fun _ => none
  streams : List (TickStream Pos) := []
  /-- The stream each query it took up is served by. -/
  served : ℕ → Option ℕ := fun _ => none
  /-- How many streams were opened, and which of them were closed. -/
  opened : ℕ := 0
  closed : List ℕ := []

namespace TickVenue

/-- Whether a query may be answered with a number: that of the stream open for what it asks, or one
that no stream has. -/
def MayServe (v : TickVenue Pos) (key : TickKey) (venueId : ℕ) : Prop :=
  venueId ≠ 0 ∧ ∀ st ∈ v.streams, st.venueId = venueId ↔ st.key = key

instance (v : TickVenue Pos) (key : TickKey) (venueId : ℕ) : Decidable (v.MayServe key venueId) :=
  inferInstanceAs (Decidable (_ ∧ _))

def answer (v : TickVenue Pos) (queryId : ℕ) (a : TickAnswer) : TickVenue Pos :=
  { v with
    asked := Function.update v.asked queryId none
    answers := Function.update v.answers queryId (some a)
    served := Function.update v.served queryId (some a.opened) }

def openStream [Inhabited Pos] (v : TickVenue Pos) (key : TickKey) (venueId : ℕ) : TickVenue Pos :=
  { v with
    streams := ⟨venueId, key, default, v.opened⟩ :: v.streams
    opened := v.opened + 1 }

/-- A query is taken up: it is served by the stream open for what it asks, or by one that is
opened for it. -/
def serve [Inhabited Pos] (v : TickVenue Pos) (queryId venueId : ℕ) : TickVenue Pos :=
  match v.asked queryId with
  | none => v
  | some key =>
      if v.MayServe key venueId then
        match v.streams.find? (·.key = key) with
        | some st => v.answer queryId ⟨key, venueId, st.opened⟩
        | none => (v.openStream key venueId).answer queryId ⟨key, venueId, v.opened⟩
      else v

/-- A withdrawal that names a number closes the stream open under it; one that names a query closes
none. -/
def close (v : TickVenue Pos) : Option TickerId → TickVenue Pos
  | some (.rtTicker venueId) =>
      { v with
        streams := v.streams.filter (·.venueId ≠ venueId)
        closed := v.closed ++ (v.streams.filter (·.venueId = venueId)).map (·.opened) }
  | _ => v

def move (v : TickVenue Pos) (opened : ℕ) (moved : Pos) : TickVenue Pos :=
  { v with
    streams := v.streams.map fun st =>
      if st.opened = opened then { st with stands := moved } else st }

end TickVenue

/-! ## Runs -/

structure TickWorld (Pos : Type) where
  desk : TickDesk Pos := {}
  venue : TickVenue Pos := {}

inductive TickEvent (Rec : Type) where
  | subscribe (callerReqId : ℤ) (key : TickKey) (minTick : ℤ)
  | unsubscribe (callerReqId : ℤ) (instrument : ℕ)
  | serve (queryId venueId : ℕ)
  /-- The answer to a query arrives, with the increments it states. -/
  | acknowledge (queryId : ℕ) (minTick : ℤ) (sizeTick : ℚ)
  | refuse (queryId : ℕ)
  | record (venueId : ℕ) (rec : Rec)

namespace TickWorld

variable (read : TbtKind → Rec → Pos → Option (Said × Pos)) (worth : Said → ℤ → ℚ → Out)

def subscribe [Inhabited Pos] (w : TickWorld Pos) (callerReqId : ℤ) (key : TickKey)
    (minTick : ℤ) : TickWorld Pos :=
  let (queryId, desk) := w.desk.sendTbtSubscribe callerReqId key minTick
  { desk := desk
    venue := { w.venue with asked := Function.update w.venue.asked queryId (some key) } }

def unsubscribe (w : TickWorld Pos) (callerReqId : ℤ) (instrument : ℕ) : TickWorld Pos :=
  let (sent, desk) := w.desk.sendTbtUnsubscribe callerReqId instrument
  { desk := desk, venue := w.venue.close sent }

/-- The answer to a query arrives; it states an increment. -/
def acknowledge [Inhabited Pos] (w : TickWorld Pos) (queryId : ℕ) (minTick : ℤ) (sizeTick : ℚ) :
    TickWorld Pos :=
  match w.venue.answers queryId with
  | none => w
  | some a =>
      if 0 < minTick then
        let (sent, desk) := w.desk.acknowledged queryId a.venueId minTick sizeTick
        { desk := desk
          venue := ({ w.venue with
            answers := Function.update w.venue.answers queryId none } : TickVenue Pos).close sent }
      else w

def refuse (w : TickWorld Pos) (queryId : ℕ) : TickWorld Pos :=
  match w.venue.asked queryId with
  | none => w
  | some _ =>
      { desk := w.desk.refused queryId
        venue := { w.venue with asked := Function.update w.venue.asked queryId none } }

/-- What the venue's record says and where it leaves the stream's prices, where the stream is open
and the record is one of it. -/
def written (w : TickWorld Pos) (venueId : ℕ) (rec : Rec) :
    Option (TickStream Pos × Said × Pos) :=
  (w.venue.streams.find? (·.venueId = venueId)).bind fun st =>
    (read st.key.kind rec st.stands).map fun said => (st, said)

def record (w : TickWorld Pos) (venueId : ℕ) (rec : Rec) : List (TickTold Out) × TickWorld Pos :=
  match w.written read venueId rec with
  | none => ([], w)
  | some (st, _, moved) =>
      let (told, desk) := w.desk.handleTbtRecord read worth venueId rec
      (told, { desk := desk, venue := w.venue.move st.opened moved })

def tells [Inhabited Pos] (w : TickWorld Pos) : TickEvent Rec → List (TickTold Out) × TickWorld Pos
  | .subscribe callerReqId key minTick => ([], w.subscribe callerReqId key minTick)
  | .unsubscribe callerReqId instrument => ([], w.unsubscribe callerReqId instrument)
  | .serve queryId venueId => ([], { w with venue := w.venue.serve queryId venueId })
  | .acknowledge queryId minTick sizeTick => ([], w.acknowledge queryId minTick sizeTick)
  | .refuse queryId => ([], w.refuse queryId)
  | .record venueId rec => w.record read worth venueId rec

def step [Inhabited Pos] (w : TickWorld Pos) (e : TickEvent Rec) : TickWorld Pos :=
  (w.tells read worth e).2

/-- A stream is read, or a query that may be served by it is not answered. -/
def Keeps (w : TickWorld Pos) (st : TickStream Pos) (but : ℕ → Prop) : Prop :=
  (∃ sub ∈ w.desk.subscriptions, sub.venueId = st.venueId) ∨
    (∃ q, ¬ but q ∧ w.venue.asked q = some st.key) ∨
    ∃ q a, ¬ but q ∧ w.venue.answers q = some a ∧ a.opened = st.opened

/-- Where what the code does is right: its `u32` counts the queries; a subscription is numbered
beside another on its stream, or before the stream moves; a late answer that withdraws names no
other stream a caller asks for; and a refusal leaves no stream with nobody on it. -/
def Spared [Inhabited Pos] (w : TickWorld Pos) : TickEvent Rec → Prop
  | .subscribe .. => w.desk.nextTbtReqId + 1 < 2 ^ 32
  | .acknowledge queryId _ _ => ∀ a, w.venue.answers queryId = some a →
      match w.desk.withdrawnUnnumbered queryId with
      | none =>
          (∃ sub ∈ w.desk.subscriptions, sub.queryId ≠ queryId ∧ sub.venueId = a.venueId) ∨
            ∀ st ∈ w.venue.streams, st.opened = a.opened → st.stands = default
      | some key => TickDesk.stillRead w.desk.subscriptions a.venueId key = false →
          ∀ st ∈ w.venue.streams, st.venueId = a.venueId → st.opened ≠ a.opened →
            ∀ sub ∈ w.desk.subscriptions, sub.key ≠ st.key
  | .refuse queryId => ∀ st ∈ w.venue.streams, w.venue.asked queryId = some st.key →
      w.Keeps st (· = queryId)
  | _ => True

def On (w : TickWorld Pos) (st : TickStream Pos) (sub : TbtSubscription Pos) : Bool :=
  sub.venueId ≠ 0 ∧ w.venue.served sub.queryId = some st.opened

/-- What a record owes: to each acknowledged on its stream once, and to nobody else, what it says
where the stream stands. -/
def owed (w : TickWorld Pos) (venueId : ℕ) (rec : Rec) : List (TickTold Out) :=
  match w.written read venueId rec with
  | none => []
  | some (st, said, _) =>
      (w.desk.subscriptions.filter (w.On st)).map fun sub =>
        ⟨sub.callerReqId, sub.instrument, sub.kind, worth said sub.minTick sub.sizeTick⟩

/-- What is right of an event: a record is told as it is owed, and no stream is closed that a caller
reads or awaits. -/
def Right [Inhabited Pos] (w : TickWorld Pos) (e : TickEvent Rec) : Prop :=
  (∀ venueId rec, e = .record venueId rec →
    (w.tells read worth e).1 = w.owed read worth venueId rec) ∧
  ∀ st ∈ w.venue.streams,
    (∀ st' ∈ (w.step read worth e).venue.streams, st'.opened ≠ st.opened) →
    ∀ sub ∈ (w.step read worth e).desk.subscriptions, sub.key ≠ st.key

/-- Every stream that was opened is closed, once, or it is open with somebody on it or a query that
may be served by it not answered. -/
def Closes (w : TickWorld Pos) : Prop :=
  ∀ n < w.venue.opened,
    (w.venue.closed.count n = 1 ∧ ∀ st ∈ w.venue.streams, st.opened ≠ n) ∨
    (w.venue.closed.count n = 0 ∧
      ∃ st ∈ w.venue.streams, st.opened = n ∧ w.Keeps st (fun _ => False))

end TickWorld

end

end IbkrDx
