import IbkrDx.Lib.Removal
import IbkrDx.Protocol.Fix

/-!
# Five-second bar streams: the routing

The bar streams of `hmds/mod.rs`.  The venue numbers every query for the same bars the same, so a
stream has several readers; and it may give a number to other bars.

* `sendRealtimeBarSubscribe`, `assignBarRoute`, `withdrawBarStream`, `handleRtbarData`.

How a bar is read from its payload and two units is a parameter, `decode`.
-/

namespace IbkrDx

/-- An `f64`, by its bits. -/
abbrev F64 := UInt64

/-- No number: the largest exponent, and a fraction that is not nought. -/
def F64.isNan (x : F64) : Bool := (x &&& 0x7FFFFFFFFFFFFFFF) > 0x7FF0000000000000

def sameTick (x y : F64) : Bool := x = y ∨ (F64.isNan x ∧ F64.isNan y)

/-- The name a query goes out under: `rt_` for a stream, `hist_` for a batch of bars. -/
inductive BarQuery where
  | rt (n : ℕ)
  | hist (n : ℕ)
  deriving DecidableEq

/-- The bars a request asks for: one contract's, of one kind, in or out of regular hours. -/
structure Bars where
  conId : ℤ
  secType : String
  exchange : String
  whatToShow : String
  useRth : Bool
  deriving DecidableEq

/-- A live five-second bar stream, in the shape its request needs to go again. -/
structure RtBarRequest where
  reqId : ℕ
  bars : Bars
  deriving DecidableEq

/-- A subscription: its query, its caller, the venue's number for it and the units of its prices and
its sizes. -/
structure BarSub where
  query : BarQuery
  reqId : ℕ
  ticker : Option ℕ
  minTick : F64
  sizeTick : F64

structure BarRoute where
  contracts : List RtBarRequest
  readers : List ℕ
  ticker : Option ℕ
  active : Bool
  minTick : F64
  sizeTick : F64
  deriving DecidableEq

/-- What a bar or schedule request still arriving was asked with. -/
structure BarAsk where
  schedule : Bool
  request : RtBarRequest
  deriving DecidableEq

/-- What a withdrawal names: the venue's number, or the query. -/
inductive BarTicker where
  | number (ticker : ℕ)
  | query (q : BarQuery)
  deriving DecidableEq

inductive BarSent where
  | subscribe (q : BarQuery) (bars : Bars)
  | cancel (ticker : BarTicker)
  deriving DecidableEq

/-- A bar handed to a request: told as it is, kept until its history is in, or folded into the bar it
is forming, behind the bars kept. -/
inductive BarMove (Bar : Type) where
  | told (reqId : ℕ) (bar : Bar)
  | queued (reqId : ℕ) (bar : Bar)
  | folded (reqId : ℕ) (earlier : List Bar) (bar : Bar)

structure BarRecord where
  ticker : ℕ
  timestamp : ℕ
  payload : Bytes
  deriving DecidableEq

/-- The historical connection, as far as five-second bars go. -/
structure BarDesk (Bar : Type) where
  up : Bool := true
  rtbarSubs : List BarSub := []
  rtbarRoutes : List BarRoute := []
  rtbarResub : List RtBarRequest := []
  rtbarWithdrawnUnnumbered : List (BarQuery × RtBarRequest) := []
  keepUpToDateReqs : List ℕ := []
  /-- The bars kept for each request that is kept up to date. -/
  formingBars : List (ℕ × List Bar) := []
  pendingHistorical : List (BarQuery × ℕ) := []
  held : List ℕ := []
  pendingSchedule : List ℕ := []
  barAsks : List BarAsk := []
  nextHmdsQueryId : ℕ := 1000

/-! ## Routes -/

namespace BarRoute

def without (reqId : ℕ) (route : BarRoute) : BarRoute :=
  { route with readers := route.readers.filter (· ≠ reqId) }

def quiet (route : BarRoute) : BarRoute := { route with active := false }

def replaced (route : BarRoute) : BarRoute := { route with active := false, ticker := none }

def sameContract (asked other : RtBarRequest) : Bool :=
  other.bars = asked.bars ∧ (asked.bars.conId ≠ 0 ∨ other.reqId = asked.reqId)

def lists (asked : RtBarRequest) (route : BarRoute) : Bool :=
  route.contracts.any (sameContract asked)

/-- Whether the route a number has can carry what is asked for too. -/
def compatible (asked : RtBarRequest) (route : BarRoute) : Bool :=
  match route.contracts with
  | [] => false
  | primary :: _ =>
      primary.bars.whatToShow = asked.bars.whatToShow ∧ primary.bars.useRth = asked.bars.useRth ∧
        (route.lists asked ∨
          (primary.bars.conId ≠ 0 ∧ primary.bars.conId = asked.bars.conId))

def otherKind (asked : RtBarRequest) (route : BarRoute) : Bool :=
  match route.contracts with
  | [] => false
  | primary :: _ =>
      primary.bars.whatToShow ≠ asked.bars.whatToShow ∨ primary.bars.useRth ≠ asked.bars.useRth

def take (asked : RtBarRequest) (ticker : ℕ) (route : BarRoute) : BarRoute :=
  { route with
    contracts := if route.lists asked then route.contracts else route.contracts ++ [asked]
    readers := route.readers ++ [asked.reqId]
    ticker := some ticker
    active := true }

end BarRoute

def currentRoute (routes : List BarRoute) (ticker : ℕ) : Option ℕ :=
  routes.findIdx? fun route => route.active && route.ticker = some ticker

def compatibleRoute (routes : List BarRoute) (asked : RtBarRequest) (ticker : ℕ) : Option ℕ :=
  (currentRoute routes ticker).filter fun pos => routes[pos]?.any (·.compatible asked)

/-- The route what is asked for is read on, looked for unless the number was another kind's. -/
def alternateRoute (routes : List BarRoute) (asked : RtBarRequest) (ticker : ℕ) : Option ℕ :=
  if (currentRoute routes ticker).any fun pos => routes[pos]?.any (·.otherKind asked) then none
  else routes.findIdx? fun route => route.active && route.lists asked

/-- The route the request goes to: a compatible one, or the alternate where the unit is its own. -/
def targetRoute (routes : List BarRoute) (asked : RtBarRequest) (ticker : ℕ) (minTick : F64) :
    Option ℕ :=
  (compatibleRoute routes asked ticker).or
    ((alternateRoute routes asked ticker).filter fun pos =>
      routes[pos]?.any fun route => sameTick route.minTick minTick)

def replacedRoute (routes : List BarRoute) (asked : RtBarRequest) (ticker : ℕ) (minTick : F64) :
    Option ℕ :=
  if compatibleRoute routes asked ticker = none ∧ targetRoute routes asked ticker minTick = none then
    alternateRoute routes asked ticker
  else none

def displacedRoute (routes : List BarRoute) (asked : RtBarRequest) (ticker : ℕ) (minTick : F64) :
    Option ℕ :=
  (currentRoute routes ticker).filter fun pos =>
    some pos ≠ targetRoute routes asked ticker minTick

def modifyAt (f : BarRoute → BarRoute) (pos : Option ℕ) (routes : List BarRoute) : List BarRoute :=
  match pos with
  | none => routes
  | some pos => routes.modify pos f

namespace BarDesk

variable {Bar : Type}

/-- Tell the venue to stop serving a query. -/
def sendHistoricalCancel (d : BarDesk Bar) (ticker : BarTicker) : List BarSent :=
  if d.up then [.cancel ticker] else []

def forgetBarReader (d : BarDesk Bar) (reqId : ℕ) : BarDesk Bar :=
  { d with
    rtbarRoutes := (d.rtbarRoutes.map (·.without reqId)).filter (·.readers ≠ []) }

def routeOf (d : BarDesk Bar) (reqId : ℕ) : Option BarRoute :=
  d.rtbarRoutes.find? (·.readers.contains reqId)

def barRouteActive (d : BarDesk Bar) (reqId : ℕ) : Bool :=
  ((d.routeOf reqId).map (·.active)).getD true

/-! ## A stream is asked for -/

/-- The subscription of a stream that runs already for the same bars. -/
def runningStream (d : BarDesk Bar) (bars : Bars) : Option BarSub :=
  (d.rtbarResub.filter fun r => r.bars = bars ∧ d.barRouteActive r.reqId).findSome? fun r =>
    d.rtbarSubs.find? fun sub => sub.reqId = r.reqId ∧ sub.ticker.isSome

def joinRoute (owner reqId : ℕ) : List BarRoute → List BarRoute :=
  Removal.modifyFirst (·.readers.contains owner) fun route =>
    { route with readers := route.readers ++ [reqId] }

def sendRealtimeBarSubscribe (d : BarDesk Bar) (reqId : ℕ) (bars : Bars) :
    List BarSent × BarDesk Bar :=
  let resub := d.rtbarResub.filter (·.reqId ≠ reqId)
  let running := { d with rtbarResub := resub }.runningStream bars
  let query := BarQuery.rt d.nextHmdsQueryId
  let d := { d with
    rtbarResub := resub ++ [RtBarRequest.mk reqId bars]
    nextHmdsQueryId := d.nextHmdsQueryId + 1 }
  match running with
  | some sub =>
      ([], { d with
        rtbarRoutes := joinRoute sub.reqId reqId d.rtbarRoutes
        rtbarSubs := d.rtbarSubs ++
          [BarSub.mk query reqId sub.ticker sub.minTick sub.sizeTick] })
  | none =>
      (if d.up then [.subscribe query bars] else [], { d with
        -- a cent, and one
        rtbarSubs := d.rtbarSubs ++
          [BarSub.mk query reqId none 0x3F847AE147AE147B 0x3FF0000000000000] })

/-! ## A stream is numbered -/

/-- What a request asked for, of a stream of its own or of the history it is kept up to date with. -/
def askedBy (d : BarDesk Bar) (reqId : ℕ) : Option RtBarRequest :=
  (d.rtbarResub.find? (·.reqId = reqId)).or
    ((d.barAsks.find? (·.request.reqId = reqId)).map (·.request))

/-- The subscriptions of a route's readers lose their number. -/
def unnumber (route : BarRoute) (subs : List BarSub) : List BarSub :=
  subs.map fun sub => if route.readers.contains sub.reqId then { sub with ticker := none } else sub

/-- The subscriptions of a route's readers read the number, in the route's units. -/
def number (route : BarRoute) (ticker : ℕ) (subs : List BarSub) : List BarSub :=
  subs.map fun sub =>
    if route.readers.contains sub.reqId then
      { sub with ticker := some ticker, minTick := route.minTick, sizeTick := route.sizeTick }
    else sub

/-- The routes, with the request on none of them: the one that loses its number and the one that is
given up are quiet. -/
def clearedRoutes (d : BarDesk Bar) (asked : RtBarRequest) (ticker : ℕ) (minTick : F64) :
    List BarRoute :=
  ((modifyAt BarRoute.replaced (replacedRoute d.rtbarRoutes asked ticker minTick)
    (modifyAt BarRoute.quiet (displacedRoute d.rtbarRoutes asked ticker minTick)
      d.rtbarRoutes)).map (·.without asked.reqId))

def routeTo (d : BarDesk Bar) (asked : RtBarRequest) (ticker : ℕ) (minTick sizeTick : F64) :
    List BarSent × BarDesk Bar :=
  let givenUp := (replacedRoute d.rtbarRoutes asked ticker minTick).bind (d.rtbarRoutes[·]?)
  let subs := givenUp.elim d.rtbarSubs fun route => unnumber route d.rtbarSubs
  let sent := (givenUp.bind (·.ticker)).toList.flatMap fun number =>
    d.sendHistoricalCancel (.number number)
  let cleared := d.clearedRoutes asked ticker minTick
  let target := targetRoute d.rtbarRoutes asked ticker minTick
  let routes := if target = none then cleared ++ [BarRoute.mk [] [] (some ticker) true minTick sizeTick]
    else cleared
  let routes := routes.modify (target.getD cleared.length) (·.take asked ticker)
  let subs := (routes[target.getD cleared.length]?).elim subs fun route =>
    number route ticker subs
  (sent, { d with
    rtbarSubs := subs
    rtbarRoutes := routes.filter (·.readers ≠ []) })

def assignBarRoute (d : BarDesk Bar) (pos ticker : ℕ) (minTick sizeTick : F64) :
    List BarSent × BarDesk Bar :=
  match d.rtbarSubs[pos]? with
  | none => ([], d)
  | some sub =>
      match d.askedBy sub.reqId with
      | none => ([], { d with
          rtbarSubs := d.rtbarSubs.modify pos fun sub =>
            { sub with ticker := some ticker, minTick := minTick, sizeTick := sizeTick } })
      | some asked => d.routeTo asked ticker minTick sizeTick

/-- The batch query of a request kept up to date that a name is. -/
def batchOf (d : BarDesk Bar) (q : BarQuery) : Option (BarQuery × ℕ) :=
  d.pendingHistorical.find? fun p => p.1 = q ∧ d.keepUpToDateReqs.contains p.2

/-- The venue states a number for a query, and the units of what the stream moves in. -/
def acknowledged (d : BarDesk Bar) (q : BarQuery) (ticker : ℕ) (minTick : Option F64)
    (sizeTick : F64) : List BarSent × BarDesk Bar :=
  match d.rtbarWithdrawnUnnumbered.find? (·.1 = q) with
  | some (_, bars) =>
      (if d.rtbarResub.any (·.bars = bars.bars) then [] else d.sendHistoricalCancel (.number ticker),
        { d with rtbarWithdrawnUnnumbered := d.rtbarWithdrawnUnnumbered.eraseP (·.1 = q) })
  | none =>
      -- no unit, no bars
      match minTick with
      | none => ([], d)
      | some minTick =>
          match d.rtbarSubs.findIdx? (·.query = q) with
          | some pos => d.assignBarRoute pos ticker minTick sizeTick
          | none =>
              match d.batchOf q with
              | none => ([], d)
              | some (_, reqId) =>
                  { d with
                    rtbarSubs := d.rtbarSubs ++ [BarSub.mk q reqId none minTick sizeTick]
                  }.assignBarRoute d.rtbarSubs.length ticker minTick sizeTick

/-! ## A stream is withdrawn -/

/-- What is told the venue of a stream that is on no route. -/
def withdrawUnrouted (d : BarDesk Bar) (sub : BarSub) (asked : Option RtBarRequest) :
    List BarSent × BarDesk Bar :=
  match sub.ticker with
  | some number =>
      (if d.rtbarSubs.any (·.ticker = some number) then []
        else d.sendHistoricalCancel (.number number), d)
  | none =>
      (d.sendHistoricalCancel (.query sub.query), { d with
        rtbarWithdrawnUnnumbered := match asked with
          | some asked =>
              d.rtbarWithdrawnUnnumbered.filter (·.1 ≠ sub.query) ++ [(sub.query, asked)]
          | none => d.rtbarWithdrawnUnnumbered })

/-- Take a reader off a route: the last one's leaving withdraws the stream by its number. -/
def withdrawRouted (d : BarDesk Bar) (route : BarRoute) (pos reqId : ℕ) :
    List BarSent × BarDesk Bar :=
  if (route.without reqId).readers = [] then
    (match route.ticker with
      | some number => d.sendHistoricalCancel (.number number)
      | none => [], { d with rtbarRoutes := d.rtbarRoutes.eraseIdx pos })
  else ([], { d with rtbarRoutes := d.rtbarRoutes.modify pos (·.without reqId) })

def withdrawBarStream (d : BarDesk Bar) (reqId : ℕ) : List BarSent × BarDesk Bar :=
  let asked := d.rtbarResub.find? (·.reqId = reqId)
  let d := { d with rtbarResub := d.rtbarResub.eraseP (·.reqId = reqId) }
  match d.rtbarSubs.find? (·.reqId = reqId) with
  | none => ([], d)
  | some sub =>
      let d := { d with rtbarSubs := d.rtbarSubs.filter (·.reqId ≠ reqId) }
      match d.rtbarRoutes.findIdx? (·.readers.contains reqId) with
      | some pos =>
          match d.rtbarRoutes[pos]? with
          | some route => d.withdrawRouted route pos reqId
          | none => ([], d)
      | none => d.withdrawUnrouted sub asked

/-- The stream a bar request kept up to date rides goes with it. -/
def withdrawTheStreamHalf (d : BarDesk Bar) (reqId : ℕ) : List BarSent × BarDesk Bar :=
  { d with formingBars := d.formingBars.filter (·.1 ≠ reqId) }.withdrawBarStream reqId

def endKeeping (d : BarDesk Bar) (reqId : ℕ) : List BarSent × BarDesk Bar :=
  if d.keepUpToDateReqs.contains reqId then
    { d with
      keepUpToDateReqs := d.keepUpToDateReqs.filter (· ≠ reqId) }.withdrawTheStreamHalf reqId
  else ([], d)

/-! ## Bars -/

/-- The subscriptions a record is handed to, each request once. -/
def barReaders (d : BarDesk Bar) (ticker : ℕ) (served : List ℕ) : List BarSub → List BarSub
  | [] => []
  | sub :: subs =>
      if sub.ticker ≠ some ticker ∨ sub.reqId ∈ served ∨ ¬d.barRouteActive sub.reqId then
        d.barReaders ticker served subs
      else sub :: d.barReaders ticker (sub.reqId :: served) subs

/-- A bar is handed to a request: on a request kept up to date it waits for the history, and is
folded behind what waited. -/
def handBar (held : List ℕ) (forming : List (ℕ × List Bar)) (reqId : ℕ) (bar : Bar) :
    BarMove Bar × List (ℕ × List Bar) :=
  match forming.find? (·.1 = reqId) with
  | none => (.told reqId bar, forming)
  | some (_, waiting) =>
      if held.contains reqId then
        (.queued reqId bar,
          Removal.modifyFirst (·.1 = reqId) (fun f => (f.1, f.2 ++ [bar])) forming)
      else
        (.folded reqId waiting bar,
          Removal.modifyFirst (·.1 = reqId) (fun f => (f.1, [])) forming)

variable (decode : Bytes → F64 → F64 → ℕ → Option Bar)

def handRecord (held : List ℕ) (rec : BarRecord) :
    List BarSub → List (ℕ × List Bar) → List (BarMove Bar) × List (ℕ × List Bar)
  | [], forming => ([], forming)
  | sub :: subs, forming =>
      match decode rec.payload sub.minTick sub.sizeTick rec.timestamp with
      | none => handRecord held rec subs forming
      | some bar =>
          let handed := handBar held forming sub.reqId bar
          let rest := handRecord held rec subs handed.2
          (handed.1 :: rest.1, rest.2)

def handRecords (d : BarDesk Bar) :
    List BarRecord → List (ℕ × List Bar) → List (List (BarMove Bar)) × List (ℕ × List Bar)
  | [], forming => ([], forming)
  | rec :: recs, forming =>
      let handed := handRecord decode d.held rec (d.barReaders rec.ticker [] d.rtbarSubs) forming
      let rest := d.handRecords recs handed.2
      (handed.1 :: rest.1, rest.2)

end BarDesk

def u32OfBytes (a b c d : UInt8) : ℕ :=
  ((a.toNat * 256 + b.toNat) * 256 + c.toNat) * 256 + d.toNat

/-- So many records at most, up to one that is cut short. -/
def readBarRecordsUpTo : ℕ → Bytes → List BarRecord
  | n + 1, n0 :: n1 :: n2 :: n3 :: t0 :: t1 :: t2 :: t3 :: len :: rest =>
      if len.toNat ≤ rest.length then
        ⟨u32OfBytes n0 n1 n2 n3, u32OfBytes t0 t1 t2 t3, rest.take len.toNat⟩ ::
          readBarRecordsUpTo n (rest.drop len.toNat)
      else []
  | _, _ => []

def readBarRecords (records : Bytes) : List BarRecord := readBarRecordsUpTo records.length records

inductive BarEvent where
  | subscribe (reqId : ℕ) (bars : Bars)
  /-- A bar request to be kept up to date starts: its batch is sent, and its stream asked for. -/
  | keepUpToDate (reqId : ℕ) (bars : Bars)
  /-- What the historical requests under way are waiting for. -/
  | history (pending : List (BarQuery × ℕ)) (held pendingSchedule : List ℕ) (asks : List BarAsk)
  | acknowledged (q : BarQuery) (ticker : ℕ) (minTick : Option F64) (sizeTick : F64)
  | refused (q : BarQuery)
  /-- A bar request fails for its actions, a page, or its series. -/
  | failed (reqId : ℕ)
  | cancelRealTimeBar (reqId : ℕ)
  | cancelHistorical (reqId : ℕ)
  | frame (body : Bytes)
  | disconnect
  | reconnect

namespace BarDesk

variable {Bar : Type} (decode : Bytes → F64 → F64 → ℕ → Option Bar)

def handleRtbarData (d : BarDesk Bar) (body : Bytes) : List (List (BarMove Bar)) × BarDesk Bar :=
  let handed := d.handRecords decode (readBarRecords (body.drop 2)) d.formingBars
  (handed.1, { d with formingBars := handed.2 })

/-- A stream of its own is asked for where the connection is up and no bar stream runs under the
number. -/
def subscribeRealTimeBar (d : BarDesk Bar) (reqId : ℕ) (bars : Bars) :
    List BarSent × BarDesk Bar :=
  if ¬d.up ∨ d.rtbarSubs.any (·.reqId = reqId) then ([], d)
  else d.sendRealtimeBarSubscribe reqId bars

def startHistoricalRequest (d : BarDesk Bar) (reqId : ℕ) (bars : Bars) :
    List BarSent × BarDesk Bar :=
  if d.up then
    let d : BarDesk Bar := { d with
      keepUpToDateReqs := d.keepUpToDateReqs.filter (· ≠ reqId) ++ [reqId]
      formingBars := d.formingBars.filter (·.1 ≠ reqId) ++ [(reqId, [])] }
    d.sendRealtimeBarSubscribe reqId bars
  else ([], d)

/-- The venue refuses a query: a batch, and the stream that keeps it up to date with it, or a bar
stream. -/
def queryError (d : BarDesk Bar) (q : BarQuery) : List BarSent × BarDesk Bar :=
  match d.pendingHistorical.find? (·.1 = q) with
  | some (_, reqId) =>
      { d with
        pendingHistorical := d.pendingHistorical.eraseP (·.1 = q)
        held := d.held.filter (· ≠ reqId) }.endKeeping reqId
  | none =>
      match d.rtbarSubs.find? (·.query = q) with
      | none => ([], d)
      | some sub =>
          let d := { d with rtbarSubs := d.rtbarSubs.eraseP (·.query = q) }.forgetBarReader sub.reqId
          ([], { d with rtbarResub := d.rtbarResub.filter (·.reqId ≠ sub.reqId) })

def failBars (d : BarDesk Bar) (reqId : ℕ) : List BarSent × BarDesk Bar :=
  { d with
    pendingHistorical := d.pendingHistorical.filter (·.2 ≠ reqId)
    held := d.held.filter (· ≠ reqId) }.endKeeping reqId

/-- The stream half of a request kept up to date is not withdrawn by itself. -/
def cancelRealTimeBar (d : BarDesk Bar) (reqId : ℕ) : List BarSent × BarDesk Bar :=
  if d.keepUpToDateReqs.contains reqId then ([], d) else d.withdrawBarStream reqId

/-- The withdrawal of the first query a list has under a number. -/
def cancelBatch (d : BarDesk Bar) (reqId : ℕ) : List BarSent × BarDesk Bar :=
  match d.pendingHistorical.find? (·.2 = reqId) with
  | none => ([], d)
  | some (q, _) =>
      (d.sendHistoricalCancel (.query q),
        { d with pendingHistorical := d.pendingHistorical.eraseP (·.2 = reqId) })

def cancelHistorical (d : BarDesk Bar) (reqId : ℕ) : List BarSent × BarDesk Bar :=
  let ended := d.endKeeping reqId
  let batch := ended.2.cancelBatch reqId
  (ended.1 ++ batch.1, { batch.2 with held := batch.2.held.eraseP (· = reqId) })

/-! ## The connection -/

def letGoOfBarRequest (d : BarDesk Bar) (reqId : ℕ) : BarDesk Bar :=
  let d := { d with
    held := d.held.filter (· ≠ reqId)
    pendingHistorical := d.pendingHistorical.filter (·.2 ≠ reqId)
    pendingSchedule := d.pendingSchedule.filter (· ≠ reqId)
    rtbarSubs := d.rtbarSubs.filter (·.reqId ≠ reqId) }.forgetBarReader reqId
  { d with
    rtbarResub := d.rtbarResub.filter (·.reqId ≠ reqId)
    formingBars := d.formingBars.filter (·.1 ≠ reqId) }

def stillArriving (d : BarDesk Bar) (ask : BarAsk) : Bool :=
  if ask.schedule then d.pendingSchedule.contains ask.request.reqId
  else d.held.contains ask.request.reqId

/-- The requests a drop leaves to be asked again, looked for once those kept up to date are gone. -/
def leftToAskAgain (d : BarDesk Bar) : List ℕ :=
  let d := d.keepUpToDateReqs.foldl letGoOfBarRequest d
  (d.barAsks.filter d.stillArriving).map (·.request.reqId)

/-- The bar requests are told of a drop: those kept up to date end, and those still arriving wait to
be asked again. -/
def disconnect (d : BarDesk Bar) : BarDesk Bar :=
  let kept := d.keepUpToDateReqs.foldl letGoOfBarRequest d
  let d := d.leftToAskAgain.foldl letGoOfBarRequest { kept with barAsks := [] }
  { d with up := false, keepUpToDateReqs := [] }

/-- A new connection: each stream is asked for again. -/
def reconnect (d : BarDesk Bar) : List BarSent × BarDesk Bar :=
  d.rtbarResub.foldl
    (fun made r =>
      let asked := made.2.sendRealtimeBarSubscribe r.reqId r.bars
      (made.1 ++ asked.1, asked.2))
    ([], { d with
      up := true
      rtbarSubs := []
      rtbarRoutes := []
      rtbarResub := []
      rtbarWithdrawnUnnumbered := [] })

/-- One event; what is sent to the venue, and the bars handed over, record by record.  Nothing
arrives while the connection is down. -/
def step (d : BarDesk Bar) : BarEvent → (List BarSent × List (List (BarMove Bar))) × BarDesk Bar
  | .subscribe reqId bars => let made := d.subscribeRealTimeBar reqId bars; ((made.1, []), made.2)
  | .keepUpToDate reqId bars =>
      let made := d.startHistoricalRequest reqId bars; ((made.1, []), made.2)
  | .history pending held pendingSchedule asks =>
      (([], []), { d with
        pendingHistorical := pending
        held := held
        pendingSchedule := pendingSchedule
        barAsks := asks })
  | .acknowledged q ticker minTick sizeTick =>
      if d.up then let made := d.acknowledged q ticker minTick sizeTick; ((made.1, []), made.2)
      else (([], []), d)
  | .refused q =>
      if d.up then let made := d.queryError q; ((made.1, []), made.2) else (([], []), d)
  | .failed reqId => let made := d.failBars reqId; ((made.1, []), made.2)
  | .cancelRealTimeBar reqId => let made := d.cancelRealTimeBar reqId; ((made.1, []), made.2)
  | .cancelHistorical reqId => let made := d.cancelHistorical reqId; ((made.1, []), made.2)
  | .frame body =>
      if d.up then let made := d.handleRtbarData decode body; (([], made.1), made.2)
      else (([], []), d)
  | .disconnect => (([], []), d.disconnect)
  | .reconnect => let made := d.reconnect; ((made.1, []), made.2)

end BarDesk

end IbkrDx
