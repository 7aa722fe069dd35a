import IbkrDx.Engine.Orders

/-!
# Replaces, and what answers them

What the context keeps of one order and what moves it: `Context`'s own operations, from
`context/mod.rs`; a replace and a cancel going out, from `engine/hot_loop/order_builder/mod.rs`;
reports and cancel rejects coming in, from `engine/hot_loop/ccp/executions.rs`.

* `OrderEntry` — what the context's maps hold under one order's number.
* `OrderEntry.restorePreReplace` — what a refused revision puts back.
* `modify` — a replace going out.
* `handleExecReport`, `handleCancelReject` — a report and a cancel reject on the order.
* `OrderEntry.step` — one of these.

The maps are keyed by order and every operation here reads and writes them at one key, so the model
holds what lies at that key, and a snapshot by its revision alone.  `Spec` is the placement record;
how one is merged onto another, and which type and prices it states, is `Placing`.
-/

namespace IbkrDx

variable {Spec : Type}

/-! ## What is kept of an order -/

/-- What was there before a revision: the record, the name, the placement. -/
structure Snapshot (Spec : Type) where
  record : Order
  name : Bytes
  placed : Option Spec

/-- What the context holds under one order's number. -/
structure OrderEntry (Spec : Type) where
  /-- `open_orders`. -/
  order : Option Order
  /-- `modify_versions`: how many revisions were issued. -/
  modifyVersion : Option ℕ := some 0
  /-- `last_clord`: the name the venue is taken to hold it under. -/
  lastClord : Option Bytes := none
  submitted : Option Spec := none
  beforeTheCancel : Option OrderStatus := none
  /-- `pre_replace`, by revision. -/
  preReplace : List (ℕ × Snapshot Spec) := []
  /-- `venue_orders`: whether the venue has named it. -/
  venueNamed : Bool := false
  /-- `placed_at`: when it went out, by the venue's clock. -/
  placedAt : Option ℤ := some 0
  /-- Whether the completed orders name it, as the order its reports are about. -/
  finished : Bool := false

namespace OrderEntry

/-- The name a cancel or a replace states for the order: the one recorded, or the one its number and
its version make. -/
def wireName (id : OrderId) (e : OrderEntry Spec) : Bytes :=
  e.lastClord.getD (chainName id (e.modifyVersion.getD 0))

def insertOrder (o : Order) (e : OrderEntry Spec) : OrderEntry Spec :=
  { e with order := some o, modifyVersion := some (e.modifyVersion.getD 0) }

def replaceIsOutstanding (e : OrderEntry Spec) : Bool := !e.preReplace.isEmpty

/-- `Context::update_order_status`, and whether it moved the order. -/
def updateOrderStatus (status : OrderStatus) (replayed : Bool) (e : OrderEntry Spec) :
    OrderEntry Spec × Bool :=
  match e.order with
  | none => (e, false)
  | some o =>
      if guarded o.status status replayed e.replaceIsOutstanding then
        ({ e with order := some { o with status := status } }, true)
      else (e, false)

def setOrderStatusForced (status : OrderStatus) (e : OrderEntry Spec) : OrderEntry Spec :=
  { e with order := e.order.map fun o => { o with status := status } }

def adjustOrderFilled (delta : Qty) (e : OrderEntry Spec) : OrderEntry Spec :=
  { e with order := e.order.map fun o =>
      { o with filled := max (o.filled.saturatingAdd delta) 0 } }

/-- `Context::retire_order`, and the completed orders naming it. -/
def retireOrder (e : OrderEntry Spec) : OrderEntry Spec :=
  { e with
    order := none
    modifyVersion := none
    lastClord := none
    submitted := none
    beforeTheCancel := none
    preReplace := []
    venueNamed := false
    placedAt := none
    finished := true }

def reconcileRecoveredRevision (revision : ℕ) (e : OrderEntry Spec) : OrderEntry Spec :=
  { e with modifyVersion := some (max (e.modifyVersion.getD 0) revision), preReplace := [] }

/-- The record a refusal puts back: the snapshot's, with what has happened to the order since. -/
def restored (prior : Order) (current : Option Order) : Order :=
  let prior := match current with
    | none => prior
    | some c =>
        { prior with
          filled := c.filled
          status := if c.status ≠ .pendingReplace ∧ prior.status.rank < c.status.rank then c.status
            else prior.status }
  if 0 < prior.filled ∧ prior.status.rank < OrderStatus.partiallyFilled.rank then
    { prior with status := .partiallyFilled }
  else prior

@[simp]
lemma restored_terms (prior : Order) (current : Option Order) :
    (restored prior current).terms = prior.terms := by
  unfold restored
  cases current <;> dsimp only <;> split_ifs <;> rfl

@[simp]
lemma restored_filled (prior c : Order) : (restored prior (some c)).filled = c.filled := by
  unfold restored
  dsimp only
  split_ifs <;> rfl

lemma rank_le_restored (prior : Order) {c : Order} (hc : c.status ≠ .pendingReplace) :
    c.status.rank ≤ (restored prior (some c)).status.rank := by
  have hkept : c.status.rank ≤ (if c.status ≠ .pendingReplace ∧ prior.status.rank < c.status.rank
      then c.status else prior.status).rank := by
    split_ifs with h
    · exact le_rfl
    · exact Nat.le_of_not_lt fun hlt => h ⟨hc, hlt⟩
  unfold restored
  dsimp only
  split_ifs at hkept ⊢ with hsame hpart hpart
  · exact hkept.trans hpart.2.le
  · exact hkept
  · exact hkept.trans hpart.2.le
  · exact hkept

def restorePreReplace (revision : ℕ) (e : OrderEntry Spec) : OrderEntry Spec :=
  match e.preReplace.lookup revision with
  | none => e
  | some prior =>
      let kept := (e.preReplace.filter fun s => s.1 ≠ revision).filter fun s => s.1 ≤ revision
      let submitted := match prior.placed, e.submitted with
        | some placed, some _ => some placed
        | _, held => held
      { ({ e with preReplace := kept, submitted := submitted }).insertOrder
          (restored prior.record e.order) with lastClord := some prior.name }

end OrderEntry

/-! ## A replace going out -/

def ordLit : UInt8 := 10

def isTriggerOnly (ordType : UInt8) : Bool := ordType == 51 || ordType == 74 || ordType == 1

/-- Types that state something beside their type and price, which only the placement records. -/
def replaceNeedsThePlacedRecord (ordType : UInt8) : Bool :=
  ordType == 80 || ordType == 84 || ordType ∈ [11, 6, 7, 8, 3, 4, 5, 12, 13]

/-- What a caller asks of a replace.  A type, a time in force or a trigger of nought is not
stated. -/
structure ModifyRequest (Spec : Type) where
  price : ℤ
  qty : Qty
  ordType : UInt8
  tif : UInt8
  stopPrice : ℤ
  stated : Option Spec

structure Placing (Spec : Type) where
  /-- `merge_statement`: a statement onto what was placed. -/
  merge : Spec → Spec → Spec
  /-- What is kept of an order's attachments, where no placement is held. -/
  keepAttached : Spec → Spec
  /-- `tracked_shape`: the type, the price and the trigger a placement is recorded under. -/
  trackedShape : Spec → UInt8 × ℤ × ℤ
  whatIf : Spec → Bool
  parentId : Spec → OrderId

/-- A request refused before it went out: the code and the text the caller is given. -/
structure Refusal where
  code : ℤ
  text : String
  deriving DecidableEq

structure Replace where
  clord : Bytes
  origClord : Bytes
  deriving DecidableEq

/-- The terms a replace records: what is stated, and the resting order's where nothing is. -/
def attemptTerms (orig : Order) (req : ModifyRequest Spec) (shape : Option (UInt8 × ℤ × ℤ)) :
    Terms :=
  let ordType := match shape with
    | some s => s.1
    | none => if req.ordType ≠ 0 then req.ordType else orig.ordType
  let tif := if req.tif ≠ 0 then req.tif else orig.tif
  let triggerOnly := isTriggerOnly ordType
  let typeChanged := orig.ordType != ordType
  let carriesTrigger := triggerOnly || ((ordType == 52 || ordType == ordLit)
    && (if req.ordType ≠ 0 then req.stopPrice != 0 else orig.stopPrice != 0))
  let newStop :=
    if triggerOnly && req.stopPrice == 0 then req.price
    else if carriesTrigger && req.stopPrice != 0 then req.stopPrice
    else if req.stopPrice != 0 && orig.stopPrice != 0 && !typeChanged then req.stopPrice
    else if typeChanged && !carriesTrigger then 0
    else orig.stopPrice
  match shape with
  | some s => ⟨req.qty, s.2.1, ordType, tif, s.2.2⟩
  | none => ⟨req.qty, req.price, ordType, tif, newStop⟩

/-- The record a replace writes ahead of its answer. -/
def attempted (orig : Order) (t : Terms) : Order :=
  { orig with
    qty := t.qty
    price := t.price
    ordType := t.ordType
    tif := t.tif
    stopPrice := t.stopPrice
    status := .pendingReplace }

/-- **A replace going out.**  The entry it leaves, and the replace or what it was refused for. -/
def modify (placing : Placing Spec) (id : OrderId) (req : ModifyRequest Spec)
    (e : OrderEntry Spec) : OrderEntry Spec × Except Refusal Replace :=
  match e.order with
  | none => (e, .error ⟨135, "no order " ++ toString id
      ++ " is tracked here, so it cannot be replaced"⟩)
  | some orig =>
      let spec := match req.stated, e.submitted with
        | none, held => held
        | some stated, some resting => some (placing.merge resting stated)
        | some stated, none => some (placing.keepAttached stated)
      let merged := { e with submitted := spec }
      if spec.isNone && replaceNeedsThePlacedRecord orig.ordType then
        (merged, .error ⟨135, "order " ++ toString id
          ++ " was not placed by this session, so the offset that defines it cannot be restated; "
          ++ "withdraw it and place a new order"⟩)
      else
        let shape := (spec.filter fun _ => req.stated.isSome).map placing.trackedShape
        let prevVer := e.modifyVersion.getD 0
        if prevVer + 1 < revisionLimit then
          let origClord := e.lastClord.getD (chainName id prevVer)
          let clord := chainName id (prevVer + 1)
          ({ merged.insertOrder (attempted orig (attemptTerms orig req shape)) with
              preReplace := (prevVer + 1, ⟨orig, origClord, e.submitted⟩)
                :: merged.preReplace.filter fun s => s.1 ≠ prevVer + 1
              modifyVersion := some (prevVer + 1)
              lastClord := some clord },
            .ok ⟨clord, origClord⟩)
        else
          (merged, .error ⟨399, "order " ++ toString id
            ++ " has been replaced as many times as it can be named; withdraw it and place a new "
            ++ "order"⟩)

/-- `synthesize_pending_cancel`, behind a cancel that went out. -/
def synthesizePendingCancel (e : OrderEntry Spec) : OrderEntry Spec :=
  let cleared := { e with beforeTheCancel := none }
  match cleared.updateOrderStatus .pendingCancel false with
  | (moved, true) => { moved with beforeTheCancel := e.order.map Order.status }
  | (_, false) => cleared

/-! ## What comes back -/

/-- What a report states of the order it is about, as far as these operations read it. -/
structure OrderReport where
  /-- Tag 11. -/
  name : Option Bytes
  /-- Tag 41. -/
  origName : Option Bytes := none
  /-- Tag 39. -/
  ordStatus : String
  /-- Tag 150. -/
  execType : String := ""
  /-- Tag 20. -/
  transType : Option String := none
  routed : Bool := false
  /-- Tags 97 and 43. -/
  resend : Bool := false
  statesVenueOrder : Bool := false
  /-- Tag 6699, or tag 60. -/
  time : Option ℤ := none
  /-- Whether it restates a trade under an execution booked already. -/
  restatedTwice : Bool := false
  /-- What booking it adds to what the order has filled. -/
  booked : Qty := 0

namespace OrderReport

/-- A report stating `E` is read as one stating `6`. -/
def normalised (r : OrderReport) : OrderReport :=
  if r.ordStatus = "E" then
    { r with ordStatus := "6", execType := if r.execType = "E" then "6" else r.execType }
  else r

def namesACancel (r : OrderReport) : Bool := (r.name.bind List.head?) == some 67

def refuses (r : OrderReport) : Bool := r.execType == "8" && r.ordStatus == "8"

/-- Whether it names the request it refuses beside the order that stands. -/
def namesAnOriginal (r : OrderReport) : Bool := r.origName.any fun name => !name.isEmpty

def statusReport (r : OrderReport) : Bool := r.transType == some "3"

def restatesATrade (r : OrderReport) : Bool :=
  r.transType == some "1" || r.transType == some "2" || r.execType == "G" || r.execType == "H"

def recordedName (r : OrderReport) : Option Bytes :=
  r.name.filter fun raw => raw.head? != some 67 && raw.head? != some 76 && raw != [42]

/-- Whether it is a restatement or an acknowledgement that moves nothing of an order held. -/
def skipped (r : OrderReport) (e : OrderEntry Spec) : Bool :=
  (r.transType == none || r.transType == some "0") && (r.execType == "D" || r.execType == "6")
    && e.order.isSome

/-- Whether it states a revision the order's cancel has gone past. -/
def belowTheCancel (r : OrderReport) (e : OrderEntry Spec) : Bool :=
  r.statusReport && r.ordStatus != "4" && r.ordStatus != "C"
    && r.name.any (fun raw => raw.head? != some 67) && e.beforeTheCancel.isSome
    && e.order.any fun o => o.status == .pendingCancel

/-- Whether it states a change on its way, of the revision last issued or a later one. -/
def acknowledgesAChange (r : OrderReport) (e : OrderEntry Spec) : Bool :=
  r.statusReport && r.ordStatus == "6" && !r.resend && !r.belowTheCancel e
    && r.name.all (fun raw => decide (e.modifyVersion.getD 0 ≤ revisionOf raw))
    && e.order.any fun o => !o.status.isTerminal && o.status != .uncertain

def status (r : OrderReport) (e : OrderEntry Spec) : OrderStatus :=
  match e.order with
  | none => statusOf r.ordStatus r.routed
  | some held =>
      if r.belowTheCancel e || r.skipped e then held.status
      else if r.acknowledgesAChange e then .preSubmitted
      else if r.execType == "6" && held.status != .uncertain then held.status
      else if r.ordStatus == "I" then held.status
      else if !r.statusReport && (r.ordStatus == "0" || r.ordStatus == "5" || r.ordStatus == "A")
          && (held.status == .pendingCancel
            || (held.status == .inactive && e.placedAt.isNone)) then held.status
      else statusOf r.ordStatus r.routed

/-- Whether the venue is naming an order it holds, which this client holds no record of or none it
believes. -/
def recovering (r : OrderReport) (e : OrderEntry Spec) : Bool :=
  !(r.status e).isTerminal && !r.resend && !r.skipped e
    && !(r.restatesATrade && r.restatedTwice) && (!e.finished || r.restatesATrade)
    && (e.order.isNone || e.order.any fun o => o.status == .uncertain)

def reportedRevision (r : OrderReport) (e : OrderEntry Spec) : ℕ :=
  r.name.elim (e.modifyVersion.getD 0) revisionOf

def isReplaceAck (r : OrderReport) (e : OrderEntry Spec) : Bool :=
  r.ordStatus == "5" && !r.skipped e

def finishes (r : OrderReport) (e : OrderEntry Spec) : Bool :=
  r.status e == .filled || r.status e == .cancelled || r.status e == .rejected

end OrderReport

def noteVenueOrder (r : OrderReport) (e : OrderEntry Spec) : OrderEntry Spec :=
  { e with venueNamed := e.venueNamed || (!r.resend && r.statesVenueOrder && e.order.isSome) }

/-- Record the name a report states for the order, forward only unless the venue is naming what it
holds. -/
def recordName (r : OrderReport) (recovering : Bool) (e : OrderEntry Spec) : OrderEntry Spec :=
  match r.recordedName with
  | none => e
  | some raw =>
      let recorded :=
        if (!e.finished || r.restatesATrade) && (recovering || e.lastClord.all fun held =>
            decide (revisionOf held ≤ revisionOf raw)) then
          { e with lastClord := some raw }
        else e
      if recovering then recorded.reconcileRecoveredRevision (revisionOf raw) else recorded

def noteReplaceAck (revision : ℕ) (e : OrderEntry Spec) : OrderEntry Spec :=
  { e with preReplace :=
      (e.preReplace.filter fun s => s.1 ≠ revision).filter fun s => revision < s.1 }

def applyStatus (status : OrderStatus) (acknowledges resend : Bool) (e : OrderEntry Spec) :
    OrderEntry Spec :=
  if acknowledges then e.setOrderStatusForced status else (e.updateOrderStatus status resend).1

/-- Retire an order a report ends, unless the report answers the request that raced its cancel. -/
def finish (status : OrderStatus) (e : OrderEntry Spec) : OrderEntry Spec :=
  let cancelStillOwed := status == .rejected
    && e.order.any (fun o => o.status == .pendingCancel) && e.replaceIsOutstanding
  if cancelStillOwed then e else e.retireOrder

lemma finish_cases (status : OrderStatus) (e : OrderEntry Spec) :
    finish status e = e ∨ finish status e = e.retireOrder := by
  unfold finish
  dsimp only
  split_ifs
  · exact Or.inl rfl
  · exact Or.inr rfl

/-- An ordinary report on the order.  `recoverOrder` is the record the venue's naming is read as,
where it states enough to keep one. -/
def takeReport (recoverOrder : OrderReport → Option Order → Option Order) (r : OrderReport)
    (e : OrderEntry Spec) : OrderEntry Spec :=
  let status := r.status e
  let recovering := r.recovering e
  let held := match recovering, recoverOrder r e.order with
    | true, some o => e.insertOrder o
    | _, _ => e
  let named := recordName r recovering (noteVenueOrder r held)
  let answered := if r.isReplaceAck e then noteReplaceAck (r.reportedRevision named) named else named
  let moved := applyStatus status (r.acknowledgesAChange e) r.resend answered
  let booked := moved.adjustOrderFilled r.booked
  if r.finishes e then finish status booked else booked

def OrderReport.refusedRevision (r : OrderReport) : ℕ := r.name.elim 0 revisionOf

/-- **A report on the order.** -/
def handleExecReport (recoverOrder : OrderReport → Option Order → Option Order) (r : OrderReport)
    (e : OrderEntry Spec) : OrderEntry Spec :=
  let r := r.normalised
  if r.refuses && r.namesACancel then
    -- the cancel is refused, and the order stands where it stood before it
    match e.beforeTheCancel with
    | none => e
    | some stood => { e with beforeTheCancel := none }.setOrderStatusForced stood
  else if r.refuses && r.namesAnOriginal then e.restorePreReplace r.refusedRevision
  else takeReport recoverOrder r e

/-- **A cancel reject on the order** (35=9), of a cancel or, where `rejectType` is 2, of a
replace. -/
def handleCancelReject (rejectType : ℕ) (name : Option Bytes) (e : OrderEntry Spec) :
    OrderEntry Spec :=
  let refused := name.elim (e.modifyVersion.getD 0) revisionOf
  let answersALiveRevision := rejectType == 2 && (e.preReplace.lookup refused).isSome
  let withdrawn := rejectType == 2 && e.order.any fun o => o.status == .pendingCancel
  let restored := if rejectType = 2 then e.restorePreReplace refused else e
  match restored.order with
  | none => restored
  | some o =>
      if (rejectType != 2 || answersALiveRevision) && (rejectType != 2 || !withdrawn) then
        restored.setOrderStatusForced (if 0 < o.filled then .partiallyFilled else .submitted)
      else restored

/-! ## What happens to an order -/

inductive OrderEvent (Spec : Type) where
  | modify (req : ModifyRequest Spec)
  | cancel
  | report (r : OrderReport)
  | cancelReject (rejectType : ℕ) (name : Option Bytes)

def OrderEntry.step (placing : Placing Spec) (recoverOrder : OrderReport → Option Order → Option Order)
    (id : OrderId) (e : OrderEntry Spec) : OrderEvent Spec → OrderEntry Spec
  | .modify req => (modify placing id req e).1
  | .cancel => synthesizePendingCancel e
  | .report r => handleExecReport recoverOrder r e
  | .cancelReject rejectType name => handleCancelReject rejectType name e

end IbkrDx
