import Mathlib.Data.List.Flatten
import IbkrDx.Lib.Removal
import IbkrDx.Lib.Runs

/-!
# Families waiting for a quote: the desk

A parent with attached orders waits, with its family, for the quote its terms are priced off,
`engine/hot_loop/attached_quotes.rs`.  The engine keeps the families, and the bridge the placements
that wait with their latest terms, `waiting_attached_orders` of `bridge/orders.rs`.

What a quote says of an instrument, and whether a family needs one, is said by each event.  What is
sent and told is a log.
-/

namespace IbkrDx

/-! ## Orders -/

structure AttachedTerms (R : Type) where
  contractId : Option ℤ
  rest : R
  deriving DecidableEq

/-- The attributes a change of an order replaces or keeps. -/
structure WaitingAttrs (L R : Type) where
  parentId : ℕ
  ocaGroupStr : String
  ocaGroup : ℕ
  ocaType : ℕ
  attached : Option (AttachedTerms R)
  comboLegs : List L
  rest : R
  deriving DecidableEq

structure StagedOrder (K L R : Type) where
  orderId : ℕ
  instrument : ℕ
  kind : K
  qty : ℤ
  tif : ℕ
  attrs : WaitingAttrs L R
  rest : R
  deriving DecidableEq

structure OrderChange (K L R : Type) where
  orderId : ℕ
  qty : ℤ
  tif : ℕ
  /-- The whole terms, where it states them. -/
  spec : Option (K × WaitingAttrs L R)

inductive OrderRequest (K L R : Type) where
  | submitEx (order : StagedOrder K L R)
  | modify (change : OrderChange K L R)
  | cancel (orderId : ℕ)
  | cancelAll (instrument : ℕ)
  | globalCancel
  | submitBracket (parentId tpId slId instrument : ℕ)

section

variable {K L R C : Type}

namespace OrderRequest

def orderId : OrderRequest K L R → ℕ
  | submitEx order => order.orderId
  | modify change => change.orderId
  | cancel orderId => orderId
  | cancelAll _ => 0
  | globalCancel => 0
  | submitBracket parentId _ _ _ => parentId

def instrument : OrderRequest K L R → Option ℕ
  | submitEx order => some order.instrument
  | cancelAll instrument => some instrument
  | submitBracket _ _ _ instrument => some instrument
  | _ => none

def isModify : OrderRequest K L R → Bool
  | modify _ => true
  | _ => false

def placement : OrderRequest K L R → Option (StagedOrder K L R)
  | submitEx order => some order
  | _ => none

end OrderRequest

/-- A placement with the terms of a change: its links, its group where the change states none, and
the legs the family was placed with stay. -/
def StagedOrder.amended (o : StagedOrder K L R) (c : OrderChange K L R)
    (spec : K × WaitingAttrs L R) : StagedOrder K L R :=
  let ungrouped := spec.2.ocaGroupStr = "" ∧ spec.2.ocaGroup = 0
  { o with
    kind := spec.1
    qty := c.qty
    tif := if c.tif ≠ 0 then c.tif else o.tif
    attrs := { spec.2 with
      parentId := o.attrs.parentId
      ocaGroupStr := if ungrouped then o.attrs.ocaGroupStr else spec.2.ocaGroupStr
      ocaGroup := if ungrouped then o.attrs.ocaGroup else spec.2.ocaGroup
      ocaType := if spec.2.ocaType = 0 then o.attrs.ocaType else spec.2.ocaType
      attached := o.attrs.attached
      comboLegs := if o.attrs.attached.any (·.contractId.isSome) then o.attrs.comboLegs
        else spec.2.comboLegs } }

/-! ## The placements that wait -/

/-- Stage the placements of a family, but those that wait already. -/
def stageWaitingAttached (held : List (StagedOrder K L R)) :
    List (OrderRequest K L R) → List (StagedOrder K L R)
  | [] => held
  | .submitEx o :: orders =>
      stageWaitingAttached (if held.any (·.orderId = o.orderId) then held else held ++ [o]) orders
  | _ :: orders => stageWaitingAttached held orders

/-- Amend a placement that waits, and let some children join it. -/
def amendWaitingAttached (held : List (StagedOrder K L R)) (c : OrderChange K L R)
    (children : List (StagedOrder K L R)) : Option (List (StagedOrder K L R)) :=
  match c.spec with
  | none => none
  | some spec =>
      if held.any (·.orderId = c.orderId) then
        some (children.foldl
          (fun held child =>
            if held.any (·.orderId = child.orderId) then held else held ++ [child])
          (Removal.modifyFirst (·.orderId = c.orderId) (·.amended c spec) held))
      else none

def asItWaits (held : List (StagedOrder K L R)) (r : OrderRequest K L R) :
    Option (OrderRequest K L R) :=
  match held.find? (·.orderId = r.orderId) with
  | some o => some (.submitEx o)
  | none =>
      match r with
      | .submitEx _ => none
      | r => some r

def withHanging (family : List (OrderRequest K L R)) (o : StagedOrder K L R) :
    List (OrderRequest K L R) :=
  if o.attrs.parentId ≠ 0 ∧ family.any (·.orderId = o.attrs.parentId) = true ∧
      family.any (·.orderId = o.orderId) = false then
    family ++ [.submitEx o]
  else family

def waitingFamily (orders : List (OrderRequest K L R)) (held : List (StagedOrder K L R)) :
    List (OrderRequest K L R) :=
  held.foldl withHanging (orders.filterMap (asItWaits held))

/-! ## The desk -/

structure WaitingFamily (K L R C : Type) where
  orders : List (OrderRequest K L R)
  contract : C
  instrument : ℕ
  started : ℕ
  nextPoll : ℕ
  mark : Bool

structure QuoteView where
  rejected : Bool
  markReady : Bool
  ready : Bool
  deriving DecidableEq

inductive Acquire (C : Type) where
  | nothing
  | quote (instrument : ℕ) (contract : C)
  | mark (instrument : ℕ) (contract : C)

structure QuoteDesk (K L R C : Type) where
  waitingAttachedOrders : List (StagedOrder K L R) := []
  attachedQuoteOrders : List (WaitingFamily K L R C) := []
  pendingOrders : List (OrderRequest K L R) := []
  orderUpdates : List ℕ := []
  placed : List ℕ := []
  generated : List (ℕ × ℕ) := []

namespace WaitingFamily

def lists (f : WaitingFamily K L R C) (orderId : ℕ) : Bool := f.orders.any (·.orderId = orderId)

def add (f : WaitingFamily K L R C) (r : OrderRequest K L R) : WaitingFamily K L R C :=
  { f with orders := if f.lists r.orderId then
      Removal.modifyFirst (·.orderId = r.orderId) (fun _ => r) f.orders else f.orders ++ [r] }

/-- Whether a family has waited for its quote long enough, or has it.  Times are in
milliseconds. -/
def due (f : WaitingFamily K L R C) (now : ℕ) (view : ℕ → C → QuoteView) : Bool :=
  (view f.instrument f.contract).rejected ||
    (f.mark && ((view f.instrument f.contract).markReady || decide (2000 ≤ now - f.started))) ||
    (!f.mark && decide (f.nextPoll ≤ now) &&
      (decide (10000 < now - f.started) || (view f.instrument f.contract).ready))

end WaitingFamily

namespace QuoteDesk

def push (d : QuoteDesk K L R C) (r : OrderRequest K L R) : QuoteDesk K L R C :=
  { d with pendingOrders := d.pendingOrders ++ [r] }

def takeWaitingAttachedFamily (held : List (StagedOrder K L R))
    (orders : List (OrderRequest K L R)) :
    List (OrderRequest K L R) × List (StagedOrder K L R) :=
  (waitingFamily orders held,
    held.filter fun o => !(waitingFamily orders held).any (·.orderId = o.orderId))

def release (d : QuoteDesk K L R C) (orders : List (OrderRequest K L R)) : QuoteDesk K L R C :=
  { d with
    waitingAttachedOrders := (takeWaitingAttachedFamily d.waitingAttachedOrders orders).2
    pendingOrders :=
      d.pendingOrders ++ (takeWaitingAttachedFamily d.waitingAttachedOrders orders).1 }

/-- Forget a placement, and the link that tied it to the one that generated it. -/
def forgetWaitingAttachment (d : QuoteDesk K L R C) (orderId : ℕ) : QuoteDesk K L R C :=
  { d with
    placed := d.placed.filter (· ≠ orderId)
    generated := d.generated.filter (·.1 ≠ orderId) }

def discard (d : QuoteDesk K L R C) (r : OrderRequest K L R) : QuoteDesk K L R C :=
  let d := d.forgetWaitingAttachment r.orderId
  match r with
  | .submitEx o => { d with orderUpdates := d.orderUpdates ++ [o.orderId] }
  | _ => d

def cancelsWhole (orderId instrument : Option ℕ) (orders : List (OrderRequest K L R)) : Bool :=
  (orderId.isNone && instrument.isNone) ||
    (instrument.isSome && orders.head?.any (·.instrument = instrument)) ||
    orders.head?.any (some ·.orderId = orderId)

def cancelFamilies (orderId instrument : Option ℕ) :
    List (WaitingFamily K L R C) → QuoteDesk K L R C × List (OrderRequest K L R) →
      QuoteDesk K L R C × List (OrderRequest K L R)
  | [], out => out
  | f :: families, (d, cancelled) =>
      let orders := waitingFamily f.orders d.waitingAttachedOrders
      cancelFamilies orderId instrument families <|
        if cancelsWhole orderId instrument orders then
          ({ d with waitingAttachedOrders :=
              (takeWaitingAttachedFamily d.waitingAttachedOrders orders).2 },
            cancelled ++ (takeWaitingAttachedFamily d.waitingAttachedOrders orders).1)
        else
          match orderId with
          | none => ({ d with attachedQuoteOrders := d.attachedQuoteOrders ++ [{ f with orders }] },
              cancelled)
          | some n =>
              if orders.any (·.orderId = n) then
                ({ d with
                    waitingAttachedOrders := d.waitingAttachedOrders.eraseP (·.orderId = n)
                    attachedQuoteOrders := d.attachedQuoteOrders ++
                      [{ f with orders := orders.filter (·.orderId ≠ n) }] },
                  cancelled ++ ((d.waitingAttachedOrders.find? (·.orderId = n)).map
                    OrderRequest.submitEx).toList)
              else ({ d with attachedQuoteOrders := d.attachedQuoteOrders ++ [{ f with orders }] },
                cancelled)

def cancelWaitingAttached (d : QuoteDesk K L R C) (orderId instrument : Option ℕ) :
    QuoteDesk K L R C × Bool :=
  let out := cancelFamilies orderId instrument d.attachedQuoteOrders
    ({ d with attachedQuoteOrders := [] }, [])
  (out.2.foldl discard out.1, !out.2.isEmpty)

def queueOrderDuringQuoteWait (d : QuoteDesk K L R C) (r : OrderRequest K L R) :
    QuoteDesk K L R C :=
  match r with
  | .cancel orderId =>
      if (d.cancelWaitingAttached (some orderId) none).2 then
        (d.cancelWaitingAttached (some orderId) none).1
      else (d.cancelWaitingAttached (some orderId) none).1.push r
  | .cancelAll instrument => (d.cancelWaitingAttached none (some instrument)).1.push r
  | .modify c =>
      match amendWaitingAttached d.waitingAttachedOrders c [] with
      | some held => { d with waitingAttachedOrders := held }
      | none => d.push r
  | _ => d.push r

def joinFamily (waiting : ℕ) (d : QuoteDesk K L R C) (r : OrderRequest K L R) : QuoteDesk K L R C :=
  if r.isModify then d.queueOrderDuringQuoteWait r
  else { d with attachedQuoteOrders :=
    Removal.modifyFirst (·.lists waiting) (·.add r) d.attachedQuoteOrders }

def acceptAttachedOrders (d : QuoteDesk K L R C) (orders : List (OrderRequest K L R))
    (acquire : Acquire C) (now : ℕ) : QuoteDesk K L R C :=
  match waitingFamily orders d.waitingAttachedOrders with
  | [] => d
  | first :: rest =>
      if d.attachedQuoteOrders.any (·.lists first.orderId) then
        (first :: rest).foldl (joinFamily first.orderId) d
      else if (first :: rest).all (·.isModify) then
        (first :: rest).foldl queueOrderDuringQuoteWait d
      else
        match acquire with
        | .nothing => d.release (first :: rest)
        | .quote instrument contract =>
            { d with attachedQuoteOrders := d.attachedQuoteOrders ++
                [⟨first :: rest, contract, instrument, now, now + 1000, false⟩] }
        | .mark instrument contract =>
            { d with attachedQuoteOrders := d.attachedQuoteOrders ++
                [⟨first :: rest, contract, instrument, now, now + 1000, true⟩] }

/-- Look at each family: those whose quote is usable, or has been waited for long enough, are given
to send. -/
def pollFamilies (now : ℕ) (view : ℕ → C → QuoteView) :
    List (WaitingFamily K L R C) → QuoteDesk K L R C → QuoteDesk K L R C
  | [], d => d
  | f :: families, d =>
      let orders := waitingFamily f.orders d.waitingAttachedOrders
      pollFamilies now view families <|
        if orders.isEmpty then d
        else if f.due now view then d.release orders
        else { d with attachedQuoteOrders := d.attachedQuoteOrders ++
          [{ f with orders, nextPoll := if f.nextPoll ≤ now then now + 1000 else f.nextPoll }] }

def pollAttachedQuotes (d : QuoteDesk K L R C) (now : ℕ) (view : ℕ → C → QuoteView) :
    QuoteDesk K L R C :=
  pollFamilies now view d.attachedQuoteOrders { d with attachedQuoteOrders := [] }

def stopAttachedQuotes (d : QuoteDesk K L R C) : QuoteDesk K L R C :=
  (d.attachedQuoteOrders.map WaitingFamily.orders).foldl release
    { d with attachedQuoteOrders := [] }

end QuoteDesk

/-! ## Runs -/

inductive QuoteEvent (K L R C : Type) where
  /-- A placement is recorded, with the links of the members it generates. -/
  | placed (orderId : ℕ) (links : List (ℕ × ℕ))
  /-- A family is given to send. -/
  | transmitted (orders : List (OrderRequest K L R)) (acquire : Acquire C) (now : ℕ)
  /-- A single request is given to send. -/
  | queued (r : OrderRequest K L R)
  /-- An order that waits is placed anew. -/
  | amended (change : OrderChange K L R)
  | cancelled (orderId : ℕ)
  | allCancelled
  | polled (now : ℕ) (view : ℕ → C → QuoteView)
  | stopped

/-- The desk beside the terms each placement was last stated with. -/
structure QuoteWaits (K L R C : Type) where
  desk : QuoteDesk K L R C := {}
  lastTerms : ℕ → Option (StagedOrder K L R) := fun _ => none

def latest (held : List (StagedOrder K L R)) (r : OrderRequest K L R) : OrderRequest K L R :=
  ((held.find? (·.orderId = r.orderId)).map OrderRequest.submitEx).getD r

def numbers (f : List (OrderRequest K L R)) : List ℕ := f.map OrderRequest.orderId

def StagedOrder.Hangs (o : StagedOrder K L R) (n : ℕ) : Prop :=
  o.attrs.parentId ≠ 0 ∧ o.attrs.parentId = n

instance (o : StagedOrder K L R) : DecidablePred o.Hangs := fun _ =>
  inferInstanceAs (Decidable (_ ∧ _))

namespace QuoteDesk

def waiting (d : QuoteDesk K L R C) : List ℕ := d.waitingAttachedOrders.map StagedOrder.orderId

def fresh (d : QuoteDesk K L R C) (orders : List (OrderRequest K L R)) :
    List (StagedOrder K L R) :=
  (orders.filterMap OrderRequest.placement).filter (·.orderId ∉ d.waiting)

def take (d : QuoteDesk K L R C) : QuoteEvent K L R C → QuoteDesk K L R C
  | .placed orderId links =>
      { d with placed := orderId :: d.placed, generated := links ++ d.generated }
  | .transmitted orders acquire now =>
      acceptAttachedOrders
        { d with waitingAttachedOrders := stageWaitingAttached d.waitingAttachedOrders orders }
        orders acquire now
  | .queued r => d.queueOrderDuringQuoteWait r
  | .amended c =>
      { d with waitingAttachedOrders :=
          (amendWaitingAttached d.waitingAttachedOrders c []).getD d.waitingAttachedOrders }
  | .cancelled orderId => (d.cancelWaitingAttached (some orderId) none).1
  | .allCancelled => (d.cancelWaitingAttached none none).1
  | .polled now view => d.pollAttachedQuotes now view
  | .stopped => d.stopAttachedQuotes

end QuoteDesk

namespace QuoteWaits

def restate (w : QuoteWaits K L R C) (c : OrderChange K L R) : ℕ → Option (StagedOrder K L R) :=
  match c.spec with
  | some spec =>
      if c.orderId ∈ w.desk.waiting then
        Function.update w.lastTerms c.orderId ((w.lastTerms c.orderId).map (·.amended c spec))
      else w.lastTerms
  | none => w.lastTerms

def stated (w : QuoteWaits K L R C) : QuoteEvent K L R C → ℕ → Option (StagedOrder K L R)
  | .transmitted orders _ _ => fun n =>
      ((w.desk.fresh orders).find? (·.orderId = n)).orElse fun _ => w.lastTerms n
  | .queued (.modify c) => w.restate c
  | .amended c => w.restate c
  | _ => w.lastTerms

def step (w : QuoteWaits K L R C) (e : QuoteEvent K L R C) : QuoteWaits K L R C :=
  { desk := w.desk.take e, lastTerms := w.stated e }

/-- What waits at an event, before anything of it is sent or discarded. -/
def waitingAt (w : QuoteWaits K L R C) : QuoteEvent K L R C → List ℕ
  | .transmitted orders _ _ => w.desk.waiting ++ (w.desk.fresh orders).map StagedOrder.orderId
  | _ => w.desk.waiting

def pushedAt (w : QuoteWaits K L R C) (e : QuoteEvent K L R C) : List (OrderRequest K L R) :=
  (w.step e).desk.pendingOrders.drop w.desk.pendingOrders.length

def movedAt (w : QuoteWaits K L R C) (e : QuoteEvent K L R C) : List (StagedOrder K L R) :=
  ((w.pushedAt e).filterMap OrderRequest.placement).filter (·.orderId ∈ w.waitingAt e)

def toldAt (w : QuoteWaits K L R C) (e : QuoteEvent K L R C) : List ℕ :=
  (w.step e).desk.orderUpdates.drop w.desk.orderUpdates.length

end QuoteWaits

/-! ## What is asked -/

/-- **Each placement waits in one family, under the terms it was last stated with.** -/
structure WaitsInFamilies (w : QuoteWaits K L R C) : Prop where
  once : w.desk.waiting.Nodup
  apart : (w.desk.attachedQuoteOrders.flatMap fun f => numbers f.orders).Nodup
  housed : ∀ n ∈ w.desk.waiting, ∃ f ∈ w.desk.attachedQuoteOrders, n ∈ numbers f.orders
  terms : ∀ o ∈ w.desk.waitingAttachedOrders, w.lastTerms o.orderId = some o

def WaitingFamily.Cancels (f : WaitingFamily K L R C) (orderId n : ℕ) : Prop :=
  n = orderId ∨ f.orders.head?.any (·.orderId = orderId) = true

def QuoteWaits.Concerns (w : QuoteWaits K L R C) (f : WaitingFamily K L R C) (n : ℕ) :
    QuoteEvent K L R C → Prop
  | .queued (.cancel orderId) => f.Cancels orderId n
  | .queued (.cancelAll instrument) =>
      f.orders.head?.any (fun r =>
        (latest w.desk.waitingAttachedOrders r).instrument = some instrument) = true
  | .cancelled orderId => f.Cancels orderId n
  | .allCancelled => True
  | .polled now view => f.due now view = true
  | .stopped => True
  | _ => False

/-- **What is asked of an event.** -/
structure HandledOnce (w : QuoteWaits K L R C) (e : QuoteEvent K L R C) : Prop where
  /-- What waits is sent, or told as cancelled, or waits on; and one of these once. -/
  once : ((w.movedAt e).map StagedOrder.orderId ++ w.toldAt e ++ (w.step e).desk.waiting).Perm
    (w.waitingAt e)
  /-- What is sent goes with the terms it was last stated with. -/
  terms : ∀ o ∈ w.movedAt e, (w.step e).lastTerms o.orderId = some o
  /-- What is sent goes behind its parent. -/
  behind : (w.movedAt e).Pairwise (fun a b => ¬a.Hangs b.orderId) ∧
    ∀ o ∈ w.movedAt e, ∀ n ∈ (w.step e).desk.waiting ++ w.toldAt e, ¬o.Hangs n
  /-- Nothing waits on behind a parent that was discarded. -/
  orphans : ∀ o ∈ (w.step e).desk.waitingAttachedOrders, ∀ n ∈ w.toldAt e, ¬o.Hangs n
  /-- What is told as cancelled leaves no record of its placement. -/
  forgotten : ∀ n ∈ w.toldAt e, n ∉ (w.step e).desk.placed ∧
    ∀ l ∈ (w.step e).desk.generated, l.1 ≠ n
  /-- What is sent or discarded is what the event is for. -/
  own : ∀ f ∈ w.desk.attachedQuoteOrders, ∀ n ∈ numbers f.orders, n ∈ w.desk.waiting →
    (n ∈ (w.step e).desk.waiting ↔ ¬w.Concerns f n e)
  kept : ∀ c, e = .queued (.modify c) → c.orderId ∈ w.desk.waiting → w.pushedAt e = []

/-! ## The condition -/

/-- **A family finds its place**: its orders stand behind their parents, and where its parent or one
of its members waits, it is in the family of the first of its orders. -/
structure FindsItsPlace (d : QuoteDesk K L R C) (orders : List (OrderRequest K L R)) : Prop where
  distinct : (numbers orders).Nodup
  placements : ∀ r ∈ orders, r.placement.isSome ∨ r.isModify
  led : orders.Pairwise fun a b => ∀ o ∈ a.placement, ¬o.Hangs b.orderId
  changes : ∀ r ∈ orders, r.isModify → r.orderId ∉ d.waiting
  elsewhere : ∀ f ∈ d.attachedQuoteOrders, (∀ r ∈ orders.head?, r.orderId ∉ numbers f.orders) →
    ∀ r ∈ orders, r.orderId ∉ numbers f.orders ∧
      ∀ o ∈ r.placement, ∀ n ∈ numbers f.orders, ¬o.Hangs n
  first : ∀ r ∈ orders, r.orderId ∉ d.waiting → ∀ o ∈ d.waitingAttachedOrders, ¬o.Hangs r.orderId
  unlisted : ∀ r ∈ orders, ∀ o ∈ r.placement, o.orderId ∉ d.waiting →
    ∀ f ∈ d.attachedQuoteOrders, o.orderId ∉ numbers f.orders

/-- **A cancel leaves no child behind**: what it names heads its family, or nothing that waits hangs
from it. -/
def LeavesNoChild (d : QuoteDesk K L R C) (orderId : ℕ) : Prop :=
  ∀ f ∈ d.attachedQuoteOrders, orderId ∈ numbers f.orders →
    f.orders.head?.any (·.orderId = orderId) = true ∨
      ∀ o ∈ d.waitingAttachedOrders, ¬o.Hangs orderId

/-- **The condition.** -/
def StaysWhole (w : QuoteWaits K L R C) : QuoteEvent K L R C → Prop
  | .transmitted orders _ _ => FindsItsPlace w.desk orders
  | .queued (.submitEx o) => o.orderId ∉ w.desk.waiting
  | .queued (.modify c) => c.orderId ∈ w.desk.waiting → c.spec.isSome
  | .queued (.cancel orderId) => LeavesNoChild w.desk orderId
  | .cancelled orderId => LeavesNoChild w.desk orderId
  | _ => True

end

end IbkrDx
