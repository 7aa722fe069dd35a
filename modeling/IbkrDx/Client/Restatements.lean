import IbkrDx.Engine.Orders
import IbkrDx.Lib.Runs

/-!
# Terms restated and put back

The record a client keeps of an order, from `client_core/mod.rs`.  A replace states its terms ahead
of the venue's answer, and the terms it replaced are kept once for any number of replaces: put back
where one never went, spent where the venue took or refused one.

* **`forgotten_changes_leave_nothing`** — after a clean run the two state the same.
-/

namespace IbkrDx

open Runs

/-! ## The record -/

def orderStatusStr : OrderStatus → String
  | .pendingSubmit | .pendingReplace => "PendingSubmit"
  | .preSubmitted => "PreSubmitted"
  | .submitted | .partiallyFilled => "Submitted"
  | .pendingCancel => "PendingCancel"
  | .filled => "Filled"
  | .cancelled => "Cancelled"
  | .rejected | .inactive => "Inactive"
  | .apiCancelled => "ApiCancelled"
  | .uncertain => "Unknown"

/-- The terms of an order.  `Q` is what prices and quantities are stated in. -/
structure ApiOrder (Q Rest : Type) where
  clientId : ℤ
  parentId : ℤ
  ocaGroup : String
  ocaType : ℤ
  orderType : String
  lmtPrice : Q
  auxPrice : Q
  totalQuantity : Q
  rest : Rest
  deriving DecidableEq, Inhabited

/-- `TrackedOrder`. -/
structure RestatedOrder (Contract Q Rest : Type) where
  contract : Contract
  order : ApiOrder Q Rest
  status : String
  filled : Q
  remaining : Q
  avgFillPrice : Q
  lastFillPrice : Q
  instrument : ℕ
  beforeTheReplace : Option (ApiOrder Q Rest) := none
  rejected : Bool := false
  placedHere : Bool

structure KnownOrder (Contract Q Rest : Type) where
  contract : Contract
  order : ApiOrder Q Rest
  filledQuantity : Q
  status : String

structure StatedTerms (Q : Type) where
  orderType : Option String
  lmtPrice : Q
  auxPrice : Option Q
  totalQuantity : Q

structure ReportedRefusal (Q : Type) where
  stillWorking : Option OrderStatus
  answersALiveChange : Bool
  stated : Option (StatedTerms Q)

inductive RestatedEvent (Contract Q Rest : Type) where
  /-- `restate_order`, and whether this side will forget it. -/
  | restates (forgotten : Bool) (known : Option (KnownOrder Contract Q Rest))
      (contract : Contract) (order : ApiOrder Q Rest) (instrument : ℕ)
  /-- `RevisionForgotten`. -/
  | forgets
  /-- `ReplacementTaken`. -/
  | takes
  /-- `RevisionRefused`. -/
  | refuses (refusal : ReportedRefusal Q)
  /-- `take_the_stated_total`. -/
  | totals (total : Q)
  /-- `update_order_status`. -/
  | updates (known : Option (KnownOrder Contract Q Rest)) (status : OrderStatus)
      (filled remaining : Q) (instrument : ℕ)
  /-- `update_order_fill`. -/
  | fills (status : String) (filled remaining : Q)

variable {Contract Q Rest : Type} [Sub Q] [Zero Q] [Max Q]

def outstandingOf (total filled : Q) : Q := max (total - filled) 0

def OrderStatus.untracks : OrderStatus → Bool
  | .filled | .cancelled | .rejected => true
  | _ => false

namespace RestatedOrder

def putBackTheTerms (t : RestatedOrder Contract Q Rest) : RestatedOrder Contract Q Rest :=
  match t.beforeTheReplace with
  | some held =>
      { t with
        beforeTheReplace := none
        order := held
        remaining := outstandingOf held.totalQuantity t.filled }
  | none => t

/-- `restate_order`, of an order there is a record of. -/
def restate (t : RestatedOrder Contract Q Rest) (contract : Contract) (order : ApiOrder Q Rest) :
    RestatedOrder Contract Q Rest :=
  { t with
    beforeTheReplace := some (t.beforeTheReplace.getD t.order)
    remaining := outstandingOf order.totalQuantity t.filled
    contract := contract
    order :=
      if t.placedHere then
        { order with
          clientId := t.order.clientId
          parentId := t.order.parentId
          ocaGroup := t.order.ocaGroup
          ocaType := t.order.ocaType }
      else { order with clientId := t.order.clientId } }

/-- `restate_order`, of an order there is none of. -/
def restatedAfresh (known : Option (KnownOrder Contract Q Rest)) (contract : Contract)
    (order : ApiOrder Q Rest) (instrument : ℕ) : RestatedOrder Contract Q Rest :=
  let filled := (known.map KnownOrder.filledQuantity).getD 0
  { contract := contract
    order := match known with
      | some i => { order with clientId := i.order.clientId }
      | none => order
    status := (known.map KnownOrder.status).getD "PendingSubmit"
    filled := filled
    remaining := outstandingOf order.totalQuantity filled
    avgFillPrice := 0
    lastFillPrice := 0
    instrument := instrument
    beforeTheReplace := known.map KnownOrder.order
    placedHere := false }

def takeTheRefusal (t : RestatedOrder Contract Q Rest) (r : ReportedRefusal Q) :
    RestatedOrder Contract Q Rest :=
  { t with
    status := (r.stillWorking.map orderStatusStr).getD t.status
    beforeTheReplace := if r.answersALiveChange then none else t.beforeTheReplace
    order := match r.stated with
      | some stated =>
          { t.order with
            orderType := if t.order.orderType ≠ "VOL" then stated.orderType.getD t.order.orderType
              else t.order.orderType
            lmtPrice := stated.lmtPrice
            auxPrice := stated.auxPrice.getD t.order.auxPrice
            totalQuantity := stated.totalQuantity }
      | none => t.order }

def withTotal (t : RestatedOrder Contract Q Rest) (total : Q) : RestatedOrder Contract Q Rest :=
  { t with order := { t.order with totalQuantity := total } }

variable [BEq Q] [Inhabited Contract] [Inhabited (ApiOrder Q Rest)]

def unrecorded (known : Option (KnownOrder Contract Q Rest)) (instrument : ℕ) :
    RestatedOrder Contract Q Rest :=
  { contract := (known.map KnownOrder.contract).getD default
    order := (known.map KnownOrder.order).getD default
    status := ""
    filled := 0
    remaining := 0
    avgFillPrice := 0
    lastFillPrice := 0
    instrument := instrument
    placedHere := false }

/-- One event, at the record an order has or has not.  `wireParentId` is the number a parent goes to
the venue under. -/
def act (wireParentId : ℤ → ℤ) (record : Option (RestatedOrder Contract Q Rest)) :
    RestatedEvent Contract Q Rest → Option (RestatedOrder Contract Q Rest)
  | .restates _ known contract order instrument =>
      let order := { order with parentId := wireParentId order.parentId }
      match record with
      | some t => some (t.restate contract order)
      | none => some (restatedAfresh known contract order instrument)
  | .forgets => record.map putBackTheTerms
  | .takes => record.map fun t => { t with beforeTheReplace := none }
  | .refuses refusal => record.map fun t => t.takeTheRefusal refusal
  | .totals total => record.map fun t => t.withTotal total
  | .updates known status filled remaining instrument =>
      if status.untracks then none
      else some { record.getD (unrecorded known instrument) with
        status := orderStatusStr status
        rejected := decide (status = .rejected)
        filled := filled
        remaining := remaining }
  | .fills status filled remaining =>
      if remaining == 0 then none
      else record.map fun t =>
        { t with status := status, filled := filled, remaining := remaining }

end RestatedOrder

/-! ## What is out -/

structure Standing (Contract Q Rest : Type) where
  record : Option (RestatedOrder Contract Q Rest)
  /-- A change this side will forget is out. -/
  doomed : Bool := false
  /-- How many changes are neither forgotten nor answered. -/
  out : ℕ := 0
  /-- What was stated last as outstanding is not what is left of the total. -/
  astray : Bool := false

/-- Whether an event stays in the run without the changes that are forgotten. -/
def RestatedEvent.stays : RestatedEvent Contract Q Rest → Bool
  | restates forgotten _ _ _ _ => !forgotten
  | forgets => false
  | _ => true

namespace Standing

variable [BEq Q] [DecidableEq Q] [Inhabited Contract] [Inhabited (ApiOrder Q Rest)]

def outBehind (w : Standing Contract Q Rest) : RestatedEvent Contract Q Rest → ℕ
  | .restates .. => w.out + 1
  | .forgets | .takes => w.out - 1
  | .refuses r => if r.answersALiveChange then w.out - 1 else w.out
  | _ => w.out

/-- Whether an event leaves a change out that this side will forget. -/
def doomedBehind (w : Standing Contract Q Rest) : RestatedEvent Contract Q Rest → Bool
  | .restates forgotten _ _ _ _ => forgotten || w.doomed
  | .forgets => false
  | _ => w.doomed

/-- Whether an event leaves something else stated as outstanding than what is left of the total. -/
def astrayBehind (w : Standing Contract Q Rest) : RestatedEvent Contract Q Rest → Bool
  | .restates .. => false
  | .forgets => !w.doomed && w.astray
  | .takes => w.astray
  | .refuses r => w.astray || w.record.any fun t => r.stated.any fun stated =>
      decide (outstandingOf stated.totalQuantity t.filled
        ≠ outstandingOf t.order.totalQuantity t.filled)
  | .totals total => w.astray || w.record.any fun t =>
      decide (outstandingOf total t.filled ≠ outstandingOf t.order.totalQuantity t.filled)
  | .updates known status filled remaining instrument =>
      !status.untracks && decide (remaining ≠ outstandingOf
        (w.record.getD (RestatedOrder.unrecorded known instrument)).order.totalQuantity filled)
  | .fills _ filled remaining => !(remaining == 0) && w.record.any fun t =>
      decide (remaining ≠ outstandingOf t.order.totalQuantity filled)

def step (wireParentId : ℤ → ℤ) (w : Standing Contract Q Rest)
    (e : RestatedEvent Contract Q Rest) : Standing Contract Q Rest :=
  let record := RestatedOrder.act wireParentId w.record e
  { record := record
    doomed := record.isSome && w.doomedBehind e
    out := if record.isSome then w.outBehind e else 0
    astray := record.isSome && w.astrayBehind e }

def Agrees (t : RestatedOrder Contract Q Rest) : Prop :=
  t.remaining = outstandingOf t.order.totalQuantity t.filled

/-- A change to be forgotten is made with nothing kept, and nothing is restated, taken or refused,
and no other total stated, until it is forgotten. -/
def Apart (w : Standing Contract Q Rest) : RestatedEvent Contract Q Rest → Prop
  | .restates true _ _ _ _ => ∃ t ∈ w.record, t.beforeTheReplace = none
  | .restates false _ _ _ _ => w.doomed = false
  | .forgets => w.doomed = true ∨ ∀ t ∈ w.record, t.beforeTheReplace = none
  | .takes => w.doomed = false
  | .refuses r => w.doomed = true → r.answersALiveChange = false ∧ r.stated.isNone
  | .totals total => w.doomed = true →
      ∀ t ∈ w.record, ∀ held ∈ t.beforeTheReplace, held.totalQuantity = total
  | .updates .. | .fills .. => True

/-- An event behind which nothing is out leaves nothing stated astray. -/
def Squared (w : Standing Contract Q Rest) (e : RestatedEvent Contract Q Rest) : Prop :=
  w.outBehind e = 0 → w.astrayBehind e = false

instance (t : RestatedOrder Contract Q Rest) : Decidable (Agrees t) :=
  inferInstanceAs (Decidable (_ = _))

instance [DecidableEq Rest] (w : Standing Contract Q Rest) :
    DecidablePred w.Apart := fun e =>
  match e with
  | .restates true _ _ _ _ => inferInstanceAs (Decidable (∃ t ∈ w.record, _ = _))
  | .restates false _ _ _ _ | .takes => inferInstanceAs (Decidable (_ = _))
  | .forgets => inferInstanceAs (Decidable (_ ∨ ∀ t ∈ w.record, _ = _))
  | .refuses _ => inferInstanceAs (Decidable (_ → _ ∧ _))
  | .totals total => inferInstanceAs (Decidable (_ → ∀ t ∈ w.record,
      ∀ held ∈ t.beforeTheReplace, held.totalQuantity = total))
  | .updates .. | .fills .. => isTrue trivial

instance (w : Standing Contract Q Rest) : DecidablePred w.Squared := fun _ =>
  inferInstanceAs (Decidable (_ → _))

def Clean (w : Standing Contract Q Rest) (e : RestatedEvent Contract Q Rest) : Prop :=
  w.Apart e ∧ w.Squared e

instance [DecidableEq Rest] (w : Standing Contract Q Rest) :
    DecidablePred w.Clean := fun _ => inferInstanceAs (Decidable (_ ∧ _))

end Standing

/-! ## Beside the run without them -/

/-- Two records that state the same, but for the contract and what is outstanding. -/
structure Alike (a b : RestatedOrder Contract Q Rest) : Prop where
  filled : a.filled = b.filled
  status : a.status = b.status
  placedHere : a.placedHere = b.placedHere

structure SameTerms (a b : RestatedOrder Contract Q Rest) : Prop extends Alike a b where
  order : a.order = b.order
  kept : a.beforeTheReplace = b.beforeTheReplace

/-- A change that will be forgotten is out: what it replaced is what the other record states. -/
structure PutsBack (a b : RestatedOrder Contract Q Rest) : Prop extends Alike a b where
  held : a.beforeTheReplace = some b.order
  nothing : b.beforeTheReplace = none

/-- The record of a run, beside that of the run without the forgotten changes. -/
inductive Beside : Standing Contract Q Rest → Option (RestatedOrder Contract Q Rest) → Prop where
  | gone (out : ℕ) (astray : Bool) : Beside ⟨none, false, out, astray⟩ none
  | level {a b : RestatedOrder Contract Q Rest} (out : ℕ) (astray : Bool)
      (h : SameTerms a b) : Beside ⟨some a, false, out, astray⟩ (some b)
  | ahead {a b : RestatedOrder Contract Q Rest} (out : ℕ) (astray : Bool)
      (h : PutsBack a b) : Beside ⟨some a, true, out, astray⟩ (some b)

namespace RestatedOrder

variable {a b : RestatedOrder Contract Q Rest}

lemma putBack_of_none (h : a.beforeTheReplace = none) : a.putBackTheTerms = a := by
  rw [putBackTheTerms, h]

end RestatedOrder

namespace SameTerms

variable {a b : RestatedOrder Contract Q Rest}

lemma restate (h : SameTerms a b) (contract : Contract) (order : ApiOrder Q Rest) :
    SameTerms (a.restate contract order) (b.restate contract order) := by
  obtain ⟨⟨hfilled, hstatus, hplaced⟩, horder, hkept⟩ := h
  refine ⟨⟨hfilled, hstatus, hplaced⟩, ?_, ?_⟩
  · simp only [RestatedOrder.restate, hplaced, horder]
  · simp only [RestatedOrder.restate, hkept, horder]

omit [Sub Q] [Zero Q] [Max Q] in
lemma takeTheRefusal (h : SameTerms a b) (r : ReportedRefusal Q) :
    SameTerms (a.takeTheRefusal r) (b.takeTheRefusal r) := by
  obtain ⟨⟨hfilled, hstatus, hplaced⟩, horder, hkept⟩ := h
  refine ⟨⟨hfilled, ?_, hplaced⟩, ?_, ?_⟩
  · simp only [RestatedOrder.takeTheRefusal, hstatus]
  · simp only [RestatedOrder.takeTheRefusal, horder]
  · simp only [RestatedOrder.takeTheRefusal, hkept]

end SameTerms

namespace Standing

/-- With nothing out nothing is stated astray, and where nothing is, what is outstanding is what is
left of the total. -/
structure Square (w : Standing Contract Q Rest) : Prop where
  level : w.out = 0 → w.astray = false
  agrees : w.astray = false → ∀ t ∈ w.record, Agrees t

omit [Sub Q] [Zero Q] [Max Q] in
lemma total_takeTheRefusal (t : RestatedOrder Contract Q Rest) (r : ReportedRefusal Q) :
    (t.takeTheRefusal r).order.totalQuantity
      = (r.stated.map StatedTerms.totalQuantity).getD t.order.totalQuantity := by
  unfold RestatedOrder.takeTheRefusal
  cases r.stated <;> rfl

end Standing

variable [BEq Q] [DecidableEq Q] [Inhabited Contract] [Inhabited (ApiOrder Q Rest)]

/-- What the run without the forgotten changes makes of an event. -/
def actApart (wireParentId : ℤ → ℤ) (r : Option (RestatedOrder Contract Q Rest))
    (e : RestatedEvent Contract Q Rest) : Option (RestatedOrder Contract Q Rest) :=
  if e.stays then RestatedOrder.act wireParentId r e else r

variable {e : RestatedEvent Contract Q Rest}

lemma Beside.untracked (wireParentId : ℤ → ℤ) (w : Standing Contract Q Rest)
    (r : Option (RestatedOrder Contract Q Rest))
    (hstays : e.stays = true) (hnone : ∀ record, RestatedOrder.act wireParentId record e = none) :
    Beside (w.step wireParentId e) (actApart wireParentId r e) := by
  rw [actApart, if_pos hstays, Standing.step, hnone, hnone]
  exact Beside.gone 0 _

lemma Beside.step_level (wireParentId : ℤ → ℤ) {a b : RestatedOrder Contract Q Rest}
    {out : ℕ} {astray : Bool} (h : SameTerms a b)
    (hapart : (⟨some a, false, out, astray⟩ : Standing Contract Q Rest).Apart e) :
    Beside (Standing.step wireParentId ⟨some a, false, out, astray⟩ e)
      (actApart wireParentId (some b) e) := by
  cases e with
  | restates forgotten known contract order instrument =>
      cases forgotten with
      | true =>
          obtain ⟨t, ht, hnone⟩ := hapart
          obtain rfl := Option.some.inj ht
          refine Beside.ahead (out + 1) _ ⟨⟨h.filled, h.status, h.placedHere⟩, ?_, h.kept ▸ hnone⟩
          simp only [RestatedOrder.restate, hnone, Option.getD_none, h.order]
      | false => exact Beside.level (out + 1) _ (h.restate contract _)
  | forgets =>
      have hnone : a.beforeTheReplace = none := by simpa [Standing.Apart] using hapart
      have hstep : Standing.step wireParentId ⟨some a, false, out, astray⟩ (.forgets)
          = (⟨some a, false, out - 1, astray⟩ : Standing Contract Q Rest) := by
        simp [Standing.step, RestatedOrder.act, RestatedOrder.putBack_of_none hnone,
          Standing.doomedBehind, Standing.outBehind, Standing.astrayBehind]
      rw [hstep]
      exact Beside.level (out - 1) _ h
  | takes => exact Beside.level (out - 1) _ ⟨⟨h.filled, h.status, h.placedHere⟩, h.order, rfl⟩
  | refuses r => exact Beside.level _ _ (h.takeTheRefusal r)
  | totals total =>
      refine Beside.level out _ ⟨⟨h.filled, h.status, h.placedHere⟩, ?_, h.kept⟩
      simp only [RestatedOrder.withTotal, h.order]
  | updates known status filled remaining instrument =>
      cases hends : status.untracks with
      | true => exact untracked wireParentId _ _ rfl fun _ => if_pos hends
      | false =>
          simp only [Standing.step, actApart, RestatedEvent.stays, RestatedOrder.act, hends,
            if_true, Bool.false_eq_true, if_false, Option.getD_some]
          exact Beside.level out _ ⟨⟨rfl, rfl, h.placedHere⟩, h.order, h.kept⟩
  | fills status filled remaining =>
      cases hends : remaining == 0 with
      | true => exact untracked wireParentId _ _ rfl fun _ => if_pos hends
      | false =>
          simp only [Standing.step, actApart, RestatedEvent.stays, RestatedOrder.act, hends,
            if_true, Bool.false_eq_true, if_false, Option.map_some]
          exact Beside.level out _ ⟨⟨rfl, rfl, h.placedHere⟩, h.order, h.kept⟩

lemma Beside.step_ahead (wireParentId : ℤ → ℤ) {a b : RestatedOrder Contract Q Rest}
    {out : ℕ} {astray : Bool}
    (h : PutsBack a b)
    (hapart : (⟨some a, true, out, astray⟩ : Standing Contract Q Rest).Apart e) :
    Beside (Standing.step wireParentId ⟨some a, true, out, astray⟩ e)
      (actApart wireParentId (some b) e) := by
  cases e with
  | restates forgotten known contract order instrument =>
      cases forgotten with
      | true =>
          obtain ⟨t, ht, hnone⟩ := hapart
          obtain rfl := Option.some.inj ht
          exact absurd (hnone.symm.trans h.held) (Option.some_ne_none _).symm
      | false => exact absurd (show true = false from hapart) (by decide)
  | forgets =>
      simp only [Standing.step, actApart, RestatedEvent.stays, RestatedOrder.act,
        Option.map_some, RestatedOrder.putBackTheTerms, h.held]
      exact Beside.level (out - 1) _ ⟨⟨h.filled, h.status, h.placedHere⟩, rfl, h.nothing.symm⟩
  | takes => exact absurd (show true = false from hapart) (by decide)
  | refuses r =>
      obtain ⟨hlive, hstated⟩ := hapart rfl
      have hstated : r.stated = none := Option.isNone_iff_eq_none.1 hstated
      refine Beside.ahead _ _ ⟨⟨h.filled, ?_, h.placedHere⟩, ?_, ?_⟩
      · simp only [RestatedOrder.takeTheRefusal, h.status]
      · simp only [RestatedOrder.takeTheRefusal, hlive, hstated, Bool.false_eq_true, if_false,
          h.held]
      · simp only [RestatedOrder.takeTheRefusal, hlive, Bool.false_eq_true, if_false, h.nothing]
  | totals total =>
      have htotal : b.order.totalQuantity = total := hapart rfl a rfl _ h.held
      refine Beside.ahead out _ ⟨⟨h.filled, h.status, h.placedHere⟩, ?_, h.nothing⟩
      simp only [RestatedOrder.withTotal, h.held, ← htotal]
  | updates known status filled remaining instrument =>
      cases hends : status.untracks with
      | true => exact untracked wireParentId _ _ rfl fun _ => if_pos hends
      | false =>
          simp only [Standing.step, actApart, RestatedEvent.stays, RestatedOrder.act, hends,
            if_true, Bool.false_eq_true, if_false, Option.getD_some]
          exact Beside.ahead out _ ⟨⟨rfl, rfl, h.placedHere⟩, h.held, h.nothing⟩
  | fills status filled remaining =>
      cases hends : remaining == 0 with
      | true => exact untracked wireParentId _ _ rfl fun _ => if_pos hends
      | false =>
          simp only [Standing.step, actApart, RestatedEvent.stays, RestatedOrder.act, hends,
            if_true, Bool.false_eq_true, if_false, Option.map_some]
          exact Beside.ahead out _ ⟨⟨rfl, rfl, h.placedHere⟩, h.held, h.nothing⟩

lemma Beside.step_gone (wireParentId : ℤ → ℤ) {out : ℕ} {astray : Bool}
    (hapart : (⟨none, false, out, astray⟩ : Standing Contract Q Rest).Apart e) :
    Beside (Standing.step wireParentId ⟨none, false, out, astray⟩ e)
      (actApart wireParentId none e) := by
  cases e with
  | restates forgotten known contract order instrument =>
      cases forgotten with
      | true =>
          obtain ⟨t, ht, -⟩ := hapart
          exact absurd ht (Option.not_mem_none t)
      | false => exact Beside.level (out + 1) _ ⟨⟨rfl, rfl, rfl⟩, rfl, rfl⟩
  | updates known status filled remaining instrument =>
      cases hends : status.untracks with
      | true => exact untracked wireParentId _ _ rfl fun _ => if_pos hends
      | false =>
          simp only [Standing.step, actApart, RestatedEvent.stays, RestatedOrder.act, hends,
            if_true, Bool.false_eq_true, if_false]
          exact Beside.level out _ ⟨⟨rfl, rfl, rfl⟩, rfl, rfl⟩
  | fills status filled remaining =>
      have hact : (RestatedOrder.act wireParentId none (.fills status filled remaining) :
          Option (RestatedOrder Contract Q Rest)) = none := by
        simp [RestatedOrder.act]
      simp only [Standing.step, actApart, hact, ite_self]
      exact Beside.gone 0 _
  | forgets | takes | refuses | totals => exact Beside.gone 0 _

/-- **One event keeps the record beside the one of the run without the forgotten changes.** -/
theorem Beside.step (wireParentId : ℤ → ℤ) {w : Standing Contract Q Rest}
    {r : Option (RestatedOrder Contract Q Rest)} (h : Beside w r)
    (hapart : w.Apart e) :
    Beside (w.step wireParentId e) (actApart wireParentId r e) := by
  cases h with
  | gone => exact step_gone wireParentId hapart
  | level _ _ h => exact step_level wireParentId h hapart
  | ahead _ _ h => exact step_ahead wireParentId h hapart

/-! ## What is left of the total -/

namespace Standing

omit [BEq Q] [DecidableEq Q] [Inhabited Contract] [Inhabited (ApiOrder Q Rest)] in
lemma agrees_restate (t : RestatedOrder Contract Q Rest) (contract : Contract)
    (order : ApiOrder Q Rest) : Agrees (t.restate contract order) := by
  unfold Agrees RestatedOrder.restate
  dsimp only
  split_ifs <;> rfl

omit [BEq Q] [DecidableEq Q] [Inhabited Contract] [Inhabited (ApiOrder Q Rest)] in
lemma agrees_restatedAfresh (known : Option (KnownOrder Contract Q Rest)) (contract : Contract)
    (order : ApiOrder Q Rest) (instrument : ℕ) :
    Agrees (RestatedOrder.restatedAfresh known contract order instrument) := by
  cases known <;> rfl

lemma Square.agrees_step (wireParentId : ℤ → ℤ) {w : Standing Contract Q Rest}
    {r : Option (RestatedOrder Contract Q Rest)} (hbeside : Beside w r) (h : w.Square)
    {e : RestatedEvent Contract Q Rest} (hapart : w.Apart e) (hnot : w.astrayBehind e = false)
    {t : RestatedOrder Contract Q Rest} (ht : t ∈ RestatedOrder.act wireParentId w.record e) :
    Agrees t := by
  obtain ⟨record, doomed, out, astray⟩ := w
  cases e with
  | restates forgotten known contract order instrument =>
      cases record with
      | none => exact Option.some.inj ht ▸ agrees_restatedAfresh ..
      | some a => exact Option.some.inj ht ▸ agrees_restate ..
  | forgets =>
      cases hbeside with
      | gone => exact absurd ht (Option.not_mem_none t)
      | ahead out astray hputs =>
          rw [RestatedOrder.act, Option.map_some, RestatedOrder.putBackTheTerms, hputs.held] at ht
          exact Option.some.inj ht ▸ rfl
      | @level a b out astray hsame =>
          have hnone : a.beforeTheReplace = none := by simpa [Standing.Apart] using hapart
          rw [RestatedOrder.act, Option.map_some, RestatedOrder.putBack_of_none hnone] at ht
          exact h.agrees (by simpa [astrayBehind] using hnot) t ht
  | takes =>
      obtain ⟨a, ha, rfl⟩ := Option.map_eq_some_iff.1 ht
      exact h.agrees hnot a ha
  | refuses refusal =>
      obtain ⟨a, rfl, rfl⟩ := Option.map_eq_some_iff.1 ht
      obtain ⟨hastray, hsame⟩ := Bool.or_eq_false_iff.1 hnot
      rw [Agrees, total_takeTheRefusal]
      refine (h.agrees hastray a rfl).trans ?_
      cases hstated : refusal.stated with
      | none => rfl
      | some stated =>
          rw [hstated] at hsame
          exact (not_not.1 (of_decide_eq_false hsame)).symm
  | totals total =>
      obtain ⟨a, rfl, rfl⟩ := Option.map_eq_some_iff.1 ht
      obtain ⟨hastray, hsame⟩ := Bool.or_eq_false_iff.1 hnot
      exact (h.agrees hastray a rfl).trans (not_not.1 (of_decide_eq_false hsame)).symm
  | updates known status filled remaining instrument =>
      cases hends : status.untracks with
      | true =>
          rw [RestatedOrder.act, if_pos hends] at ht
          exact absurd ht (Option.not_mem_none t)
      | false =>
          rw [astrayBehind, hends] at hnot
          rw [RestatedOrder.act, hends] at ht
          exact Option.some.inj ht ▸ not_not.1 (of_decide_eq_false hnot)
  | fills status filled remaining =>
      cases hends : remaining == 0 with
      | true =>
          rw [RestatedOrder.act, if_pos hends] at ht
          exact absurd ht (Option.not_mem_none t)
      | false =>
          rw [astrayBehind, hends] at hnot
          rw [RestatedOrder.act, hends] at ht
          obtain ⟨a, rfl, rfl⟩ := Option.map_eq_some_iff.1 ht
          exact not_not.1 (of_decide_eq_false hnot)

/-- **One event leaves what is outstanding squared with the total**, where nothing is out behind
it. -/
theorem Square.step (wireParentId : ℤ → ℤ) {w : Standing Contract Q Rest}
    {r : Option (RestatedOrder Contract Q Rest)} (hbeside : Beside w r) (h : w.Square)
    {e : RestatedEvent Contract Q Rest} (hclean : w.Clean e) : (w.step wireParentId e).Square := by
  cases hbehind : RestatedOrder.act wireParentId w.record e with
  | none =>
      refine ⟨fun _ => ?_, fun _ t ht => ?_⟩
      · rw [Standing.step, hbehind]
        rfl
      · rw [Standing.step, hbehind] at ht
        exact absurd ht (Option.not_mem_none t)
  | some t =>
      have hstep : w.step wireParentId e =
          ⟨some t, w.doomedBehind e, w.outBehind e, w.astrayBehind e⟩ := by
        rw [Standing.step, hbehind]
        rfl
      rw [hstep]
      refine ⟨hclean.2, fun hnot t' ht' => ?_⟩
      exact h.agrees_step wireParentId hbeside hclean.1 hnot (hbehind ▸ ht')

end Standing

/-! ## The run -/

/-- The record of the run without the changes that are forgotten. -/
def runApart (wireParentId : ℤ → ℤ) (r : Option (RestatedOrder Contract Q Rest))
    (es : List (RestatedEvent Contract Q Rest)) : Option (RestatedOrder Contract Q Rest) :=
  (es.filter RestatedEvent.stays).foldl (RestatedOrder.act wireParentId) r

omit [DecidableEq Q] in
lemma runApart_cons (wireParentId : ℤ → ℤ) (r : Option (RestatedOrder Contract Q Rest))
    (e : RestatedEvent Contract Q Rest) (es : List (RestatedEvent Contract Q Rest)) :
    runApart wireParentId r (e :: es) = runApart wireParentId (actApart wireParentId r e) es := by
  unfold runApart actApart
  rw [List.filter_cons]
  split <;> rfl

lemma beside_run (wireParentId : ℤ → ℤ) {es : List (RestatedEvent Contract Q Rest)} :
    ∀ {w : Standing Contract Q Rest} {r : Option (RestatedOrder Contract Q Rest)},
      Beside w r → w.Square → Along (Standing.step wireParentId) Standing.Clean w es →
      Beside (run (Standing.step wireParentId) w es) (runApart wireParentId r es) ∧
        (run (Standing.step wireParentId) w es).Square := by
  induction es with
  | nil => exact fun hbeside hsquare _ => ⟨hbeside, hsquare⟩
  | cons e es ih =>
      intro w r hbeside hsquare hrun
      rw [runApart_cons]
      exact ih (hbeside.step wireParentId hrun.1.1) (hsquare.step wireParentId hbeside hrun.1)
        hrun.2

def StatesAlike (a b : RestatedOrder Contract Q Rest) : Prop :=
  a.order = b.order ∧ a.filled = b.filled ∧ a.status = b.status

/-- **A change that never went leaves the record as if it had not been made.**  After a clean run of
a placed order, with no change left that will be forgotten, the record states what it does after the
run without the forgotten changes, and is there where that is; and with nothing out what is
outstanding is what is left of the total. -/
theorem forgotten_changes_leave_nothing (wireParentId : ℤ → ℤ)
    {placed : RestatedOrder Contract Q Rest} (hplaced : Standing.Agrees placed)
    {es : List (RestatedEvent Contract Q Rest)}
    (h : Along (Standing.step wireParentId) Standing.Clean ⟨some placed, false, 0, false⟩ es) :
    let w := run (Standing.step wireParentId) ⟨some placed, false, 0, false⟩ es
    (w.doomed = false →
      Option.Rel StatesAlike w.record (runApart wireParentId (some placed) es)) ∧
    (w.out = 0 → ∀ t ∈ w.record, Standing.Agrees t) := by
  obtain ⟨hbeside, hsquare⟩ := beside_run wireParentId
    (Beside.level 0 _ ⟨⟨rfl, rfl, rfl⟩, rfl, rfl⟩)
    ⟨fun _ => rfl, fun _ _ ht => Option.some.inj ht ▸ hplaced⟩ h
  generalize run (Standing.step wireParentId) ⟨some placed, false, 0, false⟩ es = w
    at hbeside hsquare ⊢
  generalize runApart wireParentId (some placed) es = r at hbeside ⊢
  refine ⟨fun hdoomed => ?_, fun hout => hsquare.agrees (hsquare.level hout)⟩
  cases hbeside with
  | gone => exact Option.Rel.none
  | level _ _ h => exact Option.Rel.some ⟨h.order, h.filled, h.status⟩
  | ahead => exact absurd (show true = false from hdoomed) (by decide)

def limitOrder (price total : ℤ) : ApiOrder ℤ Unit :=
  ⟨0, 0, "", 3, "LMT", price, 0, total, ()⟩

def placedAt : RestatedOrder Unit ℤ Unit :=
  ⟨(), limitOrder 100 100, "PendingSubmit", 0, 100, 0, 0, 0, none, false, true⟩

def replaceAt (forgotten : Bool) (price total : ℤ) : RestatedEvent Unit ℤ Unit :=
  .restates forgotten none () (limitOrder price total) 0

theorem forgotten_changes_leave_nothing_of_run :
    let es := [replaceAt true 101 200, .fills "Submitted" 10 90, .forgets, replaceAt false 102 150,
      .updates none .partiallyFilled 20 130 0, .takes]
    let w := run (Standing.step id) ⟨some placedAt, false, 0, false⟩ es
    (w.doomed = false → Option.Rel StatesAlike w.record (runApart id (some placedAt) es)) ∧
    (w.out = 0 → ∀ t ∈ w.record, Standing.Agrees t) :=
  forgotten_changes_leave_nothing id (by decide) (by decide)

/-- **The second of two changes forgotten leaves the terms of neither.**  The first is on the wire
when the second is forgotten, and the venue takes it: the record states the terms from before
both. -/
theorem second_change_forgotten :
    let es := [replaceAt false 101 100, replaceAt true 102 100, .forgets, .takes]
    let w := run (Standing.step id) ⟨some placedAt, false, 0, false⟩ es
    w.doomed = false ∧ w.record.map (fun t => t.order.lmtPrice) = some 100 ∧
      (runApart id (some placedAt) es).map (fun t => t.order.lmtPrice) = some 101 ∧
      ¬ Option.Rel StatesAlike w.record (runApart id (some placedAt) es) := by
  refine ⟨by decide, by decide, by decide, fun h => ?_⟩
  have hprice {a b : Option (RestatedOrder Unit ℤ Unit)} (hab : Option.Rel StatesAlike a b) :
      a.map (fun t => t.order.lmtPrice) = b.map fun t => t.order.lmtPrice := by
    cases hab with
    | none => rfl
    | some hab => rw [Option.map_some, Option.map_some, hab.1]
  exact absurd (hprice h) (by decide)

end IbkrDx
