import IbkrDx.Bridge.OrderIds
import IbkrDx.Engine.CancelRefusals

/-!
# One refusal of a revision, in two messages

The venue refuses a revision by an execution report, which names the order on tag 11, or by a cancel
reject, whose order is found by what awaits an answer, by the recorded names, or by the digits of a
name.  Both put the snapshot of the revision back; the second then computes a state from what has
filled.

* **`refusedAlike_iff`** — when they do.
* **`not_refusedAlike`** — a held order's revision, refused by a cancel reject, leaves it working.
-/

namespace IbkrDx

variable {Spec : Type}

/-! ## The orders, and the names of them -/

structure TrackedOrders (Spec : Type) where
  /-- What the context's maps hold under each number. -/
  entries : OrderId → OrderEntry Spec
  /-- `wire_name_to_order`: the order that a number the venue names is read as. -/
  wireNameToOrder : OrderId → Option OrderId

/-- A name without its first letter, where that is one of `letters`. -/
def stripped (letters : List UInt8) : Bytes → Bytes
  | [] => []
  | b :: name => if b ∈ letters then name else b :: name

/-- `stated_order_id`: a number as a message states it, where this client can carry it. -/
def statedOrderId (stated : Bytes) : Option OrderId :=
  (Decimal.parse (2 ^ 64) stated).filter (· ≤ maxOrderId)

def beforeFirstDot (name : Bytes) : Bytes := name.takeWhile (· ≠ 46)

/-- `wire_name`: the number tag 11 names, without the letter of a cancel or of a liquidation and
without the revision. -/
def wireName (name : Bytes) : Option OrderId :=
  statedOrderId (beforeFirstDot (stripped [67, 76] name))

namespace TrackedOrders

/-- The order an execution report is about, where it names no order the venue has just recovered. -/
def reportedOrder (t : TrackedOrders Spec) (r : OrderReport) : OrderId :=
  let wire := (r.name.bind wireName).getD 0
  if (t.entries wire).order.isSome then wire else (t.wireNameToOrder wire).getD wire

def awaiting (t : TrackedOrders Spec) (name : Bytes) : Option OrderId :=
  if 46 ∈ name then
    (statedOrderId (beforeFirstDot name)).filter fun id =>
      ((t.entries id).preReplace.lookup (revisionOf name)).isSome
  else none

/-- The order a cancel reject is about.  `find` is the search of the recorded names, which takes any
one of several orders recorded under a name. -/
def rejectedOrder (t : TrackedOrders Spec) (find : Bytes → Option OrderId) (rejectType : ℕ)
    (name origName : Option Bytes) : Option OrderId :=
  let replacement := if rejectType = 2 then name.bind t.awaiting else none
  replacement.or (origName.bind fun stated =>
    ((find stated).or (name.bind wireName)).or
      (statedOrderId (beforeFirstDot (stripped [67] stated))))

def modifyAt (t : TrackedOrders Spec) (id : OrderId) (f : OrderEntry Spec → OrderEntry Spec) :
    TrackedOrders Spec :=
  { t with entries := Function.update t.entries id (f (t.entries id)) }

/-- **An execution report**, of the order that is held under the number it names. -/
def takeExecReport (recoverOrder : OrderReport → Option Order → Option Order) (r : OrderReport)
    (t : TrackedOrders Spec) : TrackedOrders Spec :=
  t.modifyAt (t.reportedOrder r) (handleExecReport recoverOrder r)

/-- **A cancel reject.** -/
def takeCancelReject (find : Bytes → Option OrderId) (rejectType : ℕ)
    (name origName : Option Bytes) (t : TrackedOrders Spec) : TrackedOrders Spec :=
  match t.rejectedOrder find rejectType name origName with
  | none => t
  | some id => t.modifyAt id (handleCancelReject rejectType name)

end TrackedOrders

/-! ## What a refusal is to leave -/

/-- The two tables hold the same records, names, placements and snapshots. -/
def SameBooks (t t' : TrackedOrders Spec) : Prop :=
  ∀ id, (t.entries id).order = (t'.entries id).order ∧
    (t.entries id).lastClord = (t'.entries id).lastClord ∧
    (t.entries id).submitted = (t'.entries id).submitted ∧
    (t.entries id).preReplace = (t'.entries id).preReplace

/-- The state before a replace, or a later one that outranks it.  Pending replacement is the
attempt's own. -/
def outranking (before since : OrderStatus) : OrderStatus :=
  if since ≠ .pendingReplace ∧ before.rank < since.rank then since else before

/-- **What a refusal of revision `v` is to leave**, in either message: where the revision awaits an
answer, one book, in which the order stands where it stood before the replace, or later; where it
has been answered, the book there was. -/
def RefusedAlike (t t₁ t₂ : TrackedOrders Spec) (id : OrderId) (v : ℕ) (c : Order) : Prop :=
  match (t.entries id).preReplace.lookup v with
  | some prior => SameBooks t₁ t₂ ∧ (t₁.entries id).order.map Order.status
      = some (stoodWith (outranking prior.record.status c.status) c.filled)
  | none => SameBooks t t₁ ∧ SameBooks t t₂

/-- **When it does.**  The order is being withdrawn; or it goes back to working; or it has filled in
part, and was not being withdrawn as the replace went out.  Of a revision that has been answered,
no order recorded under the original's name awaits an answer to its own revision of the number. -/
def AnsweredAlike (t : TrackedOrders Spec) (find : Bytes → Option OrderId) (id : OrderId) (v : ℕ)
    (origName : Bytes) (c : Order) : Prop :=
  match (t.entries id).preReplace.lookup v with
  | some prior =>
      let stood := outranking prior.record.status c.status
      c.status = .pendingCancel ∨ stood = .submitted ∨
        0 < c.filled ∧ stood ≠ .pendingCancel ∧ stood.isTerminal = false
  | none => ∀ j, find origName = some j → (t.entries j).preReplace.lookup v = none

/-! ## The order each message is about -/

lemma beforeFirstDot_chainName (id : OrderId) (v : ℕ) :
    beforeFirstDot (chainName id v) = Decimal.text id := by
  have hdigits : ∀ b ∈ Decimal.text id, decide (b ≠ 46) = true := fun b hb =>
    decide_eq_true fun heq => Decimal.not_mem_text (by decide) id (heq ▸ hb)
  rw [beforeFirstDot, chainName, List.takeWhile_append_of_pos hdigits]
  simp

lemma exists_chainName (id : OrderId) (v : ℕ) :
    ∃ b rest, chainName id v = b :: rest ∧ Decimal.isDigit b = true := by
  cases ht : Decimal.text id with
  | nil => exact absurd ht (Decimal.text_ne_nil id)
  | cons b rest =>
      refine ⟨b, rest ++ 46 :: Decimal.text v, by rw [chainName, ht, List.cons_append], ?_⟩
      exact Decimal.isDigit_of_mem_text (ht ▸ List.mem_cons_self)

lemma head_chainName_ne {b : UInt8} (hb : Decimal.isDigit b = false) (id : OrderId) (v : ℕ) :
    (chainName id v).head? ≠ some b := by
  obtain ⟨d, rest, heq, hd⟩ := exists_chainName id v
  rw [heq, List.head?_cons]
  rintro ⟨⟩
  exact Bool.noConfusion (hd.symm.trans hb)

lemma stripped_chainName {letters : List UInt8} (h : ∀ b ∈ letters, Decimal.isDigit b = false)
    (id : OrderId) (v : ℕ) : stripped letters (chainName id v) = chainName id v := by
  obtain ⟨d, rest, heq, hd⟩ := exists_chainName id v
  rw [heq, stripped, if_neg]
  exact fun hmem => Bool.noConfusion (hd.symm.trans (h d hmem))

variable {id : OrderId}

lemma statedOrderId_text (h : id ≤ maxOrderId) :
    statedOrderId (Decimal.text id) = some id := by
  have hlt : id < 2 ^ 64 := lt_of_le_of_lt h (by decide)
  rw [statedOrderId, Decimal.parse_text hlt, Option.filter_some, if_pos (decide_eq_true h)]

lemma wireName_chainName (h : id ≤ maxOrderId) (v : ℕ) :
    wireName (chainName id v) = some id := by
  have hletters : ∀ b ∈ ([67, 76] : List UInt8), Decimal.isDigit b = false :=
    List.forall_mem_cons.2 ⟨by decide, List.forall_mem_singleton.2 (by decide)⟩
  rw [wireName, stripped_chainName hletters, beforeFirstDot_chainName, statedOrderId_text h]

namespace TrackedOrders

variable {t : TrackedOrders Spec} {id : OrderId} {v : ℕ} {c : Order}

lemma reportedOrder_eq (hid : id ≤ maxOrderId) (horder : (t.entries id).order = some c)
    {r : OrderReport} (hname : r.name = some (chainName id v)) : t.reportedOrder r = id := by
  rw [reportedOrder, hname, Option.bind_some, wireName_chainName hid, Option.getD_some]
  exact if_pos (by rw [horder]; rfl)

lemma awaiting_chainName (hid : id ≤ maxOrderId) (hv : v < revisionLimit) :
    t.awaiting (chainName id v)
      = if ((t.entries id).preReplace.lookup v).isSome then some id else none := by
  have hdot : (46 : UInt8) ∈ chainName id v := by simp [chainName]
  rw [awaiting, if_pos hdot, beforeFirstDot_chainName, statedOrderId_text hid, Option.filter_some,
    revisionOf_chainName id hv]

lemma rejectedOrder_of_live (hid : id ≤ maxOrderId) (hv : v < revisionLimit)
    (find : Bytes → Option OrderId) {prior : Snapshot Spec}
    (hlive : (t.entries id).preReplace.lookup v = some prior) (origName : Option Bytes) :
    t.rejectedOrder find 2 (some (chainName id v)) origName = some id := by
  rw [rejectedOrder, if_pos rfl, Option.bind_some, awaiting_chainName hid hv, hlive]
  rfl

lemma rejectedOrder_of_answered (hid : id ≤ maxOrderId) (hv : v < revisionLimit)
    (find : Bytes → Option OrderId) (hdone : (t.entries id).preReplace.lookup v = none)
    (origName : Bytes) :
    t.rejectedOrder find 2 (some (chainName id v)) (some origName)
      = some ((find origName).getD id) := by
  rw [rejectedOrder, if_pos rfl, Option.bind_some, awaiting_chainName hid hv, hdone,
    Option.bind_some, Option.bind_some, wireName_chainName hid]
  cases find origName <;> rfl

end TrackedOrders

/-! ## What each message leaves -/

lemma restored_status (prior c : Order) :
    (OrderEntry.restored prior (some c)).status
      = stoodWith (outranking prior.status c.status) c.filled := by
  simp only [OrderEntry.restored, stoodWith, outranking]
  split_ifs <;> rfl

namespace OrderEntry

variable {e : OrderEntry Spec} {v : ℕ} {c : Order} {prior : Snapshot Spec}

lemma restorePreReplace_of_none (h : e.preReplace.lookup v = none) : e.restorePreReplace v = e := by
  rw [restorePreReplace, h]

lemma restorePreReplace_order (h : e.preReplace.lookup v = some prior) :
    (e.restorePreReplace v).order = some (restored prior.record e.order) := by
  rw [restorePreReplace, h]
  rfl

lemma restorePreReplace_ne (h : e.preReplace.lookup v = some prior) :
    (e.restorePreReplace v).preReplace ≠ e.preReplace := by
  have hgone : (e.restorePreReplace v).preReplace.lookup v = none := by
    refine List.lookup_eq_none_iff.2 fun s hs => ?_
    rw [restorePreReplace, h] at hs
    have hne := (List.mem_filter.1 (List.mem_filter.1 hs).1).2
    exact bne_iff_ne.2 (of_decide_eq_true hne).symm
  intro heq
  rw [heq, h] at hgone
  exact Option.some_ne_none _ hgone

end OrderEntry

lemma handleExecReport_refusal (recoverOrder : OrderReport → Option Order → Option Order)
    {r : OrderReport} (hr : r.refuses = true) (hcancel : r.namesACancel = false)
    (horig : r.namesAnOriginal = true) (e : OrderEntry Spec) :
    handleExecReport recoverOrder r e = e.restorePreReplace r.refusedRevision := by
  have hcode : r.ordStatus = "8" := eq_of_beq (Bool.and_eq_true_iff.1 hr).2
  have hnormal : r.normalised = r := by
    rw [OrderReport.normalised, if_neg (by rw [hcode]; decide)]
  simp only [handleExecReport, hnormal, hr, hcancel, horig, Bool.and_false, Bool.and_true,
    Bool.false_eq_true, if_false, if_true]

variable {name : Bytes} {e : OrderEntry Spec} {v : ℕ}

lemma handleCancelReject_live {c : Order} {prior : Snapshot Spec}
    (hname : revisionOf name = v) (horder : e.order = some c)
    (hlive : e.preReplace.lookup v = some prior) :
    handleCancelReject 2 (some name) e
      = if c.status = .pendingCancel then e.restorePreReplace v
        else (e.restorePreReplace v).setOrderStatusForced (recomputed c.filled) := by
  have hback := OrderEntry.restorePreReplace_order hlive
  rw [horder] at hback
  simp only [handleCancelReject, Option.elim_some, hname, hlive, horder, Option.any_some, if_true]
  split
  · next hnone => exact absurd (hback.symm.trans hnone) (Option.some_ne_none _)
  · next o heq =>
      obtain rfl := Option.some.inj (hback.symm.trans heq)
      rw [OrderEntry.restored_filled]
      by_cases hpending : c.status = .pendingCancel <;> simp [hpending, recomputed]

lemma handleCancelReject_answered
    (hname : revisionOf name = v) (hdone : e.preReplace.lookup v = none) :
    handleCancelReject 2 (some name) e = e := by
  simp only [handleCancelReject, Option.elim_some, hname, hdone,
    OrderEntry.restorePreReplace_of_none hdone]
  split <;> simp

lemma handleCancelReject_preReplace
    (hname : revisionOf name = v) :
    (handleCancelReject 2 (some name) e).preReplace = (e.restorePreReplace v).preReplace := by
  simp only [handleCancelReject, Option.elim_some, hname, if_true]
  split
  · rfl
  · split <;> rfl

/-! ## When the two agree -/

lemma recomputed_eq_stoodWith_outranking (stood : OrderStatus) (filled : Qty) :
    recomputed filled = stoodWith stood filled ↔
      stood = .submitted ∨ 0 < filled ∧ stood ≠ .pendingCancel ∧ stood.isTerminal = false := by
  by_cases hq : 0 < filled
  · rw [recomputed, stoodWith, if_pos hq]
    cases stood <;> simp [hq, OrderStatus.rank, OrderStatus.isTerminal]
  · rw [recomputed, stoodWith, if_neg hq, if_neg fun h => hq h.1, or_iff_left fun h => hq h.1,
      eq_comm]

namespace TrackedOrders

variable {t : TrackedOrders Spec} {id : OrderId}

@[simp]
lemma modifyAt_entries (t : TrackedOrders Spec) (id : OrderId)
    (f : OrderEntry Spec → OrderEntry Spec) :
    (t.modifyAt id f).entries = Function.update t.entries id (f (t.entries id)) := rfl

lemma modifyAt_of_eq {f : OrderEntry Spec → OrderEntry Spec} (h : f (t.entries id) = t.entries id) :
    t.modifyAt id f = t := by
  rw [modifyAt, h, Function.update_eq_self]

end TrackedOrders

lemma SameBooks.refl (t : TrackedOrders Spec) : SameBooks t t := fun _ => ⟨rfl, rfl, rfl, rfl⟩

lemma sameBooks_modifyAt (t : TrackedOrders Spec) (id : OrderId)
    (f g : OrderEntry Spec → OrderEntry Spec) :
    SameBooks (t.modifyAt id f) (t.modifyAt id g) ↔
      (f (t.entries id)).order = (g (t.entries id)).order ∧
        (f (t.entries id)).lastClord = (g (t.entries id)).lastClord ∧
        (f (t.entries id)).submitted = (g (t.entries id)).submitted ∧
        (f (t.entries id)).preReplace = (g (t.entries id)).preReplace := by
  refine ⟨fun h => by simpa using h id, fun h j => ?_⟩
  rcases eq_or_ne j id with rfl | hne
  · simpa using h
  · simp [Function.update_of_ne hne]

lemma refusedAlike_live (t : TrackedOrders Spec) {c : Order}
    (horder : (t.entries id).order = some c) {prior : Snapshot Spec}
    (hlive : (t.entries id).preReplace.lookup v = some prior)
    (hname : revisionOf name = v) :
    SameBooks (t.modifyAt id fun e => e.restorePreReplace v)
        (t.modifyAt id (handleCancelReject 2 (some name))) ↔
      c.status = .pendingCancel ∨
        recomputed c.filled = stoodWith (outranking prior.record.status c.status) c.filled := by
  have hback := OrderEntry.restorePreReplace_order hlive
  rw [horder] at hback
  rw [sameBooks_modifyAt, handleCancelReject_live hname horder hlive, ← restored_status]
  by_cases hpending : c.status = .pendingCancel
  · rw [if_pos hpending]
    exact iff_of_true ⟨rfl, rfl, rfl, rfl⟩ (Or.inl hpending)
  · rw [if_neg hpending, or_iff_right hpending, OrderEntry.setOrderStatusForced, hback]
    refine ⟨fun h => ?_, fun h => ⟨?_, rfl, rfl, rfl⟩⟩
    · exact (congrArg Order.status (Option.some.inj h.1)).symm
    · rw [h]
      rfl

lemma refusedAlike_answered (t : TrackedOrders Spec) {j : OrderId}
    (hname : revisionOf name = v) :
    SameBooks t (t.modifyAt j (handleCancelReject 2 (some name))) ↔
      (t.entries j).preReplace.lookup v = none := by
  refine ⟨fun h => ?_, fun h => ?_⟩
  · by_contra hlive
    obtain ⟨prior, hlive⟩ := Option.ne_none_iff_exists'.1 hlive
    have hkept := (h j).2.2.2
    rw [TrackedOrders.modifyAt_entries, Function.update_self, handleCancelReject_preReplace hname]
      at hkept
    exact OrderEntry.restorePreReplace_ne hlive hkept.symm
  · rw [TrackedOrders.modifyAt_of_eq (handleCancelReject_answered hname h)]
    exact .refl t

open TrackedOrders in
/-- **A refusal leaves the same book in either message exactly where `AnsweredAlike` says.** -/
theorem refusedAlike_iff (recoverOrder : OrderReport → Option Order → Option Order)
    {t : TrackedOrders Spec} {find : Bytes → Option OrderId} {id : OrderId}
    (hid : id ≤ maxOrderId) {v : ℕ} (hv : v < revisionLimit) {c : Order}
    (horder : (t.entries id).order = some c) {r : OrderReport} (hr : r.refuses = true)
    (hname : r.name = some (chainName id v)) {origName : Bytes} (horig : r.origName = some origName)
    (hstated : origName ≠ []) :
    RefusedAlike t (takeExecReport recoverOrder r t) (takeCancelReject find 2 r.name r.origName t)
      id v c ↔ AnsweredAlike t find id v origName c := by
  have hcancel : r.namesACancel = false := by
    rw [OrderReport.namesACancel, hname, Option.bind_some]
    exact beq_false_of_ne (head_chainName_ne (by decide) id v)
  have hnames : r.namesAnOriginal = true := by
    rw [OrderReport.namesAnOriginal, horig, Option.any_some, List.isEmpty_eq_false_iff.2 hstated]
    rfl
  have hrevision : revisionOf (chainName id v) = v := revisionOf_chainName id hv
  have hreport :
      takeExecReport recoverOrder r t = t.modifyAt id fun e => e.restorePreReplace v := by
    rw [takeExecReport, reportedOrder_eq hid horder hname]
    refine congrArg (t.modifyAt id) (funext fun e => ?_)
    rw [handleExecReport_refusal recoverOrder hr hcancel hnames, OrderReport.refusedRevision, hname,
      Option.elim_some, hrevision]
  rw [hreport, hname, horig, takeCancelReject]
  cases hlive : (t.entries id).preReplace.lookup v with
  | some prior =>
      have hback := OrderEntry.restorePreReplace_order hlive
      rw [horder] at hback
      simp only [RefusedAlike, AnsweredAlike, hlive, rejectedOrder_of_live hid hv find hlive]
      rw [refusedAlike_live t horder hlive hrevision, recomputed_eq_stoodWith_outranking,
        modifyAt_entries, Function.update_self, hback, Option.map_some, restored_status]
      exact and_iff_left rfl
  | none =>
      simp only [RefusedAlike, AnsweredAlike, hlive, rejectedOrder_of_answered hid hv find hlive]
      rw [modifyAt_of_eq (OrderEntry.restorePreReplace_of_none hlive), refusedAlike_answered t
        hrevision, and_iff_right (SameBooks.refl t)]
      cases hfind : find origName with
      | none => exact iff_of_true hlive fun j hj => absurd hj.symm (Option.some_ne_none j)
      | some j => exact ⟨fun h j' hj' => Option.some.inj hj' ▸ h, fun h => h j rfl⟩

/-! ## A refusal of one order's first revision -/

/-- Order 5, standing at `status`, with a replace on its way. -/
def replacing (status : OrderStatus) : TrackedOrders Unit where
  entries := Function.update (fun _ => { order := none }) 5
    (modify noPlacing 5 ⟨11, 100, 0, 0, 0, none⟩ (standingAt status)).1
  wireNameToOrder _ := none

def firstRefused : OrderReport where
  name := some (chainName 5 1)
  origName := some (chainName 5 0)
  ordStatus := "8"
  execType := "8"

open TrackedOrders in
/-- The replace of an order that is working. -/
theorem refusedAlike_iff_working :
    RefusedAlike (replacing .submitted) (takeExecReport (fun _ _ => none) firstRefused
        (replacing .submitted))
      (takeCancelReject (fun _ => none) 2 (some (chainName 5 1)) (some (chainName 5 0))
        (replacing .submitted))
      5 1 { restingOrder with price := 11, status := .pendingReplace } :=
  (refusedAlike_iff (fun _ _ => none) (r := firstRefused) (by decide) (by decide)
    (by decide) (by decide) rfl rfl (by decide)).2 (Or.inr (Or.inl (by decide)))

open TrackedOrders in
/-- **A held order's revision.**  The report puts it back to held, and the reject has it working. -/
theorem not_refusedAlike :
    ¬ RefusedAlike (replacing .preSubmitted) (takeExecReport (fun _ _ => none) firstRefused
        (replacing .preSubmitted))
      (takeCancelReject (fun _ => none) 2 (some (chainName 5 1)) (some (chainName 5 0))
        (replacing .preSubmitted))
      5 1 { restingOrder with price := 11, status := .pendingReplace } := by
  intro h
  have hbooks : SameBooks _ _ := h.1
  exact absurd (hbooks 5).1 (by decide)

end IbkrDx
