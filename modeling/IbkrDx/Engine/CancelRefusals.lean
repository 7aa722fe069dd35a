import IbkrDx.Engine.Replaces

/-!
# Where refused cancels leave an order

An order is withdrawn once or several times over before the venue answers, fills may be booked
meanwhile, and the venue refuses every cancel: by an execution report naming the cancel, or by a
cancel reject.  The first puts back what was recorded as the last cancel went out; the second
computes a state from what has filled.

* **`putBack_iff`** — which refusals put it back there.
* **`not_putBack`** — a held order whose cancel is refused by a cancel reject is not put back.
-/

namespace IbkrDx

open Runs

variable {Spec : Type}

/-! ## Cancels, fills and refusals -/

def OrderReport.fills (r : OrderReport) : Bool :=
  r.ordStatus == "1" && (r.transType == none || r.transType == some "0") && r.execType != "6"
    && r.execType != "D" && decide (0 < r.booked)

namespace OrderEvent

def isCancel : OrderEvent Spec → Bool
  | .cancel => true
  | _ => false

def isFill : OrderEvent Spec → Bool
  | .report r => r.fills
  | _ => false

def isLiveFill : OrderEvent Spec → Bool
  | .report r => r.fills && !r.resend
  | _ => false

def isReportRefusal : OrderEvent Spec → Bool
  | .report r => r.refuses && r.namesACancel
  | _ => false

def isRejectRefusal : OrderEvent Spec → Bool
  | .cancelReject rejectType _ => rejectType == 1
  | _ => false

def isRefusal (ev : OrderEvent Spec) : Bool := ev.isReportRefusal || ev.isRejectRefusal

/-- An event that states where the order stands whatever stood on record. -/
def restates (ev : OrderEvent Spec) : Bool := ev.isLiveFill || ev.isRejectRefusal

end OrderEvent

variable {r : OrderReport}

lemma OrderReport.fills_of_refuses (h : (r.refuses && r.namesACancel) = true) :
    r.fills = false := by
  simp only [OrderReport.refuses, Bool.and_eq_true, beq_iff_eq] at h
  simp [OrderReport.fills, h.1.2]

lemma OrderEvent.isLiveFill_of_fills (h : r.fills = true) :
    (OrderEvent.report r : OrderEvent Spec).isLiveFill = !r.resend := by
  rw [OrderEvent.isLiveFill, h, Bool.true_and]

lemma OrderEvent.exists_of_isFill (ev : OrderEvent Spec) (h : ev.isFill) :
    ∃ r, ev = .report r ∧ r.fills = true := by
  cases ev with
  | report r => exact ⟨r, rfl, h⟩
  | _ => exact absurd h Bool.false_ne_true

/-- **The cancels of an order, each of them refused.**  Behind the first cancel the caller sends
`more` of them, with fills between; then the venue answers, each cancel by one refusal, with fills
while one is outstanding. -/
structure AllRefused (more answers : List (OrderEvent Spec)) : Prop where
  sent : ∀ ev ∈ more, ev.isCancel ∨ ev.isFill
  answered : ∀ ev ∈ answers, ev.isRefusal ∨ ev.isFill
  each : answers.countP OrderEvent.isRefusal = more.countP OrderEvent.isCancel + 1
  last : ∀ ev ∈ answers.getLast?, ev.isRefusal

instance (more answers : List (OrderEvent Spec)) : Decidable (AllRefused more answers) :=
  decidable_of_iff
    ((∀ ev ∈ more, ev.isCancel ∨ ev.isFill) ∧ (∀ ev ∈ answers, ev.isRefusal ∨ ev.isFill) ∧
      answers.countP OrderEvent.isRefusal = more.countP OrderEvent.isCancel + 1 ∧
      ∀ ev ∈ answers.getLast?, ev.isRefusal)
    ⟨fun ⟨h₁, h₂, h₃, h₄⟩ => ⟨h₁, h₂, h₃, h₄⟩, fun h => ⟨h.sent, h.answered, h.each, h.last⟩⟩

/-- The state an order goes back to: the one it stood in, or partly filled, where that ranks
higher. -/
def stoodWith (stood : OrderStatus) (filled : Qty) : OrderStatus :=
  if 0 < filled ∧ stood.rank < OrderStatus.partiallyFilled.rank then .partiallyFilled else stood

/-- **The order stands where it stood**, and nothing is recorded for another refusal. -/
def PutBack (stood : OrderStatus) (e : OrderEntry Spec) : Prop :=
  e.beforeTheCancel = none ∧ (e.order.any fun o => o.status == stoodWith stood o.filled) = true

instance (stood : OrderStatus) (e : OrderEntry Spec) : Decidable (PutBack stood e) :=
  inferInstanceAs (Decidable (_ ∧ _))

/-! ## What one event leaves -/

/-- The order stands at `status`, has filled `filled`, and `before` is recorded for a refusal. -/
structure StandsAt (e : OrderEntry Spec) (status : OrderStatus) (filled : Qty)
    (before : Option OrderStatus) : Prop where
  order : ∃ o, e.order = some o ∧ o.status = status ∧ o.filled = filled
  before : e.beforeTheCancel = before

def recomputed (filled : Qty) : OrderStatus :=
  if 0 < filled then .partiallyFilled else .submitted

lemma OrderReport.fills_reads (hr : r.fills = true) {e : OrderEntry Spec}
    {o : Order} (ho : e.order = some o) :
    r.status e = .partiallyFilled ∧ r.belowTheCancel e = false ∧ r.acknowledgesAChange e = false ∧
      r.isReplaceAck e = false ∧ r.finishes e = false := by
  simp only [OrderReport.fills, Bool.and_eq_true, beq_iff_eq, Bool.or_eq_true, bne_iff_ne] at hr
  obtain ⟨⟨⟨⟨hcode, htrans⟩, hsix⟩, hD⟩, -⟩ := hr
  have hlive : r.statusReport = false := by
    rcases htrans with htrans | htrans <;> simp [OrderReport.statusReport, htrans]
  have hskipped : r.skipped e = false := by simp [OrderReport.skipped, hsix, hD]
  have hbelow : r.belowTheCancel e = false := by simp [OrderReport.belowTheCancel, hlive]
  have hacks : r.acknowledgesAChange e = false := by
    simp [OrderReport.acknowledgesAChange, hlive]
  have hstates : r.status e = .partiallyFilled := by
    simp [OrderReport.status, ho, hbelow, hskipped, hacks, hsix, hcode, statusOf]
  exact ⟨hstates, hbelow, hacks, by simp [OrderReport.isReplaceAck, hcode],
    by simp [OrderReport.finishes, hstates]⟩

lemma recomputed_ne (filled : Qty) : recomputed filled ≠ .pendingCancel := by
  rw [recomputed]
  split <;> simp

namespace StandsAt

variable {e : OrderEntry Spec} {status : OrderStatus} {filled : Qty} {before : Option OrderStatus}

lemma of_eq (h : StandsAt e status filled before) {status' : OrderStatus} (hs : status' = status) :
    StandsAt e status' filled before := hs ▸ h

lemma forced (h : StandsAt e status filled before) (status' : OrderStatus) :
    StandsAt (e.setOrderStatusForced status') status' filled before := by
  obtain ⟨⟨o, ho, -, hq⟩, hb⟩ := h
  exact ⟨⟨{ o with status := status' }, by rw [OrderEntry.setOrderStatusForced, ho]; rfl, rfl, hq⟩,
    hb⟩

lemma update (h : StandsAt e status filled before) (status' : OrderStatus) (replayed : Bool) :
    StandsAt (e.updateOrderStatus status' replayed).1
      (if guarded status status' replayed e.replaceIsOutstanding then status' else status)
      filled before := by
  obtain ⟨⟨o, ho, rfl, hq⟩, hb⟩ := h
  simp only [OrderEntry.updateOrderStatus, ho]
  split
  · exact ⟨⟨_, rfl, rfl, hq⟩, hb⟩
  · exact ⟨⟨o, ho, rfl, hq⟩, hb⟩

lemma updated (h : StandsAt e status filled before) (status' : OrderStatus) (replayed : Bool) :
    (e.updateOrderStatus status' replayed).2
      = guarded status status' replayed e.replaceIsOutstanding := by
  obtain ⟨⟨o, ho, rfl, -⟩, -⟩ := h
  simp only [OrderEntry.updateOrderStatus, ho]
  split <;> simp_all

lemma cancel (h : StandsAt e status filled before) (hopen : status.isTerminal = false) :
    StandsAt (synthesizePendingCancel e) .pendingCancel filled (some status) := by
  have hguard (owed : Bool) : guarded status .pendingCancel false owed = true := by
    cases status <;> cases owed <;> first | rfl | exact absurd hopen (by decide)
  have hcleared : StandsAt { e with beforeTheCancel := none } status filled none := ⟨h.order, rfl⟩
  have hmoved := hcleared.update .pendingCancel false
  have hany := hcleared.updated .pendingCancel false
  rw [hguard] at hany
  rw [if_pos (hguard _)] at hmoved
  obtain ⟨o, ho, rfl, -⟩ := h.order
  simp only [synthesizePendingCancel]
  split
  · next moved heq =>
      rw [heq] at hmoved
      exact ⟨hmoved.order, by rw [ho]; rfl⟩
  · next heq =>
      rw [heq] at hany
      exact absurd hany Bool.false_ne_true

lemma reportRefusal (h : StandsAt e status filled before)
    (recoverOrder : OrderReport → Option Order → Option Order) {r : OrderReport}
    (hr : (r.refuses && r.namesACancel) = true) :
    StandsAt (handleExecReport recoverOrder r e) (before.getD status) filled none := by
  have hcode : r.ordStatus = "8" := by
    simp only [OrderReport.refuses, Bool.and_eq_true, beq_iff_eq] at hr
    exact hr.1.2
  have hnormal : r.normalised = r := by
    rw [OrderReport.normalised, if_neg (by rw [hcode]; decide)]
  simp only [handleExecReport, hnormal, hr, if_true]
  rw [h.before]
  cases before with
  | none => exact ⟨h.order, h.before⟩
  | some stood =>
      have hcleared : StandsAt { e with beforeTheCancel := none } status filled none :=
        ⟨h.order, rfl⟩
      exact hcleared.forced stood

lemma rejectRefusal (h : StandsAt e status filled before) (name : Option Bytes) :
    StandsAt (handleCancelReject 1 name e) (recomputed filled) filled before := by
  have hforced := h.forced (recomputed filled)
  obtain ⟨o, ho, -, rfl⟩ := h.order
  simpa [handleCancelReject, ho, recomputed] using hforced

lemma booked (h : StandsAt e status filled before) (delta : Qty) :
    StandsAt (e.adjustOrderFilled delta) status (max (filled.saturatingAdd delta) 0) before := by
  obtain ⟨⟨o, ho, hs, rfl⟩, hb⟩ := h
  refine ⟨⟨{ o with filled := max (o.filled.saturatingAdd delta) 0 }, ?_, hs, rfl⟩, hb⟩
  rw [OrderEntry.adjustOrderFilled, ho]
  rfl

lemma named (h : StandsAt e status filled before) (r : OrderReport) :
    StandsAt (recordName r false e) status filled before := by
  unfold recordName
  split
  · exact h
  · simp only [Bool.false_eq_true, if_false]
    split
    · exact ⟨h.order, h.before⟩
    · exact h

lemma fill (h : StandsAt e status filled before)
    (recoverOrder : OrderReport → Option Order → Option Order) {r : OrderReport}
    (hr : r.fills = true) (hstatus : status = .pendingCancel ∨ status = .partiallyFilled
      ∨ status = .submitted) :
    StandsAt (handleExecReport recoverOrder r e)
      (if r.resend ∧ status = .pendingCancel then .pendingCancel else .partiallyFilled)
      (max (filled.saturatingAdd r.booked) 0) before := by
  obtain ⟨o, ho, hs, -⟩ := h.order
  have hheld : o.status ≠ .uncertain := by rcases hstatus with rfl | rfl | rfl <;> simp [hs]
  obtain ⟨hstates, hbelow, hacks, hreplaces, hends⟩ := r.fills_reads hr ho
  simp only [OrderReport.fills, Bool.and_eq_true, beq_iff_eq] at hr
  have hrecovering : r.recovering e = false := by simp [OrderReport.recovering, ho, hheld]
  have hnormal : r.normalised = r := by
    rw [OrderReport.normalised, if_neg (by rw [hr.1.1.1.1]; decide)]
  have hrefuses : r.refuses = false := by simp [OrderReport.refuses, hr.1.1.1.1]
  simp only [handleExecReport, hnormal, hrefuses, Bool.false_and, Bool.false_eq_true, if_false,
    takeReport, hstates, hrecovering, hacks, hreplaces, hends, applyStatus]
  have hnoted : StandsAt (noteVenueOrder r e) status filled before := ⟨h.order, h.before⟩
  have hmoved := ((hnoted.named r).update .partiallyFilled r.resend).booked r.booked
  have hguard (owed : Bool) : (if guarded status .partiallyFilled r.resend owed then
      OrderStatus.partiallyFilled else status)
      = if r.resend ∧ status = .pendingCancel then .pendingCancel else .partiallyFilled := by
    rcases hstatus with rfl | rfl | rfl <;> cases r.resend <;> cases owed <;> rfl
  rw [hguard] at hmoved
  exact hmoved

end StandsAt

/-! ## What the cancels record -/

def behindTheLast (more : List (OrderEvent Spec)) : List (OrderEvent Spec) :=
  more.reverse.takeWhile fun ev => !ev.isCancel

/-- What comes between the last cancel and the one before it, the latest first. -/
def betweenTheLastTwo (more : List (OrderEvent Spec)) : List (OrderEvent Spec) :=
  ((more.reverse.dropWhile fun ev => !ev.isCancel).drop 1).takeWhile fun ev => !ev.isCancel

def recordedAtLast (stood : OrderStatus) (more : List (OrderEvent Spec)) : OrderStatus :=
  if more.any OrderEvent.isCancel then
    if (betweenTheLastTwo more).any OrderEvent.isLiveFill then .partiallyFilled else .pendingCancel
  else stood

lemma booked_of_fills (h : r.fills = true) : 0 < r.booked := by
  rw [OrderReport.fills, Bool.and_eq_true] at h
  exact of_decide_eq_true h.2

lemma booked_pos {filled delta : Qty} (hq : 0 ≤ filled) (hd : 0 < delta) :
    0 < max (filled.saturatingAdd delta) 0 := by
  have hsum : 0 < filled + delta := add_pos_of_nonneg_of_pos hq hd
  have hmax : (0 : ℤ) < qtyMax := by decide
  rw [Qty.saturatingAdd]
  exact lt_max_of_lt_left (lt_max_of_lt_right (lt_min hmax hsum))

lemma behindTheLast_cancel (more : List (OrderEvent Spec)) :
    behindTheLast (more ++ [.cancel]) = [] := by
  simp [behindTheLast, OrderEvent.isCancel]

lemma behindTheLast_append (more : List (OrderEvent Spec)) {ev : OrderEvent Spec}
    (hev : ev.isCancel = false) : behindTheLast (more ++ [ev]) = ev :: behindTheLast more := by
  simp [behindTheLast, hev]

lemma recordedAtLast_cancel (stood : OrderStatus) (more : List (OrderEvent Spec)) :
    recordedAtLast stood (more ++ [.cancel])
      = if (behindTheLast more).any OrderEvent.isLiveFill then .partiallyFilled
        else .pendingCancel := by
  simp [recordedAtLast, betweenTheLastTwo, behindTheLast, OrderEvent.isCancel]

lemma recordedAtLast_append (stood : OrderStatus) (more : List (OrderEvent Spec))
    {ev : OrderEvent Spec} (hev : ev.isCancel = false) :
    recordedAtLast stood (more ++ [ev]) = recordedAtLast stood more := by
  simp [recordedAtLast, betweenTheLastTwo, hev]

namespace StandsAt

variable {e : OrderEntry Spec} {status : OrderStatus} {filled : Qty} {before : Option OrderStatus}
  (placing : Placing Spec) (recoverOrder : OrderReport → Option Order → Option Order) (id : OrderId)

lemma sent (h : StandsAt e status filled before) (hopen : status.isTerminal = false)
    (hq : 0 ≤ filled) {more : List (OrderEvent Spec)}
    (hmore : ∀ ev ∈ more, ev.isCancel ∨ ev.isFill) :
    ∃ q, StandsAt (run (OrderEntry.step placing recoverOrder id) e (.cancel :: more))
        (if (behindTheLast more).any OrderEvent.isLiveFill then .partiallyFilled
          else .pendingCancel)
        q (some (recordedAtLast status more)) ∧
      0 ≤ q ∧ (0 < q ↔ 0 < filled ∨ more.any OrderEvent.isFill) := by
  induction more using List.reverseRecOn with
  | nil => exact ⟨filled, h.cancel hopen, hq, by simp⟩
  | append_singleton more ev ih =>
      obtain ⟨q, hst, hq', hpos⟩ := ih fun ev' hev' => hmore ev' (List.mem_append_left _ hev')
      have hrun : run (OrderEntry.step placing recoverOrder id) e (.cancel :: (more ++ [ev]))
          = (run (OrderEntry.step placing recoverOrder id) e (.cancel :: more)).step placing
            recoverOrder id ev := by
        rw [← List.cons_append, Runs.run, List.foldl_append]
        rfl
      rw [hrun]
      rcases hmore ev (List.mem_append_right _ List.mem_cons_self) with hev | hev
      · obtain rfl : ev = .cancel := by
          cases ev <;> first | rfl | exact absurd hev Bool.false_ne_true
        rw [behindTheLast_cancel, recordedAtLast_cancel]
        exact ⟨q, hst.cancel (by split <;> rfl), hq', by simp [hpos, OrderEvent.isFill]⟩
      · obtain ⟨r, rfl, hr⟩ := ev.exists_of_isFill hev
        rw [behindTheLast_append _ rfl, recordedAtLast_append _ _ rfl]
        have hfill := hst.fill recoverOrder hr (by split <;> simp)
        have hqpos := booked_pos hq' (booked_of_fills hr)
        refine ⟨_, ?_, hqpos.le, iff_of_true hqpos (Or.inr (by simp [hev]))⟩
        rw [List.any_cons, OrderEvent.isLiveFill_of_fills hr]
        refine hfill.of_eq ?_
        cases r.resend <;> cases (behindTheLast more).any OrderEvent.isLiveFill <;> rfl

lemma answer (h : StandsAt e status filled before) (hq : 0 ≤ filled)
    (hstatus : status = .pendingCancel ∨ status = recomputed filled) {ev : OrderEvent Spec}
    (hev : ev.isRefusal ∨ ev.isFill) (hb : before = none ∨ ev.isReportRefusal = false) :
    ∃ q, StandsAt (e.step placing recoverOrder id ev)
        (if status = .pendingCancel ∧ ev.restates = false then .pendingCancel else recomputed q)
        q before ∧ 0 ≤ q ∧ (0 < q ↔ 0 < filled ∨ ev.isFill) := by
  rcases hev with hev | hev
  · cases ev with
    | report r =>
        -- a report that puts nothing back leaves the order as it stands
        have hev : (r.refuses && r.namesACancel) = true := (Bool.or_false _).symm.trans hev
        obtain rfl : before = none := hb.resolve_right fun hno =>
          Bool.noConfusion (hev.symm.trans hno)
        have hput := h.reportRefusal recoverOrder hev
        refine ⟨filled, ?_, hq, by simp [OrderEvent.isFill, OrderReport.fills_of_refuses hev]⟩
        refine hput.of_eq ?_
        rcases hstatus with rfl | rfl
        · simp [OrderEvent.restates, OrderEvent.isLiveFill, OrderReport.fills_of_refuses hev,
            OrderEvent.isRejectRefusal]
        · split <;> simp_all
    | cancelReject rejectType name =>
        obtain rfl : rejectType = 1 := eq_of_beq hev
        refine ⟨filled, ?_, hq, by simp [OrderEvent.isFill]⟩
        exact (h.rejectRefusal name).of_eq (if_neg fun hno => Bool.noConfusion hno.2)
    | _ => exact absurd hev Bool.false_ne_true
  · obtain ⟨r, rfl, hr⟩ := ev.exists_of_isFill hev
    have hqpos := booked_pos hq (booked_of_fills hr)
    refine ⟨_, ?_, hqpos.le, iff_of_true hqpos (Or.inr hev)⟩
    have hfill := h.fill recoverOrder hr
      (hstatus.imp_right fun hs => by rw [hs, recomputed]; split <;> simp)
    refine hfill.of_eq ?_
    have hrestates : (OrderEvent.report r : OrderEvent Spec).restates = !r.resend :=
      (Bool.or_false _).trans (OrderEvent.isLiveFill_of_fills hr)
    rw [recomputed, if_pos hqpos, hrestates]
    cases r.resend <;> simp

lemma answers {evs : List (OrderEvent Spec)} (hev : ∀ ev ∈ evs, ev.isRefusal ∨ ev.isFill)
    (hb : before = none ∨ ∀ ev ∈ evs, ev.isReportRefusal = false) :
    ∀ {e : OrderEntry Spec} {status : OrderStatus} {filled : Qty}, StandsAt e status filled before →
      0 ≤ filled → (status = .pendingCancel ∨ status = recomputed filled) →
      ∃ q, StandsAt (run (OrderEntry.step placing recoverOrder id) e evs)
          (if status = .pendingCancel ∧ evs.any OrderEvent.restates = false then .pendingCancel
            else recomputed q)
          q before ∧ 0 ≤ q ∧ (0 < q ↔ 0 < filled ∨ evs.any OrderEvent.isFill) := by
  induction evs with
  | nil =>
      intro e status filled h hq hstatus
      refine ⟨filled, ?_, hq, by simp⟩
      rcases hstatus with rfl | rfl
      · exact h
      · split
        · next hpending => exact hpending.1 ▸ h
        · exact h
  | cons ev evs ih =>
      intro e status filled h hq hstatus
      obtain ⟨q, hst, hq', hpos⟩ := h.answer placing recoverOrder id hq hstatus
        (hev ev List.mem_cons_self) (hb.imp_right fun hb => hb ev List.mem_cons_self)
      obtain ⟨q', hst', hq'', hpos'⟩ := ih (fun ev' hev' => hev ev' (List.mem_cons_of_mem _ hev'))
        (hb.imp_right fun hb ev' hev' => hb ev' (List.mem_cons_of_mem _ hev')) hst hq'
        (by split <;> simp)
      refine ⟨q', ?_, hq'', by rw [hpos', hpos, List.any_cons, Bool.or_eq_true, or_assoc]⟩
      refine StandsAt.of_eq hst' ?_
      rw [List.any_cons]
      by_cases hpending : status = .pendingCancel ∧ ev.restates = false
      · rw [if_pos hpending]
        simp only [hpending, Bool.false_or, true_and]
      · have hno : ¬ (status = .pendingCancel ∧
            (ev.restates || evs.any OrderEvent.restates) = false) :=
          fun hno => hpending ⟨hno.1, (Bool.or_eq_false_iff.1 hno.2).1⟩
        rw [if_neg hpending, if_neg hno, if_neg fun heq => recomputed_ne q heq.1]

end StandsAt

/-! ## Which refusals put the order back -/

def behindTheFirstReport (answers : List (OrderEvent Spec)) : List (OrderEvent Spec) :=
  (answers.dropWhile fun ev => !ev.isReportRefusal).drop 1

def FilledMeanwhile (o : Order) (more answers : List (OrderEvent Spec)) : Prop :=
  0 < o.filled ∨ more.any OrderEvent.isFill ∨ answers.any OrderEvent.isFill

/-- **When refused cancels put an order back.**  A report refuses one of them.  One cancel on its
own went out over a partly filled order, or nothing has filled; of several, a live fill fell
between the last two, or the order is restated behind the first such report, and was working or has
filled. -/
def GoesBack (o : Order) (more answers : List (OrderEvent Spec)) : Prop :=
  answers.any OrderEvent.isReportRefusal ∧
    if more.any OrderEvent.isCancel then
      (betweenTheLastTwo more).any OrderEvent.isLiveFill ∨
        (behindTheFirstReport answers).any OrderEvent.restates ∧
          (o.status = .submitted ∨ FilledMeanwhile o more answers)
    else o.status = .partiallyFilled ∨ ¬ FilledMeanwhile o more answers

instance (o : Order) (more answers : List (OrderEvent Spec)) :
    Decidable (FilledMeanwhile o more answers) := inferInstanceAs (Decidable (_ ∨ _ ∨ _))

instance (o : Order) (more answers : List (OrderEvent Spec)) :
    Decidable (GoesBack o more answers) := inferInstanceAs (Decidable (_ ∧ ite _ _ _))

section

variable {stood : OrderStatus} {filled : Qty}

lemma recomputed_eq_stoodWith (hopen : stood.isTerminal = false) (hmoved : stood ≠ .pendingCancel) :
    recomputed filled = stoodWith stood filled ↔ stood = .submitted ∨ 0 < filled := by
  by_cases hq : 0 < filled
  · refine iff_of_true ?_ (Or.inr hq)
    rw [recomputed, stoodWith, if_pos hq]
    cases stood <;> simp_all [OrderStatus.rank, OrderStatus.isTerminal]
  · rw [recomputed, stoodWith, if_neg hq, if_neg fun h => hq h.1, or_iff_left hq, eq_comm]

lemma pendingCancel_ne_stoodWith (hmoved : stood ≠ .pendingCancel) :
    OrderStatus.pendingCancel ≠ stoodWith stood filled := by
  rw [stoodWith]
  split
  · simp
  · exact hmoved.symm

lemma stood_eq_stoodWith (hopen : stood.isTerminal = false) (hmoved : stood ≠ .pendingCancel) :
    stood = stoodWith stood filled ↔ stood = .partiallyFilled ∨ ¬ 0 < filled := by
  by_cases hq : 0 < filled
  · rw [or_iff_left (not_not.2 hq), stoodWith]
    cases stood <;> simp_all [OrderStatus.rank, OrderStatus.isTerminal]
  · exact iff_of_true (by rw [stoodWith, if_neg fun h => hq h.1]) (Or.inr hq)

lemma StandsAt.isPutBack_iff {e : OrderEntry Spec} {status : OrderStatus}
    (h : StandsAt e status filled none) : PutBack stood e ↔ status = stoodWith stood filled := by
  obtain ⟨⟨o, ho, rfl, rfl⟩, hb⟩ := h
  rw [PutBack, hb, ho, Option.any_some, beq_iff_eq]
  exact and_iff_right rfl

lemma StandsAt.putBack_several (placing : Placing Spec)
    (recoverOrder : OrderReport → Option Order → Option Order) (id : OrderId)
    {e : OrderEntry Spec} {live : Bool} {post : List (OrderEvent Spec)}
    (hopen : stood.isTerminal = false) (hmoved : stood ≠ .pendingCancel)
    (h : StandsAt e (if live then .partiallyFilled else .pendingCancel) filled none)
    (hq : 0 ≤ filled) (hlive : live = true → 0 < filled)
    (hpost : ∀ ev ∈ post, ev.isRefusal ∨ ev.isFill) :
    ∃ q : Qty, (0 < q ↔ 0 < filled ∨ post.any OrderEvent.isFill) ∧
      (PutBack stood (run (OrderEntry.step placing recoverOrder id) e post) ↔
        live ∨ post.any OrderEvent.restates ∧ (stood = .submitted ∨ 0 < q)) := by
  cases live with
  | true =>
      have hpos := hlive rfl
      obtain ⟨q, hst, -, hiff⟩ := StandsAt.answers placing recoverOrder id hpost (Or.inl rfl) h hq
        (Or.inr (if_pos hpos).symm)
      have hfilled : 0 < q := hiff.2 (Or.inl hpos)
      rw [if_neg fun heq => absurd heq.1 (by decide)] at hst
      refine ⟨q, hiff, iff_of_true (hst.isPutBack_iff.2 ?_) (Or.inl rfl)⟩
      exact (recomputed_eq_stoodWith hopen hmoved).2 (Or.inr hfilled)
  | false =>
      obtain ⟨q, hst, -, hiff⟩ := StandsAt.answers placing recoverOrder id hpost (Or.inl rfl) h hq
        (Or.inl rfl)
      refine ⟨q, hiff, hst.isPutBack_iff.trans ?_⟩
      rw [or_iff_right Bool.false_ne_true]
      cases hrestated : post.any OrderEvent.restates with
      | false =>
          rw [if_pos ⟨rfl, rfl⟩]
          exact iff_of_false (pendingCancel_ne_stoodWith hmoved) fun h => Bool.noConfusion h.1
      | true =>
          rw [if_neg fun h => Bool.noConfusion h.2, and_iff_right rfl]
          exact recomputed_eq_stoodWith hopen hmoved

end

lemma exists_firstReport {answers : List (OrderEvent Spec)}
    (h : answers.any OrderEvent.isReportRefusal) :
    ∃ pre r, (r.refuses && r.namesACancel) = true ∧
      (∀ ev ∈ pre, ev.isReportRefusal = false) ∧
      answers = pre ++ .report r :: behindTheFirstReport answers := by
  induction answers with
  | nil => exact absurd h Bool.false_ne_true
  | cons ev answers ih =>
      cases hev : ev.isReportRefusal with
      | true =>
          cases ev with
          | report r => exact ⟨[], r, hev, by simp, by simp [behindTheFirstReport, hev]⟩
          | _ => exact absurd hev Bool.false_ne_true
      | false =>
          rw [List.any_cons, hev, Bool.false_or] at h
          obtain ⟨pre, r, hr, hpre, heq⟩ := ih h
          refine ⟨ev :: pre, r, hr, List.forall_mem_cons.2 ⟨hev, hpre⟩, ?_⟩
          rw [List.cons_append, behindTheFirstReport, List.dropWhile_cons_of_pos (by rw [hev]; rfl)]
          exact congrArg (ev :: ·) heq

variable {more : List (OrderEvent Spec)}

lemma AllRefused.behind_eq_nil {pre post : List (OrderEvent Spec)}
    (h : AllRefused more (pre ++ .report r :: post)) (hr : (r.refuses && r.namesACancel) = true)
    (hone : more.any OrderEvent.isCancel = false) : post = [] := by
  rcases List.eq_nil_or_concat' post with hnil | ⟨rest, ev, rfl⟩
  · exact hnil
  · -- the last answer would be a second refusal
    have hlast : ev.isRefusal = true := by
      refine h.last ev ?_
      rw [← List.cons_append, ← List.append_assoc, List.getLast?_append]
      rfl
    have hnone : more.countP OrderEvent.isCancel = 0 :=
      List.countP_eq_zero.2 fun ev' hev' => List.any_eq_false.1 hone ev' hev'
    have hreport : (OrderEvent.report r : OrderEvent Spec).isRefusal = true :=
      (Bool.or_false _).trans hr
    have heach := h.each
    rw [hnone, List.countP_append, List.countP_cons_of_pos hreport, List.countP_append,
      List.countP_singleton, if_pos hlast] at heach
    omega

lemma any_isFill_of_isLiveFill {evs : List (OrderEvent Spec)}
    (h : evs.any OrderEvent.isLiveFill) : evs.any OrderEvent.isFill := by
  obtain ⟨ev, hev, hlive⟩ := List.any_eq_true.1 h
  refine List.any_eq_true.2 ⟨ev, hev, ?_⟩
  cases ev with
  | report r => exact (Bool.and_eq_true_iff.1 hlive).1
  | _ => exact absurd hlive Bool.false_ne_true

lemma any_isFill_behindTheLast
    (h : (behindTheLast more).any OrderEvent.isLiveFill) : more.any OrderEvent.isFill := by
  obtain ⟨ev, hev, hfill⟩ := List.any_eq_true.1 (any_isFill_of_isLiveFill h)
  exact List.any_eq_true.2 ⟨ev, List.mem_reverse.1 ((List.takeWhile_subset _) hev), hfill⟩

lemma any_isFill_betweenTheLastTwo
    (h : (betweenTheLastTwo more).any OrderEvent.isLiveFill) : more.any OrderEvent.isFill := by
  obtain ⟨ev, hev, hfill⟩ := List.any_eq_true.1 (any_isFill_of_isLiveFill h)
  have hmem := List.dropWhile_subset _ (List.drop_subset _ _ (List.takeWhile_subset _ hev))
  exact List.any_eq_true.2 ⟨ev, List.mem_reverse.1 hmem, hfill⟩

/-- **Refused cancels put the order back exactly where `GoesBack` says.** -/
theorem putBack_iff (placing : Placing Spec)
    (recoverOrder : OrderReport → Option Order → Option Order) (id : OrderId)
    {e : OrderEntry Spec} {o : Order} (horder : e.order = some o)
    (hopen : o.status.isTerminal = false) (hmoved : o.status ≠ .pendingCancel)
    (hfilled : 0 ≤ o.filled) {more answers : List (OrderEvent Spec)}
    (hrefused : AllRefused more answers) :
    PutBack o.status (run (OrderEntry.step placing recoverOrder id) e
      (.cancel :: more ++ answers)) ↔ GoesBack o more answers := by
  have hstands : StandsAt e o.status o.filled e.beforeTheCancel := ⟨⟨o, horder, rfl, rfl⟩, rfl⟩
  obtain ⟨q, hsent, hq, hpos⟩ := hstands.sent placing recoverOrder id hopen hfilled hrefused.sent
  have hsplit : run (OrderEntry.step placing recoverOrder id) e (.cancel :: more ++ answers)
      = run (OrderEntry.step placing recoverOrder id)
        (run (OrderEntry.step placing recoverOrder id) e (.cancel :: more)) answers :=
    List.foldl_append
  have hleft : (if (behindTheLast more).any OrderEvent.isLiveFill then
        OrderStatus.partiallyFilled else .pendingCancel) = .pendingCancel ∨
      (if (behindTheLast more).any OrderEvent.isLiveFill then
        OrderStatus.partiallyFilled else .pendingCancel) = recomputed q := by
    split
    · next hlive => exact Or.inr (if_pos (hpos.2 (Or.inr (any_isFill_behindTheLast hlive)))).symm
    · exact Or.inl rfl
  rw [hsplit]
  by_cases hany : answers.any OrderEvent.isReportRefusal
  · obtain ⟨pre, r, hr, hpre, heq⟩ := exists_firstReport hany
    obtain ⟨post, hpost⟩ : ∃ post, behindTheFirstReport answers = post := ⟨_, rfl⟩
    rw [hpost] at heq
    have hanswered := hrefused.answered
    rw [heq, List.forall_mem_append, List.forall_mem_cons] at hanswered
    obtain ⟨q₁, hst₁, hq₁, hpos₁⟩ := StandsAt.answers placing recoverOrder id hanswered.1
      (Or.inr hpre) hsent hq hleft
    have hput := hst₁.reportRefusal recoverOrder hr
    rw [Option.getD_some] at hput
    have hfills : (pre ++ .report r :: post).any OrderEvent.isFill
        = (pre.any OrderEvent.isFill || post.any OrderEvent.isFill) := by
      rw [List.any_append, List.any_cons, OrderEvent.isFill, OrderReport.fills_of_refuses hr,
        Bool.false_or]
    have hfilledEnd (q₂ : Qty) (h : 0 < q₂ ↔ 0 < q₁ ∨ post.any OrderEvent.isFill) :
        0 < q₂ ↔ FilledMeanwhile o more (pre ++ .report r :: post) := by
      rw [h, hpos₁, hpos, FilledMeanwhile, hfills, Bool.or_eq_true, or_assoc, or_assoc]
    rw [GoesBack, hpost, and_iff_right hany, heq, Runs.run, List.foldl_append, List.foldl_cons]
    cases hmore : more.any OrderEvent.isCancel with
    | false =>
        -- one cancel: its report is the last of the answers
        rw [heq] at hrefused
        obtain rfl := hrefused.behind_eq_nil hr hmore
        rw [recordedAtLast, hmore, if_neg Bool.false_ne_true] at hput
        rw [if_neg Bool.false_ne_true, ← hfilledEnd q₁ (by simp)]
        exact hput.isPutBack_iff.trans (stood_eq_stoodWith hopen hmoved)
    | true =>
        rw [recordedAtLast, hmore, if_pos rfl] at hput
        rw [if_pos rfl]
        obtain ⟨q₂, hpos₂, hback⟩ := hput.putBack_several placing recoverOrder id hopen hmoved hq₁
          (fun hlive => hpos₁.2 (Or.inl (hpos.2 (Or.inr (any_isFill_betweenTheLastTwo hlive)))))
          hanswered.2.2
        rw [← hfilledEnd q₂ hpos₂]
        exact hback
  · -- no report: what is recorded stays
    refine iff_of_false ?_ fun h => hany h.1
    obtain ⟨q', hst, -⟩ := StandsAt.answers placing recoverOrder id hrefused.answered
      (Or.inr fun ev hev => Bool.eq_false_of_not_eq_true fun h =>
        hany (List.any_eq_true.2 ⟨ev, hev, h⟩)) hsent hq hleft
    exact fun h => Option.some_ne_none _ (hst.before.symm.trans h.1)

/-! ## Refused cancels of one order -/

def cancelRefusalOf5 : OrderEvent Unit := .report
  { name := some (67 :: chainName 5 0), ordStatus := "8", execType := "8" }

/-- An order of a hundred that stands at `status`. -/
def standingAt (status : OrderStatus) : OrderEntry Unit :=
  { order := some { restingOrder with status := status } }

/-- A fill between two cancels, the one refused by a cancel reject and the other by a report. -/
theorem putBack_iff_filled :
    PutBack .submitted (run (OrderEntry.step noPlacing (fun _ _ => none) 5) (standingAt .submitted)
      (.cancel :: [fillOf 0, .cancel] ++ [.cancelReject 1 none, cancelRefusalOf5])) :=
  (putBack_iff noPlacing (fun _ _ => none) 5 (o := restingOrder) rfl rfl (by decide) (by decide)
    (by decide)).2 (by decide)

/-- The cancels of order 5 are refused, each of them, and it is not put back where it stood. -/
def LeftElsewhere (stood : OrderStatus) (more answers : List (OrderEvent Unit)) : Prop :=
  AllRefused more answers ∧
    ¬ PutBack stood (run (OrderEntry.step noPlacing (fun _ _ => none) 5) (standingAt stood)
      (.cancel :: more ++ answers))

instance (stood : OrderStatus) (more answers : List (OrderEvent Unit)) :
    Decidable (LeftElsewhere stood more answers) := inferInstanceAs (Decidable (_ ∧ _))

/-- **Refusals that do not put the order back.**  A cancel reject of a held order's cancel; two
reports, of two cancels of a working order; a report, behind a fill. -/
theorem not_putBack :
    LeftElsewhere .preSubmitted [] [.cancelReject 1 none] ∧
      LeftElsewhere .submitted [.cancel] [cancelRefusalOf5, cancelRefusalOf5] ∧
      LeftElsewhere .submitted [] [fillOf 0, cancelRefusalOf5] := by
  decide

end IbkrDx
