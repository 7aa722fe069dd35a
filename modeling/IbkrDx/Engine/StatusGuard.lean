import IbkrDx.Engine.RevisionRefusals

/-!
# What reports may move, over a whole run

The guard of `Context::update_order_status` on a book of any number of orders, while the snapshots
kept against refusals come and go.

* **`status_only_progresses`** — every report of a run moves its own order's state, and that only as
  `Progress` says; an order that is over stays as it is.
-/

namespace IbkrDx

open Runs

variable {Spec : Type}

inductive BookEvent (Spec : Type) where
  /-- `update_order_status`. -/
  | report (id : OrderId) (status : OrderStatus) (replayed : Bool)
  | snapshots (id : OrderId) (kept : List (ℕ × Snapshot Spec))

def TrackedOrders.step (t : TrackedOrders Spec) : BookEvent Spec → TrackedOrders Spec
  | .report id status replayed => t.modifyAt id fun e => (e.updateOrderStatus status replayed).1
  | .snapshots id kept => t.modifyAt id fun e => { e with preReplace := kept }

/-- **Where a report may move an order** that stands at `prev`, to stand at `next`. -/
structure Progress (prev next status : OrderStatus) (replayed awaiting : Bool) : Prop where
  final : prev.isTerminal = true → next = prev
  /-- The rank falls from an outstanding cancel to a working state alone, and not by a replay. -/
  rank : next.rank < prev.rank → prev = .pendingCancel ∧ replayed = false ∧
    (next = .preSubmitted ∨ next = .submitted)
  /-- A replay that ends nothing leaves an outstanding cancel. -/
  replay : prev = .pendingCancel → replayed = true → status.isTerminal = false → next = prev
  /-- A rejection leaves an outstanding cancel while a revision awaits its answer. -/
  owed : prev = .pendingCancel → status = .rejected → awaiting = true → next = prev

lemma Progress.refl (prev status : OrderStatus) (replayed awaiting : Bool) :
    Progress prev prev status replayed awaiting where
  final _ := rfl
  rank h := absurd h (lt_irrefl _)
  replay _ _ _ := rfl
  owed _ _ _ := rfl

lemma progress_of_guarded {prev status : OrderStatus} {replayed awaiting : Bool}
    (h : guarded prev status replayed awaiting = true) :
    Progress prev status status replayed awaiting where
  final hover := by
    rw [guarded_of_isTerminal hover] at h
    exact absurd h Bool.false_ne_true
  rank hlt := by
    have hprev : prev = .pendingCancel := by
      by_contra hne
      exact absurd (rank_le_of_guarded h hne) (Nat.not_le_of_lt hlt)
    subst hprev
    cases status <;> cases replayed <;> simp_all [guarded, OrderStatus.rank, OrderStatus.isTerminal]
  replay hprev hreplayed hopen := by
    subst hprev hreplayed
    simp [guarded, hopen] at h
  owed hprev hstatus hawaiting := by
    subst hprev hstatus hawaiting
    cases replayed <;> simp [guarded, OrderStatus.isTerminal] at h

/-! ## One order's entry -/

/-- Two records of one order, of which only the state may differ. -/
def StateAlone (o o' : Order) : Prop := o' = { o with status := o'.status }

lemma StateAlone.refl (o : Order) : StateAlone o o := rfl

lemma StateAlone.trans {o o' o'' : Order} (h : StateAlone o o') (h' : StateAlone o' o'') : StateAlone o o'' := by
  rw [StateAlone, h', h]

lemma updateOrderStatus_progress (e : OrderEntry Spec) {o : Order} (ho : e.order = some o)
    (status : OrderStatus) (replayed : Bool) :
    ∃ next, (e.updateOrderStatus status replayed).1
        = { e with order := some { o with status := next } } ∧
      Progress o.status next status replayed e.replaceIsOutstanding := by
  simp only [OrderEntry.updateOrderStatus, ho]
  split
  · next hguard => exact ⟨status, rfl, progress_of_guarded hguard⟩
  · exact ⟨o.status, by rw [← ho], .refl _ _ _ _⟩

lemma updateOrderStatus_of_none (e : OrderEntry Spec) (ho : e.order = none) (status : OrderStatus)
    (replayed : Bool) : (e.updateOrderStatus status replayed).1 = e := by
  simp only [OrderEntry.updateOrderStatus, ho]

/-! ## A run -/

def TrackedOrders.Progresses (t : TrackedOrders Spec) : BookEvent Spec → Prop
  | .report id status replayed =>
      match (t.entries id).order with
      | none => t.step (.report id status replayed) = t
      | some o => ∃ next, t.step (.report id status replayed)
          = t.modifyAt id (fun e => { e with order := some { o with status := next } }) ∧
        Progress o.status next status replayed (t.entries id).replaceIsOutstanding
  | .snapshots _ _ => True

lemma TrackedOrders.progresses (t : TrackedOrders Spec) (ev : BookEvent Spec) :
    t.Progresses ev := by
  cases ev with
  | snapshots id kept => trivial
  | report id status replayed =>
      simp only [TrackedOrders.Progresses]
      split
      · next ho =>
          exact TrackedOrders.modifyAt_of_eq (f := fun e => (e.updateOrderStatus status replayed).1)
            (updateOrderStatus_of_none _ ho status replayed)
      · next o ho =>
          obtain ⟨next, heq, hprogress⟩ := updateOrderStatus_progress _ ho status replayed
          refine ⟨next, ?_, hprogress⟩
          rw [TrackedOrders.step, TrackedOrders.modifyAt, heq]
          rfl

lemma TrackedOrders.keeps_step (t : TrackedOrders Spec) (ev : BookEvent Spec) {id : OrderId}
    {o : Order} (ho : (t.entries id).order = some o) :
    ∃ o', ((t.step ev).entries id).order = some o' ∧ StateAlone o o' ∧
      (o.status.isTerminal = true → o' = o) := by
  have hat (j : OrderId) (f : OrderEntry Spec → OrderEntry Spec)
      (hf : ∃ o', (f (t.entries id)).order = some o' ∧ StateAlone o o' ∧
        (o.status.isTerminal = true → o' = o)) :
      ∃ o', ((t.modifyAt j f).entries id).order = some o' ∧ StateAlone o o' ∧
        (o.status.isTerminal = true → o' = o) := by
    rw [TrackedOrders.modifyAt_entries]
    rcases eq_or_ne id j with rfl | hne
    · rwa [Function.update_self]
    · rw [Function.update_of_ne hne]
      exact ⟨o, ho, .refl o, fun _ => rfl⟩
  cases ev with
  | snapshots j kept =>
      exact hat j (fun e => { e with preReplace := kept }) ⟨o, ho, .refl o, fun _ => rfl⟩
  | report j status replayed =>
      refine hat j (fun e => (e.updateOrderStatus status replayed).1) ?_
      obtain ⟨next, heq, hprogress⟩ := updateOrderStatus_progress _ ho status replayed
      refine ⟨{ o with status := next }, by rw [heq], rfl, fun hover => ?_⟩
      rw [hprogress.final hover]

/-- **The guard admits only progress.**  Along every run each report moves the state of its own
order and nothing else, as `Progress` says; and by the end every record is the one there was but for
its state, and an order that is over is as it was. -/
theorem status_only_progresses (t : TrackedOrders Spec) (evs : List (BookEvent Spec)) :
    Along TrackedOrders.step TrackedOrders.Progresses t evs ∧
      ∀ id o, (t.entries id).order = some o →
        ∃ o', ((run TrackedOrders.step t evs).entries id).order = some o' ∧ StateAlone o o' ∧
          (o.status.isTerminal = true → o' = o) := by
  refine ⟨Along.of_forall TrackedOrders.progresses t evs, ?_⟩
  induction evs generalizing t with
  | nil => exact fun id o ho => ⟨o, ho, .refl o, fun _ => rfl⟩
  | cons ev evs ih =>
      intro id o ho
      obtain ⟨o₁, ho₁, hkeeps₁, hfinal₁⟩ := t.keeps_step ev ho
      obtain ⟨o₂, ho₂, hkeeps₂, hfinal₂⟩ := ih (t.step ev) id o₁ ho₁
      refine ⟨o₂, ho₂, hkeeps₁.trans hkeeps₂, fun hover => ?_⟩
      rw [hfinal₁ hover] at hfinal₂
      exact (hfinal₂ hover).trans rfl

end IbkrDx
