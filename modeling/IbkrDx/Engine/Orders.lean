import IbkrDx.Engine.Quantities
import IbkrDx.Protocol.Fix

/-!
# Orders and where they stand

The record the engine keeps of an order, from `types/orders.rs` and `context/mod.rs`, the ranks its
states advance by, and the names an order goes to the venue under.

* `OrderStatus.rank` — what a stale report is told by.
* `statusOf` — the state a report states.
* `guarded` — what a report may move, from `Context::update_order_status`.
* `chainName`, `revisionOf` — the name of a revision, and the revision a name states.
* `revisionOf_chainName` — a revision reads back from its own name.
-/

namespace IbkrDx

/-! ## States -/

inductive OrderStatus where
  | pendingSubmit
  | preSubmitted
  | submitted
  | pendingCancel
  | pendingReplace
  | filled
  | partiallyFilled
  | cancelled
  | rejected
  | inactive
  | apiCancelled
  | uncertain
  deriving DecidableEq

/-- How far along an order's life a state is. -/
def OrderStatus.rank : OrderStatus → ℕ
  | uncertain => 0
  | pendingSubmit => 1
  | preSubmitted => 2
  | submitted | pendingReplace | inactive => 3
  | pendingCancel | partiallyFilled => 4
  | filled | cancelled | rejected | apiCancelled => 5

def OrderStatus.isTerminal : OrderStatus → Bool
  | filled | cancelled | rejected | apiCancelled => true
  | _ => false

/-- The state a report states by its tag 39.  `routed` is whether the report names a destination or
an exec reference beside it (tags 100 and 198). -/
def statusOf (ordStatus : String) (routed : Bool) : OrderStatus :=
  match ordStatus with
  | "0" => if routed then .submitted else .preSubmitted
  | "5" => .submitted
  | "A" | "6" | "E" => .preSubmitted
  | "1" => .partiallyFilled
  | "2" => .filled
  | "4" | "C" => .cancelled
  | "D" => .pendingCancel
  | "8" => .rejected
  | "I" => .inactive
  | _ => .uncertain

/-- Whether a report stating `status` moves an order that stands at `prev`.  `replayed` is whether
the report restates history, `replaceOutstanding` whether a replace of the order awaits its
answer. -/
def guarded (prev status : OrderStatus) (replayed replaceOutstanding : Bool) : Bool :=
  let resumesWorking := !replayed && prev == .pendingCancel
    && (status == .preSubmitted || status == .submitted)
  let cancelStillOwed := prev == .pendingCancel && status == .rejected && replaceOutstanding
  let replayLeavesTheCancel := replayed && prev == .pendingCancel && !status.isTerminal
  resumesWorking || !(replayLeavesTheCancel || cancelStillOwed || prev.isTerminal
    || decide (status.rank < prev.rank))

/-! ## The record of an order -/

/-- The record the engine keeps of an order it tracks. -/
structure Order where
  instrument : InstrumentId
  side : Side
  qty : Qty
  price : ℤ
  /-- The tag 40 letter, or one of the discriminants below it. -/
  ordType : UInt8
  tif : UInt8
  stopPrice : ℤ
  filled : Qty
  status : OrderStatus
  deriving DecidableEq

/-- What a replace changes of an order, and a refusal puts back. -/
structure Terms where
  qty : Qty
  price : ℤ
  ordType : UInt8
  tif : UInt8
  stopPrice : ℤ

def Order.terms (o : Order) : Terms := ⟨o.qty, o.price, o.ordType, o.tif, o.stopPrice⟩

/-! ## Names -/

/-- The name a revision goes out under: the order's number, a dot, the revision. -/
def chainName (orderId : OrderId) (revision : ℕ) : Bytes :=
  Decimal.text orderId ++ 46 :: Decimal.text revision

/-- The bound a revision's number stays below, being a `u32`. -/
def revisionLimit : ℕ := 2 ^ 32

def afterLastDot (name : Bytes) : Option Bytes :=
  if 46 ∈ name then some (name.reverse.takeWhile (· ≠ 46)).reverse else none

/-- The revision a name states: the number behind its last dot, or nought. -/
def revisionOf (name : Bytes) : ℕ :=
  ((afterLastDot name).bind (Decimal.parse revisionLimit)).getD 0

lemma afterLastDot_append {t : Bytes} (ht : 46 ∉ t) (p : Bytes) :
    afterLastDot (p ++ 46 :: t) = some t := by
  have hall : ∀ b ∈ t.reverse, decide (b ≠ 46) = true := fun b hb =>
    decide_eq_true fun heq => ht (heq ▸ List.mem_reverse.1 hb)
  have htake : ((p ++ 46 :: t).reverse).takeWhile (fun b => decide (b ≠ 46)) = t.reverse := by
    rw [List.reverse_append, List.reverse_cons, List.append_assoc,
      List.takeWhile_append_of_pos hall]
    simp
  rw [afterLastDot, if_pos (by simp), htake, List.reverse_reverse]

@[simp]
lemma revisionOf_chainName (orderId : OrderId) {revision : ℕ} (h : revision < revisionLimit) :
    revisionOf (chainName orderId revision) = revision := by
  rw [revisionOf, chainName, afterLastDot_append (Decimal.not_mem_text (by decide) _)]
  simp [Decimal.parse_text h]

/-! ## The guard -/

lemma rank_le_of_guarded {prev status : OrderStatus} {replayed owed : Bool}
    (h : guarded prev status replayed owed = true) (hprev : prev ≠ .pendingCancel) :
    prev.rank ≤ status.rank := by
  simp [guarded, hprev] at h
  exact h.2

lemma guarded_of_isTerminal {prev : OrderStatus} (h : prev.isTerminal = true)
    (status : OrderStatus) (replayed owed : Bool) :
    guarded prev status replayed owed = false := by
  have hprev : prev ≠ .pendingCancel := by rintro rfl; exact absurd h (by decide)
  simp [guarded, h, hprev]

end IbkrDx
