import Mathlib.Algebra.Group.Nat.Defs
import Mathlib.Data.List.Count
import Mathlib.Data.List.Nodup
import IbkrDx.Lib.Runs

/-!
# Finished orders

What `bridge/orders.rs` keeps of the orders the venue has finished.  An order is its number under
the venue's own name for it, and the number is free again once the order is done.

* **`completions_filed_once`** — a run of such calls files each order once.
-/

namespace IbkrDx

def completedRetention : ℕ := 300 * 10 ^ 9

def completedMax : ℕ := 65536

def isOpenStatus (status : String) : Bool :=
  status ∈ ["ApiPending", "PendingSubmit", "PendingCancel", "PreSubmitted", "Submitted"]

def isOpenOrReactivatable (status completedStatus : String) : Bool :=
  isOpenStatus status || (status == "Inactive" && completedStatus == "")

/-- Whether an order has finished.  A refusal reads as inactive, and the completed status beside it
is what tells it from an order the venue merely holds. -/
def isTerminalStatus (status completedStatus : String) : Bool :=
  status ∈ ["Filled", "Cancelled", "Rejected", "ApiCancelled"] ||
    (status == "Inactive" && completedStatus != "")

/-- The enriched view of an order: what it stands at, and everything else stated of it. -/
structure RichOrderInfo (Terms : Type) where
  status : String
  completedStatus : String
  terms : Terms
  deriving DecidableEq

/-- A finished order, with the venue's own record of it or the one held under its number. -/
structure CompletedOrder (Terms : Type) where
  orderId : ℕ
  venueOrder : String
  timestampNs : ℕ
  stated : Option Terms
  held : Option (RichOrderInfo Terms)

abbrev OrderKey : Type := ℕ × String

def CompletedOrder.key {Terms : Type} (c : CompletedOrder Terms) : OrderKey :=
  (c.orderId, c.venueOrder)

structure Remembered where
  orderId : ℕ
  since : ℕ
  named : String
  deriving DecidableEq

structure Completions (Terms : Type) where
  completed : List Remembered := []
  queue : List (CompletedOrder Terms) := []
  orderCache : ℕ → Option (RichOrderInfo Terms) := fun _ => none
  corrections : List OrderKey := []

namespace Completions

variable {Terms : Type}

def remembered (s : Completions Terms) (orderId : ℕ) : Option String :=
  (s.completed.find? (·.orderId = orderId)).map (·.named)

/-- The venue's own name for the order that recently finished under a number. -/
def finishedUnder (s : Completions Terms) (now orderId : ℕ) : Option String :=
  ((s.completed.find? (·.orderId = orderId)).filter
    (now - ·.since < completedRetention)).map (·.named)

/-- The memory without its oldest entries, down to as many as it may hold. -/
def evictOldest (completed : List Remembered) : List Remembered :=
  let oldest := (completed.mergeSort fun a b => a.since ≤ b.since).take
    (completed.length - completedMax)
  completed.filter fun r => r.orderId ∉ oldest.map (·.orderId)

/-- Remember that an order finished, and keep that memory bounded. -/
def rememberCompleted (now orderId : ℕ) (venueOrder : String) (completed : List Remembered) :
    List Remembered :=
  let held := ⟨orderId, now, venueOrder⟩ :: completed.filter (·.orderId ≠ orderId)
  let young := if completedMax < held.length then
    held.filter (now - ·.since < completedRetention) else held
  if completedMax < young.length then evictOldest young else young

/-- File a completion once.  The queue drops the completions its window no longer covers. -/
def pushCompletedOrder (s : Completions Terms) (now window : ℕ) (order : CompletedOrder Terms) :
    Completions Terms :=
  let completed := rememberCompleted now order.orderId order.venueOrder s.completed
  if s.finishedUnder now order.orderId = some order.venueOrder then
    { s with completed := completed }
  else
    { s with
      completed := completed
      queue := (s.queue.filter fun held => held.timestampNs = 0 ∨ window ≤ held.timestampNs)
        ++ [order] }

/-- A completion as it is taken: with the record under its number, where it carries none. -/
def taken (s : Completions Terms) (order : CompletedOrder Terms) : CompletedOrder Terms :=
  if order.stated.isNone ∧ order.held.isNone then
    { order with held := s.orderCache order.orderId }
  else order

def drainCompletedOrders (s : Completions Terms) :
    List (CompletedOrder Terms) × Completions Terms :=
  (s.queue.map s.taken, { s with queue := [] })

/-- Cache the view of an order.  One that has finished is not returned to a working status. -/
def pushOrderInfo (s : Completions Terms) (now orderId : ℕ) (info : RichOrderInfo Terms) :
    Completions Terms :=
  if isOpenStatus info.status ∧ ((s.finishedUnder now orderId).isSome ∨
      (s.orderCache orderId).any fun e => isTerminalStatus e.status e.completedStatus) then s
  else { s with orderCache := Function.update s.orderCache orderId (some info) }

def pushOrderCorrection (s : Completions Terms) (orderId : ℕ) (venueOrder : String)
    (info : RichOrderInfo Terms) : Completions Terms where
  completed := s.completed.filter (·.orderId ≠ orderId)
  queue := s.queue.filter fun c => c.orderId ≠ orderId ∨ c.venueOrder ≠ venueOrder
  orderCache := Function.update s.orderCache orderId (some info)
  corrections := s.corrections ++ [(orderId, venueOrder)]

def noteOrderFinished (s : Completions Terms) (orderId : ℕ) (status completedStatus : String) :
    Completions Terms :=
  match s.orderCache orderId with
  | none => s
  | some info =>
      { s with
        orderCache := Function.update s.orderCache orderId (some
          { info with
            status := status
            completedStatus :=
              if completedStatus = "" then info.completedStatus else completedStatus }) }

/-- The completions, the first of an order that carries no record given one. -/
def holdFirst (orderId : ℕ) (named : String) (finished : RichOrderInfo Terms) :
    List (CompletedOrder Terms) → List (CompletedOrder Terms)
  | [] => []
  | waiting :: queue =>
      if waiting.orderId = orderId ∧ waiting.venueOrder = named ∧ waiting.stated.isNone ∧
          waiting.held.isNone then
        { waiting with held := some finished } :: queue
      else waiting :: holdFirst orderId named finished queue

/-- The venue is working another order under a number an order finished under: the finished
order's record goes with its completion. -/
def numberTakenByAnotherOrder (s : Completions Terms) (orderId : ℕ) : Completions Terms :=
  match s.remembered orderId with
  | none => s
  | some named =>
      let forgot := { s with completed := s.completed.filter (·.orderId ≠ orderId) }
      match (s.orderCache orderId).filter fun row =>
          isTerminalStatus row.status row.completedStatus with
      | none => forgot
      | some finished =>
          { forgot with
            queue := holdFirst orderId named finished s.queue
            orderCache := Function.update s.orderCache orderId none }

/-- Free a delivered completion, unless the order is working again. -/
def removeCompletedOrderInfo (s : Completions Terms) (orderId : ℕ) : Completions Terms :=
  if (s.orderCache orderId).any fun info => isOpenOrReactivatable info.status info.completedStatus
  then s
  else { s with orderCache := Function.update s.orderCache orderId none }

end Completions

/-! ## One call after another -/

/-- A call on the book of orders; `now` is when it is made. -/
inductive CompletionCall (Terms : Type) where
  | info (now orderId : ℕ) (info : RichOrderInfo Terms)
  | finished (orderId : ℕ) (status completedStatus : String)
  | completed (now window : ℕ) (order : CompletedOrder Terms)
  | correction (orderId : ℕ) (venueOrder : String) (info : RichOrderInfo Terms)
  | numberTaken (orderId : ℕ)
  | removed (orderId : ℕ)
  | drained

/-- What is kept, the orders filed and the orders delivered since each was last taken back. -/
structure Watched (Terms : Type) where
  book : Completions Terms := {}
  filed : List OrderKey := []
  told : List OrderKey := []

namespace Watched

variable {Terms : Type}

def step (w : Watched Terms) : CompletionCall Terms → Watched Terms
  | .info now orderId info => { w with book := w.book.pushOrderInfo now orderId info }
  | .finished orderId status completedStatus =>
      { w with book := w.book.noteOrderFinished orderId status completedStatus }
  | .completed now window order =>
      { w with
        book := w.book.pushCompletedOrder now window order
        filed := order.key :: w.filed }
  | .correction orderId venueOrder info =>
      { book := w.book.pushOrderCorrection orderId venueOrder info
        filed := w.filed.filter (· ≠ (orderId, venueOrder))
        told := w.told.filter (· ≠ (orderId, venueOrder)) }
  | .numberTaken orderId => { w with book := w.book.numberTakenByAnotherOrder orderId }
  | .removed orderId => { w with book := w.book.removeCompletedOrderInfo orderId }
  | .drained =>
      { w with
        book := w.book.drainCompletedOrders.2
        told := w.told ++ w.book.drainCompletedOrders.1.map CompletedOrder.key }

end Watched

/-- What is asked of a correction: it withdraws the completion of its own order and the memory of
that, and leaves what is kept of every other. -/
structure TakenBackAlone {Terms : Type} (book book' : Completions Terms) (key : OrderKey) :
    Prop where
  queue : book'.queue = book.queue.filter (·.key ≠ key)
  forgotten : book'.remembered key.1 ≠ some key.2
  others : ∀ orderId named, book.remembered orderId = some named → (orderId, named) ≠ key →
    book'.remembered orderId = some named

structure FiledOnce {Terms : Type} (w : Watched Terms) (e : CompletionCall Terms) : Prop where
  /-- No order has been delivered twice since it was last taken back. -/
  once : ∀ key, (w.step e).told.count key ≤ 1
  /-- No order remembered as finished is cached as working, but by its own correction or where its
  number is taken. -/
  closed : ∀ orderId named, w.book.remembered orderId = some named → e ≠ .numberTaken orderId →
    (∀ info, e ≠ .correction orderId named info) →
    (w.step e).book.orderCache orderId = w.book.orderCache orderId ∨
      ∀ row, (w.step e).book.orderCache orderId = some row → isOpenStatus row.status = false
  alone : ∀ orderId venueOrder info, e = .correction orderId venueOrder info →
    TakenBackAlone w.book (w.step e).book (orderId, venueOrder)

/-- Every completion is remembered for as long as it may be and below the cap, and the status an
order is noted to have finished on is none of a working order. -/
def Remembering {Terms : Type} (w : Watched Terms) : CompletionCall Terms → Prop
  | .info now _ _ => ∀ r ∈ w.book.completed, now - r.since < completedRetention
  | .completed now _ _ => (∀ r ∈ w.book.completed, now - r.since < completedRetention) ∧
      w.book.completed.length < completedMax
  | .finished _ status _ => isOpenStatus status = false
  | _ => True

/-- **The condition.**  A completion of an order filed already finds that order remembered under its
number, and a correction finds no other. -/
def FindsItsOwn {Terms : Type} (w : Watched Terms) : CompletionCall Terms → Prop
  | .completed _ _ order =>
      order.key ∈ w.filed → w.book.remembered order.orderId = some order.venueOrder
  | .correction orderId venueOrder _ =>
      w.book.remembered orderId = none ∨ w.book.remembered orderId = some venueOrder
  | _ => True

/-! ## What the calls keep -/

namespace Completions

variable {Terms : Type}

lemma finishedUnder_eq {s : Completions Terms} {now : ℕ}
    (h : ∀ r ∈ s.completed, now - r.since < completedRetention) (orderId : ℕ) :
    s.finishedUnder now orderId = s.remembered orderId := by
  rw [finishedUnder, remembered]
  cases hfound : s.completed.find? (·.orderId = orderId) with
  | none => rfl
  | some r =>
      have hyoung := h r (List.mem_of_find?_eq_some hfound)
      rw [Option.filter_some, if_pos (decide_eq_true hyoung)]

lemma remembered_filter (s : Completions Terms) {completed : List Remembered} {orderId : ℕ}
    (h : completed = s.completed.filter (·.orderId ≠ orderId)) (n : ℕ) :
    (completed.find? (·.orderId = n)).map (·.named)
      = if n = orderId then none else s.remembered n := by
  subst h
  rw [List.find?_filter, remembered]
  split_ifs with hn
  · subst hn
    rw [Option.map_eq_none_iff, List.find?_eq_none]
    intro r _
    simp
  · congr 2
    funext r
    by_cases hr : r.orderId = n
    · simp [hr, hn]
    · simp [hr]

lemma map_key_holdFirst (orderId : ℕ) (named : String) (finished : RichOrderInfo Terms)
    (queue : List (CompletedOrder Terms)) :
    (holdFirst orderId named finished queue).map CompletedOrder.key
      = queue.map CompletedOrder.key := by
  induction queue with
  | nil => rfl
  | cons waiting queue ih =>
      rw [holdFirst]
      split_ifs
      · rfl
      · rw [List.map_cons, ih, List.map_cons]

lemma key_taken (s : Completions Terms) (order : CompletedOrder Terms) :
    (s.taken order).key = order.key := by
  rw [taken]
  split_ifs <;> rfl

lemma keys_drained (s : Completions Terms) :
    s.drainCompletedOrders.1.map CompletedOrder.key = s.queue.map CompletedOrder.key := by
  rw [drainCompletedOrders, List.map_map]
  exact List.map_congr_left fun order _ => s.key_taken order

lemma queue_numberTaken (s : Completions Terms) (orderId : ℕ) :
    (s.numberTakenByAnotherOrder orderId).queue.map CompletedOrder.key
      = s.queue.map CompletedOrder.key := by
  unfold numberTakenByAnotherOrder
  split
  · rfl
  · split
    · rfl
    · exact map_key_holdFirst _ _ _ _

lemma keys_correction (s : Completions Terms) (orderId : ℕ) (venueOrder : String)
    (info : RichOrderInfo Terms) :
    (s.pushOrderCorrection orderId venueOrder info).queue
      = s.queue.filter (·.key ≠ (orderId, venueOrder)) := by
  refine List.filter_congr fun c _ => ?_
  simp only [CompletedOrder.key, ne_eq, Prod.mk.injEq, not_and_or]

end Completions

open Completions

namespace Watched

variable {Terms : Type}

/-- Each order stands once among those waiting and those delivered, and all of them were filed. -/
structure Apiece (w : Watched Terms) : Prop where
  nodup : (w.book.queue.map CompletedOrder.key ++ w.told).Nodup
  filed : ∀ key ∈ w.book.queue.map CompletedOrder.key ++ w.told, key ∈ w.filed

variable {w : Watched Terms}

lemma Apiece.same {w' : Watched Terms} (h : w.Apiece)
    (hqueue : w'.book.queue.map CompletedOrder.key = w.book.queue.map CompletedOrder.key)
    (htold : w'.told = w.told) (hfiled : w'.filed = w.filed) : w'.Apiece := by
  refine ⟨?_, ?_⟩
  · rw [hqueue, htold]
    exact h.nodup
  · rw [hqueue, htold, hfiled]
    exact h.filed

lemma Apiece.completed (h : w.Apiece) {now window : ℕ}
    {order : CompletedOrder Terms}
    (hown : order.key ∈ w.filed → w.book.finishedUnder now order.orderId = some order.venueOrder) :
    (w.step (.completed now window order)).Apiece := by
  by_cases halready : w.book.finishedUnder now order.orderId = some order.venueOrder
  · have hqueue : (w.book.pushCompletedOrder now window order).queue = w.book.queue := by
      simp only [pushCompletedOrder, if_pos halready]
    refine ⟨?_, ?_⟩
    · simp only [step, hqueue]
      exact h.nodup
    · simp only [step, hqueue]
      exact fun key hkey => List.mem_cons_of_mem _ (h.filed key hkey)
  · have hnew : order.key ∉ w.filed := fun hfiled => halready (hown hfiled)
    have hqueue : (w.book.pushCompletedOrder now window order).queue
        = (w.book.queue.filter fun held => held.timestampNs = 0 ∨ window ≤ held.timestampNs)
          ++ [order] := by
      simp only [pushCompletedOrder, if_neg halready]
    have hsub : ((w.book.queue.filter fun held => held.timestampNs = 0 ∨
        window ≤ held.timestampNs).map CompletedOrder.key ++ w.told).Sublist
        (w.book.queue.map CompletedOrder.key ++ w.told) :=
      ((List.filter_sublist).map _).append_right _
    have hperm (waiting : List (CompletedOrder Terms)) :
        ((waiting ++ [order]).map CompletedOrder.key ++ w.told).Perm
          (order.key :: (waiting.map CompletedOrder.key ++ w.told)) := by
      rw [List.map_append, List.map_singleton, List.append_assoc]
      exact List.perm_middle
    refine ⟨?_, ?_⟩
    · simp only [step, hqueue]
      refine (hperm _).nodup_iff.2 (List.nodup_cons.2 ⟨?_, h.nodup.sublist hsub⟩)
      exact fun hmem => hnew (h.filed _ (hsub.subset hmem))
    · simp only [step, hqueue]
      intro key hkey
      rcases List.mem_cons.1 ((hperm _).mem_iff.1 hkey) with rfl | hkey
      · exact List.mem_cons_self
      · exact List.mem_cons_of_mem _ (h.filed key (hsub.subset hkey))

lemma Apiece.correction (h : w.Apiece) (orderId : ℕ) (venueOrder : String)
    (info : RichOrderInfo Terms) : (w.step (.correction orderId venueOrder info)).Apiece := by
  have hkeys : (w.book.queue.filter (·.key ≠ (orderId, venueOrder))).map CompletedOrder.key
      ++ w.told.filter (· ≠ (orderId, venueOrder))
      = (w.book.queue.map CompletedOrder.key ++ w.told).filter (· ≠ (orderId, venueOrder)) := by
    rw [List.filter_append, List.filter_map]
    rfl
  refine ⟨?_, ?_⟩
  · simp only [step, keys_correction]
    rw [hkeys]
    exact h.nodup.filter _
  · simp only [step, keys_correction]
    rw [hkeys]
    intro key hkey
    obtain ⟨hmem, hne⟩ := List.mem_filter.1 hkey
    exact List.mem_filter.2 ⟨h.filed key hmem, hne⟩

lemma Apiece.drained (h : w.Apiece) : (w.step .drained).Apiece := by
  have hperm : (w.told ++ w.book.queue.map CompletedOrder.key).Perm
      (w.book.queue.map CompletedOrder.key ++ w.told) := List.perm_append_comm
  have htold : (w.step .drained).told = w.told ++ w.book.queue.map CompletedOrder.key := by
    rw [← keys_drained]
    rfl
  have hqueue : (w.step .drained).book.queue.map CompletedOrder.key = [] := rfl
  refine ⟨?_, ?_⟩
  · rw [hqueue, htold, List.nil_append]
    exact hperm.nodup_iff.2 h.nodup
  · rw [hqueue, htold, List.nil_append]
    exact fun key hkey => h.filed key (hperm.mem_iff.1 hkey)

lemma Apiece.step {e : CompletionCall Terms} (h : w.Apiece)
    (hyoung : Remembering w e) (hown : FindsItsOwn w e) : (w.step e).Apiece := by
  cases e with
  | info now orderId info =>
      refine h.same ?_ rfl rfl
      simp only [Watched.step, pushOrderInfo]
      split_ifs <;> rfl
  | finished orderId status completedStatus =>
      refine h.same ?_ rfl rfl
      simp only [Watched.step, noteOrderFinished]
      cases w.book.orderCache orderId <;> rfl
  | completed now window order =>
      refine h.completed fun hfiled => ?_
      rw [finishedUnder_eq hyoung.1]
      exact hown hfiled
  | correction orderId venueOrder info => exact h.correction orderId venueOrder info
  | numberTaken orderId => exact h.same (w.book.queue_numberTaken orderId) rfl rfl
  | removed orderId =>
      refine h.same ?_ rfl rfl
      simp only [Watched.step, removeCompletedOrderInfo]
      split_ifs <;> rfl
  | drained => exact h.drained

/-! ## What a call does -/

lemma closed_of {e : CompletionCall Terms} (hyoung : Remembering w e)
    (hown : FindsItsOwn w e) {orderId : ℕ} {named : String}
    (hremembered : w.book.remembered orderId = some named) (htaken : e ≠ .numberTaken orderId)
    (hcorrection : ∀ info, e ≠ .correction orderId named info) :
    (w.step e).book.orderCache orderId = w.book.orderCache orderId ∨
      ∀ row, (w.step e).book.orderCache orderId = some row → isOpenStatus row.status = false := by
  have hother {n : ℕ} {row : Option (RichOrderInfo Terms)} (hn : orderId ≠ n) :
      Function.update w.book.orderCache n row orderId = w.book.orderCache orderId :=
    Function.update_of_ne hn _ _
  cases e with
  | info now n info =>
      simp only [Watched.step, pushOrderInfo]
      split_ifs with hopen
      · exact Or.inl rfl
      · rcases eq_or_ne orderId n with rfl | hn
        · refine Or.inr fun row hrow => ?_
          have hnews : (w.book.finishedUnder now orderId).isSome := by
            rw [finishedUnder_eq hyoung, hremembered]
            rfl
          simp only [Function.update_self, Option.some.injEq] at hrow
          rw [← hrow]
          exact Bool.eq_false_iff.2 fun h => hopen ⟨h, Or.inl hnews⟩
        · exact Or.inl (hother hn)
  | finished n status completedStatus =>
      simp only [Watched.step, noteOrderFinished]
      rcases hrow : w.book.orderCache n with _ | info
      · exact Or.inl rfl
      · rcases eq_or_ne orderId n with rfl | hn
        · refine Or.inr fun row hrow => ?_
          simp only [Function.update_self, Option.some.injEq] at hrow
          rw [← hrow]
          exact hyoung
        · exact Or.inl (hother hn)
  | completed now window order =>
      left
      simp only [Watched.step, pushCompletedOrder]
      split_ifs <;> rfl
  | correction n venueOrder info =>
      rcases eq_or_ne orderId n with rfl | hn
      · rcases hown with hnone | hsame
        · rw [hremembered] at hnone
          cases hnone
        · rw [hremembered, Option.some.injEq] at hsame
          subst hsame
          exact absurd rfl (hcorrection info)
      · exact Or.inl (hother hn)
  | numberTaken n =>
      have hn : orderId ≠ n := fun h => htaken (h ▸ rfl)
      left
      simp only [Watched.step, numberTakenByAnotherOrder]
      split
      · rfl
      · split
        · rfl
        · exact hother hn
  | removed n =>
      rcases eq_or_ne orderId n with rfl | hn
      · simp only [Watched.step, removeCompletedOrderInfo]
        split_ifs
        · exact Or.inl rfl
        · refine Or.inr fun row hrow => ?_
          simp only [Function.update_self] at hrow
          cases hrow
      · left
        simp only [Watched.step, removeCompletedOrderInfo]
        split_ifs
        · rfl
        · exact hother hn
  | drained => exact Or.inl rfl

lemma takenBackAlone {book : Completions Terms} {orderId : ℕ} {venueOrder : String}
    (hown : book.remembered orderId = none ∨ book.remembered orderId = some venueOrder)
    (info : RichOrderInfo Terms) :
    TakenBackAlone book (book.pushOrderCorrection orderId venueOrder info)
      (orderId, venueOrder) := by
  have hmemory (n : ℕ) : (book.pushOrderCorrection orderId venueOrder info).remembered n
      = if n = orderId then none else book.remembered n :=
    book.remembered_filter rfl n
  refine ⟨keys_correction _ _ _ _, ?_, fun n named hremembered hne => ?_⟩
  · rw [hmemory, if_pos rfl]
    exact Option.some_ne_none _ |>.symm
  · rw [hmemory]
    split_ifs with hn
    · subst hn
      rcases hown with hnone | hsame
      · rw [hremembered] at hnone
        cases hnone
      · rw [hremembered, Option.some.injEq] at hsame
        exact absurd (by rw [hsame]) hne
    · exact hremembered

end Watched

open Watched

/-- **Each order is filed once.**  In a run whose completions find the order they repeat still
remembered under its number, and whose corrections find no other order remembered there, every
order is delivered at most once between two of its corrections, none remembered as finished is
written down as working, and a correction takes back its own order alone. -/
theorem completions_filed_once {Terms : Type} (es : List (CompletionCall Terms))
    (hrun : Runs.Along Watched.step (fun w e => Remembering w e ∧ FindsItsOwn w e) {} es) :
    Runs.Along Watched.step FiledOnce ({} : Watched Terms) es := by
  have hstep : ∀ (w : Watched Terms) (e : CompletionCall Terms), w.Apiece →
      Remembering w e ∧ FindsItsOwn w e → (w.step e).Apiece :=
    fun w e h he => h.step he.1 he.2
  have hstart : ({} : Watched Terms).Apiece :=
    ⟨List.nodup_nil, fun _ hkey => absurd hkey List.not_mem_nil⟩
  refine hrun.mono hstep (fun w e h he => ?_) hstart
  have htold : (w.step e).told.Nodup := (h.step he.1 he.2).nodup.of_append_right
  exact
    { once := List.nodup_iff_count_le_one.1 htold
      closed := fun _ _ => closed_of he.1 he.2
      alone := by
        rintro orderId venueOrder info rfl
        exact takenBackAlone he.2 info }

instance {Terms : Type} (w : Watched Terms) : DecidablePred (Remembering w)
  | .info now _ _ =>
      inferInstanceAs (Decidable (∀ r ∈ w.book.completed, now - r.since < completedRetention))
  | .completed now _ _ =>
      inferInstanceAs (Decidable ((∀ r ∈ w.book.completed, now - r.since < completedRetention) ∧
        w.book.completed.length < completedMax))
  | .finished _ status _ => inferInstanceAs (Decidable (isOpenStatus status = false))
  | .correction _ _ _ => inferInstanceAs (Decidable True)
  | .numberTaken _ => inferInstanceAs (Decidable True)
  | .removed _ => inferInstanceAs (Decidable True)
  | .drained => inferInstanceAs (Decidable True)

instance {Terms : Type} (w : Watched Terms) : DecidablePred (FindsItsOwn w)
  | .completed _ _ order => inferInstanceAs (Decidable
      (order.key ∈ w.filed → w.book.remembered order.orderId = some order.venueOrder))
  | .correction orderId venueOrder _ => inferInstanceAs (Decidable
      (w.book.remembered orderId = none ∨ w.book.remembered orderId = some venueOrder))
  | .info _ _ _ => inferInstanceAs (Decidable True)
  | .finished _ _ _ => inferInstanceAs (Decidable True)
  | .numberTaken _ => inferInstanceAs (Decidable True)
  | .removed _ => inferInstanceAs (Decidable True)
  | .drained => inferInstanceAs (Decidable True)

def finishedAs (venueOrder : String) : CompletedOrder ℕ := ⟨7, venueOrder, 0, none, none⟩

/-- Two orders under number 7: the first repeated, the second taken back and finished again. -/
def finishedTwice : List (CompletionCall ℕ) :=
  [.info 0 7 ⟨"Submitted", "", 1⟩, .finished 7 "Filled" "Filled", .completed 1 0 (finishedAs "a"),
    .completed 2 0 (finishedAs "a"), .info 2 7 ⟨"Submitted", "", 1⟩, .drained, .numberTaken 7,
    .info 3 7 ⟨"Submitted", "", 2⟩, .completed 4 0 (finishedAs "b"),
    .correction 7 "b" ⟨"Submitted", "", 3⟩, .completed 5 0 (finishedAs "b"), .drained, .removed 7]

theorem completions_filed_once_two :
    Runs.Along Watched.step FiledOnce ({} : Watched ℕ) finishedTwice :=
  completions_filed_once finishedTwice (by decide)

/-- The first of two orders under number 7 is reported finished again behind the second. -/
def repeatedBehind : List (CompletionCall ℕ) :=
  [.completed 1 0 (finishedAs "a"), .completed 2 0 (finishedAs "b"),
    .completed 3 0 (finishedAs "a"), .drained]

/-- The first of two orders under number 7 is taken back behind the second. -/
def takenBackBehind : List (CompletionCall ℕ) :=
  [.completed 1 0 (finishedAs "a"), .completed 2 0 (finishedAs "b"),
    .correction 7 "a" ⟨"Submitted", "", 1⟩]

/-- **Two names under one number.**  The memory holds one name to a number: an order whose report is
repeated behind another order's is delivered twice, and one taken back behind another takes the
memory of that one with it. -/
theorem completion_filed_twice :
    (Runs.Along Watched.step Remembering ({} : Watched ℕ) repeatedBehind ∧
      ¬ Runs.Along Watched.step FiledOnce ({} : Watched ℕ) repeatedBehind) ∧
    Runs.Along Watched.step Remembering ({} : Watched ℕ) takenBackBehind ∧
      ¬ Runs.Along Watched.step FiledOnce ({} : Watched ℕ) takenBackBehind := by
  refine ⟨⟨by decide, ?_⟩, by decide, ?_⟩
  · rintro ⟨-, -, -, hlast, -⟩
    exact absurd (hlast.once (7, "a")) (by decide)
  · rintro ⟨-, -, hlast, -⟩
    have hforgotten := (hlast.alone 7 "a" _ rfl).others 7 "b" (by decide)
      (by decide)
    exact absurd hforgotten (by decide)

end IbkrDx
