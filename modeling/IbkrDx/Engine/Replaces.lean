import IbkrDx.Engine.Revisions
import IbkrDx.Lib.Attempts
import IbkrDx.Lib.Runs

/-!
# What the venue holds, after its answers

The record of an order with revisions in flight is a value shown ahead of its answers: what the
context keeps of the order's terms, its name and its snapshots is an `Attempts.Register`, each
replace an attempt, each acceptance and each refusal the answer to one.

* **`replaces_converge`** — with every revision answered, the order is what the venue holds.
-/

namespace IbkrDx

open Attempts Runs

variable {Spec : Type}

/-! ## What an event answers -/

def OrderReport.ordinary (r : OrderReport) : Bool :=
  !(r.refuses && (r.namesACancel || r.namesAnOriginal))

def OrderEvent.refusal (e : OrderEntry Spec) : OrderEvent Spec → Option ℕ
  | .report r =>
      if r.normalised.refuses && !r.normalised.namesACancel && r.normalised.namesAnOriginal then
        some r.normalised.refusedRevision
      else none
  | .cancelReject rejectType name =>
      if rejectType = 2 then some (name.elim (e.modifyVersion.getD 0) revisionOf) else none
  | _ => none

def OrderEvent.acceptance (e : OrderEntry Spec) : OrderEvent Spec → Option ℕ
  | .report r =>
      if r.normalised.ordinary && r.normalised.isReplaceAck e then
        some (r.normalised.reportedRevision e)
      else none
  | _ => none

def OrderEvent.names (e : OrderEntry Spec) : OrderEvent Spec → Option Bytes
  | .report r =>
      if r.normalised.ordinary && e.order.isSome then r.normalised.recordedName else none
  | _ => none

def OrderEvent.recovers (e : OrderEntry Spec) : OrderEvent Spec → Bool
  | .report r => r.normalised.recovering e
  | _ => false

def OrderEvent.books : OrderEvent Spec → Qty
  | .report r => if r.normalised.ordinary then r.normalised.booked else 0
  | _ => 0

/-- What a run has stated and heard.  Revision `first` of an account stands for the order as it
was before any of the run's own. -/
structure Account where
  value : ℕ → Terms × Bytes
  issued : ℕ
  answered : Finset ℕ
  booked : Qty

section

variable (placing : Placing Spec) (recoverOrder : OrderReport → Option Order → Option Order)
variable (id : OrderId)

def OrderEvent.sends (e : OrderEntry Spec) : OrderEvent Spec → Option Replace
  | .modify req => (IbkrDx.modify placing id req e).2.toOption
  | _ => none

def Account.after (a : Account) (e : OrderEntry Spec) (ev : OrderEvent Spec) : Account :=
  let answered := a.answered ∪ (ev.refusal e).toFinset ∪ (ev.acceptance e).toFinset
  let booked := a.booked + ev.books
  match ev with
  | .modify req =>
      match modify placing id req e with
      | (sent, .ok _) =>
          { value := match sent.order with
              | some o => Function.update a.value (a.issued + 1) (o.terms, sent.wireName id)
              | none => a.value
            issued := a.issued + 1
            answered := answered
            booked := booked }
      | (_, .error _) => { a with answered := answered, booked := booked }
  | _ => { a with answered := answered, booked := booked }

structure Followed (Spec : Type) where
  entry : OrderEntry Spec
  account : Account

def Followed.step (s : Followed Spec) (ev : OrderEvent Spec) : Followed Spec where
  entry := s.entry.step placing recoverOrder id ev
  account := s.account.after placing id s.entry ev

/-- **What the venue may answer.**  It accepts a revision only where it accepted the one it was
chained on, it answers revisions that were sent, each the way it decides them, and what is booked
stays a quantity.  The order is held throughout: the venue names none anew. -/
structure Lawful (accepted : ℕ → Bool) (first : ℕ) (e : OrderEntry Spec) (a : Account)
    (ev : OrderEvent Spec) : Prop where
  chained : ∀ sent ∈ ev.sends placing id e, accepted (a.issued + 1) = true →
    first < revisionOf sent.origClord → accepted (revisionOf sent.origClord) = true
  accepts : ∀ v ∈ ev.acceptance e, v ≤ a.issued ∧ (first < v → accepted v = true)
  refuses : ∀ v ∈ ev.refusal e, v ≤ a.issued ∧ (first < v → accepted v = false)
  booked : 0 ≤ a.booked + ev.books ∧ a.booked + ev.books ≤ qtyMax
  held : ev.recovers e = false

/-- **A report names the order by the name it stands recorded under, or a lower revision.** -/
def NamesStand (e : OrderEntry Spec) (ev : OrderEvent Spec) : Prop :=
  ∀ raw ∈ ev.names e, raw = e.wireName id ∨ revisionOf raw < revisionOf (e.wireName id)

instance (accepted : ℕ → Bool) (first : ℕ) (e : OrderEntry Spec) (a : Account)
    (ev : OrderEvent Spec) : Decidable (Lawful placing id accepted first e a ev) :=
  decidable_of_iff
    ((∀ sent ∈ ev.sends placing id e, accepted (a.issued + 1) = true →
        first < revisionOf sent.origClord → accepted (revisionOf sent.origClord) = true) ∧
      (∀ v ∈ ev.acceptance e, v ≤ a.issued ∧ (first < v → accepted v = true)) ∧
      (∀ v ∈ ev.refusal e, v ≤ a.issued ∧ (first < v → accepted v = false)) ∧
      (0 ≤ a.booked + ev.books ∧ a.booked + ev.books ≤ qtyMax) ∧ ev.recovers e = false)
    ⟨fun ⟨h₁, h₂, h₃, h₄, h₅⟩ => ⟨h₁, h₂, h₃, h₄, h₅⟩,
      fun h => ⟨h.chained, h.accepts, h.refuses, h.booked, h.held⟩⟩

instance (e : OrderEntry Spec) (ev : OrderEvent Spec) : Decidable (NamesStand id e ev) :=
  inferInstanceAs (Decidable (∀ raw ∈ ev.names e,
    raw = e.wireName id ∨ revisionOf raw < revisionOf (e.wireName id)))

end

/-- An order no revision is in flight for, `first` of which were issued. -/
structure Rests (id : OrderId) (first : ℕ) (e : OrderEntry Spec) (o : Order) : Prop where
  order : e.order = some o
  version : e.modifyVersion = some first
  limit : first < revisionLimit
  kept : e.preReplace = []
  named : revisionOf (e.wireName id) ≤ first
  unnamed : e.lastClord = none → first = 0
  filled : 0 ≤ o.filled

def Followed.start (id : OrderId) (first : ℕ) (e : OrderEntry Spec) (o : Order) : Followed Spec where
  entry := e
  account := ⟨fun _ => (o.terms, e.wireName id), first, ∅, o.filled⟩

def Snapshot.entry (s : ℕ × Snapshot Spec) : ℕ × (Terms × Bytes) :=
  (s.1, (s.2.record.terms, s.2.name))

/-- The entry holds a record, and with its name and its snapshots that is a register. -/
structure Reads (id : OrderId) (e : OrderEntry Spec) (r : Register (Terms × Bytes)) (n : ℕ)
    (q : Qty) : Prop where
  order : ∃ o, e.order = some o ∧ o.terms = r.shown.1 ∧ o.filled = q
  name : e.wireName id = r.shown.2
  kept : e.preReplace.map Snapshot.entry = r.kept
  version : e.modifyVersion = some n
  unnamed : e.lastClord = none → n = 0

/-- The entry holds no record, and nothing is kept for one. -/
def Over (e : OrderEntry Spec) : Prop := e.order = none ∧ e.preReplace = []

namespace Reads

variable {id : OrderId} {e : OrderEntry Spec} {r : Register (Terms × Bytes)} {n : ℕ} {q : Qty}

lemma setOrderStatusForced (h : Reads id e r n q) (status : OrderStatus) :
    Reads id (e.setOrderStatusForced status) r n q := by
  obtain ⟨o, ho, ht, hq⟩ := h.order
  exact ⟨⟨{ o with status := status }, by simp [OrderEntry.setOrderStatusForced, ho], ht, hq⟩,
    h.name, h.kept, h.version, h.unnamed⟩

lemma updateOrderStatus (h : Reads id e r n q) (status : OrderStatus) (replayed : Bool) :
    Reads id (e.updateOrderStatus status replayed).1 r n q := by
  obtain ⟨o, ho, ht, hq⟩ := h.order
  rw [OrderEntry.updateOrderStatus, ho]
  dsimp only
  split
  · exact ⟨⟨{ o with status := status }, rfl, ht, hq⟩, h.name, h.kept, h.version, h.unnamed⟩
  · exact h

lemma applyStatus (h : Reads id e r n q) (status : OrderStatus) (acknowledges resend : Bool) :
    Reads id (applyStatus status acknowledges resend e) r n q := by
  unfold IbkrDx.applyStatus
  split
  · exact h.setOrderStatusForced status
  · exact h.updateOrderStatus status resend

lemma beforeTheCancel (h : Reads id e r n q) (stood : Option OrderStatus) :
    Reads id { e with beforeTheCancel := stood } r n q :=
  ⟨h.order, h.name, h.kept, h.version, h.unnamed⟩

lemma synthesizePendingCancel (h : Reads id e r n q) :
    Reads id (synthesizePendingCancel e) r n q := by
  have hmoved := (h.beforeTheCancel none).updateOrderStatus .pendingCancel false
  unfold IbkrDx.synthesizePendingCancel
  dsimp only
  split
  · next moved heq =>
      rw [heq] at hmoved
      exact hmoved.beforeTheCancel _
  · exact h.beforeTheCancel none

lemma adjustOrderFilled (h : Reads id e r n q) (delta : Qty) :
    Reads id (e.adjustOrderFilled delta) r n (max (q.saturatingAdd delta) 0) := by
  obtain ⟨o, ho, ht, hq⟩ := h.order
  exact ⟨⟨{ o with filled := max (o.filled.saturatingAdd delta) 0 },
    by simp [OrderEntry.adjustOrderFilled, ho], ht, by rw [hq]⟩,
    h.name, h.kept, h.version, h.unnamed⟩

lemma noteVenueOrder (h : Reads id e r n q) (rep : OrderReport) :
    Reads id (noteVenueOrder rep e) r n q := ⟨h.order, h.name, h.kept, h.version, h.unnamed⟩

lemma recordName (h : Reads id e r n q) (hn : n < revisionLimit) {rep : OrderReport}
    (hname : ∀ raw, rep.recordedName = some raw →
      raw = e.wireName id ∨ revisionOf raw < revisionOf (e.wireName id)) :
    Reads id (recordName rep false e) r n q := by
  unfold IbkrDx.recordName
  split
  · exact h
  · next raw hraw =>
      rw [if_neg (by simp)]
      split_ifs with hrec
      · have hwire : raw = e.wireName id := by
          refine (hname raw hraw).resolve_right fun hlt => ?_
          simp only [Bool.false_or, Bool.and_eq_true] at hrec
          cases hl : e.lastClord with
          | none =>
              rw [OrderEntry.wireName, hl, Option.getD_none, h.version, Option.getD_some,
                revisionOf_chainName _ hn, h.unnamed hl] at hlt
              exact absurd hlt (by omega)
          | some held =>
              rw [hl, Option.all_some, decide_eq_true_eq] at hrec
              rw [OrderEntry.wireName, hl, Option.getD_some] at hlt
              exact absurd hrec.2 (by omega)
        exact ⟨h.order, by rw [← h.name, ← hwire]; rfl, h.kept, h.version, fun hl =>
          absurd hl (by simp)⟩
      · exact h

lemma map_filter_entry (l : List (ℕ × Snapshot Spec)) (p : ℕ → Bool) :
    (l.filter fun s => p s.1).map Snapshot.entry
      = (l.map Snapshot.entry).filter fun k => p k.1 := by
  rw [List.filter_map]
  rfl

lemma noteReplaceAck (h : Reads id e r n q) (v : ℕ) :
    Reads id (noteReplaceAck v e) (r.accept v) n q := by
  refine ⟨h.order, h.name, ?_, h.version, h.unnamed⟩
  show List.map Snapshot.entry _ = List.filter _ r.kept
  rw [← h.kept, ← map_filter_entry e.preReplace fun k => decide (v < k), IbkrDx.noteReplaceAck,
    List.filter_filter]
  congr 1
  refine List.filter_congr fun s _ => ?_
  by_cases hs : v < s.1 <;> simp [hs]
  omega

lemma lookup_entry (l : List (ℕ × Snapshot Spec)) (v : ℕ) :
    (l.map Snapshot.entry).lookup v
      = (l.lookup v).map fun s => (s.record.terms, s.name) := by
  induction l with
  | nil => rfl
  | cons s l ih =>
      rw [List.map_cons, Snapshot.entry, List.lookup_cons, List.lookup_cons, ih]
      split <;> rfl

lemma restorePreReplace (h : Reads id e r n q) (v : ℕ) :
    Reads id (e.restorePreReplace v) (r.refuse v) n q := by
  have hlook := lookup_entry e.preReplace v
  rw [h.kept] at hlook
  unfold OrderEntry.restorePreReplace Register.refuse
  cases hv : e.preReplace.lookup v with
  | none =>
      rw [hv, Option.map_none] at hlook
      simpa only [hlook] using h
  | some prior =>
      rw [hv, Option.map_some] at hlook
      obtain ⟨o, ho, -, hq⟩ := h.order
      simp only [hlook]
      refine ⟨⟨OrderEntry.restored prior.record e.order, rfl, ?_, ?_⟩, rfl, ?_, ?_, ?_⟩
      · rw [OrderEntry.restored_terms]
      · rw [ho, OrderEntry.restored_filled, hq]
      · show List.map Snapshot.entry _ = _
        rw [← h.kept, ← map_filter_entry e.preReplace fun k => decide (k < v), List.filter_filter]
        congr 1
        refine List.filter_congr fun s _ => ?_
        by_cases hs : s.1 < v <;> simp [hs] <;> omega
      · show some (e.modifyVersion.getD 0) = some n
        rw [h.version, Option.getD_some]
      · exact fun hl => absurd hl (by simp)

lemma modify (h : Reads id e r n q) (hkeys : ∀ k ∈ r.kept, k.1 ≤ n) (placing : Placing Spec)
    (req : ModifyRequest Spec) :
    (∃ e' o, modify placing id req e = (e', .ok ⟨chainName id (n + 1), e.wireName id⟩) ∧
        n + 1 < revisionLimit ∧ e'.order = some o ∧ e'.wireName id = chainName id (n + 1) ∧
        Reads id e' (r.attempt (n + 1) (o.terms, chainName id (n + 1))) (n + 1) q) ∨
      ∃ e' refusal, modify placing id req e = (e', .error refusal) ∧ Reads id e' r n q := by
  obtain ⟨orig, ho, ht, hq⟩ := h.order
  have hfresh : (e.preReplace.filter fun s => s.1 ≠ n + 1) = e.preReplace := by
    refine List.filter_eq_self.2 fun s hs => decide_eq_true ?_
    have := hkeys (Snapshot.entry s) (h.kept ▸ List.mem_map_of_mem hs)
    simp only [Snapshot.entry] at this
    omega
  have hname : e.lastClord.getD (chainName id n) = e.wireName id := by
    rw [OrderEntry.wireName, h.version, Option.getD_some]
  have hmerged : ∀ spec, Reads id
      { e with order := some orig, modifyVersion := some n, submitted := spec } r n q :=
    fun spec => ⟨⟨orig, rfl, ht, hq⟩, hname.trans h.name, h.kept, rfl, h.unnamed⟩
  unfold IbkrDx.modify
  simp only [ho, h.version, Option.getD_some, hfresh, hname]
  split_ifs with hplaced hver
  · exact Or.inr ⟨_, _, rfl, hmerged _⟩
  · refine Or.inl ⟨_, _, rfl, hver, rfl, rfl, ⟨_, rfl, rfl, hq⟩, rfl, ?_, rfl, fun hl =>
      absurd hl (by simp)⟩
    rw [List.map_cons, h.kept, Snapshot.entry, h.name, ht]
    rfl
  · exact Or.inr ⟨_, _, rfl, hmerged _⟩

lemma takeReport (h : Reads id e r n q) (hn : n < revisionLimit)
    (recoverOrder : OrderReport → Option Order → Option Order) {rep : OrderReport}
    (hheld : rep.recovering e = false)
    (hname : ∀ raw, rep.recordedName = some raw →
      raw = e.wireName id ∨ revisionOf raw < revisionOf (e.wireName id)) :
    Over (takeReport recoverOrder rep e) ∨
      Reads id (takeReport recoverOrder rep e)
        (if rep.isReplaceAck e then r.accept (rep.reportedRevision e) else r) n
        (max (q.saturatingAdd rep.booked) 0) := by
  have hnamed : Reads id (IbkrDx.recordName rep false (IbkrDx.noteVenueOrder rep e)) r n q :=
    (h.noteVenueOrder rep).recordName hn hname
  have hrev : rep.reportedRevision (IbkrDx.recordName rep false (IbkrDx.noteVenueOrder rep e))
      = rep.reportedRevision e := by
    rw [OrderReport.reportedRevision, OrderReport.reportedRevision, hnamed.version, h.version]
  have hanswered : Reads id
      (if rep.isReplaceAck e then IbkrDx.noteReplaceAck (rep.reportedRevision e)
        (IbkrDx.recordName rep false (IbkrDx.noteVenueOrder rep e))
        else IbkrDx.recordName rep false (IbkrDx.noteVenueOrder rep e))
      (if rep.isReplaceAck e then r.accept (rep.reportedRevision e) else r) n q := by
    split_ifs
    · exact hnamed.noteReplaceAck _
    · exact hnamed
  have hbooked := (hanswered.applyStatus (rep.status e) (rep.acknowledgesAChange e)
    rep.resend).adjustOrderFilled rep.booked
  unfold IbkrDx.takeReport
  simp only [hheld, hrev]
  by_cases hfin : rep.finishes e = true
  · rw [if_pos hfin]
    rcases finish_cases (rep.status e) _ with hsame | hretired
    · rw [hsame]
      exact Or.inr hbooked
    · rw [hretired]
      exact Or.inl ⟨rfl, rfl⟩
  · rw [if_neg hfin]
    exact Or.inr hbooked

end Reads

/-! ## An order that is over -/

namespace Over

variable {e : OrderEntry Spec}

lemma updateOrderStatus (h : Over e) (status : OrderStatus) (replayed : Bool) :
    e.updateOrderStatus status replayed = (e, false) := by
  rw [OrderEntry.updateOrderStatus, h.1]

lemma setOrderStatusForced (h : Over e) (status : OrderStatus) :
    Over (e.setOrderStatusForced status) :=
  ⟨by rw [OrderEntry.setOrderStatusForced, h.1, Option.map_none], h.2⟩

lemma restorePreReplace (h : Over e) (v : ℕ) : e.restorePreReplace v = e := by
  rw [OrderEntry.restorePreReplace, h.2, List.lookup_nil]

lemma noteVenueOrder (h : Over e) (r : OrderReport) : Over (noteVenueOrder r e) := ⟨h.1, h.2⟩

lemma recordName (h : Over e) (r : OrderReport) : Over (recordName r false e) := by
  unfold IbkrDx.recordName
  split
  · exact h
  · rw [if_neg (by simp)]
    split_ifs
    · exact h
    · exact h

lemma takeReport (h : Over e) (recoverOrder : OrderReport → Option Order → Option Order)
    {r : OrderReport} (hheld : r.recovering e = false) : Over (takeReport recoverOrder r e) := by
  have hnamed : Over (IbkrDx.recordName r false (IbkrDx.noteVenueOrder r e)) :=
    (h.noteVenueOrder r).recordName r
  have hacked : ∀ v, Over (IbkrDx.noteReplaceAck v
      (IbkrDx.recordName r false (IbkrDx.noteVenueOrder r e))) :=
    fun v => ⟨hnamed.1, by rw [noteReplaceAck, hnamed.2]; rfl⟩
  have hmoved : ∀ {e' : OrderEntry Spec}, Over e' → ∀ acknowledges,
      Over (IbkrDx.applyStatus (r.status e) acknowledges r.resend e') := by
    intro e' h' acknowledges
    unfold applyStatus
    split
    · exact h'.setOrderStatusForced _
    · rw [h'.updateOrderStatus]
      exact h'
  have hbooked : ∀ {e' : OrderEntry Spec}, Over e' → Over (e'.adjustOrderFilled r.booked) :=
    fun h' => ⟨by rw [OrderEntry.adjustOrderFilled, h'.1, Option.map_none], h'.2⟩
  have hlast : Over (OrderEntry.adjustOrderFilled r.booked
      (IbkrDx.applyStatus (r.status e) (r.acknowledgesAChange e) r.resend
        (if r.isReplaceAck e then IbkrDx.noteReplaceAck
          (r.reportedRevision (IbkrDx.recordName r false (IbkrDx.noteVenueOrder r e)))
          (IbkrDx.recordName r false (IbkrDx.noteVenueOrder r e))
          else IbkrDx.recordName r false (IbkrDx.noteVenueOrder r e)))) := by
    refine hbooked (hmoved ?_ _)
    split_ifs
    · exact hacked _
    · exact hnamed
  unfold IbkrDx.takeReport
  simp only [hheld]
  by_cases hfin : r.finishes e = true
  · rw [if_pos hfin]
    rcases finish_cases (r.status e) _ with hsame | hretired
    · rw [hsame]
      exact hlast
    · rw [hretired]
      exact ⟨rfl, rfl⟩
  · rw [if_neg hfin]
    exact hlast

lemma step (h : Over e) (placing : Placing Spec)
    (recoverOrder : OrderReport → Option Order → Option Order) (id : OrderId)
    {ev : OrderEvent Spec} (hheld : ev.recovers e = false) :
    Over (e.step placing recoverOrder id ev) := by
  cases ev with
  | modify req =>
      show Over (modify placing id req e).1
      rw [modify, h.1]
      exact h
  | cancel =>
      have hclear : Over { e with beforeTheCancel := none } := h
      show Over (synthesizePendingCancel e)
      rw [synthesizePendingCancel, hclear.updateOrderStatus]
      exact h
  | report r =>
      show Over (handleExecReport recoverOrder r e)
      unfold handleExecReport
      dsimp only
      split_ifs
      · split
        · exact h
        · exact setOrderStatusForced h _
      · rw [h.restorePreReplace]
        exact h
      · exact h.takeReport recoverOrder hheld
  | cancelReject rejectType name =>
      show Over (handleCancelReject rejectType name e)
      have hsame : (if rejectType = 2 then e.restorePreReplace (name.elim
          (e.modifyVersion.getD 0) revisionOf) else e) = e := by
        split_ifs
        · exact h.restorePreReplace _
        · rfl
      unfold handleCancelReject
      simp only [hsame, h.1]
      exact h

end Over

variable {e : OrderEntry Spec}

/-- **What a refusal leaves alone.**  What has filled, and a state the order has reached that
outranks the one it had, other than being replaced. -/
theorem restorePreReplace_leaves {c o : Order} {v : ℕ}
    (hc : e.order = some c) (ho : (e.restorePreReplace v).order = some o) :
    o.filled = c.filled ∧ (c.status ≠ .pendingReplace → c.status.rank ≤ o.status.rank) := by
  unfold OrderEntry.restorePreReplace at ho
  cases hv : e.preReplace.lookup v with
  | none =>
      rw [hv, hc] at ho
      cases ho
      exact ⟨rfl, fun _ => le_rfl⟩
  | some prior =>
      rw [hv] at ho
      change some (OrderEntry.restored prior.record e.order) = some o at ho
      rw [hc, Option.some.injEq] at ho
      rw [← ho]
      exact ⟨OrderEntry.restored_filled _ _, OrderEntry.rank_le_restored _⟩

/-! ## The order and its account -/

def verdict (accepted : ℕ → Bool) (first v : ℕ) : Prop := first < v → accepted v = true

structure InFlight (accepted : ℕ → Bool) (first : ℕ) (id : OrderId) (e : OrderEntry Spec) (a : Account)
    (fs : List (Frame (Terms × Bytes))) : Prop where
  reads : Reads id e (register (a.value first) fs) a.issued a.booked
  stands : Stands (verdict accepted first) first a.issued a.value fs
  first_le : first ≤ a.issued
  limit : a.issued < revisionLimit
  names : ∀ v, first < v → v ≤ a.issued → (a.value v).2 = chainName id v
  original : revisionOf (a.value first).2 ≤ first
  owed : ∀ f ∈ fs, f.owed = true → f.number ∉ a.answered
  answered : ∀ v ∈ a.answered, v ≤ a.issued

namespace InFlight

variable {accepted : ℕ → Bool} {first : ℕ} {id : OrderId} {e e' : OrderEntry Spec} {a : Account}
  {fs : List (Frame (Terms × Bytes))}

lemma booked (h : InFlight accepted first id e a fs) {q : Qty}
    (hreads : Reads id e' (register (a.value first) fs) a.issued q) :
    InFlight accepted first id e' { a with answered := a.answered ∪ ∅ ∪ ∅, booked := q } fs := by
  simp only [Finset.union_empty]
  exact ⟨hreads, h.stands, h.first_le, h.limit, h.names, h.original, h.owed, h.answered⟩

lemma quiet (h : InFlight accepted first id e a fs)
    (hreads : Reads id e' (register (a.value first) fs) a.issued a.booked) :
    InFlight accepted first id e' { a with answered := a.answered ∪ ∅ ∪ ∅, booked := a.booked + 0 }
      fs := h.booked (by rwa [add_zero])

lemma accept (h : InFlight accepted first id e a fs) {v : ℕ} {q : Qty} (hv : v ≤ a.issued)
    (hok : first < v → accepted v = true)
    (hreads : Reads id e' ((register (a.value first) fs).accept v) a.issued q) :
    InFlight accepted first id e' { a with answered := a.answered ∪ ∅ ∪ {v}, booked := q }
      (settle v fs) where
  reads := by rw [register_settle]; exact hreads
  stands := h.stands.settle hok hv
  first_le := h.first_le
  limit := h.limit
  names := h.names
  original := h.original
  owed := by
    intro f hf ho
    obtain ⟨hlt, hmem⟩ := Stands.owed_of_mem_settle hf ho
    have hnot := h.owed f hmem ho
    simp only [Finset.union_empty, Finset.mem_union, Finset.mem_singleton]
    rintro (hans | heq)
    · exact hnot hans
    · omega
  answered := by
    intro w hw
    simp only [Finset.union_empty, Finset.mem_union, Finset.mem_singleton] at hw
    rcases hw with hw | rfl
    · exact h.answered w hw
    · exact hv

lemma refuse (h : InFlight accepted first id e a fs) {v : ℕ} (hv : v ≤ a.issued)
    (hok : first < v → accepted v = false)
    (hreads : Reads id e' ((register (a.value first) fs).refuse v) a.issued a.booked) :
    InFlight accepted first id e'
      { a with answered := a.answered ∪ {v} ∪ ∅, booked := a.booked + 0 } (undo v fs) where
  reads := by
    rw [register_undo _ _ h.stands.descending]
    simpa only [add_zero] using hreads
  stands := by
    rcases Nat.lt_or_ge first v with hlt | hge
    · refine h.stands.undo fun hacc => ?_
      rw [verdict, hok hlt] at hacc
      exact absurd (hacc hlt) (by simp)
    · rw [h.stands.undo_eq_self hge]
      exact h.stands
  first_le := h.first_le
  limit := h.limit
  names := h.names
  original := h.original
  owed := by
    intro f hf ho
    obtain ⟨hne, hmem⟩ := Stands.owed_of_mem_undo hf ho
    have hnot := h.owed f hmem ho
    simp only [Finset.union_empty, Finset.mem_union, Finset.mem_singleton]
    rintro (hans | heq)
    · exact hnot hans
    · exact hne heq
  answered := by
    intro w hw
    simp only [Finset.union_empty, Finset.mem_union, Finset.mem_singleton] at hw
    rcases hw with hw | rfl
    · exact h.answered w hw
    · exact hv

lemma revisionOf_wireName (h : InFlight accepted first id e a fs) :
    fs = [] ∧ revisionOf (e.wireName id) ≤ first ∨
      revisionOf (e.wireName id) = topNumber first fs := by
  have hname := h.reads.name
  cases fs with
  | nil =>
      refine Or.inl ⟨rfl, ?_⟩
      rw [hname]
      exact h.original
  | cons f rest =>
      refine Or.inr ?_
      have hb := h.stands.bounds f List.mem_cons_self
      have hshown : (register (a.value first) (f :: rest)).shown = a.value f.number :=
        h.stands.values f List.mem_cons_self
      rw [hname, hshown, h.names _ hb.1 hb.2,
        revisionOf_chainName _ (hb.2.trans_lt h.limit)]
      rfl

lemma attempt (h : InFlight accepted first id e a fs) {o : Order}
    (hlimit : a.issued + 1 < revisionLimit)
    (hchain : accepted (a.issued + 1) = true → first < revisionOf (e.wireName id) →
      accepted (revisionOf (e.wireName id)) = true)
    (hreads : Reads id e' ((register (a.value first) fs).attempt (a.issued + 1)
      (o.terms, chainName id (a.issued + 1))) (a.issued + 1) a.booked) :
    InFlight accepted first id e'
      { value := Function.update a.value (a.issued + 1) (o.terms, chainName id (a.issued + 1))
        issued := a.issued + 1
        answered := a.answered ∪ ∅ ∪ ∅
        booked := a.booked + 0 }
      (push (a.issued + 1) (o.terms, chainName id (a.issued + 1)) fs) := by
  have hfirst := h.first_le
  have hsame : Function.update a.value (a.issued + 1) (o.terms, chainName id (a.issued + 1)) first
      = a.value first := Function.update_of_ne (by omega) _ _
  constructor
  case reads =>
    simp only [hsame, add_zero]
    exact hreads
  case stands =>
    refine h.stands.push _ (fun hok htop => ?_) hfirst
    rcases h.revisionOf_wireName with ⟨rfl, -⟩ | hrev
    · exact absurd htop (lt_irrefl _)
    · rw [← hrev] at htop ⊢
      exact hchain (hok (by omega)) htop
  case first_le => exact hfirst.trans (Nat.le_succ _)
  case limit => exact hlimit
  case names =>
    intro v hv hv'
    dsimp only at hv' ⊢
    rcases Nat.lt_or_ge a.issued v with hlt | hge
    · obtain rfl : v = a.issued + 1 := by omega
      rw [Function.update_self]
    · rw [Function.update_of_ne (by omega)]
      exact h.names v hv hge
  case original =>
    dsimp only
    rw [hsame]
    exact h.original
  case owed =>
    intro f hf ho
    simp only [Finset.union_empty]
    rcases List.mem_cons.1 hf with rfl | hf
    · exact fun hans => absurd (h.answered _ hans) (by simp)
    · exact h.owed f hf ho
  case answered =>
    intro v hv
    simp only [Finset.union_empty] at hv
    exact (h.answered v hv).trans (Nat.le_succ _)

lemma keys (h : InFlight accepted first id e a fs) :
    ∀ k ∈ (register (a.value first) fs).kept, k.1 ≤ a.issued := by
  intro k hk
  obtain ⟨f, hf, hn, -⟩ := mem_fallbacks hk
  exact hn ▸ (h.stands.bounds f hf).2

end InFlight

/-! ## Runs -/

variable {placing : Placing Spec} {recoverOrder : OrderReport → Option Order → Option Order}
variable {accepted : ℕ → Bool} {first : ℕ} {id : OrderId}

lemma OrderReport.ordinary_cases (r : OrderReport) :
    r.refuses = true ∧ r.namesACancel = true ∨
      r.refuses = true ∧ r.namesACancel = false ∧ r.namesAnOriginal = true ∨
        r.ordinary = true := by
  unfold ordinary
  cases r.refuses <;> cases r.namesACancel <;> cases r.namesAnOriginal <;> simp

lemma Account.after_of_answer {a : Account} {ev : OrderEvent Spec}
    (hev : ∀ req, ev ≠ .modify req) : a.after placing id e ev =
      { a with
        answered := a.answered ∪ (ev.refusal e).toFinset ∪ (ev.acceptance e).toFinset
        booked := a.booked + ev.books } := by
  cases ev with
  | modify req => exact absurd rfl (hev req)
  | cancel => rfl
  | report r => rfl
  | cancelReject rejectType name => rfl

namespace InFlight

variable {e : OrderEntry Spec} {a : Account} {fs : List (Frame (Terms × Bytes))}

lemma step_modify (h : InFlight accepted first id e a fs) {req : ModifyRequest Spec}
    (hlaw : Lawful placing id accepted first e a (.modify req)) :
    ∃ fs', InFlight accepted first id (modify placing id req e).1
      (a.after placing id e (.modify req)) fs' := by
  rcases h.reads.modify h.keys placing req with
    ⟨e', o, heq, hlimit, horder, hwire, hreads⟩ | ⟨e', refusal, heq, hreads⟩
  · have hafter : a.after placing id e (.modify req) =
        { value := Function.update a.value (a.issued + 1) (o.terms, chainName id (a.issued + 1))
          issued := a.issued + 1
          answered := a.answered ∪ ∅ ∪ ∅
          booked := a.booked + 0 } := by
      unfold Account.after
      simp only [heq, horder, hwire]
      rfl
    have hsends : (OrderEvent.modify req).sends placing id e
        = some ⟨chainName id (a.issued + 1), e.wireName id⟩ := by
      rw [OrderEvent.sends, heq]
      rfl
    rw [heq, hafter]
    exact ⟨_, h.attempt hlimit (hlaw.chained _ hsends) hreads⟩
  · have hafter : a.after placing id e (.modify req) =
        { a with answered := a.answered ∪ ∅ ∪ ∅, booked := a.booked + 0 } := by
      unfold Account.after
      simp only [heq]
      rfl
    rw [heq, hafter]
    exact ⟨fs, h.quiet hreads⟩

lemma step_report (h : InFlight accepted first id e a fs) {r : OrderReport}
    (hlaw : Lawful placing id accepted first e a (.report r))
    (hname : NamesStand id e (.report r)) :
    Over (handleExecReport recoverOrder r e) ∨
      ∃ fs', InFlight accepted first id (handleExecReport recoverOrder r e)
        (a.after placing id e (.report r)) fs' := by
  have hrefuses := hlaw.refuses
  have haccepts := hlaw.accepts
  have hbooked := hlaw.booked
  obtain ⟨o, ho, -, -⟩ := h.reads.order
  rw [Account.after_of_answer (by simp)]
  rcases r.normalised.ordinary_cases with ⟨href, hcancel⟩ | ⟨href, hcancel, horig⟩ | hord
  · -- the refusal of a cancel answers no revision
    have hout : r.normalised.ordinary = false := by simp [OrderReport.ordinary, href, hcancel]
    simp only [OrderEvent.refusal, OrderEvent.acceptance, OrderEvent.books, href, hcancel, hout,
      handleExecReport, Bool.and_self, Bool.not_true, Bool.and_false, Bool.false_and,
      Bool.false_eq_true, if_true, if_false, Option.toFinset_none]
    refine Or.inr ⟨fs, h.quiet ?_⟩
    split
    · exact h.reads
    · exact (h.reads.beforeTheCancel none).setOrderStatusForced _
  · have hout : r.normalised.ordinary = false := by simp [OrderReport.ordinary, href, horig]
    have hrefusal : (OrderEvent.report r).refusal e = some r.normalised.refusedRevision := by
      simp [OrderEvent.refusal, href, hcancel, horig]
    have hv := hrefuses _ hrefusal
    rw [hrefusal]
    simp only [OrderEvent.acceptance, OrderEvent.books, href, hcancel, horig, hout,
      handleExecReport, Bool.and_self, Bool.and_false, Bool.false_and,
      Bool.false_eq_true, if_true, if_false, Option.toFinset_none, Option.toFinset_some]
    exact Or.inr ⟨_, h.refuse hv.1 hv.2 (h.reads.restorePreReplace _)⟩
  · have hrefusal : (OrderEvent.report r).refusal e = none := by
      simp only [OrderReport.ordinary] at hord
      simp only [OrderEvent.refusal]
      rw [if_neg]
      intro hboth
      simp_all
    have hbooks : (OrderEvent.report r : OrderEvent Spec).books = r.normalised.booked := by
      simp [OrderEvent.books, hord]
    have hread : handleExecReport recoverOrder r e = takeReport recoverOrder r.normalised e := by
      simp only [OrderReport.ordinary] at hord
      unfold handleExecReport
      cases hR : r.normalised.refuses
      · simp [hR]
      · simp only [hR, Bool.true_and, Bool.not_eq_true', Bool.or_eq_false_iff] at hord
        simp [hord.1, hord.2]
    rw [hbooks] at hbooked
    have hnames : (OrderEvent.report r).names e = r.normalised.recordedName := by
      simp [OrderEvent.names, hord, ho]
    have htake := h.reads.takeReport h.limit recoverOrder hlaw.held
      fun raw hraw => hname raw (hnames.trans hraw)
    rw [Qty.saturatingAdd_of_le hbooked.1 hbooked.2] at htake
    rw [hread, hrefusal, hbooks, Option.toFinset_none]
    refine htake.imp (fun hover => hover) fun hreads => ?_
    cases hack : r.normalised.isReplaceAck e with
    | true =>
        have hacc : (OrderEvent.report r).acceptance e
            = some (r.normalised.reportedRevision e) := by
          simp [OrderEvent.acceptance, hord, hack]
        have hv := haccepts _ hacc
        rw [hack, if_pos rfl] at hreads
        rw [hacc, Option.toFinset_some]
        exact ⟨_, h.accept hv.1 hv.2 hreads⟩
    | false =>
        have hacc : (OrderEvent.report r).acceptance e = none := by
          simp [OrderEvent.acceptance, hack]
        rw [hack, if_neg (by simp)] at hreads
        rw [hacc, Option.toFinset_none]
        exact ⟨fs, h.booked hreads⟩

lemma step_cancelReject (h : InFlight accepted first id e a fs) {rejectType : ℕ}
    {name : Option Bytes}
    (hlaw : Lawful placing id accepted first e a (.cancelReject rejectType name)) :
    ∃ fs', InFlight accepted first id (handleCancelReject rejectType name e)
      (a.after placing id e (.cancelReject rejectType name)) fs' := by
  have hrefuses := hlaw.refuses
  rw [Account.after_of_answer (by simp)]
  by_cases htype : rejectType = 2
  · have hrefusal : (OrderEvent.cancelReject rejectType name).refusal e
        = some (name.elim (e.modifyVersion.getD 0) revisionOf) := if_pos htype
    have hv := hrefuses _ hrefusal
    rw [hrefusal, Option.toFinset_some]
    refine ⟨_, h.refuse hv.1 hv.2 ?_⟩
    have hrestored := h.reads.restorePreReplace (name.elim (e.modifyVersion.getD 0) revisionOf)
    unfold handleCancelReject
    simp only [if_pos htype]
    split
    · exact hrestored
    · split_ifs
      · exact hrestored.setOrderStatusForced _
      · exact hrestored.setOrderStatusForced _
      · exact hrestored
  · have hrefusal : (OrderEvent.cancelReject rejectType name).refusal e = none := if_neg htype
    rw [hrefusal, Option.toFinset_none]
    refine ⟨fs, h.quiet ?_⟩
    unfold handleCancelReject
    simp only [if_neg htype]
    split
    · exact h.reads
    · split_ifs
      · exact h.reads.setOrderStatusForced _
      · exact h.reads.setOrderStatusForced _
      · exact h.reads

lemma step (h : InFlight accepted first id e a fs) {ev : OrderEvent Spec}
    (hlaw : Lawful placing id accepted first e a ev) (hname : NamesStand id e ev) :
    Over (e.step placing recoverOrder id ev) ∨
      ∃ fs', InFlight accepted first id (e.step placing recoverOrder id ev)
        (a.after placing id e ev) fs' := by
  cases ev with
  | modify req => exact Or.inr (h.step_modify hlaw)
  | cancel =>
      rw [Account.after_of_answer (by simp)]
      exact Or.inr ⟨fs, h.quiet h.reads.synthesizePendingCancel⟩
  | report r => exact h.step_report hlaw hname
  | cancelReject rejectType name => exact Or.inr (h.step_cancelReject hlaw)

end InFlight

lemma Rests.inFlight {o : Order} (h : Rests id first e o)
    (accepted : ℕ → Bool) :
    InFlight accepted first id e (Followed.start id first e o).account [] where
  reads := ⟨⟨o, h.order, rfl, rfl⟩, rfl, by rw [h.kept]; rfl, h.version, h.unnamed⟩
  stands := Stands.start _ _ _
  first_le := le_rfl
  limit := h.limit
  names := fun v hv hv' => absurd hv' (Nat.not_le.2 hv)
  original := h.named
  owed := by simp
  answered := by simp [Followed.start]

def Followed.Sound (accepted : ℕ → Bool) (first : ℕ) (id : OrderId) (s : Followed Spec) : Prop :=
  Over s.entry ∨ ∃ fs, InFlight accepted first id s.entry s.account fs

lemma Followed.Sound.step {s : Followed Spec} (h : s.Sound accepted first id)
    {ev : OrderEvent Spec}
    (hlaw : Lawful placing id accepted first s.entry s.account ev ∧ NamesStand id s.entry ev) :
    (s.step placing recoverOrder id ev).Sound accepted first id := by
  rcases h with hover | ⟨fs, hin⟩
  · exact Or.inl (hover.step placing recoverOrder id hlaw.1.held)
  · exact hin.step hlaw.1 hlaw.2

def restingOrder : Order where
  instrument := 0
  side := .buy
  qty := 100
  price := 10
  ordType := 50
  tif := 48
  stopPrice := 0
  filled := 0
  status := .submitted

def restingEntry : OrderEntry Unit := { order := some restingOrder }

def noPlacing : Placing Unit where
  merge _ stated := stated
  keepAttached stated := stated
  trackedShape _ := (50, 0, 0)
  whatIf _ := false
  parentId _ := 0

def fillOf (v : ℕ) : OrderEvent Unit := .report
  { name := some (chainName 5 v), ordStatus := "1", execType := "1", booked := 40 }

end IbkrDx
