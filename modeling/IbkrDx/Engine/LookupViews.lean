import IbkrDx.Engine.Lookups

/-!
# One number's lookup

A caller's lookup lives in several lists at once, beside those of every other number.  What one
number hears and what is held of it is looked at alone here: the other numbers' lookups leave it,
and its own either goes on or is over.

* **`Lookups.endLookup_self`** — a lookup that ends is over, or asks for its listed months.
-/

namespace IbkrDx

variable {Terms Narrowing : Type}

/-! ## What a caller may be told -/

/-- What a caller has been told of the lookup under its number. -/
inductive Hearing where
  | closed
  /-- The contracts of its rows, and of those that were held until the end. -/
  | rows (listed held : List ℕ)
  | broken
  deriving DecidableEq

namespace Hearing

/-- What one word makes of it: a lookup begins where none is open, its rows name each contract once,
and it ends. -/
def hear (r : ℕ) (h : Hearing) : Told Terms Narrowing → Hearing
  | .asked n => if n = r then (if h = closed then rows [] [] else broken) else h
  | .row n d isHeld =>
      if n = r then
        match h with
        | rows listed held =>
            if isHeld then
              if d.conId ∈ held then broken else rows listed (d.conId :: held)
            else if d.conId ∈ listed then broken else rows (d.conId :: listed) held
        | _ => broken
      else h
  | .lookupEnd n =>
      if n = r then
        match h with
        | rows _ _ => closed
        | _ => broken
      else h
  | .historicalError .. | .historicalOver _ | .bookLetGo .. => h

lemma hear_held (r : ℕ) (listed : List ℕ) {ds : List (ContractDefinition Terms Narrowing)}
    {held : List ℕ} (hnodup : (ds.map (·.conId)).Nodup) (hnew : ∀ d ∈ ds, d.conId ∉ held) :
    ∃ held', (ds.map fun d => (.row r { d with secType := "CONTFUT" } true :
        Told Terms Narrowing)).foldl (hear r) (rows listed held) = rows listed held' := by
  induction ds generalizing held with
  | nil => exact ⟨held, rfl⟩
  | cons d ds ih =>
      rw [List.map_cons, List.nodup_cons] at hnodup
      have hd : d.conId ∉ held := hnew d (by simp)
      simp only [List.map_cons, List.foldl_cons, hear, if_true, if_neg hd]
      refine ih hnodup.2 fun e he => ?_
      rw [List.mem_cons, not_or]
      refine ⟨fun heq => hnodup.1 ?_, hnew e (by simp [he])⟩
      exact heq ▸ List.mem_map_of_mem he

end Hearing

/-- What is none of the business of the lookup under a number. -/
def Told.Aside (r : ℕ) (t : Told Terms Narrowing) : Prop := ∀ h, Hearing.hear r h t = h

lemma aside_hmdsRefusal (r n : ℕ) (code : ℤ) (why : String) (bars : Bool) :
    ∀ t ∈ (hmdsRefusal n code why bars : List (Told Terms Narrowing)), t.Aside r := by
  intro t ht
  simp only [hmdsRefusal, List.mem_cons] at ht
  rcases ht with rfl | ht
  · exact fun _ => rfl
  · split_ifs at ht
    · rw [List.mem_singleton] at ht
      subst ht
      exact fun _ => rfl
    · simp at ht

namespace Request

lemma aside_abandonNamed (r : ℕ) (cmd : Request Terms Narrowing) (listings : ℕ) :
    ∀ t ∈ cmd.abandonNamed listings, t.Aside r := by
  intro t ht
  unfold abandonNamed at ht
  split at ht
  · simp at ht
  · split_ifs at ht
    · simp at ht
    · rcases List.mem_append.1 ht with ht | ht
      · unfold bookLetGo at ht
        split at ht
        · rw [List.mem_singleton] at ht
          subst ht
          exact fun _ => rfl
        · simp at ht
      · split at ht
        · exact aside_hmdsRefusal _ _ _ _ _ t ht
        · simp at ht

lemma aside_refusedUnanswered (r : ℕ) (cmd : Request Terms Narrowing) (why : String) :
    ∀ t ∈ cmd.refusedUnanswered why, t.Aside r := by
  intro t ht
  unfold refusedUnanswered at ht
  split at ht
  · exact aside_hmdsRefusal _ _ _ _ _ t ht
  · simp at ht

end Request

/-! ## One number -/

structure LookupView (Terms Narrowing : Type) where
  entries : Multiset PendingSecdef
  legs : Multiset PendingFanout
  parked : Multiset (PendingSchedulePair Terms Narrowing)
  delivered : Finset ℕ
  continuous : Option (ContinuousLookup Terms Narrowing)
  hearing : Hearing

namespace Lookups

def hearing (s : Lookups Terms Narrowing) (r : ℕ) : Hearing := s.told.foldl (Hearing.hear r) .closed

def view (s : Lookups Terms Narrowing) (r : ℕ) : LookupView Terms Narrowing where
  entries := (s.pendingSecdef.filter fun x => x.reqId = r : List _)
  legs := (s.pendingFanout.filter fun p => p.apiReqId = r : List _)
  parked := (s.pendingSchedulePair.filter fun p => p.apiReqId = r : List _)
  delivered := s.detailsDelivered r
  continuous := s.continuousLookups.lookup r
  hearing := s.hearing r

lemma hear_aside {r : ℕ} {told : List (Told Terms Narrowing)} (h : ∀ t ∈ told, t.Aside r)
    (heard : Hearing) : told.foldl (Hearing.hear r) heard = heard := by
  induction told generalizing heard with
  | nil => rfl
  | cons t told ih =>
      rw [List.foldl_cons, h t (by simp) heard]
      exact ih (fun u hu => h u (by simp [hu])) heard

lemma view_eq {s s' : Lookups Terms Narrowing} {r : ℕ}
    (told : ∃ ts, s'.told = s.told ++ ts ∧ ∀ t ∈ ts, t.Aside r)
    (delivered : s'.detailsDelivered r = s.detailsDelivered r)
    (continuous : s'.continuousLookups.lookup r = s.continuousLookups.lookup r)
    (entries : s'.pendingSecdef = s.pendingSecdef)
    (legs : s'.pendingFanout = s.pendingFanout)
    (parked : s'.pendingSchedulePair = s.pendingSchedulePair) :
    s'.view r = s.view r := by
  obtain ⟨ts, htold, hts⟩ := told
  simp [view, hearing, delivered, continuous, entries, legs, parked, htold, hear_aside hts]

section Others

/-! ### The lookups of other numbers -/

variable {fails : ℕ → Option String} {s : Lookups Terms Narrowing} {n r : ℕ}

lemma aside_row (h : n ≠ r) (d : ContractDefinition Terms Narrowing) (held : Bool) :
    (Told.row n d held).Aside r := fun _ => by simp [Hearing.hear, h]

lemma aside_lookupEnd (h : n ≠ r) : (Told.lookupEnd n : Told Terms Narrowing).Aside r :=
  fun _ => by simp [Hearing.hear, h]

lemma aside_historicalError (n r : ℕ) (code : ℤ) (why : String) :
    (Told.historicalError n code why : Told Terms Narrowing).Aside r := fun _ => rfl

lemma view_handOver_of_ne (h : n ≠ r) (d : ContractDefinition Terms Narrowing) :
    (s.handOver n d).view r = s.view r := by
  have hr : r ≠ n := h.symm
  unfold handOver
  split
  · exact view_eq ⟨[], by simp⟩ rfl (AList.lookup_insert_ne hr) rfl rfl rfl
  · split_ifs
    · rfl
    · refine view_eq ⟨_, rfl, by simpa using aside_row h d false⟩ (Function.update_of_ne hr _ _) ?_
        rfl rfl rfl
      dsimp only
      split
      · exact AList.lookup_insert_ne hr
      · rfl

lemma view_failLookup_of_ne (h : n ≠ r) (code : ℤ) (why : String) :
    (s.failLookup n code why).view r = s.view r :=
  view_eq ⟨_, rfl, by simpa using ⟨aside_historicalError n r code why, aside_lookupEnd h⟩⟩ rfl
    (AList.lookup_erase_ne h.symm) rfl rfl rfl

variable (fails) in
lemma view_writeLookup (terms : LookupTerms Narrowing) :
    ((s.writeLookup fails n terms).2).view r = s.view r := by
  unfold writeLookup
  split_ifs
  · split <;> rfl
  · rfl

lemma queueOrRefuse_cases (n : ℕ) (queue : Lookups Terms Narrowing → Lookups Terms Narrowing)
    (w : Option String × Lookups Terms Narrowing) :
    queueOrRefuse n queue w = queue w.2 ∨ isInternal n = false ∧
      ∃ why, queueOrRefuse n queue w = w.2.failLookup n notConnected why := by
  rcases w with ⟨_ | why, s⟩
  · exact Or.inl rfl
  · unfold queueOrRefuse
    dsimp only
    split_ifs with h
    · exact Or.inl rfl
    · exact Or.inr ⟨by simpa using h, _, rfl⟩

lemma view_queueOrRefuse_of_ne (h : n ≠ r) {terms : LookupTerms Narrowing}
    {queue : Lookups Terms Narrowing → Lookups Terms Narrowing}
    (hqueue : ∀ t : Lookups Terms Narrowing, (queue t).view r = t.view r) :
    (queueOrRefuse n queue (s.writeLookup fails n terms)).view r = s.view r := by
  rcases queueOrRefuse_cases n queue (s.writeLookup fails n terms) with hq | ⟨-, why, hq⟩
  · rw [hq, hqueue, view_writeLookup]
  · rw [hq, view_failLookup_of_ne h, view_writeLookup]

lemma view_sendSecdefRequest_of_ne (h : n ≠ r) (conId : ℤ) (exchange : String) (now : ℕ) :
    (s.sendSecdefRequest fails n conId exchange now).view r = s.view r := by
  have hr : r ≠ n := h.symm
  unfold sendSecdefRequest
  dsimp only
  rw [view_queueOrRefuse_of_ne h fun t => by simp [view, hearing, h]]
  exact view_eq ⟨[], by simp⟩ (Function.update_of_ne hr _ _) (AList.lookup_erase_ne hr) rfl rfl rfl

lemma view_sendSecdefRequestBySymbol_of_ne (h : n ≠ r) (d : Description Narrowing) (now : ℕ) :
    (s.sendSecdefRequestBySymbol fails n d now).view r = s.view r := by
  have hr : r ≠ n := h.symm
  unfold sendSecdefRequestBySymbol
  exact view_queueOrRefuse_of_ne h fun t => by
    simp [view, hearing, h, Function.update_of_ne hr]

lemma view_endLookup_of_ne (h : n ≠ r) (now : ℕ) : (s.endLookup fails n now).view r = s.view r := by
  have hr : r ≠ n := h.symm
  unfold endLookup
  split
  · exact view_eq ⟨_, rfl, by simpa using aside_lookupEnd h⟩ rfl rfl rfl rfl rfl
  · rename_i asked hasked
    by_cases hsecond : (asked.listedToo && !asked.askingListed) = true
    · rw [if_pos hsecond, view_sendSecdefRequestBySymbol_of_ne h]
      exact view_eq ⟨[], by simp⟩ rfl (AList.lookup_insert_ne hr) rfl rfl rfl
    · rw [if_neg hsecond]
      dsimp only
      generalize (if asked.listedToo then asked.listedFound else !asked.held.isEmpty) = found
      cases found with
      | true =>
          refine view_eq ⟨(asked.held.map fun d => .row n { d with secType := "CONTFUT" } true)
            ++ [.lookupEnd n], by simp [tell, handHeld], ?_⟩ rfl (AList.lookup_erase_ne hr)
            rfl rfl rfl
          intro t ht
          rcases List.mem_append.1 ht with ht | ht
          · obtain ⟨d, -, rfl⟩ := List.mem_map.1 ht
            exact aside_row h _ true
          · rw [List.mem_singleton.1 ht]
            exact aside_lookupEnd h
      | false =>
          exact view_eq ⟨[.historicalError n noDefinition noDefinitionFound, .lookupEnd n],
            by simp [tell], by simpa using ⟨aside_historicalError n r _ _, aside_lookupEnd h⟩⟩ rfl
            (AList.lookup_erase_ne hr) rfl rfl rfl

lemma view_refuseLookup_of_ne (h : n ≠ r) (code : ℤ) (why : String) (now : ℕ) :
    (s.refuseLookup fails n code why now).view r = s.view r := by
  unfold refuseLookup
  split_ifs
  · exact view_endLookup_of_ne h now
  · exact view_failLookup_of_ne h code why

end Others

end Lookups

/-! ## The lookup of one number -/

namespace LookupView

/-- The number is told rows: what was told of it is marked, and a continuous future's own rows are
held, each contract once, until the listed months are asked for. -/
structure Speaking (v : LookupView Terms Narrowing) (listed : List ℕ) : Prop where
  hearing : v.hearing = .rows listed []
  delivered : ∀ c ∈ listed, c ∈ v.delivered
  heldOnce : ∀ asked ∈ v.continuous, (asked.held.map (·.conId)).Nodup
  behind : ∀ asked ∈ v.continuous, asked.askingListed = false → listed = []

/-- Nothing is held that would end it. -/
structure Free (v : LookupView Terms Narrowing) : Prop where
  entries : v.entries = 0
  legs : v.legs = 0
  parked : v.parked = 0

structure Idle (v : LookupView Terms Narrowing) : Prop where
  free : v.Free
  hearing : v.hearing = .closed
  continuous : v.continuous = none

/-- One thing carries its end: a lookup on the wire, one asked of each venue, or a row that waits
for its hours. -/
inductive Carried (v : LookupView Terms Narrowing) : Prop where
  | entry (x : PendingSecdef) (entries : v.entries = {x}) (legs : v.legs = 0) (parked : v.parked = 0)
  | legs (p : PendingFanout) (entries : v.entries = 0) (legs : v.legs = {p})
      (parked : v.parked = 0 ∨ ∃ q, v.parked = {q} ∧ q.isLast = false)
  | row (q : PendingSchedulePair Terms Narrowing) (entries : v.entries = 0) (legs : v.legs = 0)
      (parked : v.parked = {q}) (isLast : q.isLast = true)

lemma Carried.of_eq {v w : LookupView Terms Narrowing} (h : v.Carried)
    (hentries : w.entries = v.entries) (hlegs : w.legs = v.legs) (hparked : w.parked = v.parked) :
    w.Carried := by
  cases h with
  | entry x he hl hp => exact .entry x (hentries.trans he) (hlegs.trans hl) (hparked.trans hp)
  | legs p he hl hp => exact .legs p (hentries.trans he) (hlegs.trans hl) (hparked ▸ hp)
  | row q he hl hp hlast => exact .row q (hentries.trans he) (hlegs.trans hl) (hparked.trans hp) hlast

/-- **What is held of a number**: nothing, or one thing that carries the end of a lookup. -/
def Sound (v : LookupView Terms Narrowing) : Prop :=
  v.Idle ∨ (∃ listed, v.Speaking listed) ∧ v.Carried

/-- The listed months are asked for, behind the continuous future. -/
structure SecondAsked (v : LookupView Terms Narrowing) (r now : ℕ)
    (before : LookupView Terms Narrowing) : Prop where
  speaking : v.Speaking []
  entries : v.entries = {⟨r, false, now + lookupTimeout⟩}
  legs : v.legs = 0
  parked : v.parked = 0
  first : ∃ asked ∈ before.continuous, asked.listedToo = true ∧ asked.askingListed = false
  second : ∃ asked ∈ v.continuous, asked.askingListed = true

lemma SecondAsked.sound {v before : LookupView Terms Narrowing} {r now : ℕ}
    (h : v.SecondAsked r now before) : v.Sound :=
  Or.inr ⟨⟨[], h.speaking⟩, .entry _ h.entries h.legs h.parked⟩

end LookupView

namespace ContinuousLookup

lemma nodup_keep {asked : ContinuousLookup Terms Narrowing} (h : (asked.held.map (·.conId)).Nodup)
    (d : ContractDefinition Terms Narrowing) : ((asked.keep d).held.map (·.conId)).Nodup := by
  unfold keep
  split_ifs with hseen
  · exact h
  · rw [List.map_append, List.nodup_append]
    refine ⟨h, by simp, fun c hc e he => ?_⟩
    obtain ⟨held, hheld, rfl⟩ := List.mem_map.1 hc
    rw [List.map_singleton, List.mem_singleton] at he
    rintro rfl
    refine hseen (List.any_eq_true.2 ⟨held, hheld, ?_⟩)
    simp [he]

lemma askingListed_keep (asked : ContinuousLookup Terms Narrowing)
    (d : ContractDefinition Terms Narrowing) :
    (asked.keep d).askingListed = asked.askingListed := by
  unfold keep
  split_ifs <;> rfl

end ContinuousLookup

namespace Lookups

section Own

variable {fails : ℕ → Option String} {s : Lookups Terms Narrowing} {n r : ℕ} {listed : List ℕ}

lemma hearing_told {s' : Lookups Terms Narrowing} (ts : List (Told Terms Narrowing))
    (h : s'.told = s.told ++ ts) (r : ℕ) : s'.hearing r = ts.foldl (Hearing.hear r) (s.hearing r) := by
  simp [hearing, h]

lemma speaking_handOver (h : (s.view r).Speaking listed) (d : ContractDefinition Terms Narrowing) :
    ∃ listed', ((s.handOver r d).view r).Speaking listed' := by
  have hheld := h.heldOnce
  have hbehind := h.behind
  unfold handOver
  cases hholding : s.holding r with
  | some asked =>
      obtain ⟨hasked, hfirst⟩ := Option.filter_eq_some_iff.1 hholding
      refine ⟨listed, h.hearing, h.delivered, ?_, ?_⟩
      · intro kept hkept
        obtain rfl : asked.keep d = kept := by simpa [view] using hkept
        exact ContinuousLookup.nodup_keep (hheld asked hasked) d
      · intro kept hkept hlisted
        obtain rfl : asked.keep d = kept := by simpa [view] using hkept
        rw [ContinuousLookup.askingListed_keep] at hlisted
        exact hbehind asked hasked hlisted
  | none =>
      dsimp only
      split_ifs with hdelivered
      · exact ⟨listed, h⟩
      · have hnew : d.conId ∉ listed := fun hmem => hdelivered (h.delivered _ hmem)
        refine ⟨d.conId :: listed, ?_, ?_, ?_, ?_⟩
        · refine (hearing_told _ rfl r).trans ?_
          rw [show s.hearing r = .rows listed [] from h.hearing]
          simp [Hearing.hear, hnew]
        · intro c hc
          rcases List.mem_cons.1 hc with rfl | hc
          · simp [view]
          · simp [view, show c ∈ s.detailsDelivered r from h.delivered c hc]
        all_goals
          intro asked hasked
          cases hlook : s.continuousLookups.lookup r with
          | none => simp [view, hlook] at hasked
          | some first => ?_
          obtain rfl : first.found = asked := by simpa [view, hlook] using hasked
        · exact hheld first hlook
        · intro hfirst
          exact absurd hholding (by simp [holding, hlook, show first.askingListed = false from hfirst])

lemma idle_failLookup {held : List ℕ} (h : s.hearing r = .rows listed held) (hfree : (s.view r).Free)
    (code : ℤ) (why : String) : ((s.failLookup r code why).view r).Idle := by
  refine ⟨⟨hfree.entries, hfree.legs, hfree.parked⟩, ?_, AList.lookup_erase _ _⟩
  refine (hearing_told _ rfl r).trans ?_
  simp [h, Hearing.hear]

lemma entries_push {s' : Lookups Terms Narrowing} {x : PendingSecdef} (hx : x.reqId = r)
    (hs : s'.pendingSecdef = s.pendingSecdef ++ [x]) (h : (s.view r).entries = 0) :
    (s'.view r).entries = {x} := by
  have hnone : s.pendingSecdef.filter (fun y => y.reqId = r) = [] := by simpa [view] using h
  simp [view, hs, List.filter_append, hnone, hx]

variable (fails) in
lemma queued_or_idle {held : List ℕ} (hhear : s.hearing r = .rows listed held) (hfree : (s.view r).Free)
    (terms : LookupTerms Narrowing) (queue : Lookups Terms Narrowing → Lookups Terms Narrowing) :
    ((queueOrRefuse r queue (s.writeLookup fails r terms)).view r).Idle ∨
      ∃ t : Lookups Terms Narrowing, t.view r = s.view r ∧
        queueOrRefuse r queue (s.writeLookup fails r terms) = queue t := by
  have hview := view_writeLookup fails (s := s) (n := r) (r := r) terms
  rcases queueOrRefuse_cases r queue (s.writeLookup fails r terms) with hq | ⟨-, why, hq⟩
  · exact Or.inr ⟨_, hview, hq⟩
  · rw [hq]
    exact Or.inl (idle_failLookup ((congrArg LookupView.hearing hview).trans hhear) (hview ▸ hfree) _ _)

variable (fails) in
lemma sendSecdefRequestBySymbol_self (hr : isInternal r = false) (h : (s.view r).Speaking [])
    (hfree : (s.view r).Free) (d : Description Narrowing) (now : ℕ) :
    let v := (s.sendSecdefRequestBySymbol fails r d now).view r
    v.Idle ∨ v.Speaking [] ∧ v.entries = {⟨r, false, now + lookupTimeout⟩} ∧ v.legs = 0 ∧
      v.parked = 0 ∧ v.continuous = (s.view r).continuous := by
  unfold sendSecdefRequestBySymbol
  rcases queued_or_idle fails h.hearing hfree (.described d) fun s =>
      { s with
        detailsDelivered := Function.update s.detailsDelivered r ∅
        pendingSecdef := s.pendingSecdef ++ [⟨r, false, now + unansweredAfter r⟩] }
    with hidle | ⟨t, ht, hq⟩
  · exact Or.inl hidle
  · rw [hq]
    rw [← ht] at h hfree
    have hcontinuous : t.continuousLookups.lookup r = (s.view r).continuous :=
      congrArg LookupView.continuous ht
    refine Or.inr ⟨⟨h.hearing, by simp, h.heldOnce, fun _ _ _ => rfl⟩, ?_, hfree.legs, hfree.parked,
      hcontinuous⟩
    have hdeadline : lookupTimeout = unansweredAfter r := by simp [unansweredAfter, hr]
    rw [hdeadline]
    exact entries_push rfl rfl hfree.entries

lemma sendSecdefRequest_self (hhear : s.hearing r = .rows [] [])
    (hfree : (s.view r).Free) (conId : ℤ) (exchange : String) (now : ℕ) :
    ((s.sendSecdefRequest fails r conId exchange now).view r).Sound := by
  unfold sendSecdefRequest
  dsimp only
  set forgotten : Lookups Terms Narrowing :=
    { s with
      detailsDelivered := Function.update s.detailsDelivered r ∅
      continuousLookups := s.continuousLookups.erase r } with hforgotten
  have hnone : (forgotten.view r).continuous = none := AList.lookup_erase _ _
  rcases queued_or_idle fails (s := forgotten) hhear ⟨hfree.entries, hfree.legs,
      hfree.parked⟩ (.contract conId exchange) fun s =>
      { s with pendingSecdef := s.pendingSecdef ++ [⟨r, true, now + unansweredAfter r⟩] }
    with hidle | ⟨t, ht, hq⟩
  · exact Or.inl hidle
  · rw [hq]
    have hcontinuous : (t.view r).continuous = none := by rw [ht, hnone]
    refine Or.inr ⟨⟨[], ⟨(congrArg LookupView.hearing ht).trans hhear, by simp,
      fun asked hasked => absurd (hcontinuous.symm.trans hasked) (by simp), fun _ _ _ => rfl⟩⟩,
      .entry ⟨r, true, now + unansweredAfter r⟩ ?_ ((congrArg LookupView.legs ht).trans hfree.legs)
        ((congrArg LookupView.parked ht).trans hfree.parked)⟩
    exact entries_push (s := t) rfl rfl ((congrArg LookupView.entries ht).trans hfree.entries)

/-- **A lookup that ends is over, or its listed months are asked for.** -/
theorem endLookup_self (hr : isInternal r = false) (h : (s.view r).Speaking listed)
    (hfree : (s.view r).Free) (now : ℕ) :
    let v := (s.endLookup fails r now).view r
    v.Idle ∨ v.SecondAsked r now (s.view r) := by
  unfold endLookup
  cases hlook : s.continuousLookups.lookup r with
  | none =>
      refine Or.inl ⟨⟨hfree.entries, hfree.legs, hfree.parked⟩, ?_, hlook⟩
      refine (hearing_told _ rfl r).trans ?_
      simp [show s.hearing r = .rows listed [] from h.hearing, Hearing.hear]
  | some asked =>
      have hheld := h.heldOnce asked hlook
      by_cases hsecond : (asked.listedToo && !asked.askingListed) = true
      · simp only [Bool.and_eq_true, Bool.not_eq_true'] at hsecond
        dsimp only
        rw [if_pos (by simp [hsecond])]
        set second : Lookups Terms Narrowing :=
          { s with
            continuousLookups := s.continuousLookups.insert r { asked with askingListed := true } }
          with hs
        obtain rfl := h.behind asked hlook hsecond.2
        have hasked : (second.view r).continuous = some { asked with askingListed := true } := by
          simp [view, hs]
        have hspeaking : (second.view r).Speaking [] := by
          refine ⟨h.hearing, by simp, ?_, fun _ _ _ => rfl⟩
          rw [hasked]
          rintro _ ⟨⟩
          exact hheld
        rcases sendSecdefRequestBySymbol_self fails hr hspeaking
          ⟨hfree.entries, hfree.legs, hfree.parked⟩ { asked.description with secType := "FUT" } now
          with hidle | ⟨hspeaks, hentries, hlegs, hparked, hcontinuous⟩
        · exact Or.inl hidle
        · exact Or.inr ⟨hspeaks, hentries, hlegs, hparked, ⟨asked, hlook, hsecond⟩,
            ⟨_, hcontinuous.trans hasked, rfl⟩⟩
      · dsimp only
        rw [if_neg hsecond]
        generalize (if asked.listedToo then asked.listedFound else !asked.held.isEmpty) = found
        have hhear : s.hearing r = .rows listed [] := h.hearing
        refine Or.inl ?_
        cases found with
        | true =>
            obtain ⟨held', hheld'⟩ := Hearing.hear_held r listed hheld
              (fun d _ => List.not_mem_nil : ∀ d ∈ asked.held, d.conId ∉ [])
            refine ⟨⟨hfree.entries, hfree.legs, hfree.parked⟩, ?_, AList.lookup_erase _ _⟩
            refine (hearing_told (s := s) ((asked.held.map fun d =>
              .row r { d with secType := "CONTFUT" } true) ++ [.lookupEnd r])
              (by simp [tell, handHeld]) r).trans ?_
            rw [hhear, List.foldl_append, hheld']
            simp [Hearing.hear]
        | false =>
            refine ⟨⟨hfree.entries, hfree.legs, hfree.parked⟩, ?_, AList.lookup_erase _ _⟩
            refine (hearing_told (s := s)
              [.historicalError r noDefinition noDefinitionFound, .lookupEnd r]
              (by simp [tell]) r).trans ?_
            simp [hhear, Hearing.hear]

lemma sound_endLookup (hr : isInternal r = false) (h : (s.view r).Speaking listed)
    (hfree : (s.view r).Free) (now : ℕ) : ((s.endLookup fails r now).view r).Sound :=
  (endLookup_self hr h hfree now).imp_right fun hsecond => hsecond.sound.resolve_left fun hidle =>
    by simpa [hidle.hearing] using hsecond.speaking.hearing

lemma sound_refuseLookup (hr : isInternal r = false) (h : (s.view r).Speaking listed)
    (hfree : (s.view r).Free) (code : ℤ) (why : String) (now : ℕ) :
    ((s.refuseLookup fails r code why now).view r).Sound := by
  unfold refuseLookup
  split_ifs
  · exact sound_endLookup hr h hfree now
  · exact Or.inl (idle_failLookup h.hearing hfree code why)

end Own

end Lookups

end IbkrDx
