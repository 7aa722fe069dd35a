import IbkrDx.Engine.Lookups
import IbkrDx.Lib.Runs
import Mathlib.Tactic.Abel

/-!
# A request held until its contract is named is accounted for

A request that is held waits beside the lookup that names it, and leaves once: released under the
contract the venue named, given up under its own number, or withdrawn.

* **`Lookups.held_requests_accounted_for`** — every event of a run that is answerable accounts for
  them.  `not_held_requests_accounted_for` is a chargeable snapshot whose definition never comes.
-/

namespace IbkrDx

variable {Terms Narrowing : Type}

/-! ## What a caller is told of its request -/

def refusals (told : List (Told Terms Narrowing)) : List ℕ :=
  told.filterMap fun
    | .historicalError n .. => some n
    | _ => none

lemma refusals_append (told more : List (Told Terms Narrowing)) :
    refusals (told ++ more) = refusals told ++ refusals more := List.filterMap_append

lemma refusals_hmdsRefusal (n : ℕ) (code : ℤ) (why : String) (bars : Bool) :
    refusals (hmdsRefusal n code why bars : List (Told Terms Narrowing)) = [n] := by
  cases bars <;> rfl

namespace Request

def Callers (cmd : Request Terms Narrowing) : Prop :=
  cmd.engineOwned = false ∧ cmd.requestId ≠ none

/-- A caller's request that states the contract's id, its type and its exchange: there are no words
for why it cannot be sent. -/
def Unspoken (cmd : Request Terms Narrowing) : Prop :=
  cmd.Callers ∧ cmd.namedByIdAlone = none ∧ cmd.contractNamed = none

lemma whyAbandoned_eq_none {cmd : Request Terms Narrowing} {listings : ℕ} :
    cmd.whyAbandoned listings = none ↔ cmd.namedByIdAlone = none ∧ cmd.contractNamed = none := by
  unfold whyAbandoned
  split
  · simp [*]
  · simp [*]

/-- **A caller's request is refused once, under its own number, but where there are no words.** -/
theorem refusals_abandonNamed {cmd : Request Terms Narrowing} (h : cmd.Callers) (listings : ℕ) :
    refusals (cmd.abandonNamed listings) = cmd.requestId.toList ↔ ¬cmd.Unspoken := by
  obtain ⟨n, hn⟩ := Option.ne_none_iff_exists'.1 h.2
  unfold abandonNamed
  cases hwhy : cmd.whyAbandoned listings with
  | none =>
      have hunspoken : cmd.Unspoken := ⟨h, whyAbandoned_eq_none.1 hwhy⟩
      simp [hn, hunspoken, refusals]
  | some why =>
      have hspoken : ¬cmd.Unspoken := fun hnone => by
        simp [whyAbandoned_eq_none.2 hnone.2] at hwhy
      have hlet : refusals cmd.bookLetGo = [] := by
        unfold bookLetGo
        split <;> rfl
      simp only [h.1, hn, Bool.false_eq_true, if_false, refusals_append, refusals_hmdsRefusal,
        Option.toList_some, hspoken, not_false_eq_true, iff_true]
      rw [hlet, List.nil_append]

lemma refusals_refusedUnanswered (cmd : Request Terms Narrowing) (why : String) :
    refusals (cmd.refusedUnanswered why) = cmd.requestId.toList := by
  unfold refusedUnanswered
  split
  · simp [*, refusals_hmdsRefusal]
  · simp [*, refusals]

/-- **A request that is named states the id of the contract the venue named.** -/
theorem conId_nameTheContract (cmd : Request Terms Narrowing)
    (d : ContractDefinition Terms Narrowing) : (cmd.nameTheContract d).contract.conId = d.conId := by
  by_cases hid : cmd.namedByIdAlone.isSome = true
  · simp only [nameTheContract, hid, if_true]
    rfl
  · simp only [nameTheContract, hid]
    cases cmd.kind <;> rfl

end Request

/-! ## Where a request is -/

namespace Naming

def places (w : Naming Terms Narrowing) : Multiset (ℕ × Request Terms Narrowing) :=
  (w.pendingNamed.map fun h => (h.ticket, h.command) : List _)
    + (w.resolvedNamed.map fun r => (r.ticket, r.asked) : List _)
    + (w.taken.map fun r => (r.ticket, r.asked) : List _)
    + (w.abandoned.map fun a => (a.ticket, a.asked) : List _)
    + (w.withdrawn : Multiset (ℕ × Request Terms Narrowing))

/-- **Every request held is accounted for.** -/
structure Accounted (w : Naming Terms Narrowing) : Prop where
  /-- It waits, or was released, given up or withdrawn: one of these, and once. -/
  once : w.places = w.parked
  tickets : w.parked.map Prod.fst = List.range w.parked.length
  /-- One released goes on under the contract the venue named. -/
  released : ∀ r ∈ w.resolvedNamed ++ w.taken,
    r.command = r.asked.nameTheContract r.definition ∧
      r.command.contract.conId = r.definition.conId
  /-- One given up was refused to its caller once, under its own number. -/
  refused : ∀ a ∈ w.abandoned, a.asked.Callers → refusals a.told = a.asked.requestId.toList

variable {w : Naming Terms Narrowing}

lemma Accounted.park (h : w.Accounted) (lookup : ℕ) (cmd : Request Terms Narrowing) (now : ℕ) :
    (w.park lookup cmd now).Accounted := by
  refine ⟨?_, ?_, h.released, h.refused⟩
  · have hone := h.once
    simp only [places, Naming.park, List.map_append, List.map_singleton, ← Multiset.coe_add]
      at hone ⊢
    rw [← hone]
    ac_rfl
  · simp [Naming.park, h.tickets, List.range_succ]

lemma places_takeOut {lookup : ℕ} {held : HeldRequest Terms Narrowing}
    (h : w.behind lookup = some held) :
    w.places = (w.takeOut lookup).places + {(held.ticket, held.command)} := by
  have hperm := (Removal.perm_eraseP h).map fun h => (h.ticket, h.command)
  simp only [places, takeOut, Multiset.coe_eq_coe.2 hperm, List.map_cons, ← Multiset.cons_coe,
    ← Multiset.singleton_add]
  ac_rfl

lemma Accounted.release (h : w.Accounted) {lookup : ℕ} {held : HeldRequest Terms Narrowing}
    (hheld : w.behind lookup = some held) (d : ContractDefinition Terms Narrowing) :
    ((w.takeOut lookup).release held d).Accounted := by
  refine ⟨?_, h.tickets, fun r hr => ?_, h.refused⟩
  · have hone := (places_takeOut hheld).symm.trans h.once
    simp only [places, Naming.release, takeOut, List.map_append, List.map_singleton,
      ← Multiset.coe_add, Multiset.coe_singleton] at hone ⊢
    rw [← hone]
    ac_rfl
  · simp only [Naming.release, takeOut, List.mem_append, List.mem_singleton] at hr
    rcases hr with (hr | rfl) | hr
    · exact h.released r (List.mem_append_left _ hr)
    · exact ⟨rfl, Request.conId_nameTheContract _ _⟩
    · exact h.released r (List.mem_append_right _ hr)

lemma Accounted.abandon (h : w.Accounted) {left : List (HeldRequest Terms Narrowing)}
    {hs : List (HeldRequest Terms Narrowing)} (hsplit : w.pendingNamed.Perm (hs ++ left))
    {told : HeldRequest Terms Narrowing → List (Told Terms Narrowing)}
    (htold : ∀ held ∈ hs, held.command.Callers →
      refusals (told held) = held.command.requestId.toList) :
    ({ w with pendingNamed := left }.abandon hs told).Accounted := by
  refine ⟨?_, h.tickets, h.released, fun a ha => ?_⟩
  · have hone := h.once
    have hperm := hsplit.map fun h => (h.ticket, h.command)
    simp only [places, Naming.abandon, List.map_append, List.map_map, Function.comp_def,
      Multiset.coe_eq_coe.2 hperm, ← Multiset.coe_add] at hone ⊢
    rw [← hone]
    ac_rfl
  · simp only [Naming.abandon, List.mem_append, List.mem_map] at ha
    rcases ha with ha | ⟨held, hheld, rfl⟩
    · exact h.refused a ha
    · exact htold held hheld

lemma Accounted.withdraw (h : w.Accounted) (n : ℕ) (kind : RequestKind → Bool) :
    (w.withdraw n kind).Accounted := by
  refine ⟨?_, h.tickets, fun r hr => ?_, h.refused⟩
  · have hone := h.once
    have hwaiting := (List.filter_append_perm (fun h : HeldRequest Terms Narrowing =>
      h.command.requestId == some n && kind h.command.kind) w.pendingNamed).map
        fun h => (h.ticket, h.command)
    have hreleased := (List.filter_append_perm (fun r : ReleasedRequest Terms Narrowing =>
      r.command.requestId == some n && kind r.command.kind) w.resolvedNamed).map
        fun r => (r.ticket, r.asked)
    simp only [places, Naming.withdraw, ← Multiset.coe_eq_coe.2 hwaiting,
      ← Multiset.coe_eq_coe.2 hreleased, List.map_append, ← Multiset.coe_add] at hone ⊢
    rw [← hone]
    ac_rfl
  · refine h.released r ?_
    rcases List.mem_append.1 hr with hr | hr
    · exact List.mem_append_left _ (List.mem_filter.1 hr).1
    · exact List.mem_append_right _ hr

lemma Accounted.take (h : w.Accounted) (count : ℕ) : (w.take count).Accounted := by
  have hsplit : w.resolvedNamed = w.resolvedNamed.take count ++ w.resolvedNamed.drop count :=
    (List.take_append_drop count _).symm
  refine ⟨?_, h.tickets, fun r hr => ?_, h.refused⟩
  · have hone := h.once
    rw [places, hsplit] at hone
    simp only [places, Naming.take, List.map_append, ← Multiset.coe_add] at hone ⊢
    rw [← hone]
    ac_rfl
  · refine h.released r ?_
    simp only [Naming.take, List.mem_append] at hr ⊢
    rcases hr with hr | hr | hr
    · exact Or.inl (List.mem_of_mem_drop hr)
    · exact Or.inr hr
    · exact Or.inl (List.mem_of_mem_take hr)

end Naming

/-! ## What leaves them -/

namespace Lookups

/-- The requests held are left, and more is told. -/
structure Outside (s s' : Lookups Terms Narrowing) : Prop where
  naming : s'.naming = s.naming
  told : ∃ ts, s'.told = s.told ++ ts

lemma Outside.refl (s : Lookups Terms Narrowing) : Outside s s := ⟨rfl, [], by simp⟩

lemma Outside.trans {s t u : Lookups Terms Narrowing} (hst : Outside s t) (htu : Outside t u) :
    Outside s u := by
  obtain ⟨ts, ht⟩ := hst.told
  obtain ⟨us, hu⟩ := htu.told
  exact ⟨htu.naming.trans hst.naming, ts ++ us, by rw [hu, ht, List.append_assoc]⟩

lemma Outside.after {s t u : Lookups Terms Narrowing} (h : Outside t u)
    (naming : t.naming = s.naming) (told : t.told = s.told) : Outside s u :=
  ⟨h.naming.trans naming, h.told.imp fun _ hts => told ▸ hts⟩

lemma Outside.foldl {α : Type} {f : Lookups Terms Narrowing → α → Lookups Terms Narrowing}
    (h : ∀ s a, Outside s (f s a)) (l : List α) (s : Lookups Terms Narrowing) :
    Outside s (l.foldl f s) := by
  induction l generalizing s with
  | nil => exact .refl s
  | cons a l ih => exact (h s a).trans (ih _)

section Outside

variable {fails : ℕ → Option String} {s : Lookups Terms Narrowing} {n : ℕ}

lemma outside_handOver (d : ContractDefinition Terms Narrowing) : Outside s (s.handOver n d) := by
  unfold handOver
  split
  · exact ⟨rfl, [], by simp⟩
  · split_ifs
    · exact .refl s
    · exact ⟨rfl, _, rfl⟩

lemma outside_failLookup (code : ℤ) (why : String) : Outside s (s.failLookup n code why) :=
  ⟨rfl, _, rfl⟩

lemma outside_queueOrRefuse {terms : LookupTerms Narrowing}
    {queue : Lookups Terms Narrowing → Lookups Terms Narrowing}
    (hqueue : ∀ t : Lookups Terms Narrowing, Outside t (queue t)) :
    Outside s (queueOrRefuse n queue (s.writeLookup fails n terms)) := by
  have hwritten : Outside s (s.writeLookup fails n terms).2 := by
    unfold writeLookup
    split_ifs
    · split <;> exact ⟨rfl, [], by simp⟩
    · exact .refl s
  unfold queueOrRefuse
  split
  · rename_i t heq
    rw [heq] at hwritten
    exact hwritten.trans (hqueue t)
  · rename_i why t heq
    rw [heq] at hwritten
    split_ifs
    · exact hwritten.trans (hqueue t)
    · exact hwritten.trans (outside_failLookup _ _)

lemma outside_sendSecdefRequest (conId : ℤ) (exchange : String) (now : ℕ) :
    Outside s (s.sendSecdefRequest fails n conId exchange now) := by
  unfold sendSecdefRequest
  exact Outside.after (outside_queueOrRefuse fun _ => ⟨rfl, [], by simp⟩) rfl rfl

lemma outside_sendSecdefRequestBySymbol (d : Description Narrowing) (now : ℕ) :
    Outside s (s.sendSecdefRequestBySymbol fails n d now) :=
  outside_queueOrRefuse fun _ => ⟨rfl, [], by simp⟩

lemma outside_sendContractDetailsLookup (d : Description Narrowing) (now : ℕ) :
    Outside s (s.sendContractDetailsLookup fails n d now) := by
  unfold sendContractDetailsLookup
  refine Outside.trans ?_ (outside_sendSecdefRequestBySymbol d now)
  split_ifs <;> exact ⟨rfl, [], by simp⟩

lemma outside_endLookup (now : ℕ) : Outside s (s.endLookup fails n now) := by
  unfold endLookup
  split
  · exact ⟨rfl, _, rfl⟩
  · split_ifs
    · exact (outside_sendSecdefRequestBySymbol _ now).after rfl rfl
    all_goals
      dsimp only
      split_ifs <;> exact ⟨rfl, _, by simp [tell, handHeld]; rfl⟩

lemma outside_refuseLookup (code : ℤ) (why : String) (now : ℕ) :
    Outside s (s.refuseLookup fails n code why now) := by
  unfold refuseLookup
  split_ifs
  · exact outside_endLookup now
  · exact outside_failLookup code why

lemma outside_deliverListings (reply : DefinitionReply Terms Narrowing) :
    Outside s (s.deliverListings n reply) := by
  unfold deliverListings
  split_ifs
  · exact Outside.foldl (fun _ d => outside_handOver d) _ s
  · exact .refl s

lemma outside_endBehindItsRow (now : ℕ) : Outside s (s.endBehindItsRow fails n now) := by
  unfold endBehindItsRow
  split_ifs
  · exact ⟨rfl, [], by simp⟩
  · exact outside_endLookup now

lemma outside_answerLeg (leg : LegName) (flat : Option (ContractDefinition Terms Narrowing))
    (now : ℕ) (p : PendingFanout) : Outside s (s.answerLeg fails leg flat now p) := by
  have hhanded : Outside s (s.handLeg p.apiReqId flat) := by
    unfold handLeg
    split
    · split_ifs
      · exact outside_handOver _
      · exact .refl s
    · exact .refl s
  refine hhanded.trans ?_
  unfold answerLeg
  dsimp only
  split_ifs
  · exact (outside_endBehindItsRow now).after rfl rfl
  · exact ⟨rfl, [], by simp⟩

lemma outside_takeRow (d : ContractDefinition Terms Narrowing) (isLast : Bool) (now : ℕ) :
    Outside s (s.takeRow fails n d isLast now) := by
  unfold takeRow
  split_ifs
  · exact .refl s
  · exact (outside_handOver d).trans (outside_endLookup now)
  · exact outside_handOver d
  · exact ⟨rfl, [], by simp⟩

lemma outside_dropBySymbol : Outside s (s.dropBySymbol n) := ⟨rfl, [], by simp [dropBySymbol]⟩

lemma outside_fanOut (exchanges : List String) (now : ℕ) :
    Outside s (s.fanOut fails n exchanges now) := by
  unfold fanOut
  dsimp only
  split_ifs
  · exact outside_dropBySymbol
  · exact outside_dropBySymbol.trans (outside_endBehindItsRow now)
  · exact ⟨rfl, [], by simp [dropBySymbol]⟩

lemma outside_readSchedule (joinKey : String) (schedule : Option Schedule) (now : ℕ) :
    Outside s (s.readSchedule fails joinKey schedule now) := by
  unfold readSchedule
  split
  · exact .refl s
  · rename_i p _
    dsimp only
    split_ifs
    · exact ((outside_handOver _).trans (outside_endLookup now)).after rfl rfl
    · exact (outside_handOver _).after rfl rfl

lemma outside_readReject (stated : Option ℕ) (alone : Bool) (reason : String) (now : ℕ) :
    Outside s (s.readReject fails stated alone reason now) := by
  unfold readReject
  dsimp only
  split
  · exact .refl s
  · split_ifs
    · exact ⟨rfl, [], by simp⟩
    · exact (outside_refuseLookup _ _ now).after rfl rfl

lemma outside_sweepPairs (now : ℕ) : Outside s (s.sweepPendingSchedulePairs fails now) := by
  have hemit : ∀ (s : Lookups Terms Narrowing) p, Outside s (s.emitRow fails now p) := by
    intro s p
    unfold emitRow
    dsimp only
    split_ifs
    · exact (outside_handOver _).trans (outside_endLookup now)
    · exact outside_handOver _
  exact (Outside.foldl hemit _ _).after rfl rfl

lemma outside_sweepDetails (now : ℕ) : Outside s (s.sweepContractDetails now) := by
  unfold sweepContractDetails
  extract_lets idle due expired swept code why
  exact (Outside.foldl (fun _ _ => outside_failLookup _ _) _ _).after rfl rfl

end Outside

/-! ## Giving up and letting go -/

section Steps

variable {fails : ℕ → Option String} {s s' : Lookups Terms Narrowing} {n : ℕ}

structure Accounts (s : Lookups Terms Narrowing) : Prop where
  accounted : s.naming.Accounted
  told : (s.naming.abandoned.flatMap (·.told)).Sublist s.told

lemma Accounts.outside (h : s.Accounts) (hout : Outside s s') : s'.Accounts := by
  obtain ⟨ts, hts⟩ := hout.told
  refine ⟨hout.naming ▸ h.accounted, ?_⟩
  rw [hout.naming, hts]
  exact h.told.trans (List.sublist_append_left _ _)

lemma Accounts.giveUp (h : s.Accounts) {left hs : List (HeldRequest Terms Narrowing)}
    (hsplit : s.naming.pendingNamed.Perm (hs ++ left))
    {told : HeldRequest Terms Narrowing → List (Told Terms Narrowing)}
    (htold : ∀ held ∈ hs, held.command.Callers →
      refusals (told held) = held.command.requestId.toList) :
    ({ s with naming := { s.naming with pendingNamed := left } }.giveUp hs told).Accounts := by
  refine ⟨h.accounted.abandon hsplit htold, ?_⟩
  simp only [Lookups.giveUp, Naming.abandon, List.flatMap_append, List.flatMap_map]
  exact h.told.append (List.Sublist.refl _)

lemma refusals_of_not_unspoken {held : HeldRequest Terms Narrowing} (listings : ℕ)
    (h : ¬held.command.Unspoken) : held.command.Callers →
      refusals (held.command.abandonNamed listings) = held.command.requestId.toList :=
  fun hcallers => (Request.refusals_abandonNamed hcallers listings).2 h

lemma Accounts.giveUpBehind (h : s.Accounts) {held : HeldRequest Terms Narrowing}
    (hheld : s.naming.behind n = some held) (hspoken : ¬held.command.Unspoken) (listings : ℕ) :
    ({ s with naming := s.naming.takeOut n }.giveUp [held]
      fun h => h.command.abandonNamed listings).Accounts := by
  refine h.giveUp (Removal.perm_eraseP hheld) fun one hone => ?_
  rw [List.mem_singleton.1 hone]
  exact refusals_of_not_unspoken listings hspoken

lemma Accounts.abandonHoldersOf (h : s.Accounts)
    (hspoken : ∀ held ∈ s.naming.behind n, ¬held.command.Unspoken) :
    (s.abandonHoldersOf n).Accounts := by
  unfold Lookups.abandonHoldersOf
  split
  · rename_i held hheld
    exact h.giveUpBehind hheld (hspoken held hheld) 0
  · exact h

lemma Accounts.releaseNamed (h : s.Accounts) {listings : ℕ}
    (hspoken : 1 < listings → ∀ held ∈ s.naming.behind n, ¬held.command.Unspoken)
    (d : ContractDefinition Terms Narrowing) : (s.releaseNamed n listings d).Accounts := by
  unfold Lookups.releaseNamed
  split
  · rename_i held hheld
    split_ifs with hmany
    · exact h.giveUpBehind hheld (hspoken hmany held hheld) listings
    · exact ⟨h.accounted.release hheld d, h.told⟩
  · exact h

/-! ## Every event -/

/-- **No request without words is given up**: the venue names one contract for it, and in time. -/
def Answerable (s : Lookups Terms Narrowing) : LookupEvent Terms Narrowing → Prop
  | .definition reply _ =>
      match reply.name, reply.flat with
      | .number n, some d =>
          (d.conId ≠ 0 ∧ 1 < reply.listings.length ∨
            d.conId = 0 ∧ s.awaits n = true ∧ isInternal n = true) →
          ∀ held ∈ s.naming.behind n, ¬held.command.Unspoken
      | _, _ => True
  | .sweepsNamed now => ∀ held ∈ s.naming.pendingNamed,
      namingTimeout ≤ now - held.askedAt → ¬held.command.Unspoken
  | _ => True

/-- What an event released was asked for under the number the venue's one definition answers. -/
def ReleasesRightly (fails : ℕ → Option String) (s : Lookups Terms Narrowing)
    (e : LookupEvent Terms Narrowing) : Prop :=
  ∀ r ∈ (s.step fails e).naming.resolvedNamed, r ∈ s.naming.resolvedNamed ∨
    ∃ reply now n held, e = .definition reply now ∧ reply.name = .number n ∧
      reply.listings.length ≤ 1 ∧ reply.flat = some r.definition ∧ r.definition.conId ≠ 0 ∧
      held ∈ s.naming.pendingNamed ∧ held.lookup = n ∧ held.ticket = r.ticket ∧
      held.command = r.asked

lemma resolvedNamed_abandonHoldersOf :
    (s.abandonHoldersOf n).naming.resolvedNamed = s.naming.resolvedNamed := by
  unfold Lookups.abandonHoldersOf
  split <;> rfl

lemma resolvedNamed_answerLookup (d : ContractDefinition Terms Narrowing) (isLastWire : Bool)
    (now : ℕ) (x : PendingSecdef) :
    (s.answerLookup fails d isLastWire now x).naming.resolvedNamed = s.naming.resolvedNamed := by
  unfold Lookups.answerLookup
  extract_lets n isLast exchanges taken
  have htaken : taken.naming.resolvedNamed = s.naming.resolvedNamed := rfl
  rw [← htaken]
  split_ifs
  · unfold takeNoContract
    split_ifs
    · rw [resolvedNamed_abandonHoldersOf]
      rfl
    · exact congrArg Naming.resolvedNamed
        (outside_dropBySymbol.trans (outside_refuseLookup _ _ now)).naming
  · rw [(outside_takeRow d true now).naming]
  · rw [((outside_takeRow d false now).trans (outside_fanOut _ now)).naming]

lemma Accounts.answerLookup (h : s.Accounts) {x : PendingSecdef}
    (d : ContractDefinition Terms Narrowing) (isLastWire : Bool) (now : ℕ)
    (hspoken : d.conId = 0 → isInternal x.reqId = true →
      ∀ held ∈ s.naming.behind x.reqId, ¬held.command.Unspoken) :
    (s.answerLookup fails d isLastWire now x).Accounts := by
  unfold Lookups.answerLookup
  extract_lets n isLast exchanges taken
  have htaken : taken.Accounts := ⟨h.accounted, h.told⟩
  split_ifs with hcon hlast
  · unfold takeNoContract
    split_ifs with hinternal
    · exact (htaken.outside outside_dropBySymbol).abandonHoldersOf (hspoken hcon hinternal)
    · exact (htaken.outside outside_dropBySymbol).outside (outside_refuseLookup _ _ now)
  · exact htaken.outside (outside_takeRow d true now)
  · exact htaken.outside ((outside_takeRow d false now).trans (outside_fanOut _ now))

lemma mem_resolvedNamed_releaseNamed {listings : ℕ} {d : ContractDefinition Terms Narrowing}
    {r : ReleasedRequest Terms Narrowing}
    (hr : r ∈ (s.releaseNamed n listings d).naming.resolvedNamed) :
    r ∈ s.naming.resolvedNamed ∨ listings ≤ 1 ∧ r.definition = d ∧
      ∃ held ∈ s.naming.pendingNamed, held.lookup = n ∧ held.ticket = r.ticket ∧
        held.command = r.asked := by
  unfold Lookups.releaseNamed at hr
  split at hr
  · rename_i held hheld
    split_ifs at hr with hmany
    · exact Or.inl hr
    · simp only [Naming.release, Naming.takeOut, List.mem_append, List.mem_singleton] at hr
      rcases hr with hr | rfl
      · exact Or.inl hr
      · exact Or.inr ⟨by omega, rfl, held, List.mem_of_find?_eq_some hheld,
          by simpa using List.find?_some hheld, rfl, rfl⟩
  · exact Or.inl hr

lemma pendingSecdef_deliverListings (n : ℕ) (reply : DefinitionReply Terms Narrowing) :
    (s.deliverListings n reply).pendingSecdef = s.pendingSecdef := by
  have hrows : ∀ (ds : List (ContractDefinition Terms Narrowing)) (s : Lookups Terms Narrowing),
      (ds.foldl (fun s d => s.handOver n d) s).pendingSecdef = s.pendingSecdef := by
    intro ds
    induction ds with
    | nil => exact fun s => rfl
    | cons d ds ih => exact fun s => (ih _).trans (handOver_pending s n d).1
  unfold deliverListings
  split_ifs
  · exact hrows _ s
  · rfl

lemma awaits_of_find {x : PendingSecdef} (h : s.pendingSecdef.find? (·.reqId == n) = some x) :
    s.awaits n = true ∧ x.reqId = n := by
  have hid := List.find?_some h
  exact ⟨List.any_eq_true.2 ⟨x, List.mem_of_find?_eq_some h, hid⟩, by simpa using hid⟩

theorem Accounts.readDefinition (h : s.Accounts) (reply : DefinitionReply Terms Narrowing)
    (now : ℕ) (hanswer : s.Answerable (.definition reply now)) :
    (s.readDefinition fails reply now).Accounts := by
  have hnoted : (s.noteScopes reply).Accounts := ⟨h.accounted, h.told⟩
  unfold Lookups.readDefinition
  extract_lets noted
  split
  · exact hnoted
  · split
    · exact hnoted.outside (outside_answerLeg _ _ now _)
    · exact hnoted
  · rename_i n hname
    extract_lets listed
    have hlisted : listed.Accounts := hnoted.outside (outside_deliverListings reply)
    have hnaming : listed.naming = s.naming := (outside_deliverListings reply).naming
    split
    · exact hlisted
    · rename_i d hflat
      simp only [Answerable, hname, hflat, ← hnaming] at hanswer
      dsimp only
      by_cases hcon : d.conId = 0
      · rw [if_neg (by simpa using hcon)]
        split
        · rename_i x hx
          rw [pendingSecdef_deliverListings] at hx
          obtain ⟨hawaits, hid⟩ := awaits_of_find (s := s) hx
          refine hlisted.answerLookup d _ now fun _ hinternal => ?_
          rw [hid] at hinternal ⊢
          exact hanswer (Or.inr ⟨hcon, hawaits, hinternal⟩)
        · exact hlisted
      · rw [if_pos hcon]
        have hnamed := hlisted.releaseNamed (n := n)
          (fun hmany => hanswer (Or.inl ⟨hcon, hmany⟩)) d
        split
        · exact hnamed.answerLookup d _ now fun hzero => absurd hzero hcon
        · exact hnamed

theorem releasesRightly_definition (reply : DefinitionReply Terms Narrowing) (now : ℕ) :
    s.ReleasesRightly fails (.definition reply now) := by
  intro r hr
  simp only [step, Lookups.readDefinition] at hr
  split at hr
  · exact Or.inl hr
  · split at hr
    · rw [(outside_answerLeg _ _ now _).naming] at hr
      exact Or.inl hr
    · exact Or.inl hr
  · rename_i n hname
    have hlisted : ((s.noteScopes reply).deliverListings n reply).naming = s.naming :=
      (outside_deliverListings reply).naming
    generalize (s.noteScopes reply).deliverListings n reply = listed at hr hlisted
    split at hr
    · rw [hlisted] at hr
      exact Or.inl hr
    · rename_i d hflat
      have hanswered : r ∈ (if d.conId ≠ 0 then listed.releaseNamed n reply.listings.length d
          else listed).naming.resolvedNamed := by
        split at hr
        · rwa [resolvedNamed_answerLookup] at hr
        · exact hr
      by_cases hcon : d.conId = 0
      · rw [if_neg (by simpa using hcon), hlisted] at hanswered
        exact Or.inl hanswered
      · rw [if_pos hcon] at hanswered
        refine (mem_resolvedNamed_releaseNamed hanswered).imp (hlisted ▸ id) ?_
        rintro ⟨hone, rfl, held, hheld, hlookup, hticket, hasked⟩
        rw [hlisted] at hheld
        exact ⟨reply, now, n, held, rfl, hname, hone, hflat, hcon, hheld, hlookup, hticket, hasked⟩

lemma Accounts.holdUntilNamed (h : s.Accounts) (cmd : Request Terms Narrowing) (unheld : Bool)
    (now : ℕ) : (s.holdUntilNamed fails cmd unheld now).2.Accounts := by
  have hpark : ∀ ask : ℕ → Lookups Terms Narrowing → Lookups Terms Narrowing,
      (∀ n t, Outside t (ask n t)) → (s.parkBehind cmd now ask).Accounts := by
    intro ask hask
    have hasked := h.outside ((hask s.nextInternalSecdefId
      { s with nextInternalSecdefId := (s.nextInternalSecdefId + 1) % 2 ^ 32 }).after rfl rfl)
    exact ⟨hasked.accounted.park _ cmd now, hasked.told⟩
  unfold Lookups.holdUntilNamed
  split_ifs
  · exact hpark _ fun _ _ => outside_sendSecdefRequest _ _ now
  · split
    · exact hpark _ fun _ _ => outside_sendSecdefRequest _ _ now
    · split
      · split_ifs
        · exact h.outside ⟨rfl, _, rfl⟩
        · exact hpark _ fun _ _ => outside_sendSecdefRequestBySymbol _ now
      · exact h

lemma Accounts.sweepPendingNamed (h : s.Accounts) {now : ℕ} (hanswer : s.Answerable (.sweepsNamed now)) :
    (s.sweepPendingNamed now).Accounts := by
  unfold Lookups.sweepPendingNamed
  extract_lets waits
  have hsplit : s.naming.pendingNamed.Perm
      ((s.naming.pendingNamed.filter fun h => !waits h) ++ s.naming.pendingNamed.filter waits) :=
    ((List.filter_append_perm waits _).symm.trans List.perm_append_comm)
  refine h.giveUp hsplit fun held hheld => refusals_of_not_unspoken 0 ?_
  obtain ⟨hmem, hlate⟩ := List.mem_filter.1 hheld
  exact hanswer held hmem (by simpa [waits] using hlate)

lemma Accounts.failPendingLookups (h : s.Accounts) (now : ℕ) :
    (s.failPendingLookups fails now).Accounts := by
  unfold Lookups.failPendingLookups
  extract_lets unended ended cleared emitted failed
  have hemitted : Outside s emitted := (outside_sweepPairs now).after rfl rfl
  have hfailed : Outside s failed := hemitted.trans
    ((Outside.foldl (fun _ _ => outside_failLookup _ _) ended _).after rfl rfl)
  exact (h.outside hfailed).giveUp (by simp) fun held _ _ =>
    Request.refusals_refusedUnanswered held.command _

/-- Whether an event is none of the business of the requests held. -/
def isOutside : LookupEvent Terms Narrowing → Bool
  | .definition .. | .sweepsNamed _ | .drops _ | .holds .. | .withdraws .. | .takes _ => false
  | _ => true

lemma outside_step {e : LookupEvent Terms Narrowing} (h : isOutside e = true) :
    Outside s (s.step fails e) := by
  have htell : ∀ t, Outside s (s.tell t) := fun t => ⟨rfl, [t], rfl⟩
  cases e with
  | asksById n conId exchange now =>
      exact (htell _).trans (outside_sendSecdefRequest conId exchange now)
  | asksByDescription n d now => exact (htell _).trans (outside_sendContractDetailsLookup d now)
  | schedule joinKey schedule now => exact outside_readSchedule joinKey schedule now
  | reject stated alone reason now => exact outside_readReject stated alone reason now
  | sweepsPairs now => exact outside_sweepPairs now
  | sweepsDetails now => exact outside_sweepDetails now
  | sessionEnds reason => exact ⟨rfl, [], by simp [Lookups.step]⟩
  | connects => exact ⟨rfl, [], by simp [Lookups.step]⟩
  | definition | sweepsNamed | drops | holds | withdraws | takes => simp [isOutside] at h

/-- **Every answerable event accounts for the requests held.** -/
theorem Accounts.step (h : s.Accounts) {e : LookupEvent Terms Narrowing} (he : s.Answerable e) :
    (s.step fails e).Accounts := by
  by_cases hout : isOutside e = true
  · exact h.outside (outside_step hout)
  cases e with
  | definition reply now => exact h.readDefinition reply now he
  | sweepsNamed now => exact h.sweepPendingNamed he
  | drops now => exact h.failPendingLookups now
  | holds cmd unheld now => exact h.holdUntilNamed cmd unheld now
  | withdraws n kind => exact ⟨h.accounted.withdraw n kind, h.told⟩
  | takes count => exact ⟨h.accounted.take count, h.told⟩
  | asksById | asksByDescription | schedule | reject | sweepsPairs | sweepsDetails | sessionEnds
    | connects => exact absurd rfl hout

lemma resolvedNamed_holdUntilNamed (cmd : Request Terms Narrowing) (unheld : Bool) (now : ℕ) :
    (s.holdUntilNamed fails cmd unheld now).2.naming.resolvedNamed = s.naming.resolvedNamed := by
  have hpark : ∀ ask : ℕ → Lookups Terms Narrowing → Lookups Terms Narrowing,
      (∀ n t, Outside t (ask n t)) →
        (s.parkBehind cmd now ask).naming.resolvedNamed = s.naming.resolvedNamed := by
    intro ask hask
    have hasked := (hask s.nextInternalSecdefId
      { s with nextInternalSecdefId := (s.nextInternalSecdefId + 1) % 2 ^ 32 }).naming
    exact (congrArg Naming.resolvedNamed hasked :)
  unfold Lookups.holdUntilNamed
  split_ifs
  · exact hpark _ fun _ _ => outside_sendSecdefRequest _ _ now
  · split
    · exact hpark _ fun _ _ => outside_sendSecdefRequest _ _ now
    · split
      · split_ifs
        · rfl
        · exact hpark _ fun _ _ => outside_sendSecdefRequestBySymbol _ now
      · rfl

lemma resolvedNamed_failPendingLookups (now : ℕ) :
    (s.failPendingLookups fails now).naming.resolvedNamed = s.naming.resolvedNamed := by
  unfold Lookups.failPendingLookups
  extract_lets unended ended cleared emitted failed
  have hemitted : Outside s emitted := (outside_sweepPairs now).after rfl rfl
  have hfailed : Outside s failed := hemitted.trans
    ((Outside.foldl (fun _ _ => outside_failLookup _ _) ended _).after rfl rfl)
  exact (congrArg Naming.resolvedNamed hfailed.naming :)

/-- **An event releases what the definition it reads names, and nothing else.** -/
theorem releasesRightly (e : LookupEvent Terms Narrowing) : s.ReleasesRightly fails e := by
  by_cases hout : isOutside e = true
  · intro r hr
    rw [(outside_step hout).naming] at hr
    exact Or.inl hr
  cases e with
  | definition reply now => exact releasesRightly_definition reply now
  | sweepsNamed now => exact fun r hr => Or.inl hr
  | drops now => exact fun r hr => Or.inl (resolvedNamed_failPendingLookups now ▸ hr)
  | holds cmd unheld now => exact fun r hr => Or.inl (resolvedNamed_holdUntilNamed cmd unheld now ▸ hr)
  | withdraws n kind => exact fun r hr => Or.inl (List.mem_filter.1 hr).1
  | takes count => exact fun r hr => Or.inl (List.mem_of_mem_drop hr)
  | asksById | asksByDescription | schedule | reject | sweepsPairs | sweepsDetails | sessionEnds
    | connects => exact absurd rfl hout

end Steps

/-! ## Runs -/

/-- **What an event owes the requests held.** -/
structure Handled (fails : ℕ → Option String) (s : Lookups Terms Narrowing)
    (e : LookupEvent Terms Narrowing) : Prop where
  /-- Each is in one place, and its caller heard of it what it should. -/
  accounts : (s.step fails e).Accounts
  /-- One is released for the one contract its lookup names. -/
  releases : s.ReleasesRightly fails e
  /-- None waits longer than the naming may take. -/
  inTime : ∀ now, e = .sweepsNamed now →
    ∀ held ∈ (s.step fails e).naming.pendingNamed, now - held.askedAt < namingTimeout
  /-- None waits for a connection that is gone. -/
  gone : ∀ now, e = .drops now → (s.step fails e).naming.pendingNamed = []

section Runs

variable {fails : ℕ → Option String}

lemma Accounts.handled {s : Lookups Terms Narrowing} (h : s.Accounts)
    {e : LookupEvent Terms Narrowing} (he : s.Answerable e) : s.Handled fails e := by
  refine ⟨h.step he, releasesRightly e, ?_, ?_⟩
  · rintro now rfl held hheld
    simpa using (List.mem_filter.1 hheld).2
  · rintro now rfl
    rfl

/-- **A request held until its contract is named is accounted for**, in every run whose events are
answerable. -/
theorem held_requests_accounted_for (es : List (LookupEvent Terms Narrowing))
    (hrun : Runs.Along (step fails) Answerable ({} : Lookups Terms Narrowing) es) :
    Runs.Along (step fails) (Handled fails) {} es := by
  have hopened : ({} : Lookups Terms Narrowing).Accounts :=
    ⟨⟨rfl, rfl, by simp, by simp⟩, List.Sublist.refl _⟩
  have hstep : ∀ (s : Lookups Terms Narrowing) e, s.Accounts → s.Answerable e →
      (s.step fails e).Accounts := fun s e h he => h.step he
  exact hrun.mono hstep (fun s e h he => h.handled he) hopened

end Runs

/-! ## A snapshot whose definition never comes -/

instance [DecidableEq Terms] (cmd : Request Terms Narrowing) : Decidable cmd.Unspoken :=
  inferInstanceAs (Decidable ((cmd.engineOwned = false ∧ cmd.requestId ≠ none) ∧
    cmd.namedByIdAlone = none ∧ cmd.contractNamed = none))

instance [DecidableEq Terms] (s : Lookups Terms Narrowing) : DecidablePred s.Answerable := fun e =>
  match e with
  | .definition ⟨.number n, listings, some d, _⟩ _ =>
      inferInstanceAs (Decidable ((d.conId ≠ 0 ∧ 1 < listings.length ∨
        d.conId = 0 ∧ s.awaits n = true ∧ isInternal n = true) →
        ∀ held ∈ s.naming.behind n, ¬held.command.Unspoken))
  | .definition ⟨.number _, _, none, _⟩ _ | .definition ⟨.leg _, _, _, _⟩ _
  | .definition ⟨.neither, _, _, _⟩ _ => isTrue trivial
  | .sweepsNamed now =>
      inferInstanceAs (Decidable (∀ held ∈ s.naming.pendingNamed,
        namingTimeout ≤ now - held.askedAt → ¬held.command.Unspoken))
  | .asksById .. | .asksByDescription .. | .schedule .. | .reject .. | .sweepsPairs _
    | .sweepsDetails _ | .sessionEnds _ | .drops _ | .connects | .holds .. | .withdraws ..
    | .takes _ => isTrue trivial

/-- A chargeable snapshot of a share, its id, type and exchange stated. -/
def snapshotOfAShare : Request Unit Unit where
  kind := .subscribe true
  reqId := 5
  contract := ⟨265598, "AAPL", "STK", "SMART", "USD", ()⟩
  filters := { narrowing := () }

def barsOfAFuture : Request Unit Unit where
  kind := .historical
  reqId := 6
  contract := ⟨0, "ES", "FUT", "CME", "USD", ()⟩
  filters := { narrowing := () }

def namedFuture : ContractDefinition Unit Unit where
  conId := 495512563
  symbol := "ES"
  secType := "FUT"
  exchange := "CME"
  currency := "USD"
  terms := ()
  narrowing := ()
  multiplier := 50
  validExchanges := ["CME"]
  joinKey := ""

/-- The bars are named and released, a book by description is never named, and the connection goes
while the snapshot waits. -/
def threeHeld : List (LookupEvent Unit Unit) :=
  [.holds barsOfAFuture false 0, .holds { barsOfAFuture with kind := .depth true, reqId := 8 } false 0,
    .definition ⟨.number 4026531840, [namedFuture], some namedFuture, false⟩ 100, .sweepsNamed 12000,
    .holds snapshotOfAShare true 13000, .drops 14000]

theorem held_requests_accounted_for_three :
    Runs.Along (step fun _ => none) (Handled fun _ => none) {} threeHeld ∧
      (Runs.run (step fun _ => none) {} threeHeld).naming.abandoned.map (·.asked.reqId) = [8, 5] ∧
      (Runs.run (step fun _ => none) {} threeHeld).naming.resolvedNamed.map
        (·.command.contract.conId) = [495512563] :=
  ⟨held_requests_accounted_for _ (by decide), by decide, by decide⟩

/-- **A snapshot whose definition never comes is dropped**, and its caller is told nothing. -/
theorem not_held_requests_accounted_for :
    ¬ ∀ (fails : ℕ → Option String) (es : List (LookupEvent Unit Unit)),
      Runs.Along (step fails) (Handled fails) {} es := by
  intro h
  have hswept := (h (fun _ => none) [.holds snapshotOfAShare true 0, .sweepsNamed 12000]).2.1
  have hlost : (Runs.run (step fun _ => none) {} [.holds snapshotOfAShare true 0,
      .sweepsNamed 12000]).naming.abandoned.map
        (fun a => (a.asked.engineOwned, a.asked.requestId, refusals a.told))
      = [(false, some 5, [])] := by
    decide
  obtain ⟨a, ha, hwhat⟩ := List.map_eq_singleton_iff.1 hlost
  obtain ⟨howned, hid, htold⟩ : a.asked.engineOwned = false ∧ a.asked.requestId = some 5 ∧
      refusals a.told = [] := by simpa using hwhat
  have hrefused := hswept.accounts.accounted.refused a (ha ▸ List.mem_singleton_self a)
    ⟨howned, by simp [hid]⟩
  simp [hid, htold] at hrefused

end Lookups

end IbkrDx
