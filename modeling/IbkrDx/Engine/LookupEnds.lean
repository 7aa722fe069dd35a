import IbkrDx.Engine.LookupViews
import IbkrDx.Lib.Runs

/-!
# A lookup ends once, behind its rows

Whatever a number waits for is one thing at a time: a lookup on the wire, one asked of each venue,
or a row that waits for its trading hours.  Every event leaves it so, and the sweeps and the
connection's end take that one thing away.

* **`Lookups.sweepPairs_self`**, **`Lookups.sweepDetails_self`** — what a deadline does.
* **`Lookups.idle_failPendingLookups`** — what the end of the connection does.
* **`Lookups.lookups_end_once`** — in every run that is lawful for a number.
  `not_lookups_end_once` is a continuous future whose lead month is listed.
-/

namespace IbkrDx

variable {Terms Narrowing : Type}

namespace Lookups

/-! ## What the events are made of -/

section Parts

variable {fails : ℕ → Option String} {s : Lookups Terms Narrowing} {n r : ℕ} {listed : List ℕ}

lemma entries_handOver (d : ContractDefinition Terms Narrowing) :
    ((s.handOver n d).view r).entries = (s.view r).entries := by
  simp [view, (handOver_pending s n d).1]

lemma legs_handOver (d : ContractDefinition Terms Narrowing) :
    ((s.handOver n d).view r).legs = (s.view r).legs := by
  simp [view, (handOver_pending s n d).2.1]

lemma parked_handOver (d : ContractDefinition Terms Narrowing) :
    ((s.handOver n d).view r).parked = (s.view r).parked := by
  simp [view, (handOver_pending s n d).2.2]

lemma continuous_handOver {d : ContractDefinition Terms Narrowing}
    {asked : ContinuousLookup Terms Narrowing}
    (h : asked ∈ ((s.handOver r d).view r).continuous) :
    ∃ before ∈ (s.view r).continuous, asked.listedToo = before.listedToo ∧
      asked.askingListed = before.askingListed := by
  unfold handOver at h
  cases hholding : s.holding r with
  | some before =>
      obtain ⟨hbefore, -⟩ := Option.filter_eq_some_iff.1 hholding
      rw [hholding] at h
      obtain rfl : before.keep d = asked := by simpa [view] using h
      refine ⟨before, hbefore, ?_, ContinuousLookup.askingListed_keep before d⟩
      unfold ContinuousLookup.keep
      split_ifs <;> rfl
  | none =>
      rw [hholding] at h
      dsimp only at h
      split_ifs at h
      · exact ⟨asked, h, rfl, rfl⟩
      · cases hlook : s.continuousLookups.lookup r with
        | none => simp [view, hlook] at h
        | some before =>
            obtain rfl : before.found = asked := by simpa [view, hlook] using h
            exact ⟨before, hlook, rfl, rfl⟩

lemma free_handOver (h : (s.view r).Free) (d : ContractDefinition Terms Narrowing) :
    ((s.handOver n d).view r).Free :=
  ⟨(entries_handOver d).trans h.entries, (legs_handOver d).trans h.legs,
    (parked_handOver d).trans h.parked⟩

variable {x : PendingSecdef}

lemma reqId_of_mem (h : x ∈ (s.view r).entries) : x.reqId = r := by
  simp only [view, Multiset.mem_coe, List.mem_filter, decide_eq_true_eq] at h
  exact h.2

lemma apiReqId_of_mem {p : PendingFanout} (h : p ∈ (s.view r).legs) : p.apiReqId = r := by
  simp only [view, Multiset.mem_coe, List.mem_filter, decide_eq_true_eq] at h
  exact h.2

lemma speaking_of_ne (h : (s.view r).Sound) (hsome : ¬(s.view r).Free) :
    (∃ listed, (s.view r).Speaking listed) ∧ (s.view r).Carried :=
  h.resolve_left fun hidle => hsome hidle.free

lemma view_foldl {α : Type} {f : Lookups Terms Narrowing → α → Lookups Terms Narrowing}
    (h : ∀ s a, (f s a).view r = s.view r) (l : List α) (s : Lookups Terms Narrowing) :
    (l.foldl f s).view r = s.view r := by
  induction l generalizing s with
  | nil => rfl
  | cons a l ih => exact (ih _).trans (h s a)

lemma speaking_foldl_handOver (h : (s.view r).Speaking listed)
    (ds : List (ContractDefinition Terms Narrowing)) :
    ∃ t, t = ds.foldl (fun s d => s.handOver r d) s ∧ (∃ listed', (t.view r).Speaking listed') ∧
      (t.view r).entries = (s.view r).entries ∧ (t.view r).legs = (s.view r).legs ∧
      (t.view r).parked = (s.view r).parked := by
  induction ds generalizing s listed with
  | nil => exact ⟨s, rfl, ⟨listed, h⟩, rfl, rfl, rfl⟩
  | cons d ds ih =>
      obtain ⟨listed', h'⟩ := speaking_handOver h d
      obtain ⟨t, ht, hspeaks, hentries, hlegs, hparked⟩ := ih h'
      exact ⟨t, ht, hspeaks, hentries.trans (entries_handOver d), hlegs.trans (legs_handOver d),
        hparked.trans (parked_handOver d)⟩

lemma sound_deliverListings (h : (s.view r).Sound) (n : ℕ)
    (reply : DefinitionReply Terms Narrowing) : ((s.deliverListings n reply).view r).Sound := by
  unfold deliverListings
  split_ifs with hseveral
  · by_cases hn : n = r
    · subst hn
      have hsome : ¬(s.view n).Free := by
        intro hfree
        obtain ⟨x, hx, hid⟩ := List.any_eq_true.1 hseveral.2.2
        have hnone : s.pendingSecdef.filter (fun y => y.reqId = n) = [] := by
          simpa [view] using hfree.entries
        exact List.filter_eq_nil_iff.1 hnone x hx (by simpa using hid)
      obtain ⟨⟨listed, hspeaks⟩, hcarried⟩ := speaking_of_ne h hsome
      obtain ⟨t, ht, hspeaks', hentries, hlegs, hparked⟩ := speaking_foldl_handOver hspeaks
        (reply.listings.filter fun d => d.conId ≠ 0 ∧ reply.flat.map (·.conId) ≠ some d.conId)
      rw [← ht]
      exact Or.inr ⟨hspeaks', hcarried.of_eq hentries hlegs hparked⟩
    · rw [view_foldl fun s d => view_handOver_of_ne hn d]
      exact h
  · exact h

lemma view_endBehindItsRow_of_ne (h : n ≠ r) (now : ℕ) :
    (s.endBehindItsRow fails n now).view r = s.view r := by
  unfold endBehindItsRow
  split_ifs with hany
  · obtain ⟨q, hq⟩ := Option.isSome_iff_exists.1 (List.find?_isSome.2 (List.any_eq_true.1 hany))
    have hid : q.apiReqId = n := by simpa using List.find?_some hq
    have hparked := Removal.filter_modifyFirst_of_not
      (q := fun p : PendingSchedulePair Terms Narrowing => decide (p.apiReqId = r))
      (f := fun p => { p with isLast := true }) hq (by simpa [hid] using h) (by simpa [hid] using h)
    simp only [view, hearing] at hparked ⊢
    rw [hparked]
  · exact view_endLookup_of_ne h now

lemma sound_endBehindItsRow (hr : isInternal r = false) (h : (s.view r).Speaking listed)
    (hentries : (s.view r).entries = 0) (hlegs : (s.view r).legs = 0)
    (hparked : (s.view r).parked = 0 ∨ ∃ q, (s.view r).parked = {q}) (now : ℕ) :
    ((s.endBehindItsRow fails r now).view r).Sound := by
  unfold endBehindItsRow
  split_ifs with hany
  · obtain ⟨a, ha⟩ := Option.isSome_iff_exists.1 (List.find?_isSome.2 (List.any_eq_true.1 hany))
    have hid : a.apiReqId = r := by simpa using List.find?_some ha
    have hmem : a ∈ (s.view r).parked := by
      simpa [view, hid] using List.mem_of_find?_eq_some ha
    rcases hparked with hnone | ⟨q, hq⟩
    · simp [hnone] at hmem
    · obtain ⟨rfl, hmarked⟩ := Removal.filter_modifyFirst_of_single
        (q := fun p : PendingSchedulePair Terms Narrowing => decide (p.apiReqId = r))
        (f := fun p => { p with isLast := true }) ha
        (by simp [hid]) (by simp [hid]) hq
      exact Or.inr ⟨⟨listed, h.hearing, h.delivered, h.heldOnce, h.behind⟩,
        .row _ hentries hlegs hmarked rfl⟩
  · refine sound_endLookup hr h ⟨hentries, hlegs, ?_⟩ now
    have hnone : s.pendingSchedulePair.filter (fun p => p.apiReqId = r) = [] :=
      List.filter_eq_nil_iff.2 fun p hp hid => hany
        (List.any_eq_true.2 ⟨p, hp, by simpa using hid⟩)
    simp [view, hnone]

lemma view_dropBySymbol_of_ne (h : n ≠ r) : (s.dropBySymbol n).view r = s.view r := by
  have hfilter : (s.pendingSecdef.filter fun y => y.reqId ≠ n ∨ y.singleShot = true).filter
      (fun x => decide (x.reqId = r)) = s.pendingSecdef.filter fun x => decide (x.reqId = r) := by
    rw [List.filter_filter]
    refine List.filter_congr fun x _ => ?_
    by_cases hx : x.reqId = r
    · simp [hx, Ne.symm h]
    · simp [hx]
  simp only [view, hearing, dropBySymbol, hfilter]

lemma entries_dropBySymbol (h : ∀ x ∈ (s.view r).entries, x.singleShot = false) :
    ((s.dropBySymbol r).view r).entries = 0 := by
  simp only [view, Multiset.mem_coe, List.mem_filter, decide_eq_true_eq, and_imp] at h
  simp only [view, dropBySymbol, List.filter_filter, Multiset.coe_eq_zero, List.filter_eq_nil_iff]
  intro x hx
  simpa using fun hid => ⟨hid, h x hx hid⟩

lemma view_takeRow_of_ne (h : n ≠ r) (d : ContractDefinition Terms Narrowing) (isLast : Bool)
    (now : ℕ) : (s.takeRow fails n d isLast now).view r = s.view r := by
  unfold takeRow
  split_ifs
  · rfl
  · rw [view_endLookup_of_ne h, view_handOver_of_ne h]
  · exact view_handOver_of_ne h d
  · simp [view, hearing, h]

lemma view_fanOut_of_ne (h : n ≠ r) (exchanges : List String) (now : ℕ) :
    (s.fanOut fails n exchanges now).view r = s.view r := by
  unfold fanOut
  dsimp only
  split_ifs
  · exact view_dropBySymbol_of_ne h
  · rw [view_endBehindItsRow_of_ne h, view_dropBySymbol_of_ne h]
  · rw [← view_dropBySymbol_of_ne (s := s) h]
    simp [view, hearing, h]

lemma sound_takeNoContract (hr : isInternal r = false) (h : (s.view r).Speaking listed)
    (hentries : ∀ x ∈ (s.view r).entries, x.singleShot = false) (hlegs : (s.view r).legs = 0)
    (hparked : (s.view r).parked = 0) (now : ℕ) :
    ((s.takeNoContract fails r now).view r).Sound := by
  unfold takeNoContract
  rw [if_neg (by simp [hr])]
  have hspeaks : ((s.dropBySymbol r).view r).Speaking listed :=
    ⟨h.hearing, h.delivered, h.heldOnce, h.behind⟩
  exact sound_refuseLookup hr hspeaks ⟨entries_dropBySymbol hentries, hlegs, hparked⟩ _ _ now

lemma view_giveUp {hs : List (HeldRequest Terms Narrowing)}
    {told : HeldRequest Terms Narrowing → List (Told Terms Narrowing)}
    (h : ∀ held ∈ hs, ∀ t ∈ told held, t.Aside r) : (s.giveUp hs told).view r = s.view r := by
  refine view_eq ⟨hs.flatMap told, rfl, fun t ht => ?_⟩ rfl rfl rfl rfl rfl
  obtain ⟨held, hheld, ht⟩ := List.mem_flatMap.1 ht
  exact h held hheld t ht

lemma view_abandonHoldersOf (n : ℕ) : (s.abandonHoldersOf n).view r = s.view r := by
  unfold abandonHoldersOf
  split
  · rename_i held _
    rw [view_giveUp fun _ _ => Request.aside_abandonNamed r _ 0]
    rfl
  · rfl

lemma view_releaseNamed (n listings : ℕ) (d : ContractDefinition Terms Narrowing) :
    (s.releaseNamed n listings d).view r = s.view r := by
  unfold releaseNamed
  split
  · split_ifs
    · rw [view_giveUp fun _ _ => Request.aside_abandonNamed r _ listings]
      rfl
    · rfl
  · rfl

lemma view_takeNoContract_of_ne (h : n ≠ r) (now : ℕ) :
    (s.takeNoContract fails n now).view r = s.view r := by
  unfold takeNoContract
  split_ifs
  · rw [view_abandonHoldersOf, view_dropBySymbol_of_ne h]
  · rw [view_refuseLookup_of_ne h, view_dropBySymbol_of_ne h]

lemma sound_takeRow (hr : isInternal r = false) (h : (s.view r).Speaking listed)
    (hfree : (s.view r).Free) (d : ContractDefinition Terms Narrowing) (now : ℕ) :
    ((s.takeRow fails r d true now).view r).Sound := by
  unfold takeRow
  rw [if_neg (by simp [hr])]
  by_cases hkey : d.joinKey = ""
  · rw [if_pos hkey, if_pos rfl]
    obtain ⟨listed', h'⟩ := speaking_handOver h d
    exact sound_endLookup hr h' (free_handOver hfree d) now
  · rw [if_neg hkey]
    have hnone : s.pendingSchedulePair.filter (fun p => p.apiReqId = r) = [] := by
      simpa [view] using hfree.parked
    refine Or.inr ⟨⟨listed, h.hearing, h.delivered, h.heldOnce, h.behind⟩,
      .row ⟨r, d.joinKey, d, true, now + scheduleTimeout⟩ hfree.entries hfree.legs ?_ rfl⟩
    simp [view, List.filter_append, hnone]

lemma sound_fanOut (hr : isInternal r = false) (h : (s.view r).Speaking listed)
    (hentries : ∀ x ∈ (s.view r).entries, x.singleShot = false) (hlegs : (s.view r).legs = 0)
    (hparked : (s.view r).parked = 0 ∨ ∃ q, (s.view r).parked = {q} ∧ q.isLast = false)
    (exchanges : List String) (now : ℕ) : ((s.fanOut fails r exchanges now).view r).Sound := by
  unfold fanOut
  dsimp only
  have hspeaks : ((s.dropBySymbol r).view r).Speaking listed :=
    ⟨h.hearing, h.delivered, h.heldOnce, h.behind⟩
  have hnone := entries_dropBySymbol hentries
  rw [if_neg (by simp [hr])]
  split_ifs
  · exact sound_endBehindItsRow hr hspeaks hnone hlegs (hparked.imp_right fun ⟨q, hq, _⟩ => ⟨q, hq⟩) now
  · have hnolegs : s.pendingFanout.filter (fun p => p.apiReqId = r) = [] := by
      simpa [view] using hlegs
    refine Or.inr ⟨⟨listed, h.hearing, h.delivered, h.heldOnce, h.behind⟩,
      .legs ⟨r, (List.range exchanges.length).map fun i => (r, (s.nextFanoutId + i) % 2 ^ 32), [],
        now + secdefTimeout⟩ hnone ?_ hparked⟩
    simp only [view, dropBySymbol, List.filter_append, hnolegs, List.nil_append]
    rw [List.filter_cons_of_pos (by simp)]
    rfl

lemma parked_takeRow (hr : isInternal r = false) (hparked : (s.view r).parked = 0)
    (d : ContractDefinition Terms Narrowing) (now : ℕ) :
    let v := (s.takeRow fails r d false now).view r
    v.parked = 0 ∨ ∃ q, v.parked = {q} ∧ q.isLast = false := by
  unfold takeRow
  rw [if_neg (by simp [hr])]
  by_cases hkey : d.joinKey = ""
  · rw [if_pos hkey, if_neg (by simp)]
    exact Or.inl ((parked_handOver d).trans hparked)
  · rw [if_neg hkey]
    have hnone : s.pendingSchedulePair.filter (fun p => p.apiReqId = r) = [] := by
      simpa [view] using hparked
    refine Or.inr ⟨⟨r, d.joinKey, d, false, now + scheduleTimeout⟩, ?_, rfl⟩
    simp [view, List.filter_append, hnone]

variable (fails) in
/-- A row that is not the last leaves what the number is told open. -/
lemma speaking_takeRow (hr : isInternal r = false) (h : (s.view r).Speaking listed)
    (d : ContractDefinition Terms Narrowing) (now : ℕ) :
    ∃ t, t = s.takeRow fails r d false now ∧ (∃ listed', (t.view r).Speaking listed') ∧
      (t.view r).entries = (s.view r).entries ∧ (t.view r).legs = (s.view r).legs := by
  unfold takeRow
  rw [if_neg (by simp [hr])]
  by_cases hkey : d.joinKey = ""
  · rw [if_pos hkey, if_neg (by simp)]
    exact ⟨_, rfl, speaking_handOver h d, entries_handOver d, legs_handOver d⟩
  · rw [if_neg hkey]
    exact ⟨_, rfl, ⟨listed, h.hearing, h.delivered, h.heldOnce, h.behind⟩, rfl, rfl⟩

/-! ## A definition -/

lemma view_answerLookup_of_ne (hx : s.pendingSecdef.find? (·.reqId == n) = some x)
    (h : n ≠ r) (d : ContractDefinition Terms Narrowing) (isLastWire : Bool) (now : ℕ) :
    (s.answerLookup fails d isLastWire now x).view r = s.view r := by
  obtain rfl : x.reqId = n := by simpa using List.find?_some hx
  unfold answerLookup
  dsimp only
  set taken : Lookups Terms Narrowing := { s with pendingSecdef := _ } with htaken
  have hview : taken.view r = s.view r := by
    have hentries : ((taken.pendingSecdef.filter fun y => y.reqId = r : List _) :
        Multiset PendingSecdef) = (s.pendingSecdef.filter fun y => y.reqId = r : List _) := by
      rw [htaken]
      dsimp only
      split_ifs
      · exact Removal.filter_of_perm_of_not (Removal.perm_eraseP hx) (by simpa using h)
      · exact Removal.filter_modifyFirst_of_not hx (by simpa using h) (by simpa using h)
    simp only [view, hearing] at hentries ⊢
    rw [hentries]
  split_ifs
  · rw [view_takeNoContract_of_ne h, hview]
  · rw [view_takeRow_of_ne h, hview]
  · rw [view_fanOut_of_ne h, view_takeRow_of_ne h, hview]

/-- **A definition ends a lookup, asks further, or leaves its row behind.** -/
theorem sound_answerLookup (hr : isInternal r = false) (h : (s.view r).Sound)
    (hx : s.pendingSecdef.find? (·.reqId == n) = some x) (d : ContractDefinition Terms Narrowing)
    (isLastWire : Bool) (now : ℕ) :
    ((s.answerLookup fails d isLastWire now x).view r).Sound := by
  by_cases hn : n = r
  swap
  · rw [view_answerLookup_of_ne hx hn]
    exact h
  subst hn
  have hid : x.reqId = n := by simpa using List.find?_some hx
  have hmem : x ∈ (s.view n).entries := by simpa [view, hid] using List.mem_of_find?_eq_some hx
  obtain ⟨⟨listed, hspeaks⟩, hcarried⟩ := speaking_of_ne h fun hfree => by
    simp [hfree.entries] at hmem
  cases hcarried with
  | legs p hentries => simp [hentries] at hmem
  | row q hentries => simp [hentries] at hmem
  | entry y hentries hlegs hparked =>
      obtain ⟨rfl, hrest⟩ := Removal.filter_of_perm_of_single
        (q := fun x : PendingSecdef => decide (x.reqId = n)) (Removal.perm_eraseP hx) (by simp [hid])
        hentries
      unfold answerLookup
      dsimp only
      rw [hid]
      set taken : Lookups Terms Narrowing := { s with pendingSecdef := _ } with htaken
      have htold : (taken.view n).Speaking listed :=
        ⟨hspeaks.hearing, hspeaks.delivered, hspeaks.heldOnce, hspeaks.behind⟩
      -- what is left of the entry: nothing, or an entry that more than one definition ends
      have hleft : (isLastWire || y.singleShot) = true ∧ (taken.view n).entries = 0 ∨
          (isLastWire || y.singleShot) = false ∧
            ∀ x ∈ (taken.view n).entries, x.singleShot = false := by
        cases hlast : (isLastWire || y.singleShot) with
        | true =>
            refine Or.inl ⟨rfl, ?_⟩
            simpa [view, htaken, hlast] using hrest
        | false =>
            obtain ⟨-, hchanged⟩ := Removal.filter_modifyFirst_of_single
              (q := fun x : PendingSecdef => decide (x.reqId = n))
              (f := fun x => { x with deadline := now + unansweredAfter n }) hx (by simp [hid])
              (by simp [hid]) hentries
            refine Or.inr ⟨rfl, fun z hz => ?_⟩
            have hz : z ∈ ({{ y with deadline := now + unansweredAfter n }} : Multiset _) := by
              rw [← hchanged]
              simpa [view, htaken, hlast] using hz
            rw [Multiset.mem_singleton] at hz
            subst hz
            exact (Bool.or_eq_false_iff.1 hlast).2
      rcases hleft with ⟨hlast, hnone⟩ | ⟨hlast, hmany⟩
      · by_cases hcon : d.conId = 0
        · rw [if_pos hcon]
          exact sound_takeNoContract hr htold (by simp [hnone]) hlegs hparked now
        · rw [if_neg hcon, if_pos hlast]
          exact sound_takeRow hr htold ⟨hnone, hlegs, hparked⟩ d now
      · by_cases hcon : d.conId = 0
        · rw [if_pos hcon]
          exact sound_takeNoContract hr htold hmany hlegs hparked now
        · rw [if_neg hcon, if_neg (by simp [hlast])]
          obtain ⟨t, rfl, ⟨listed', htold'⟩, hentries', hlegs'⟩ :=
            speaking_takeRow fails hr htold d now
          have hparked : (taken.view n).parked = 0 := hparked
          exact sound_fanOut hr htold' (fun z hz => hmany z (hentries' ▸ hz)) (hlegs'.trans hlegs)
            (parked_takeRow hr hparked d now) _ now

lemma handLeg_cases (n : ℕ) (flat : Option (ContractDefinition Terms Narrowing)) :
    s.handLeg n flat = s ∨ ∃ d, s.handLeg n flat = s.handOver n d := by
  unfold handLeg
  split
  · split_ifs
    · exact Or.inr ⟨_, rfl⟩
    · exact Or.inl rfl
  · exact Or.inl rfl

theorem sound_answerLeg (hr : isInternal r = false) (h : (s.view r).Sound) {leg : LegName}
    {p : PendingFanout} (hp : s.pendingFanout.find? (fun p => decide (leg ∈ p.fanoutReqIds)) = some p)
    (flat : Option (ContractDefinition Terms Narrowing)) (now : ℕ) :
    ((s.answerLeg fails leg flat now p).view r).Sound := by
  obtain ⟨t, ht, hpending, htold⟩ : ∃ t, t = s.handLeg p.apiReqId flat ∧
      (t.pendingSecdef = s.pendingSecdef ∧ t.pendingFanout = s.pendingFanout ∧
        t.pendingSchedulePair = s.pendingSchedulePair) ∧
      ((p.apiReqId ≠ r → t.view r = s.view r) ∧ (p.apiReqId = r →
        ∀ listed, (s.view r).Speaking listed → ∃ listed', (t.view r).Speaking listed')) := by
    refine ⟨_, rfl, ?_⟩
    rcases handLeg_cases (s := s) p.apiReqId flat with heq | ⟨d, heq⟩
    · rw [heq]
      exact ⟨⟨rfl, rfl, rfl⟩, fun _ => rfl, fun _ listed h => ⟨listed, h⟩⟩
    · rw [heq]
      exact ⟨handOver_pending s _ d, fun hne => view_handOver_of_ne hne d,
        fun heq _ h => heq ▸ speaking_handOver h d⟩
  unfold answerLeg
  rw [← ht]
  dsimp only
  have hp' : t.pendingFanout.find? (fun p => decide (leg ∈ p.fanoutReqIds)) = some p := by
    rw [hpending.2.1, hp]
  by_cases hn : p.apiReqId = r
  swap
  · rw [← htold.1 hn] at h
    split_ifs
    · rw [view_endBehindItsRow_of_ne hn]
      have hlegs := Removal.filter_of_perm_of_not (q := fun p : PendingFanout => decide (p.apiReqId = r))
        (Removal.perm_swapRemove hp') (by simpa using hn)
      simp only [view, hearing] at hlegs h ⊢
      rwa [hlegs]
    · have hlegs := Removal.filter_modifyFirst_of_not (q := fun p : PendingFanout => decide (p.apiReqId = r))
        (f := fun p => p.answer leg now) hp' (by simp [hn]) (by simp [hn])
      simp only [view, hearing] at hlegs h ⊢
      rwa [hlegs]
  subst hn
  set r := p.apiReqId with hr'
  have hmem : p ∈ (s.view r).legs := by simpa [view, hr'] using List.mem_of_find?_eq_some hp
  obtain ⟨⟨listed, hspeaks⟩, hcarried⟩ := speaking_of_ne h fun hfree => by
    simp [hfree.legs] at hmem
  obtain ⟨listed', hspeaks'⟩ := htold.2 rfl listed hspeaks
  cases hcarried with
  | entry x _ hlegs => simp [hlegs] at hmem
  | row q _ hlegs => simp [hlegs] at hmem
  | legs p' hentries hlegs hparked =>
      have hentries : (t.view r).entries = 0 := by
        rw [← hentries]
        simp only [view, hpending.1]
      have hparked : (t.view r).parked = 0 ∨ ∃ q, (t.view r).parked = {q} ∧ q.isLast = false := by
        simp only [view, hpending.2.2] at hparked ⊢
        exact hparked
      have hlegs : ((t.pendingFanout.filter fun p => p.apiReqId = r : List _) :
          Multiset PendingFanout) = {p'} := by
        rw [hpending.2.1]
        exact hlegs
      split_ifs with hall
      · set left : Lookups Terms Narrowing := { t with pendingFanout := _ } with hleft
        have hnone : (left.view r).legs = 0 := (Removal.filter_of_perm_of_single
          (q := fun p : PendingFanout => decide (p.apiReqId = r)) (Removal.perm_swapRemove hp') (by simp [hr'])
          hlegs).2
        have hspeaks : (left.view r).Speaking listed' :=
          ⟨hspeaks'.hearing, hspeaks'.delivered, hspeaks'.heldOnce, hspeaks'.behind⟩
        exact sound_endBehindItsRow hr hspeaks hentries hnone
          (hparked.imp_right fun h => h.imp fun _ hq => hq.1) now
      · obtain ⟨-, hchanged⟩ := Removal.filter_modifyFirst_of_single
          (q := fun p : PendingFanout => decide (p.apiReqId = r)) (f := fun p => p.answer leg now) hp' (by simp [hr'])
          (by simp [hr']) hlegs
        exact Or.inr ⟨⟨listed', hspeaks'.hearing, hspeaks'.delivered, hspeaks'.heldOnce,
          hspeaks'.behind⟩, .legs _ hentries hchanged hparked⟩

/-- **A definition, whichever lookup it answers, leaves one thing to carry the end.** -/
theorem sound_readDefinition (hr : isInternal r = false) (h : (s.view r).Sound)
    (reply : DefinitionReply Terms Narrowing) (now : ℕ) :
    ((s.readDefinition fails reply now).view r).Sound := by
  unfold readDefinition
  dsimp only
  have hnoted : ((s.noteScopes reply).view r).Sound := h
  split
  · exact hnoted
  · split
    · rename_i hp
      exact sound_answerLeg hr hnoted hp _ now
    · exact hnoted
  · rename_i n _
    have hlisted := sound_deliverListings hnoted n reply
    split
    · exact hlisted
    · rename_i d _
      set named := if d.conId ≠ 0 then
        ((s.noteScopes reply).deliverListings n reply).releaseNamed n reply.listings.length d
        else (s.noteScopes reply).deliverListings n reply with hnamed
      have hsound : (named.view r).Sound := by
        rw [hnamed]
        split_ifs
        · rw [view_releaseNamed]
          exact hlisted
        · exact hlisted
      split
      · rename_i hx
        exact sound_answerLookup hr hsound hx d _ now
      · exact hsound

/-! ## Hours, and a refusal -/

theorem sound_readSchedule (hr : isInternal r = false) (h : (s.view r).Sound) (joinKey : String)
    (schedule : Option Schedule) (now : ℕ) :
    ((s.readSchedule fails joinKey schedule now).view r).Sound := by
  unfold readSchedule
  split
  · exact h
  · rename_i p hp
    dsimp only
    generalize p.definition.withSchedule schedule = d
    set left : Lookups Terms Narrowing := { s with pendingSchedulePair := _ } with hleft
    by_cases hn : p.apiReqId = r
    swap
    · have hview : left.view r = s.view r := by
        have hparked := Removal.filter_of_perm_of_not
          (q := fun p : PendingSchedulePair Terms Narrowing => decide (p.apiReqId = r))
          (Removal.perm_swapRemove hp) (by simpa using hn)
        simp only [view, hearing, hleft] at hparked ⊢
        rw [hparked]
      split_ifs
      · rw [view_endLookup_of_ne hn, view_handOver_of_ne hn, hview]
        exact h
      · rw [view_handOver_of_ne hn, hview]
        exact h
    subst hn
    set r := p.apiReqId with hr'
    have hmem : p ∈ (s.view r).parked := by simpa [view, hr'] using List.mem_of_find?_eq_some hp
    obtain ⟨⟨listed, hspeaks⟩, hcarried⟩ := speaking_of_ne h fun hfree => by
      simp [hfree.parked] at hmem
    have htold : (left.view r).Speaking listed :=
      ⟨hspeaks.hearing, hspeaks.delivered, hspeaks.heldOnce, hspeaks.behind⟩
    obtain ⟨listed', htold'⟩ := speaking_handOver htold d
    cases hcarried with
    | entry x _ _ hparked => simp [hparked] at hmem
    | legs f hentries hlegs hparked =>
        obtain hnone | ⟨q, hq, hlast⟩ := hparked
        · simp [hnone] at hmem
        · obtain ⟨rfl, hnone⟩ := Removal.filter_of_perm_of_single
            (q := fun p : PendingSchedulePair Terms Narrowing => decide (p.apiReqId = r))
            (Removal.perm_swapRemove hp) (by simp [hr']) hq
          have hnone : (left.view r).parked = 0 := hnone
          rw [if_neg (by simp [hlast])]
          exact Or.inr ⟨⟨listed', htold'⟩, .legs f ((entries_handOver d).trans hentries)
            ((legs_handOver d).trans hlegs) (Or.inl ((parked_handOver d).trans hnone))⟩
    | row q hentries hlegs hparked hlast =>
        obtain ⟨rfl, hnone⟩ := Removal.filter_of_perm_of_single
          (q := fun p : PendingSchedulePair Terms Narrowing => decide (p.apiReqId = r))
          (Removal.perm_swapRemove hp) (by simp [hr']) hparked
        have hfree : (left.view r).Free := ⟨hentries, hlegs, hnone⟩
        rw [if_pos hlast]
        exact sound_endLookup hr htold' (free_handOver hfree d) now

theorem sound_readReject (hr : isInternal r = false) (h : (s.view r).Sound) (stated : Option ℕ)
    (alone : Bool) (reason : String) (now : ℕ) :
    ((s.readReject fails stated alone reason now).view r).Sound := by
  unfold readReject
  dsimp only
  split
  · exact h
  · rename_i x hx
    have hfound : s.pendingSecdef.find? (·.reqId == x.reqId) = some x := by
      rcases Option.or_eq_some_iff.1 hx with hx | ⟨-, hx⟩
      · obtain ⟨n, -, hx⟩ := Option.bind_eq_some_iff.1 hx
        rwa [show x.reqId = n by simpa using List.find?_some hx]
      · split_ifs at hx with hone
        obtain ⟨y, hy⟩ := List.length_eq_one_iff.1 hone.2.2.1
        rw [hy, List.head?_cons, Option.some_inj] at hx
        simp [hy, hx]
    set left : Lookups Terms Narrowing := { s with pendingSecdef := _ } with hleft
    by_cases hn : x.reqId = r
    swap
    · have hview : left.view r = s.view r := by
        have hentries := Removal.filter_of_perm_of_not
          (q := fun x : PendingSecdef => decide (x.reqId = r))
          (Removal.perm_eraseP hfound) (by simpa using hn)
        simp only [view, hearing, hleft] at hentries ⊢
        rw [hentries]
      split_ifs
      · rw [hview]
        exact h
      · rw [view_refuseLookup_of_ne hn, hview]
        exact h
    subst hn
    set r := x.reqId with hr'
    have hmem : x ∈ (s.view r).entries := by
      simpa [view, hr'] using List.mem_of_find?_eq_some hfound
    obtain ⟨⟨listed, hspeaks⟩, hcarried⟩ := speaking_of_ne h fun hfree => by
      simp [hfree.entries] at hmem
    cases hcarried with
    | legs p hentries => simp [hentries] at hmem
    | row q hentries => simp [hentries] at hmem
    | entry y hentries hlegs hparked =>
        obtain ⟨rfl, hnone⟩ := Removal.filter_of_perm_of_single
          (q := fun x : PendingSecdef => decide (x.reqId = r)) (Removal.perm_eraseP hfound)
          (by simp [hr']) hentries
        rw [if_neg (by simp [hr])]
        have htold : (left.view r).Speaking listed :=
          ⟨hspeaks.hearing, hspeaks.delivered, hspeaks.heldOnce, hspeaks.behind⟩
        exact sound_refuseLookup hr htold ⟨hnone, hlegs, hparked⟩ _ _ now

/-! ## Deadlines -/

lemma view_emitRow_of_ne {p : PendingSchedulePair Terms Narrowing} (h : ¬p.apiReqId = r) (now : ℕ) :
    (s.emitRow fails now p).view r = s.view r := by
  unfold emitRow
  dsimp only
  split_ifs
  · rw [view_endLookup_of_ne h, view_handOver_of_ne h]
  · exact view_handOver_of_ne h _

variable (fails) in
/-- The rows of a number that waited too long: none, or its one. -/
lemma sweepPairs_cases (h : (s.view r).parked = 0 ∨ ∃ q, (s.view r).parked = {q}) (now : ℕ) :
    (s.sweepPendingSchedulePairs fails now).view r = s.view r ∧
        (∀ q ∈ (s.view r).parked, now < q.deadline) ∨
      ∃ (q : PendingSchedulePair Terms Narrowing) (t : Lookups Terms Narrowing),
        (s.view r).parked = {q} ∧ q.deadline ≤ now ∧ t.view r = { s.view r with parked := 0 } ∧
        (s.sweepPendingSchedulePairs fails now).view r = (t.emitRow fails now q).view r := by
  unfold sweepPendingSchedulePairs
  set left : Lookups Terms Narrowing := { s with pendingSchedulePair := _ } with hleft
  have hview : left.view r = { s.view r with
      parked := ((s.pendingSchedulePair.filter fun p => p.apiReqId = r).filter
        fun p => !decide (p.deadline ≤ now) : List _) } := by
    rw [List.filter_comm]
    rfl
  have hother : ∀ (t : Lookups Terms Narrowing) p, ¬p.apiReqId = r →
      (t.emitRow fails now p).view r = t.view r := fun t p hp => view_emitRow_of_ne hp now
  rcases h with hnone | ⟨q, hq⟩
  · have hmine : s.pendingSchedulePair.filter (fun p => p.apiReqId = r) = [] := by
      simpa [view] using hnone
    have hdue : (s.pendingSchedulePair.filter fun p => decide (p.deadline ≤ now)).filter
        (fun p => p.apiReqId = r) = [] := by
      rw [List.filter_comm, hmine, List.filter_nil]
    have hkept : left.view r = s.view r := by
      rw [hview, hmine]
      exact congrArg (fun m => { s.view r with parked := m }) hnone.symm
    refine Or.inl ⟨?_, by simp [hnone]⟩
    exact (Removal.of_filter_eq_nil (view · r) hother hdue left).trans hkept
  · have hmine : s.pendingSchedulePair.filter (fun p => p.apiReqId = r) = [q] := by
      simpa [view] using hq
    by_cases hlate : q.deadline ≤ now
    · have hdue : (s.pendingSchedulePair.filter fun p => decide (p.deadline ≤ now)).filter
          (fun p => p.apiReqId = r) = [q] := by
        rw [List.filter_comm, hmine, List.filter_cons_of_pos (by simpa using hlate), List.filter_nil]
      have hkept : left.view r = { s.view r with parked := 0 } := by
        rw [hview, hmine, List.filter_cons_of_neg (by simpa using hlate)]
        rfl
      obtain ⟨t, ht, hrest⟩ := Removal.of_filter_eq_singleton (view · r) hother hdue left
      exact Or.inr ⟨q, t, hq, hlate, ht.trans hkept, hrest⟩
    · have hdue : (s.pendingSchedulePair.filter fun p => decide (p.deadline ≤ now)).filter
          (fun p => p.apiReqId = r) = [] := by
        rw [List.filter_comm, hmine, List.filter_cons_of_neg (by simpa using hlate), List.filter_nil]
      have hkept : left.view r = s.view r := by
        rw [hview, hmine, List.filter_cons_of_pos (by simpa using hlate)]
        exact congrArg (fun m => { s.view r with parked := m }) hq.symm
      refine Or.inl ⟨?_, fun p hp => ?_⟩
      · exact (Removal.of_filter_eq_nil (view · r) hother hdue left).trans hkept
      · rw [hq, Multiset.mem_singleton] at hp
        subst hp
        omega

variable (fails) in
lemma emitRow_last (hr : isInternal r = false) (h : (s.view r).Speaking listed)
    (hfree : (s.view r).Free) {q : PendingSchedulePair Terms Narrowing} (hq : q.apiReqId = r)
    (hlast : q.isLast = true) (now : ℕ) :
    let v := (s.emitRow fails now q).view r
    v.Idle ∨ v.SecondAsked r now (s.view r) := by
  obtain ⟨listed', h'⟩ := speaking_handOver h q.definition.withoutSchedule
  unfold emitRow
  subst hq
  dsimp only
  rw [if_pos hlast]
  refine (endLookup_self hr h' (free_handOver hfree _) now).imp_right fun hsecond => ?_
  obtain ⟨asked, hasked, hfirst⟩ := hsecond.first
  obtain ⟨before, hbefore, htoo, hasking⟩ := continuous_handOver hasked
  exact { hsecond with first := ⟨before, hbefore, htoo ▸ hfirst.1, hasking ▸ hfirst.2⟩ }

variable (fails) in
lemma emitRow_notLast (h : (s.view r).Speaking listed) {q : PendingSchedulePair Terms Narrowing}
    (hq : q.apiReqId = r) (hlast : q.isLast = false) (now : ℕ) :
    let v := (s.emitRow fails now q).view r
    (∃ listed', v.Speaking listed') ∧ v.entries = (s.view r).entries ∧ v.legs = (s.view r).legs ∧
      v.parked = (s.view r).parked := by
  unfold emitRow
  subst hq
  dsimp only
  rw [if_neg (by simp [hlast])]
  exact ⟨speaking_handOver h _, entries_handOver _, legs_handOver _, parked_handOver _⟩

lemma parked_of_sound (h : (s.view r).Sound) :
    (s.view r).parked = 0 ∨ ∃ q, (s.view r).parked = {q} := by
  rcases h with hidle | ⟨-, hcarried⟩
  · exact Or.inl hidle.free.parked
  · cases hcarried with
    | entry _ _ _ hparked => exact Or.inl hparked
    | legs _ _ _ hparked => exact hparked.imp_right fun ⟨q, hq, _⟩ => ⟨q, hq⟩
    | row q _ _ hparked _ => exact Or.inr ⟨q, hparked⟩

variable (fails) in
/-- **A row that waited too long goes out without its hours**, and the lookup ends behind it where
that row was the last. -/
theorem sweepPairs_self (hr : isInternal r = false) (h : (s.view r).Sound) (now : ℕ) :
    let v := (s.sweepPendingSchedulePairs fails now).view r
    v = s.view r ∧ (∀ q ∈ (s.view r).parked, now < q.deadline) ∨
      (∃ q ∈ (s.view r).parked, q.isLast = true) ∧ (v.Idle ∨ v.SecondAsked r now (s.view r)) ∨
      (∃ listed, v.Speaking listed) ∧ v.entries = 0 ∧ v.legs = (s.view r).legs ∧
        (∃ f, v.legs = {f}) ∧ v.parked = 0 := by
  rcases sweepPairs_cases fails (parked_of_sound h) now with hkept | ⟨q, t, hq, -, ht, hrest⟩
  · exact Or.inl hkept
  have hsome : ¬(s.view r).Free := fun hfree => by simp [hfree.parked] at hq
  obtain ⟨⟨listed, hspeaks⟩, hcarried⟩ := speaking_of_ne h hsome
  have hmem : q ∈ (s.view r).parked := by simp [hq]
  have hid : q.apiReqId = r := by
    simp only [view, Multiset.mem_coe, List.mem_filter, decide_eq_true_eq] at hmem
    exact hmem.2
  have htold : (t.view r).Speaking listed := by
    rw [ht]
    exact ⟨hspeaks.hearing, hspeaks.delivered, hspeaks.heldOnce, hspeaks.behind⟩
  rw [hrest]
  cases hcarried with
  | entry _ _ _ hparked => simp [hparked] at hmem
  | legs f hentries hlegs hparked =>
      obtain hnone | ⟨q', hq', hlast⟩ := hparked
      · simp [hnone] at hmem
      obtain rfl := Multiset.singleton_inj.1 (hq.symm.trans hq')
      obtain ⟨hspeaks', hentries', hlegs', hparked'⟩ := emitRow_notLast fails htold hid hlast now
      rw [ht] at hentries' hlegs' hparked'
      exact Or.inr (Or.inr ⟨hspeaks', hentries'.trans hentries, hlegs', ⟨f, hlegs'.trans hlegs⟩,
        hparked'⟩)
  | row q' hentries hlegs hq' hlast =>
      obtain rfl := Multiset.singleton_inj.1 (hq.symm.trans hq')
      have hfree : (t.view r).Free := by
        rw [ht]
        exact ⟨hentries, hlegs, rfl⟩
      have hemit := emitRow_last fails hr htold hfree hid hlast now
      rw [ht] at hemit
      exact Or.inr (Or.inl ⟨⟨q, hmem, hlast⟩, hemit.imp_right fun hsecond =>
        { hsecond with first := hsecond.first }⟩)

lemma sound_sweepPairs (hr : isInternal r = false) (h : (s.view r).Sound) (now : ℕ) :
    ((s.sweepPendingSchedulePairs fails now).view r).Sound := by
  obtain ⟨hkept, -⟩ | ⟨-, hidle | hsecond⟩ | ⟨hspeaks, hentries, -, ⟨f, hf⟩, hparked⟩ :=
    sweepPairs_self fails hr h now
  · rwa [hkept]
  · exact Or.inl hidle
  · exact hsecond.sound
  · exact Or.inr ⟨hspeaks, .legs f hentries hf (Or.inl hparked)⟩

lemma foldl_failLookup {t : Lookups Terms Narrowing} {ns : List ℕ} {held : List ℕ} (code : ℤ)
    (why : String) (h : ns.filter (fun n => n = r) = [] ∨
      ns.filter (fun n => n = r) = [r] ∧ t.hearing r = .rows listed held ∧ (t.view r).Free) :
    let v := (ns.foldl (fun s n => s.failLookup n code why) t).view r
    ns.filter (fun n => n = r) = [] ∧ v = t.view r ∨ v.Idle := by
  have hother : ∀ (t : Lookups Terms Narrowing) n, ¬n = r →
      (t.failLookup n code why).view r = t.view r := fun t n hn => view_failLookup_of_ne hn code why
  rcases h with hnone | ⟨hone, hhear, hfree⟩
  · exact Or.inl ⟨hnone, Removal.of_filter_eq_nil (view · r) hother hnone t⟩
  · obtain ⟨u, hu, hrest⟩ := Removal.of_filter_eq_singleton (view · r) hother hone t
    refine Or.inr ?_
    rw [hrest]
    exact idle_failLookup ((congrArg LookupView.hearing hu).trans hhear) (hu ▸ hfree) code why

lemma filter_map_of_due {α : Type} {f : α → ℕ} {due : α → Bool} {l : List α} :
    ((l.filter due).map f).filter (fun n => n = r)
      = ((l.filter fun a => f a = r).filter due).map f := by
  rw [List.filter_map, List.filter_comm]
  rfl

/-- **A lookup that went unanswered fails**, and none is failed before its deadline. -/
theorem sweepDetails_self (hr : isInternal r = false) (h : (s.view r).Sound) (now : ℕ)
    (hspared : ∀ p ∈ (s.view r).legs, p.deadline ≤ now ∨ s.sessionOver.isSome = true →
      (s.view r).parked = 0) :
    let v := (s.sweepContractDetails now).view r
    v.Idle ∨ v = s.view r ∧ (s.sessionOver = none ∨ (s.view r).entries = 0 ∧ (s.view r).legs = 0) ∧
      (∀ x ∈ (s.view r).entries, now < x.deadline) ∧ ∀ p ∈ (s.view r).legs, now < p.deadline := by
  unfold sweepContractDetails
  extract_lets idle due expired swept code why v
  have hdue : ∀ deadline, due deadline = true ↔ deadline ≤ now ∨ s.sessionOver.isSome = true :=
    fun deadline => by simp [due]
  have hexpired : expired.filter (fun n => n = r)
      = ((s.pendingSecdef.filter fun x => x.reqId = r).filter fun x => due x.deadline).map (·.reqId)
        ++ ((s.pendingFanout.filter fun p => p.apiReqId = r).filter fun p => due p.deadline).map
          (·.apiReqId) := by
    rw [show expired = _ from rfl, List.filter_append, filter_map_of_due, filter_map_of_due]
    congr 2
    refine List.filter_congr fun x hx => ?_
    have hid : x.reqId = r := by simpa using (List.mem_filter.1 hx).2
    simp [hid, hr]
  have hswept : swept.view r = { s.view r with
      entries := ((s.pendingSecdef.filter fun x => x.reqId = r).filter fun x => !due x.deadline : List _)
      legs := ((s.pendingFanout.filter fun p => p.apiReqId = r).filter fun p => !due p.deadline : List _)
      delivered := if idle then ∅ else s.detailsDelivered r } := by
    rw [List.filter_comm, List.filter_comm _ _ s.pendingFanout]
    simp only [view, swept, hearing]
    split_ifs <;> rfl
  by_cases hnone : (∀ x ∈ (s.view r).entries, due x.deadline = false) ∧
      ∀ p ∈ (s.view r).legs, due p.deadline = false
  · -- nothing of the number is due
    have hentries : ∀ x ∈ s.pendingSecdef.filter fun x => x.reqId = r, due x.deadline = false :=
      fun x hx => hnone.1 x (Multiset.mem_coe.2 hx)
    have hlegs : ∀ p ∈ s.pendingFanout.filter fun p => p.apiReqId = r, due p.deadline = false :=
      fun p hp => hnone.2 p (Multiset.mem_coe.2 hp)
    have hnothing : expired.filter (fun n => n = r) = [] := by
      rw [hexpired, List.filter_eq_nil_iff.2 fun x hx => by simp [hentries x hx],
        List.filter_eq_nil_iff.2 fun p hp => by simp [hlegs p hp]]
      rfl
    have hkeptEntries : (s.pendingSecdef.filter fun x => x.reqId = r).filter
        (fun x => !due x.deadline) = s.pendingSecdef.filter fun x => x.reqId = r :=
      List.filter_eq_self.2 fun x hx => by simp [hentries x hx]
    have hkeptLegs : (s.pendingFanout.filter fun p => p.apiReqId = r).filter
        (fun p => !due p.deadline) = s.pendingFanout.filter fun p => p.apiReqId = r :=
      List.filter_eq_self.2 fun p hp => by simp [hlegs p hp]
    rw [hkeptEntries, hkeptLegs] at hswept
    have hv : v = swept.view r :=
      Removal.of_filter_eq_nil (view · r) (fun t n hn => view_failLookup_of_ne hn code why) hnothing
        swept
    rw [hv]
    rcases h with hidle | ⟨-, hcarried⟩
    · left
      rw [hswept]
      exact ⟨⟨hidle.free.entries, hidle.free.legs, hidle.free.parked⟩, hidle.hearing,
        hidle.continuous⟩
    · right
      have hbusy : idle = false := by
        have hmem : s.pendingSecdef ≠ [] ∨ s.pendingFanout ≠ [] ∨ s.pendingSchedulePair ≠ [] := by
          by_contra! hempty
          cases hcarried <;> simp_all [view]
        rcases hmem with hmem | hmem | hmem <;> simp [idle, List.isEmpty_eq_false_iff.2 hmem]
      refine ⟨?_, ?_, fun x hx => ?_, fun p hp => ?_⟩
      · rw [hswept, hbusy]
        rfl
      · cases hover : s.sessionOver with
        | none => exact Or.inl rfl
        | some why =>
            have hall : ∀ deadline, due deadline = true := fun deadline => by simp [due, hover]
            refine Or.inr ⟨Multiset.eq_zero_of_forall_notMem fun x hx => ?_,
              Multiset.eq_zero_of_forall_notMem fun p hp => ?_⟩
            · simpa [hall] using hnone.1 x hx
            · simpa [hall] using hnone.2 p hp
      · have := mt (hdue x.deadline).2 (by simp [hnone.1 x hx])
        omega
      · have := mt (hdue p.deadline).2 (by simp [hnone.2 p hp])
        omega
  · -- the one thing of the number is due
    left
    rcases h with hidle | ⟨⟨listed, hspeaks⟩, hcarried⟩
    · exact absurd ⟨by simp [hidle.free.entries], by simp [hidle.free.legs]⟩ hnone
    have hone : expired.filter (fun n => n = r) = [r] ∧ (swept.view r).Free := by
      cases hcarried with
      | entry x hentries hlegs hparked =>
          have hx : s.pendingSecdef.filter (fun x => x.reqId = r) = [x] := by
            simpa [view] using hentries
          have hp : s.pendingFanout.filter (fun p => p.apiReqId = r) = [] := by
            simpa [view] using hlegs
          have hid : x.reqId = r := reqId_of_mem (s := s) (by simp [hentries])
          have hlate : due x.deadline = true := by
            simpa [hentries, hlegs] using hnone
          rw [hexpired, hx, hp, hswept]
          refine ⟨by simp [hlate, hid], ?_, ?_, hparked⟩
          · simp [hx, hlate]
          · simp [hp]
      | legs p hentries hlegs hparked =>
          have hx : s.pendingSecdef.filter (fun x => x.reqId = r) = [] := by
            simpa [view] using hentries
          have hp : s.pendingFanout.filter (fun p => p.apiReqId = r) = [p] := by
            simpa [view] using hlegs
          have hid : p.apiReqId = r := apiReqId_of_mem (s := s) (by simp [hlegs])
          have hlate : due p.deadline = true := by
            simpa [hentries, hlegs] using hnone
          rw [hexpired, hx, hp, hswept]
          refine ⟨by simp [hlate, hid], ?_, ?_, hspared p (by simp [hlegs]) ((hdue _).1 hlate)⟩
          · simp [hx]
          · simp [hp, hlate]
      | row q hentries hlegs => exact absurd ⟨by simp [hentries], by simp [hlegs]⟩ hnone
    have hhear : swept.hearing r = .rows listed [] := hspeaks.hearing
    exact (foldl_failLookup code why (Or.inr ⟨hone.1, hhear, hone.2⟩)).resolve_left
      fun hkept => by simp [hone.1] at hkept

/-! ## The connection -/

lemma filter_eq_of_nodup {l : List ℕ} (h : l.Nodup) (r : ℕ) :
    l.filter (fun n => n = r) = if r ∈ l then [r] else [] := by
  induction l with
  | nil => rfl
  | cons a l ih =>
      rw [List.nodup_cons] at h
      by_cases ha : a = r
      · subst ha
        rw [List.filter_cons_of_pos (by simp), ih h.2, if_neg h.1, if_pos (by simp)]
      · rw [List.filter_cons_of_neg (by simpa using ha), ih h.2]
        simp [Ne.symm ha]

variable (fails) in
/-- Rows that are not the last go out when they must, and leave the number open. -/
lemma speaking_sweepPairs (h : (s.view r).Speaking listed) (hentries : (s.view r).entries = 0)
    (hlegs : (s.view r).legs = 0) {now : ℕ}
    (hparked : (s.view r).parked = 0 ∨ ∃ q : PendingSchedulePair Terms Narrowing,
      (s.view r).parked = {q} ∧ q.isLast = false ∧ q.deadline ≤ now) :
    let v := (s.sweepPendingSchedulePairs fails now).view r
    (∃ listed', v.Speaking listed') ∧ v.Free := by
  have hparked' := hparked.imp_right fun ⟨q, hq, _⟩ => (⟨q, hq⟩ : ∃ q, (s.view r).parked = {q})
  rcases sweepPairs_cases fails hparked' now with ⟨hkept, hearly⟩ | ⟨q, t, hq, -, ht, hrest⟩
  · rw [hkept]
    obtain hnone | ⟨q, hq, -, hlate⟩ := hparked
    · exact ⟨⟨listed, h⟩, hentries, hlegs, hnone⟩
    · have := hearly q (by simp [hq])
      omega
  · obtain hnone | ⟨q', hq', hlast, -⟩ := hparked
    · simp [hnone] at hq
    obtain rfl := Multiset.singleton_inj.1 (hq.symm.trans hq')
    have htold : (t.view r).Speaking listed := by
      rw [ht]
      exact ⟨h.hearing, h.delivered, h.heldOnce, h.behind⟩
    have hid : q.apiReqId = r := by
      have hmem : q ∈ (s.view r).parked := by simp [hq]
      simp only [view, Multiset.mem_coe, List.mem_filter, decide_eq_true_eq] at hmem
      exact hmem.2
    obtain ⟨hspeaks, hentries', hlegs', hparked⟩ := emitRow_notLast fails htold hid hlast now
    rw [ht] at hentries' hlegs' hparked
    rw [hrest]
    exact ⟨hspeaks, hentries'.trans hentries, hlegs'.trans hlegs, hparked⟩

/-- **When the connection goes, every lookup is over.** -/
theorem idle_failPendingLookups (hr : isInternal r = false) (h : (s.view r).Sound) (now : ℕ) :
    ((s.failPendingLookups fails now).view r).Idle := by
  unfold failPendingLookups
  extract_lets unended ended cleared emitted failed
  rw [view_giveUp fun held _ => Request.aside_refusedUnanswered r held.command _]
  have hfailed : ({ failed with naming := { failed.naming with pendingNamed := [] } } :
      Lookups Terms Narrowing).view r = failed.view r := rfl
  rw [hfailed]
  have hunended : unended.filter (fun n => n = r)
      = ((s.pendingSecdef.filter fun x => x.reqId = r).map (·.reqId))
        ++ (s.pendingFanout.filter fun p => p.apiReqId = r).map (·.apiReqId) := by
    rw [show unended = _ from rfl, List.filter_append, filter_map_of_due, List.filter_map]
    congr 2
    refine List.filter_eq_self.2 fun x hx => ?_
    have hid : x.reqId = r := by simpa using (List.mem_filter.1 hx).2
    simp [hid, hr]
  have hended : ended.filter (fun n => n = r) = unended.filter (fun n => n = r)
      ++ if (s.view r).continuous.isSome ∧ r ∉ unended then [r] else [] := by
    have hkeys : (s.continuousLookups.keys.filter fun n => decide (n ∉ unended)).Nodup :=
      s.continuousLookups.keys_nodup.filter _
    rw [show ended = _ from rfl, List.filter_append, filter_eq_of_nodup hkeys r]
    congr 1
    refine if_congr ?_ rfl rfl
    rw [List.mem_filter, ← AList.mem_keys, ← AList.lookup_isSome]
    simp [view]
  have hcleared : cleared.view r = { s.view r with
      entries := 0, legs := 0, continuous := none
      parked := (((s.pendingSchedulePair.filter fun p => p.apiReqId = r).filter
        fun _ => (s.view r).continuous.isNone).map
          fun p : PendingSchedulePair Terms Narrowing => { p with deadline := now } : List _) } := by
    have hmine : (cleared.pendingSchedulePair.filter fun p => p.apiReqId = r)
        = ((s.pendingSchedulePair.filter fun p => p.apiReqId = r).filter
          fun _ => (s.view r).continuous.isNone).map
            fun p : PendingSchedulePair Terms Narrowing => { p with deadline := now } := by
      rw [show cleared.pendingSchedulePair = _ from rfl, List.filter_map, List.filter_comm]
      congr 1
      refine List.filter_congr fun q hq => ?_
      have hid : q.apiReqId = r := of_decide_eq_true (List.mem_filter.1 hq).2
      rw [hid]
      rfl
    simp only [view, hmine]
    rfl
  have hforgotten : ∀ v, emitted.view r = v →
      ({ emitted with detailsDelivered := fun _ => ∅ } : Lookups Terms Narrowing).view r
        = { v with delivered := ∅ } := by
    rintro v rfl
    rfl
  rcases h with hidle | ⟨⟨listed, hspeaks⟩, hcarried⟩
  · -- nothing is held of the number
    have hnothing : ended.filter (fun n => n = r) = [] := by
      have hentries : s.pendingSecdef.filter (fun x => x.reqId = r) = [] := by
        simpa [view] using hidle.free.entries
      have hlegs : s.pendingFanout.filter (fun p => p.apiReqId = r) = [] := by
        simpa [view] using hidle.free.legs
      simp [hended, hunended, hentries, hlegs, hidle.continuous]
    have hparked : (cleared.view r).parked = 0 := by
      have hrows : s.pendingSchedulePair.filter (fun p => p.apiReqId = r) = [] := by
        simpa [view] using hidle.free.parked
      simp [hcleared, hrows]
    have hemitted : emitted.view r = cleared.view r := by
      rcases sweepPairs_cases fails (Or.inl hparked) now with ⟨hkept, -⟩ | ⟨q, t, hq, -⟩
      · exact hkept
      · simp [hparked] at hq
    have hkept := Removal.of_filter_eq_nil (view · r) (fun t n hn => view_failLookup_of_ne hn
      notConnected wentAway) hnothing { emitted with detailsDelivered := fun _ => ∅ }
    have hview : failed.view r = { cleared.view r with delivered := ∅ } :=
      hkept.trans (hforgotten _ hemitted)
    rw [hview, hcleared]
    exact ⟨⟨rfl, rfl, by simpa [hcleared] using hparked⟩, hidle.hearing, rfl⟩
  have hspeaks' : (cleared.view r).Speaking listed := by
    rw [hcleared]
    exact ⟨hspeaks.hearing, hspeaks.delivered, by simp, by simp⟩
  -- a number that is failed once, any row of it having gone out
  have hfails : ended.filter (fun n => n = r) = [r] → ((cleared.view r).parked = 0 ∨
      ∃ q : PendingSchedulePair Terms Narrowing, (cleared.view r).parked = {q} ∧ q.isLast = false ∧
        q.deadline ≤ now) → (failed.view r).Idle := by
    intro hone hparked
    obtain ⟨⟨listed', htold⟩, hfree⟩ := speaking_sweepPairs fails hspeaks' (by rw [hcleared])
      (by rw [hcleared]) hparked
    set forgot : Lookups Terms Narrowing := { emitted with detailsDelivered := fun _ => ∅ } with hforgot
    have hhear : forgot.hearing r = .rows listed' [] := htold.hearing
    have hfree' : (forgot.view r).Free := ⟨hfree.entries, hfree.legs, hfree.parked⟩
    exact (foldl_failLookup notConnected wentAway (Or.inr ⟨hone, hhear, hfree'⟩)).resolve_left
      fun hkept => by simp [hone] at hkept
  cases hcarried with
  | entry x hentries hlegs hparked =>
      have hx : s.pendingSecdef.filter (fun x => x.reqId = r) = [x] := by simpa [view] using hentries
      have hp : s.pendingFanout.filter (fun p => p.apiReqId = r) = [] := by simpa [view] using hlegs
      have hrows : s.pendingSchedulePair.filter (fun p => p.apiReqId = r) = [] := by
        simpa [view] using hparked
      have hid : x.reqId = r := reqId_of_mem (s := s) (by simp [hentries])
      have hone : unended.filter (fun n => n = r) = [r] := by simp [hunended, hx, hp, hid]
      have hmem : r ∈ unended := (List.mem_filter.1 (hone ▸ List.mem_singleton_self r)).1
      exact hfails (by simp [hended, hone, hmem]) (Or.inl (by simp [hcleared, hrows]))
  | legs f hentries hlegs hparked =>
      have hx : s.pendingSecdef.filter (fun x => x.reqId = r) = [] := by simpa [view] using hentries
      have hp : s.pendingFanout.filter (fun p => p.apiReqId = r) = [f] := by simpa [view] using hlegs
      have hid : f.apiReqId = r := apiReqId_of_mem (s := s) (by simp [hlegs])
      have hone : unended.filter (fun n => n = r) = [r] := by simp [hunended, hx, hp, hid]
      have hmem : r ∈ unended := (List.mem_filter.1 (hone ▸ List.mem_singleton_self r)).1
      refine hfails (by simp [hended, hone, hmem]) ?_
      rcases hparked with hnone | ⟨q, hq, hlast⟩
      · have hrows : s.pendingSchedulePair.filter (fun p => p.apiReqId = r) = [] := by
          simpa [view] using hnone
        exact Or.inl (by simp [hcleared, hrows])
      · have hrows : s.pendingSchedulePair.filter (fun p => p.apiReqId = r) = [q] := by
          simpa [view] using hq
        cases hcontinuous : (s.view r).continuous with
        | none =>
            refine Or.inr ⟨{ q with deadline := now }, ?_, hlast, le_refl now⟩
            simp [hcleared, hrows, hcontinuous]
        | some asked => exact Or.inl (by simp [hcleared, hrows, hcontinuous])
  | row q hentries hlegs hq hlast =>
      have hx : s.pendingSecdef.filter (fun x => x.reqId = r) = [] := by simpa [view] using hentries
      have hp : s.pendingFanout.filter (fun p => p.apiReqId = r) = [] := by simpa [view] using hlegs
      have hrows : s.pendingSchedulePair.filter (fun p => p.apiReqId = r) = [q] := by
        simpa [view] using hq
      have hnone : unended.filter (fun n => n = r) = [] := by simp [hunended, hx, hp]
      have hnot : r ∉ unended := fun hmem => by
        simpa using List.filter_eq_nil_iff.1 hnone r hmem
      cases hcontinuous : (s.view r).continuous with
      | some asked =>
          exact hfails (by simp [hended, hnone, hnot, hcontinuous])
            (Or.inl (by simp [hcleared, hrows, hcontinuous]))
      | none =>
          have hnothing : ended.filter (fun n => n = r) = [] := by
            simp [hended, hnone, hcontinuous]
          have hparked : (cleared.view r).parked = {{ q with deadline := now }} := by
            simp [hcleared, hrows, hcontinuous]
          have hsound : (cleared.view r).Sound :=
            Or.inr ⟨⟨listed, hspeaks'⟩, .row { q with deadline := now } (by rw [hcleared])
              (by rw [hcleared]) hparked hlast⟩
          have hemitted : (emitted.view r).Idle := by
            obtain ⟨-, hearly⟩ | ⟨-, hidle | hsecond⟩ | ⟨-, -, hf, ⟨f, hf'⟩, -⟩ :=
              sweepPairs_self fails hr hsound now
            · have := hearly { q with deadline := now } (by simp [hparked])
              exact absurd this (lt_irrefl now)
            · exact hidle
            · obtain ⟨asked, hasked, -⟩ := hsecond.first
              simp [hcleared] at hasked
            · rw [hf'] at hf
              simp [hcleared] at hf
          have hkept := Removal.of_filter_eq_nil (view · r) (fun t n hn => view_failLookup_of_ne hn
            notConnected wentAway) hnothing { emitted with detailsDelivered := fun _ => ∅ }
          have hview : failed.view r = { emitted.view r with delivered := ∅ } := hkept
          rw [hview]
          exact ⟨⟨hemitted.free.entries, hemitted.free.legs, hemitted.free.parked⟩,
            hemitted.hearing, hemitted.continuous⟩

/-! ## Requests held -/

lemma view_parkBehind {ask : ℕ → Lookups Terms Narrowing → Lookups Terms Narrowing}
    (hask : ∀ t : Lookups Terms Narrowing, (ask s.nextInternalSecdefId t).view r = t.view r)
    (cmd : Request Terms Narrowing) (now : ℕ) : (s.parkBehind cmd now ask).view r = s.view r := by
  unfold parkBehind
  exact (hask { s with nextInternalSecdefId := (s.nextInternalSecdefId + 1) % 2 ^ 32 }).trans rfl

lemma view_holdUntilNamed (h : s.nextInternalSecdefId ≠ r) (cmd : Request Terms Narrowing)
    (unheld : Bool) (now : ℕ) : (s.holdUntilNamed fails cmd unheld now).2.view r = s.view r := by
  unfold holdUntilNamed
  split_ifs
  · exact view_parkBehind (fun t => view_sendSecdefRequest_of_ne h _ _ now) cmd now
  · split
    · exact view_parkBehind (fun t => view_sendSecdefRequest_of_ne h _ _ now) cmd now
    · split
      · split_ifs
        · exact view_eq ⟨_, rfl, Request.aside_abandonNamed r cmd 0⟩ rfl rfl rfl rfl rfl
        · exact view_parkBehind (fun t => view_sendSecdefRequestBySymbol_of_ne h _ now) cmd now
      · rfl

end Parts

/-! ## Runs -/

/-- What the caller of a number keeps to, and the sweeps: a number is not used again before its
lookup ends, the engine's own numbers are no caller's, and no fan-out is given up while the row of
its contract waits for its hours. -/
def Lawful (r : ℕ) (s : Lookups Terms Narrowing) : LookupEvent Terms Narrowing → Prop
  | .asksById n .. | .asksByDescription n .. => n = r → s.hearing r = .closed
  | .holds .. => isInternal s.nextInternalSecdefId = true
  | .sweepsDetails now =>
      ∀ p ∈ s.pendingFanout, p.apiReqId = r → p.deadline ≤ now ∨ s.sessionOver.isSome = true →
        ∀ q ∈ s.pendingSchedulePair, q.apiReqId ≠ r
  | _ => True

def deadlines (s : Lookups Terms Narrowing) (r : ℕ) : List ℕ :=
  ((s.pendingSecdef.filter fun x => x.reqId = r).map (·.deadline))
    ++ ((s.pendingFanout.filter fun p => p.apiReqId = r).map (·.deadline))
    ++ (s.pendingSchedulePair.filter fun q => q.apiReqId = r).map (·.deadline)

/-- Whether the listed months behind a continuous future are still to be asked for. -/
def SecondAhead (s : Lookups Terms Narrowing) (r : ℕ) : Prop :=
  ∃ asked ∈ s.continuousLookups.lookup r, asked.listedToo = true ∧ asked.askingListed = false

/-- **What a caller is owed under a number.** -/
structure EndsOnce (fails : ℕ → Option String) (s : Lookups Terms Narrowing) (r : ℕ) : Prop where
  /-- Each lookup is told rows, no contract twice, and one end behind them. -/
  heard : s.hearing r ≠ .broken
  /-- An open lookup waits for something. -/
  waits : s.hearing r ≠ .closed → s.deadlines r ≠ []
  /-- Once that is past, a pass of the sweeps ends it, but for the listed months asked for next. -/
  ends : ∀ now later, now ≤ later → (∀ deadline ∈ s.deadlines r, deadline ≤ now) →
    let swept := (s.sweepPendingSchedulePairs fails now).sweepContractDetails later
    swept.hearing r = .closed ∨
      s.SecondAhead r ∧ ¬swept.SecondAhead r ∧ swept.hearing r = .rows [] [] ∧
        swept.deadlines r = [now + lookupTimeout]
  gone : ∀ now, (s.failPendingLookups fails now).hearing r = .closed

section Runs

variable {fails : ℕ → Option String} {s : Lookups Terms Narrowing} {r : ℕ}

lemma mem_deadlines {deadline : ℕ} : deadline ∈ s.deadlines r ↔
    (∃ x ∈ (s.view r).entries, x.deadline = deadline) ∨
      (∃ p ∈ (s.view r).legs, p.deadline = deadline) ∨
        ∃ q ∈ (s.view r).parked, q.deadline = deadline := by
  simp [deadlines, view]

lemma view_asked_of_ne {n : ℕ} (h : n ≠ r) : (s.tell (.asked n)).view r = s.view r :=
  view_eq ⟨[.asked n], rfl, by simp [Told.Aside, Hearing.hear, h]⟩ rfl rfl rfl rfl rfl

lemma view_sendContractDetailsLookup_of_ne {n : ℕ} (h : n ≠ r) (d : Description Narrowing)
    (now : ℕ) : (s.sendContractDetailsLookup fails n d now).view r = s.view r := by
  unfold sendContractDetailsLookup
  dsimp only
  rw [view_sendSecdefRequestBySymbol_of_ne h]
  split_ifs
  · exact view_eq ⟨[], by simp⟩ rfl (AList.lookup_insert_ne h.symm) rfl rfl rfl
  · exact view_eq ⟨[], by simp⟩ rfl (AList.lookup_erase_ne h.symm) rfl rfl rfl

lemma asked_of_closed (h : (s.view r).Sound) (hclosed : s.hearing r = .closed) :
    (s.tell (.asked r)).hearing r = .rows [] [] ∧ ((s.tell (.asked r)).view r).Free := by
  rcases h with hidle | ⟨⟨listed, hspeaks⟩, -⟩
  · refine ⟨?_, hidle.free.entries, hidle.free.legs, hidle.free.parked⟩
    rw [hearing_told [.asked r] rfl, hclosed]
    simp [Hearing.hear]
  · have hrows : s.hearing r = .rows listed [] := hspeaks.hearing
    simp [hclosed] at hrows

lemma sendContractDetailsLookup_self (hr : isInternal r = false) (hhear : s.hearing r = .rows [] [])
    (hfree : (s.view r).Free) (d : Description Narrowing) (now : ℕ) :
    ((s.sendContractDetailsLookup fails r d now).view r).Sound := by
  unfold sendContractDetailsLookup
  dsimp only
  set noted := if d.secType = "CONTFUT" ∨ d.secType = "FUT+CONTFUT" ∨ d.secType = "CONTFUT+FUT" then
    ({ s with continuousLookups := _ } : Lookups Terms Narrowing) else _ with hnoted
  have hkept : noted.hearing r = .rows [] [] ∧ (noted.view r).Free ∧
      ∀ asked ∈ (noted.view r).continuous, asked.held = [] := by
    rw [hnoted]
    split_ifs
    · exact ⟨hhear, ⟨hfree.entries, hfree.legs, hfree.parked⟩, by simp [view]⟩
    · exact ⟨hhear, ⟨hfree.entries, hfree.legs, hfree.parked⟩, by simp [view]⟩
  have hspeaks : (noted.view r).Speaking [] :=
    ⟨hkept.1, by simp, fun asked hasked => by simp [hkept.2.2 asked hasked], fun _ _ _ => rfl⟩
  rcases sendSecdefRequestBySymbol_self fails hr hspeaks hkept.2.1 d now with
    hidle | ⟨hspeaks', hentries, hlegs, hparked, -⟩
  · exact Or.inl hidle
  · exact Or.inr ⟨⟨[], hspeaks'⟩, .entry _ hentries hlegs hparked⟩

/-- **Every lawful event leaves a number as it should be.** -/
theorem sound_step (hr : isInternal r = false) (h : (s.view r).Sound)
    {e : LookupEvent Terms Narrowing} (he : Lawful r s e) : ((s.step fails e).view r).Sound := by
  cases e with
  | asksById n conId exchange now =>
      by_cases hn : n = r
      · subst hn
        obtain ⟨hhear, hfree⟩ := asked_of_closed h (he rfl)
        exact sendSecdefRequest_self hhear hfree conId exchange now
      · rw [step, view_sendSecdefRequest_of_ne hn, view_asked_of_ne hn]
        exact h
  | asksByDescription n d now =>
      by_cases hn : n = r
      · subst hn
        obtain ⟨hhear, hfree⟩ := asked_of_closed h (he rfl)
        exact sendContractDetailsLookup_self hr hhear hfree d now
      · rw [step, view_sendContractDetailsLookup_of_ne hn, view_asked_of_ne hn]
        exact h
  | definition reply now => exact sound_readDefinition hr h reply now
  | schedule joinKey schedule now => exact sound_readSchedule hr h joinKey schedule now
  | reject stated alone reason now => exact sound_readReject hr h stated alone reason now
  | sweepsPairs now => exact sound_sweepPairs hr h now
  | sweepsDetails now =>
      have hspared : ∀ p ∈ (s.view r).legs, p.deadline ≤ now ∨ s.sessionOver.isSome = true →
          (s.view r).parked = 0 := by
        intro p hp hdue
        have hmem : p ∈ s.pendingFanout := by
          simp only [view, Multiset.mem_coe, List.mem_filter] at hp
          exact hp.1
        have hnone := he p hmem (apiReqId_of_mem hp) hdue
        simpa [view] using hnone
      obtain hidle | ⟨hkept, -⟩ := sweepDetails_self hr h now hspared
      · exact Or.inl hidle
      · exact hkept ▸ h
  | sweepsNamed now =>
      have hview : ((s.sweepPendingNamed now).view r) = s.view r := by
        unfold sweepPendingNamed
        dsimp only
        rw [view_giveUp fun held _ => Request.aside_abandonNamed r held.command 0]
        rfl
      exact hview ▸ h
  | sessionEnds reason => exact h
  | drops now => exact Or.inl (idle_failPendingLookups hr h now)
  | connects => exact h
  | holds cmd unheld now =>
      have hne : s.nextInternalSecdefId ≠ r := by
        intro heq
        have howned : isInternal s.nextInternalSecdefId = true := he
        rw [heq, hr] at howned
        exact absurd howned (by simp)
      exact (view_holdUntilNamed hne cmd unheld now) ▸ h
  | withdraws n kind => exact h
  | takes count => exact h

lemma idle_of_free (h : (s.view r).Sound) (hfree : (s.view r).Free) : (s.view r).Idle := by
  refine h.resolve_right fun ⟨_, hcarried⟩ => ?_
  cases hcarried with
  | entry x hentries => simp [hfree.entries] at hentries
  | legs p _ hlegs => simp [hfree.legs] at hlegs
  | row q _ _ hparked => simp [hfree.parked] at hparked

theorem endsOnce_of_sound (hr : isInternal r = false) (h : (s.view r).Sound) :
    EndsOnce fails s r := by
  refine ⟨?_, fun hopen => ?_, fun now later hlater hdue => ?_, fun now =>
    (idle_failPendingLookups hr h now).hearing⟩
  · rcases h with hidle | ⟨⟨listed, hspeaks⟩, -⟩
    · rw [show s.hearing r = .closed from hidle.hearing]
      simp
    · rw [show s.hearing r = .rows listed [] from hspeaks.hearing]
      simp
  · obtain ⟨-, hcarried⟩ := h.resolve_left fun hidle => hopen hidle.hearing
    cases hcarried with
    | entry x hentries =>
        exact List.ne_nil_of_mem (mem_deadlines.2 (Or.inl ⟨x, by simp [hentries], rfl⟩))
    | legs p _ hlegs =>
        exact List.ne_nil_of_mem (mem_deadlines.2 (Or.inr (Or.inl ⟨p, by simp [hlegs], rfl⟩)))
    | row q _ _ hparked =>
        exact List.ne_nil_of_mem (mem_deadlines.2 (Or.inr (Or.inr ⟨q, by simp [hparked], rfl⟩)))
  · have hentries : ∀ x ∈ (s.view r).entries, x.deadline ≤ now := fun x hx =>
      hdue _ (mem_deadlines.2 (Or.inl ⟨x, hx, rfl⟩))
    have hlegs : ∀ p ∈ (s.view r).legs, p.deadline ≤ now := fun p hp =>
      hdue _ (mem_deadlines.2 (Or.inr (Or.inl ⟨p, hp, rfl⟩)))
    have hparked : ∀ q ∈ (s.view r).parked, q.deadline ≤ now := fun q hq =>
      hdue _ (mem_deadlines.2 (Or.inr (Or.inr ⟨q, hq, rfl⟩)))
    have hsound : ((s.sweepPendingSchedulePairs fails now).view r).Sound := sound_sweepPairs hr h now
    obtain ⟨hkept, hearly⟩ | ⟨-, hidle | hsecond⟩ | ⟨-, hnone, hlegs', ⟨f, hf⟩, hrows⟩ :=
      sweepPairs_self fails hr h now
    · have hrows : (s.view r).parked = 0 := Multiset.eq_zero_of_forall_notMem fun q hq => by
        have := hparked q hq
        have := hearly q hq
        omega
      obtain hidle | ⟨hv, -, hlate, hlate'⟩ :=
        sweepDetails_self hr hsound later fun _ _ _ => hkept ▸ hrows
      · exact Or.inl hidle.hearing
      · rw [hkept] at hv hlate hlate'
        have hfree : (s.view r).Free := by
          refine ⟨Multiset.eq_zero_of_forall_notMem fun x hx => ?_,
            Multiset.eq_zero_of_forall_notMem fun p hp => ?_, hrows⟩
          · have := hentries x hx
            have := hlate x hx
            omega
          · have := hlegs p hp
            have := hlate' p hp
            omega
        exact Or.inl ((congrArg LookupView.hearing hv).trans (idle_of_free h hfree).hearing)
    · obtain hidle' | ⟨hv, -⟩ := sweepDetails_self hr hsound later fun _ _ _ => hidle.free.parked
      · exact Or.inl hidle'.hearing
      · exact Or.inl ((congrArg LookupView.hearing hv).trans hidle.hearing)
    · obtain hidle' | ⟨hv, -⟩ := sweepDetails_self hr hsound later fun _ _ _ => hsecond.parked
      · exact Or.inl hidle'.hearing
      · refine Or.inr ⟨hsecond.first, ?_,
          (congrArg LookupView.hearing hv).trans hsecond.speaking.hearing, ?_⟩
        · rintro ⟨asked, hasked, -, hasking⟩
          obtain ⟨asked', hasked', hlisted⟩ := hsecond.second
          rw [← hv] at hasked'
          obtain rfl := Option.some_inj.1 (hasked.symm.trans hasked')
          simp [hlisted] at hasking
        · have hentries := (congrArg LookupView.entries hv).trans hsecond.entries
          have hlegs := (congrArg LookupView.legs hv).trans hsecond.legs
          have hparked := (congrArg LookupView.parked hv).trans hsecond.parked
          simp only [view, Multiset.coe_eq_zero, Multiset.coe_eq_singleton] at hentries hlegs hparked
          simp [deadlines, hentries, hlegs, hparked]
    · obtain hidle | ⟨-, -, -, hlate⟩ := sweepDetails_self hr hsound later fun _ _ _ => hrows
      · exact Or.inl hidle.hearing
      · have := hlate f (by simp [hf])
        have := hlegs f (by rw [← hlegs', hf]; simp)
        omega

/-- **Every caller's lookup ends once, behind its rows**, in every run that is lawful for its
number. -/
theorem lookups_end_once (hr : isInternal r = false) (es : List (LookupEvent Terms Narrowing))
    (hrun : Runs.Along (step fails) (Lawful r) ({} : Lookups Terms Narrowing) es) :
    EndsOnce fails (Runs.run (step fails) {} es) r := by
  have hopened : (({} : Lookups Terms Narrowing).view r).Sound :=
    Or.inl ⟨⟨rfl, rfl, rfl⟩, rfl, rfl⟩
  have hstep : ∀ (s : Lookups Terms Narrowing) e, (s.view r).Sound → Lawful r s e →
      ((s.step fails e).view r).Sound := fun s e h he => sound_step hr h he
  exact endsOnce_of_sound hr (Runs.Along.invariant hstep hopened hrun)

end Runs

/-! ## The lead month of a continuous future -/

instance (r : ℕ) (s : Lookups Terms Narrowing) : DecidablePred (Lawful r s) := fun e =>
  match e with
  | .asksById n .. | .asksByDescription n .. =>
      inferInstanceAs (Decidable (n = r → s.hearing r = .closed))
  | .holds .. => inferInstanceAs (Decidable (isInternal s.nextInternalSecdefId = true))
  | .sweepsDetails now =>
      inferInstanceAs (Decidable (∀ p ∈ s.pendingFanout, p.apiReqId = r →
        p.deadline ≤ now ∨ s.sessionOver.isSome = true →
          ∀ q ∈ s.pendingSchedulePair, q.apiReqId ≠ r))
  | .definition .. | .schedule .. | .reject .. | .sweepsPairs _ | .sweepsNamed _ | .sessionEnds _
    | .drops _ | .connects | .withdraws .. | .takes _ => isTrue trivial

/-- The contracts of the rows told under a number since its lookup began. -/
def rowsSince (s : Lookups Terms Narrowing) (r : ℕ) : List ℕ :=
  s.told.foldl (fun rows t => match t with
    | .asked n => if n = r then [] else rows
    | .row n d _ => if n = r then rows ++ [d.conId] else rows
    | _ => rows) []

def leadMonth : ContractDefinition Unit Unit where
  conId := 495512563
  symbol := "ES"
  secType := "FUT"
  exchange := "CME"
  currency := "USD"
  terms := ()
  narrowing := ()
  multiplier := 50
  validExchanges := ["CME"]
  joinKey := ""

/-- A continuous future and its listed months are asked for, and the lead month answers both. -/
def leadMonthTwice : List (LookupEvent Unit Unit) :=
  [.asksByDescription 7
      ⟨"ES", "FUT+CONTFUT", "CME", "USD", { narrowing := () }, false⟩ 0,
    .definition ⟨.number 7, [leadMonth], some leadMonth, false⟩ 100,
    .definition ⟨.number 7, [leadMonth], some leadMonth, false⟩ 200]

theorem lookups_end_once_lead_month :
    EndsOnce (fun _ => none) (Runs.run (step fun _ => none) {} leadMonthTwice) 7 ∧
      (Runs.run (step fun _ => none) {} leadMonthTwice).hearing 7 = .closed :=
  ⟨lookups_end_once (by decide) _ (by decide), by decide⟩

/-- **A continuous future and a listed month may be one contract**, which is handed over as both. -/
theorem not_lookups_end_once :
    ¬ ∀ (fails : ℕ → Option String) (r : ℕ) (es : List (LookupEvent Unit Unit)),
      isInternal r = false → Runs.Along (step fails) (Lawful r) {} es →
        ((Runs.run (step fails) {} es).rowsSince r).Nodup := by
  intro h
  have hrows := h (fun _ => none) 7 leadMonthTwice (by decide) (by decide)
  exact absurd hrows (by decide)

end Lookups

end IbkrDx
