import IbkrDx.Engine.QuoteDesk

/-!
# Families as they wait

What a cancel and a change do to them.
-/

namespace IbkrDx

variable {K L R C : Type}

variable {held held' : List (StagedOrder K L R)} {f : List (OrderRequest K L R)}
  {r : OrderRequest K L R}

variable {n : ℕ}

lemma mem_numbers : n ∈ numbers f ↔ ∃ r ∈ f, r.orderId = n := List.mem_map

lemma any_orderId : f.any (·.orderId = n) = true ↔ n ∈ numbers f := by
  rw [List.any_eq_true, mem_numbers]
  simp only [decide_eq_true_eq]

variable {o : StagedOrder K L R}

lemma found (h : held.find? (·.orderId = n) = some o) :
    o ∈ held ∧ o.orderId = n :=
  ⟨List.mem_of_find?_eq_some h, by simpa using List.find?_some h⟩

lemma orderId_latest (held : List (StagedOrder K L R)) (r : OrderRequest K L R) :
    (latest held r).orderId = r.orderId := by
  unfold latest
  cases hfind : held.find? (·.orderId = r.orderId) with
  | none => rfl
  | some o => exact (found hfind).2

lemma numbers_latest (held : List (StagedOrder K L R)) (f : List (OrderRequest K L R)) :
    numbers (f.map (latest held)) = numbers f := by
  rw [numbers, List.map_map]
  exact List.map_congr_left fun r _ => orderId_latest held r

/-- **A family whose placements wait**, that holds what hangs from it, each behind its parent. -/
structure FamilyOf (held : List (StagedOrder K L R)) (f : List (OrderRequest K L R)) : Prop where
  placed : ∀ r ∈ f, r.placement.isSome → ∃ o ∈ held, o.orderId = r.orderId
  changes : ∀ r ∈ f, r.placement = none → ∀ o ∈ held, o.orderId ≠ r.orderId
  closed : ∀ o ∈ held, ∀ n ∈ numbers f, o.Hangs n → o.orderId ∈ numbers f
  led : (numbers f).Pairwise fun a b => ∀ o ∈ held, o.orderId = a → ¬o.Hangs b

lemma asItWaits_eq (hplaced : r.placement.isSome → ∃ o ∈ held, o.orderId = r.orderId) :
    asItWaits held r = some (latest held r) := by
  unfold asItWaits latest
  cases hfind : held.find? (·.orderId = r.orderId) with
  | some o => rfl
  | none =>
      cases r with
      | submitEx order =>
          obtain ⟨o, ho, hid⟩ := hplaced rfl
          exact absurd (decide_eq_true hid) (List.find?_eq_none.1 hfind o ho)
      | _ => rfl

lemma foldl_withHanging : ∀ {held : List (StagedOrder K L R)},
    (∀ o ∈ held, ∀ n ∈ numbers f, o.Hangs n → o.orderId ∈ numbers f) →
      held.foldl withHanging f = f
  | [], _ => rfl
  | o :: held, h => by
      have hsame : withHanging f o = f := by
        unfold withHanging
        rw [if_neg]
        rintro ⟨hparent, hlisted, hnot⟩
        have hin := h o List.mem_cons_self _ (any_orderId.1 hlisted) ⟨hparent, rfl⟩
        rw [any_orderId.2 hin] at hnot
        exact Bool.false_ne_true hnot.symm
      rw [List.foldl_cons, hsame]
      exact foldl_withHanging fun o ho => h o (List.mem_cons_of_mem _ ho)

/-- **A whole family waits as it is listed, with its latest terms.** -/
theorem FamilyOf.waitingFamily_eq (h : FamilyOf held f) :
    waitingFamily f held = f.map (latest held) := by
  have hmap : f.filterMap (asItWaits held) = f.map (latest held) := by
    rw [← List.filterMap_eq_map]
    exact List.filterMap_congr fun r hr => asItWaits_eq (h.placed r hr)
  rw [waitingFamily, hmap]
  refine foldl_withHanging fun o ho n hn hangs => ?_
  rw [numbers_latest] at hn ⊢
  exact h.closed o ho n hn hangs

lemma placement_latest (hplaced : r.placement.isSome → ∃ o ∈ held, o.orderId = r.orderId)
    (hchanges : r.placement = none → ∀ o ∈ held, o.orderId ≠ r.orderId) :
    (latest held r).placement = held.find? (·.orderId = r.orderId) := by
  unfold latest
  cases hfind : held.find? (·.orderId = r.orderId) with
  | some o => rfl
  | none =>
      cases r with
      | submitEx order =>
          obtain ⟨o, ho, hid⟩ := hplaced rfl
          exact absurd (decide_eq_true hid) (List.find?_eq_none.1 hfind o ho)
      | _ => rfl

lemma FamilyOf.refresh (h : FamilyOf held f) : FamilyOf held (f.map (latest held)) where
  placed := fun r hr hsome => by
    obtain ⟨q, hq, rfl⟩ := List.mem_map.1 hr
    rw [placement_latest (h.placed q hq) (h.changes q hq)] at hsome
    rw [orderId_latest]
    obtain ⟨o, ho⟩ := Option.isSome_iff_exists.1 hsome
    exact ⟨o, found ho⟩
  changes := fun r hr hnone => by
    obtain ⟨q, hq, rfl⟩ := List.mem_map.1 hr
    rw [placement_latest (h.placed q hq) (h.changes q hq)] at hnone
    rw [orderId_latest]
    exact fun o ho hid => List.find?_eq_none.1 hnone o ho (decide_eq_true hid)
  closed := by
    rw [numbers_latest]
    exact h.closed
  led := by
    rw [numbers_latest]
    exact h.led

/-- **The families that wait**: each placement in one of them, and each of them whole. -/
structure Housed (held : List (StagedOrder K L R)) (families : List (List (OrderRequest K L R))) :
    Prop where
  once : (held.map StagedOrder.orderId).Nodup
  apart : (families.flatMap numbers).Nodup
  housed : ∀ o ∈ held, ∃ f ∈ families, o.orderId ∈ numbers f
  whole : ∀ f ∈ families, FamilyOf held f

def without (held : List (StagedOrder K L R)) (ns : List ℕ) : List (StagedOrder K L R) :=
  held.filter (·.orderId ∉ ns)

variable {ns : List ℕ}

lemma mem_without :
    o ∈ without held ns ↔ o ∈ held ∧ o.orderId ∉ ns := by
  simp [without]

lemma without_without (held : List (StagedOrder K L R)) (ns ms : List ℕ) :
    without (without held ns) ms = without held (ns ++ ms) := by
  rw [without, without, List.filter_filter, without]
  refine List.filter_congr fun o _ => ?_
  rw [← Bool.decide_and, decide_eq_decide, List.mem_append, not_or, and_comm]

lemma without_nil (held : List (StagedOrder K L R)) : without held [] = held :=
  List.filter_eq_self.2 fun _ _ => by simp

lemma find?_without (h : n ∉ ns) :
    (without held ns).find? (·.orderId = n) = held.find? (·.orderId = n) := by
  rw [without, List.find?_filter]
  refine congrArg (fun p => held.find? p) (funext fun o => ?_)
  by_cases hid : o.orderId = n
  · simp [hid, h]
  · simp [hid]

lemma latest_without (h : r.orderId ∉ ns) :
    latest (without held ns) r = latest held r := by
  rw [latest, find?_without h, latest]

lemma map_latest_without (h : ∀ n ∈ numbers f, n ∉ ns) :
    f.map (latest (without held ns)) = f.map (latest held) :=
  List.map_congr_left fun r hr => latest_without (h r.orderId (List.mem_map_of_mem hr))

lemma FamilyOf.without (h : FamilyOf held f) (hapart : ∀ n ∈ numbers f, n ∉ ns) :
    FamilyOf (without held ns) f where
  placed := fun r hr hsome => by
    obtain ⟨o, ho, hid⟩ := h.placed r hr hsome
    refine ⟨o, mem_without.2 ⟨ho, ?_⟩, hid⟩
    rw [hid]
    exact hapart _ (List.mem_map_of_mem hr)
  changes := fun r hr hnone o ho => h.changes r hr hnone o (mem_without.1 ho).1
  closed := fun o ho => h.closed o (mem_without.1 ho).1
  led := h.led.imp fun hled o ho => hled o (mem_without.1 ho).1

namespace Housed

variable {families families' : List (List (OrderRequest K L R))}

lemma perm (h : Housed held families) (hperm : families.Perm families') :
    Housed held families' where
  once := h.once
  apart := ((hperm.flatMap_right numbers).nodup_iff).1 h.apart
  housed := fun o ho => by
    obtain ⟨f, hf, hin⟩ := h.housed o ho
    exact ⟨f, hperm.mem_iff.1 hf, hin⟩
  whole := fun f hf => h.whole f (hperm.mem_iff.2 hf)

lemma apart_head (h : Housed held (f :: families)) {g : List (OrderRequest K L R)}
    (hg : g ∈ families) {n : ℕ} (hn : n ∈ numbers g) : n ∉ numbers f := fun hf => by
  have hapart := h.apart
  rw [List.flatMap_cons, List.nodup_append] at hapart
  exact hapart.2.2 n hf n (List.mem_flatMap.2 ⟨g, hg, hn⟩) rfl

/-- **A family goes, and the others wait on.** -/
theorem take (h : Housed held (f :: families)) : Housed (without held (numbers f)) families where
  once := h.once.sublist (List.filter_sublist.map _)
  apart := by
    have hapart := h.apart
    rw [List.flatMap_cons, List.nodup_append] at hapart
    exact hapart.2.1
  housed := fun o ho => by
    obtain ⟨hheld, hnot⟩ := mem_without.1 ho
    obtain ⟨g, hg, hin⟩ := h.housed o hheld
    rcases List.mem_cons.1 hg with rfl | hg
    · exact absurd hin hnot
    · exact ⟨g, hg, hin⟩
  whole := fun g hg =>
    (h.whole g (List.mem_cons_of_mem f hg)).without fun _ hn => h.apart_head hg hn

theorem refresh (h : Housed held (f :: families)) :
    Housed held (f.map (latest held) :: families) where
  once := h.once
  apart := by
    rw [List.flatMap_cons, numbers_latest, ← List.flatMap_cons]
    exact h.apart
  housed := fun o ho => by
    obtain ⟨g, hg, hin⟩ := h.housed o ho
    rcases List.mem_cons.1 hg with rfl | hg
    · exact ⟨_, List.mem_cons_self, by rwa [numbers_latest]⟩
    · exact ⟨g, List.mem_cons_of_mem _ hg, hin⟩
  whole := fun g hg => by
    rcases List.mem_cons.1 hg with rfl | hg
    · exact (h.whole f List.mem_cons_self).refresh
    · exact h.whole g (List.mem_cons_of_mem f hg)

lemma keep (h : Housed held (f :: (families ++ families'))) :
    Housed held (families ++ (families' ++ [f.map (latest held)])) := by
  refine h.refresh.perm ?_
  rw [← List.append_assoc]
  exact (List.perm_append_singleton _ _).symm

end Housed

/-! ## Giving families to send -/

lemma latest_latest (held : List (StagedOrder K L R)) (r : OrderRequest K L R) :
    latest held (latest held r) = latest held r := by
  have hid := orderId_latest held r
  rw [latest, hid]
  unfold latest
  cases held.find? (·.orderId = r.orderId) with
  | some o => rfl
  | none => rfl

lemma FamilyOf.waitingFamily_refreshed (h : FamilyOf held f) :
    waitingFamily (f.map (latest held)) held = f.map (latest held) := by
  rw [h.refresh.waitingFamily_eq, List.map_map]
  exact List.map_congr_left fun r _ => latest_latest held r

namespace QuoteDesk

lemma taken_eq (hfamily : waitingFamily f held = f.map (latest held)) :
    takeWaitingAttachedFamily held f = (f.map (latest held), without held (numbers f)) := by
  rw [takeWaitingAttachedFamily, hfamily]
  refine congrArg _ (List.filter_congr fun o _ => ?_)
  by_cases hin : o.orderId ∈ numbers f
  · have hany : (f.map (latest held)).any (·.orderId = o.orderId) = true := by
      rw [any_orderId, numbers_latest]
      exact hin
    simp [hany, hin]
  · have hany : ¬(f.map (latest held)).any (·.orderId = o.orderId) = true := by
      rw [any_orderId, numbers_latest]
      exact hin
    simp [Bool.eq_false_iff.2 hany, hin]

lemma release_eq {d : QuoteDesk K L R C} (h : FamilyOf d.waitingAttachedOrders f) :
    d.release f = { d with
      waitingAttachedOrders := without d.waitingAttachedOrders (numbers f)
      pendingOrders := d.pendingOrders ++ f.map (latest d.waitingAttachedOrders) } := by
  unfold release
  rw [taken_eq h.waitingFamily_eq]

lemma release_refreshed {d : QuoteDesk K L R C} (h : FamilyOf d.waitingAttachedOrders f) :
    d.release (waitingFamily f d.waitingAttachedOrders) = d.release f := by
  rw [h.waitingFamily_eq, release_eq h.refresh, release_eq h, numbers_latest, List.map_map]
  have hsame : latest d.waitingAttachedOrders ∘ latest d.waitingAttachedOrders =
      latest d.waitingAttachedOrders := funext (latest_latest _)
  rw [hsame]

def families (d : QuoteDesk K L R C) : List (List (OrderRequest K L R)) :=
  d.attachedQuoteOrders.map WaitingFamily.orders

lemma families_keep (d : QuoteDesk K L R C) (f : WaitingFamily K L R C) :
    families { d with attachedQuoteOrders := d.attachedQuoteOrders ++ [f] } =
      d.families ++ [f.orders] := List.map_append

/-- What is left where some families have gone: what they leave waits on in a family, and what they
held has been given to send. -/
structure Released (d d' : QuoteDesk K L R C) (gone : List (List (OrderRequest K L R))) : Prop where
  waits : d'.waitingAttachedOrders = without d.waitingAttachedOrders (gone.flatMap numbers)
  sent : d'.pendingOrders =
    d.pendingOrders ++ gone.flatMap fun f => f.map (latest d.waitingAttachedOrders)
  told : d'.orderUpdates = d.orderUpdates
  housed : Housed d'.waitingAttachedOrders d'.families

lemma Released.cons {d d' : QuoteDesk K L R C} {fs gone : List (List (OrderRequest K L R))}
    (h : Housed d.waitingAttachedOrders (f :: fs)) (hsub : ∀ g ∈ gone, g ∈ fs)
    (hrest : Released (d.release f) d' gone) : Released d d' (f :: gone) := by
  have heq := release_eq (h.whole f List.mem_cons_self)
  obtain ⟨hwaits, hsent, htold, hhoused⟩ := hrest
  rw [heq] at hwaits hsent htold
  refine ⟨?_, ?_, htold, hhoused⟩
  · rw [hwaits, List.flatMap_cons]
    exact without_without _ _ _
  · rw [hsent, List.flatMap_cons, ← List.append_assoc]
    refine congrArg _ (List.flatMap_congr fun g hg => ?_)
    exact map_latest_without fun n hn => h.apart_head (hsub g hg) hn

/-- **Looking at each family gives those that are due to send.** -/
theorem released_pollFamilies (now : ℕ) (view : ℕ → C → QuoteView) :
    ∀ (fs : List (WaitingFamily K L R C)) (d : QuoteDesk K L R C),
      Housed d.waitingAttachedOrders (fs.map WaitingFamily.orders ++ d.families) →
        Released d (pollFamilies now view fs d)
          ((fs.filter (·.due now view)).map WaitingFamily.orders)
  | [], d, h => ⟨(without_nil _).symm, (List.append_nil _).symm, rfl, h⟩
  | f :: fs, d, h => by
      have hfamily := h.whole f.orders (by simp)
      have hempty :
          (waitingFamily f.orders d.waitingAttachedOrders).isEmpty = f.orders.isEmpty := by
        rw [hfamily.waitingFamily_eq, List.isEmpty_map]
      have hsub : ∀ g ∈ (fs.filter (·.due now view)).map WaitingFamily.orders,
          g ∈ fs.map WaitingFamily.orders ++ d.families := fun g hg =>
        List.mem_append_left _ (List.map_subset _ List.filter_sublist.subset hg)
      unfold pollFamilies
      dsimp only
      rw [hempty]
      generalize (if f.nextPoll ≤ now then now + 1000 else f.nextPoll) = nextPoll
      split_ifs with hnil hdue
      · have hnone : f.orders = [] := List.isEmpty_iff.1 hnil
        have hrest := released_pollFamilies now view fs d (by
          have htake := @Housed.take K L R _ _ (fs.map WaitingFamily.orders ++ d.families) h
          rwa [hnone, numbers, List.map_nil, without_nil] at htake)
        cases hdue : f.due now view with
        | false =>
            rwa [List.filter_cons_of_neg (p := (WaitingFamily.due · now view)) (by simp [hdue])]
        | true =>
            rw [List.filter_cons_of_pos (p := (WaitingFamily.due · now view)) hdue, List.map_cons,
              hnone]
            exact ⟨hrest.waits, hrest.sent, hrest.told, hrest.housed⟩
      · rw [List.filter_cons_of_pos (p := (WaitingFamily.due · now view)) hdue, List.map_cons,
          release_refreshed hfamily]
        refine Released.cons h hsub (released_pollFamilies now view fs _ ?_)
        rw [release_eq hfamily]
        exact h.take
      · rw [List.filter_cons_of_neg (p := (WaitingFamily.due · now view)) hdue]
        have hrest := released_pollFamilies now view fs
          { d with attachedQuoteOrders := d.attachedQuoteOrders ++
            [{ f with orders := waitingFamily f.orders d.waitingAttachedOrders, nextPoll }] } (by
          rw [families_keep, hfamily.waitingFamily_eq]
          exact Housed.keep h)
        exact ⟨hrest.waits, hrest.sent, hrest.told, hrest.housed⟩

/-- **Giving families to send, one after another.** -/
theorem released_foldl : ∀ (fs : List (List (OrderRequest K L R))) (d : QuoteDesk K L R C),
    Housed d.waitingAttachedOrders (fs ++ d.families) → Released d (fs.foldl release d) fs
  | [], d, h => ⟨(without_nil _).symm, (List.append_nil _).symm, rfl, h⟩
  | f :: fs, d, h => by
      refine Released.cons h (fun g hg => List.mem_append_left _ hg) (released_foldl fs _ ?_)
      rw [release_eq (h.whole f List.mem_cons_self)]
      exact h.take

/-! ## Cancelling -/

def cancelledOf (held : List (StagedOrder K L R)) (orderId instrument : Option ℕ)
    (f : List (OrderRequest K L R)) : List (OrderRequest K L R) :=
  if cancelsWhole orderId instrument (f.map (latest held)) then f.map (latest held)
  else
    match orderId with
    | none => []
    | some n =>
        if n ∈ numbers f then ((held.find? (·.orderId = n)).map OrderRequest.submitEx).toList
        else []

def leavingOf (held : List (StagedOrder K L R)) (orderId instrument : Option ℕ)
    (f : List (OrderRequest K L R)) : List ℕ :=
  if cancelsWhole orderId instrument (f.map (latest held)) then numbers f
  else
    match orderId with
    | none => []
    | some n => if n ∈ numbers f then [n] else []

section

variable {orderId instrument : Option ℕ}

lemma cancelledOf_whole (h : cancelsWhole orderId instrument (f.map (latest held)) = true) :
    cancelledOf held orderId instrument f = f.map (latest held) := by
  unfold cancelledOf
  rw [if_pos h]

lemma leavingOf_whole (h : cancelsWhole orderId instrument (f.map (latest held)) = true) :
    leavingOf held orderId instrument f = numbers f := by
  unfold leavingOf
  rw [if_pos h]

lemma cancelledOf_other (h : ¬cancelsWhole orderId instrument (f.map (latest held)) = true)
    (hn : ∀ n ∈ orderId, n ∉ numbers f) :
    cancelledOf held orderId instrument f = [] ∧ leavingOf held orderId instrument f = [] := by
  unfold cancelledOf leavingOf
  rw [if_neg h, if_neg h]
  cases orderId with
  | none => exact ⟨rfl, rfl⟩
  | some n => exact ⟨if_neg (hn n rfl), if_neg (hn n rfl)⟩

lemma cancelledOf_alone {n : ℕ}
    (h : ¬cancelsWhole (some n) instrument (f.map (latest held)) = true) (hn : n ∈ numbers f) :
    cancelledOf held (some n) instrument f =
        ((held.find? (·.orderId = n)).map OrderRequest.submitEx).toList ∧
      leavingOf held (some n) instrument f = [n] := by
  unfold cancelledOf leavingOf
  rw [if_neg h, if_neg h]
  exact ⟨if_pos hn, if_pos hn⟩

end

lemma leavingOf_subset {orderId instrument : Option ℕ} :
    leavingOf held orderId instrument f ⊆ numbers f := by
  unfold leavingOf
  split_ifs with hwhole
  · exact List.Subset.refl _
  · cases orderId with
    | none => exact List.nil_subset _
    | some n =>
        dsimp only
        split_ifs with hn
        · exact List.cons_subset.2 ⟨hn, List.nil_subset _⟩
        · exact List.nil_subset _

structure Cancelled (d : QuoteDesk K L R C) (cancelled : List (OrderRequest K L R))
    (out : QuoteDesk K L R C × List (OrderRequest K L R)) (taken : List (OrderRequest K L R))
    (leaving : List ℕ) : Prop where
  waits : out.1.waitingAttachedOrders = without d.waitingAttachedOrders leaving
  gathered : out.2 = cancelled ++ taken
  sent : out.1.pendingOrders = d.pendingOrders
  told : out.1.orderUpdates = d.orderUpdates
  housed : Housed out.1.waitingAttachedOrders out.1.families

end QuoteDesk

/-- **A member goes, and its family waits on.** -/
theorem Housed.drop {families : List (List (OrderRequest K L R))}
    (h : Housed held (f :: families)) (hn : n ∈ numbers f) :
    Housed (without held [n]) (f.filter (·.orderId ≠ n) :: families) := by
  have hnumbers : numbers (f.filter (·.orderId ≠ n)) = (numbers f).filter (· ≠ n) := by
    rw [numbers, numbers, List.filter_map]
    rfl
  have hwhole := h.whole f List.mem_cons_self
  refine ⟨h.once.sublist (List.filter_sublist.map _), ?_, fun o ho => ?_, fun g hg => ?_⟩
  · have hapart := h.apart
    rw [List.flatMap_cons] at hapart ⊢
    rw [hnumbers]
    exact hapart.sublist (List.filter_sublist.append_right _)
  · obtain ⟨hheld, hnot⟩ := mem_without.1 ho
    obtain ⟨g, hg, hin⟩ := h.housed o hheld
    rcases List.mem_cons.1 hg with rfl | hg
    · refine ⟨_, List.mem_cons_self, ?_⟩
      rw [hnumbers]
      exact List.mem_filter.2 ⟨hin, by simpa using hnot⟩
    · exact ⟨g, List.mem_cons_of_mem _ hg, hin⟩
  · rcases List.mem_cons.1 hg with rfl | hg
    · refine ⟨fun r hr hsome => ?_, fun r hr hnone o ho => ?_, fun o ho m hm hangs => ?_, ?_⟩
      · obtain ⟨hr, hne⟩ := List.mem_filter.1 hr
        obtain ⟨o, ho, hid⟩ := hwhole.placed r hr hsome
        refine ⟨o, mem_without.2 ⟨ho, ?_⟩, hid⟩
        rw [hid]
        simpa using hne
      · exact hwhole.changes r (List.mem_filter.1 hr).1 hnone o (mem_without.1 ho).1
      · obtain ⟨hheld, hnot⟩ := mem_without.1 ho
        rw [hnumbers] at hm ⊢
        refine List.mem_filter.2 ⟨hwhole.closed o hheld m (List.mem_filter.1 hm).1 hangs, ?_⟩
        simpa using hnot
      · rw [hnumbers]
        exact (hwhole.led.sublist List.filter_sublist).imp fun hled o ho =>
          hled o (mem_without.1 ho).1
    · refine (h.whole g (List.mem_cons_of_mem f hg)).without fun m hm hmn => ?_
      exact h.apart_head hg hm (List.mem_singleton.1 hmn ▸ hn)

namespace QuoteDesk

lemma cancelledOf_without {ns : List ℕ} {orderId instrument : Option ℕ}
    (h : ∀ n ∈ numbers f, n ∉ ns) :
    cancelledOf (without held ns) orderId instrument f = cancelledOf held orderId instrument f := by
  unfold cancelledOf
  rw [map_latest_without h]
  split_ifs with hwhole
  · rfl
  · cases orderId with
    | none => rfl
    | some n =>
        dsimp only
        split_ifs with hn
        · rw [find?_without (h n hn)]
        · rfl

lemma leavingOf_without {ns : List ℕ} {orderId instrument : Option ℕ}
    (h : ∀ n ∈ numbers f, n ∉ ns) :
    leavingOf (without held ns) orderId instrument f = leavingOf held orderId instrument f := by
  unfold leavingOf
  rw [map_latest_without h]

lemma Cancelled.cons {d : QuoteDesk K L R C} (d₁ : QuoteDesk K L R C)
    {out : QuoteDesk K L R C × List (OrderRequest K L R)}
    {cancelled : List (OrderRequest K L R)} {fs : List (List (OrderRequest K L R))}
    {orderId instrument : Option ℕ} (h : Housed d.waitingAttachedOrders (f :: fs))
    {gs : List (List (OrderRequest K L R))} (hsub : ∀ g ∈ gs, g ∈ fs)
    (hwaits : d₁.waitingAttachedOrders =
      without d.waitingAttachedOrders (leavingOf d.waitingAttachedOrders orderId instrument f))
    (hsent : d₁.pendingOrders = d.pendingOrders) (htold : d₁.orderUpdates = d.orderUpdates)
    (hrest : Cancelled d₁ (cancelled ++ cancelledOf d.waitingAttachedOrders orderId instrument f) out
      (gs.flatMap (cancelledOf d₁.waitingAttachedOrders orderId instrument))
      (gs.flatMap (leavingOf d₁.waitingAttachedOrders orderId instrument))) :
    Cancelled d cancelled out
      ((f :: gs).flatMap (cancelledOf d.waitingAttachedOrders orderId instrument))
      ((f :: gs).flatMap (leavingOf d.waitingAttachedOrders orderId instrument)) := by
  have hapart : ∀ g ∈ gs, ∀ n ∈ numbers g,
      n ∉ leavingOf d.waitingAttachedOrders orderId instrument f := fun g hg n hn hin =>
    h.apart_head (hsub g hg) hn (leavingOf_subset hin)
  have htaken : gs.flatMap (cancelledOf d₁.waitingAttachedOrders orderId instrument) =
      gs.flatMap (cancelledOf d.waitingAttachedOrders orderId instrument) := by
    rw [hwaits]
    exact List.flatMap_congr fun g hg => cancelledOf_without (hapart g hg)
  have hleaving : gs.flatMap (leavingOf d₁.waitingAttachedOrders orderId instrument) =
      gs.flatMap (leavingOf d.waitingAttachedOrders orderId instrument) := by
    rw [hwaits]
    exact List.flatMap_congr fun g hg => leavingOf_without (hapart g hg)
  rw [htaken, hleaving] at hrest
  refine ⟨?_, ?_, hrest.sent.trans hsent, hrest.told.trans htold, hrest.housed⟩
  · rw [hrest.waits, hwaits, without_without, List.flatMap_cons]
  · rw [hrest.gathered, List.append_assoc, List.flatMap_cons]

/-- **A cancel goes through the families.** -/
theorem cancelled_cancelFamilies (orderId instrument : Option ℕ) :
    ∀ (fs : List (WaitingFamily K L R C)) (d : QuoteDesk K L R C)
      (cancelled : List (OrderRequest K L R)),
      Housed d.waitingAttachedOrders (fs.map WaitingFamily.orders ++ d.families) →
        Cancelled d cancelled (cancelFamilies orderId instrument fs (d, cancelled))
          ((fs.map WaitingFamily.orders).flatMap
            (cancelledOf d.waitingAttachedOrders orderId instrument))
          ((fs.map WaitingFamily.orders).flatMap
            (leavingOf d.waitingAttachedOrders orderId instrument))
  | [], d, cancelled, h => ⟨(without_nil _).symm, (List.append_nil _).symm, rfl, rfl, h⟩
  | f :: fs, d, cancelled, h => by
      have hfamily := h.whole f.orders (by simp)
      have hsub : ∀ g ∈ fs.map WaitingFamily.orders,
          g ∈ fs.map WaitingFamily.orders ++ d.families := fun g hg => List.mem_append_left _ hg
      have hrefreshed := hfamily.refresh.waitingFamily_eq
      unfold cancelFamilies
      dsimp only
      rw [List.map_cons, hfamily.waitingFamily_eq]
      by_cases hwhole : cancelsWhole orderId instrument
          (f.orders.map (latest d.waitingAttachedOrders)) = true
      · rw [if_pos hwhole, taken_eq hrefreshed, numbers_latest, ← hrefreshed,
          hfamily.waitingFamily_refreshed]
        refine Cancelled.cons { d with
          waitingAttachedOrders := without d.waitingAttachedOrders (numbers f.orders) }
          h hsub ?_ rfl rfl ?_
        · rw [leavingOf_whole hwhole]
        · rw [cancelledOf_whole hwhole]
          exact cancelled_cancelFamilies orderId instrument fs _ _ h.take
      · rw [if_neg hwhole]
        have hkept := cancelled_cancelFamilies orderId instrument fs
          { d with attachedQuoteOrders := d.attachedQuoteOrders ++
            [{ f with orders := f.orders.map (latest d.waitingAttachedOrders) }] } cancelled (by
          rw [families_keep]
          exact Housed.keep h)
        have hother : (∀ n ∈ orderId, n ∉ numbers f.orders) → Cancelled d cancelled
            (cancelFamilies orderId instrument fs ({ d with
              attachedQuoteOrders := d.attachedQuoteOrders ++
                [{ f with orders := f.orders.map (latest d.waitingAttachedOrders) }] }, cancelled))
            ((f.orders :: fs.map WaitingFamily.orders).flatMap
              (cancelledOf d.waitingAttachedOrders orderId instrument))
            ((f.orders :: fs.map WaitingFamily.orders).flatMap
              (leavingOf d.waitingAttachedOrders orderId instrument)) := fun hn => by
          obtain ⟨htaken, hleaving⟩ := cancelledOf_other hwhole hn
          rw [List.flatMap_cons, List.flatMap_cons, htaken, hleaving, List.nil_append,
            List.nil_append]
          exact ⟨hkept.waits, hkept.gathered, hkept.sent, hkept.told, hkept.housed⟩
        cases orderId with
        | none => exact hother nofun
        | some n =>
            dsimp only
            by_cases hn : n ∈ numbers f.orders
            · have hany : (f.orders.map (latest d.waitingAttachedOrders)).any (·.orderId = n) =
                  true := by
                rw [any_orderId, numbers_latest]
                exact hn
              obtain ⟨htaken, hleaving⟩ := cancelledOf_alone hwhole hn
              have herase : d.waitingAttachedOrders.eraseP (·.orderId = n) =
                  without d.waitingAttachedOrders [n] := by
                rw [Removal.eraseP_eq_filter_of_nodup _ h.once, without]
                exact List.filter_congr fun o _ => by simp
              rw [if_pos hany]
              rw [herase]
              refine Cancelled.cons { d with
                waitingAttachedOrders := without d.waitingAttachedOrders [n]
                attachedQuoteOrders := d.attachedQuoteOrders ++ [{ f with
                  orders := (f.orders.map (latest d.waitingAttachedOrders)).filter
                    (·.orderId ≠ n) }] } h hsub ?_ rfl rfl ?_
              · rw [hleaving]
              · rw [htaken]
                refine cancelled_cancelFamilies (some n) instrument fs _ _ ?_
                rw [families, List.map_append, ← List.append_assoc]
                have hdrop := Housed.drop h.refresh ((numbers_latest _ _).symm ▸ hn)
                exact hdrop.perm (List.perm_append_singleton _ _).symm
            · have hany : ¬(f.orders.map (latest d.waitingAttachedOrders)).any (·.orderId = n) =
                  true := by
                rw [any_orderId, numbers_latest]
                exact hn
              rw [if_neg hany]
              exact hother fun m hm => Option.mem_some.1 hm ▸ hn

lemma filter_ne_filter {α : Type*} (key : α → ℕ) (n : ℕ) (ns : List ℕ) (l : List α) :
    (l.filter (key · ≠ n)).filter (key · ∉ ns) = l.filter (key · ∉ n :: ns) := by
  rw [List.filter_filter]
  refine List.filter_congr fun a _ => ?_
  simp [Bool.and_comm]

lemma foldl_discard : ∀ (cancelled : List (OrderRequest K L R)) (d : QuoteDesk K L R C),
    cancelled.foldl discard d = { d with
      placed := d.placed.filter (· ∉ numbers cancelled)
      generated := d.generated.filter (·.1 ∉ numbers cancelled)
      orderUpdates := d.orderUpdates ++
        (cancelled.filterMap OrderRequest.placement).map StagedOrder.orderId }
  | [], d => by simp [numbers]
  | r :: cancelled, d => by
      have hplaced : (d.discard r).placed = d.placed.filter (· ≠ r.orderId) := by
        cases r <;> rfl
      have hgenerated : (d.discard r).generated = d.generated.filter (·.1 ≠ r.orderId) := by
        cases r <;> rfl
      have htold : (d.discard r).orderUpdates = d.orderUpdates ++
          ([r].filterMap OrderRequest.placement).map StagedOrder.orderId := by
        cases r <;> simp [discard, forgetWaitingAttachment, OrderRequest.placement]
      have hrest : d.discard r = { d with
          placed := (d.discard r).placed
          generated := (d.discard r).generated
          orderUpdates := (d.discard r).orderUpdates } := by
        cases r <;> rfl
      have happend : (r :: cancelled).filterMap OrderRequest.placement =
          [r].filterMap OrderRequest.placement ++ cancelled.filterMap OrderRequest.placement := by
        rw [← List.filterMap_append, List.singleton_append]
      rw [List.foldl_cons, foldl_discard cancelled, hplaced, hgenerated, htold, hrest, happend,
        List.map_append, List.append_assoc, filter_ne_filter (fun n => n),
        filter_ne_filter Prod.fst]
      rfl

/-- **Cancelling**: what a cancel takes of each family waits no more, and is told and forgotten. -/
theorem cancelWaitingAttached_eq {d : QuoteDesk K L R C}
    (h : Housed d.waitingAttachedOrders d.families) (orderId instrument : Option ℕ) :
    ∃ out, Cancelled d [] (out, d.families.flatMap
        (cancelledOf d.waitingAttachedOrders orderId instrument))
      (d.families.flatMap (cancelledOf d.waitingAttachedOrders orderId instrument))
      (d.families.flatMap (leavingOf d.waitingAttachedOrders orderId instrument)) ∧
      d.cancelWaitingAttached orderId instrument =
        ((d.families.flatMap
            (cancelledOf d.waitingAttachedOrders orderId instrument)).foldl discard out,
          !(d.families.flatMap
            (cancelledOf d.waitingAttachedOrders orderId instrument)).isEmpty) := by
  have hrun := cancelled_cancelFamilies orderId instrument d.attachedQuoteOrders
    { d with attachedQuoteOrders := [] } [] (by
      rw [families, List.map_nil, List.append_nil]
      exact h)
  have hout := hrun.gathered
  rw [List.nil_append] at hout
  refine ⟨(cancelFamilies orderId instrument d.attachedQuoteOrders
    ({ d with attachedQuoteOrders := [] }, [])).1, ?_, ?_⟩
  · exact ⟨hrun.waits, rfl, hrun.sent, hrun.told, hrun.housed⟩
  · rw [cancelWaitingAttached, hout]
    rfl

end QuoteDesk

/-! ## What is gathered -/

def gathered (held : List (StagedOrder K L R)) (ns : List ℕ) : List (StagedOrder K L R) :=
  ns.filterMap fun n => held.find? (·.orderId = n)

lemma mem_gathered (h : o ∈ gathered held ns) :
    o ∈ held ∧ o.orderId ∈ ns := by
  obtain ⟨n, hn, hfind⟩ := List.mem_filterMap.1 h
  obtain ⟨ho, rfl⟩ := found hfind
  exact ⟨ho, hn⟩

lemma gathered_cons (held : List (StagedOrder K L R)) (n : ℕ) (ns : List ℕ) :
    gathered held (n :: ns) = (held.find? (·.orderId = n)).toList ++ gathered held ns := by
  unfold gathered
  rw [List.filterMap_cons]
  cases held.find? (·.orderId = n) with
  | none => rfl
  | some o => rfl

/-- **What is gathered and what is left is what waits.** -/
theorem perm_gathered (hheld : (held.map StagedOrder.orderId).Nodup) :
    ∀ {ns : List ℕ}, ns.Nodup → (gathered held ns ++ without held ns).Perm held
  | [], _ => by
      rw [without_nil]
      exact List.Perm.refl _
  | n :: ns, hns => by
      rw [List.nodup_cons] at hns
      have hsplit : (without held ns).Perm
          ((held.find? (·.orderId = n)).toList ++ without held (n :: ns)) := by
        have hagain : without held (n :: ns) = without (without held ns) [n] := by
          rw [without_without]
          refine List.filter_congr fun o _ => ?_
          simp [or_comm]
        rw [hagain, ← find?_without hns.1]
        have hnodup : ((without held ns).map StagedOrder.orderId).Nodup :=
          hheld.sublist (List.filter_sublist.map _)
        have herase : without (without held ns) [n] =
            (without held ns).eraseP (·.orderId = n) := by
          rw [Removal.eraseP_eq_filter_of_nodup _ hnodup, without]
          exact List.filter_congr fun o _ => by simp
        rw [herase]
        cases hfind : (without held ns).find? (·.orderId = n) with
        | none =>
            rw [List.eraseP_of_forall_not (List.find?_eq_none.1 hfind)]
            exact List.Perm.refl _
        | some o => exact Removal.perm_eraseP hfind
      rw [gathered_cons, List.append_assoc]
      refine (List.Perm.trans ?_ (perm_gathered hheld hns.2))
      refine List.Perm.trans ?_ (List.Perm.append_left _ hsplit.symm)
      rw [← List.append_assoc, ← List.append_assoc]
      exact List.perm_append_comm.append_right _

lemma FamilyOf.placements (h : FamilyOf held f) :
    (f.map (latest held)).filterMap OrderRequest.placement = gathered held (numbers f) := by
  rw [List.filterMap_map, gathered, numbers, List.filterMap_map]
  exact List.filterMap_congr fun r hr => placement_latest (h.placed r hr) (h.changes r hr)

lemma eq_of_mem_flatMap {α : Type*} {l : List α} {k : α → List ℕ} (h : (l.flatMap k).Nodup)
    {a b : α} (ha : a ∈ l) (hb : b ∈ l) (hna : n ∈ k a) (hnb : n ∈ k b) : a = b := by
  have hapart := (List.nodup_flatMap.1 h).2
  by_contra hne
  refine (List.Pairwise.forall_of_forall_of_flip (R := fun a b : α =>
    a ≠ b → List.Disjoint (k a) (k b)) ?_ ?_ ?_ ha hb) hne hna hnb
  · exact fun a _ hne => absurd rfl hne
  · exact hapart.imp fun {a b} hdisj (_ : a ≠ b) => hdisj
  · refine hapart.imp ?_
    intro a b hdisj _ m hb ha
    exact hdisj ha hb

namespace Housed

variable {families gone : List (List (OrderRequest K L R))}

lemma placements (h : Housed held families) (hsub : ∀ g ∈ gone, g ∈ families) :
    (gone.flatMap fun f => f.map (latest held)).filterMap OrderRequest.placement =
      gathered held (gone.flatMap numbers) := by
  rw [List.filterMap_flatMap, gathered, List.filterMap_flatMap]
  exact List.flatMap_congr fun g hg => (h.whole g (hsub g hg)).placements

lemma cancelled_placements (h : Housed held families) (orderId instrument : Option ℕ) :
    (families.flatMap (QuoteDesk.cancelledOf held orderId instrument)).filterMap
        OrderRequest.placement =
      gathered held (families.flatMap (QuoteDesk.leavingOf held orderId instrument)) := by
  rw [List.filterMap_flatMap, gathered, List.filterMap_flatMap]
  refine List.flatMap_congr fun g hg => ?_
  by_cases hwhole : QuoteDesk.cancelsWhole orderId instrument (g.map (latest held)) = true
  · rw [QuoteDesk.cancelledOf_whole hwhole, QuoteDesk.leavingOf_whole hwhole]
    exact (h.whole g hg).placements
  · by_cases hother : ∀ n ∈ orderId, n ∉ numbers g
    · obtain ⟨htaken, hleaving⟩ := QuoteDesk.cancelledOf_other hwhole hother
      rw [htaken, hleaving]
      rfl
    · push Not at hother
      obtain ⟨n, hn, hin⟩ := hother
      rw [Option.mem_def] at hn
      subst hn
      obtain ⟨htaken, hleaving⟩ := QuoteDesk.cancelledOf_alone hwhole hin
      rw [htaken, hleaving, List.filterMap_cons, List.filterMap_nil]
      cases held.find? (·.orderId = n) with
      | none => rfl
      | some o => rfl

lemma led (h : Housed held families) (hsub : gone.Sublist families) :
    (gone.flatMap numbers).Pairwise fun a b => ∀ o ∈ held, o.orderId = a → ¬o.Hangs b := by
  have hapart := (List.nodup_flatMap.1 h.apart).2
  refine List.pairwise_flatMap.2 ⟨fun g hg => (h.whole g (hsub.subset hg)).led, ?_⟩
  refine List.Pairwise.imp_of_mem ?_ (hapart.sublist hsub)
  intro f g hf hg hdisj a ha b hb o ho hid hangs
  have hin := (h.whole g (hsub.subset hg)).closed o ho b hb hangs
  exact hdisj ha (hid ▸ hin)

end Housed

/-! ## What each event does -/

namespace QuoteWaits

/-- What waits stands in whole families, under the terms it was last stated with. -/
structure Sits (w : QuoteWaits K L R C) : Prop where
  housed : Housed w.desk.waitingAttachedOrders w.desk.families
  terms : ∀ o ∈ w.desk.waitingAttachedOrders, w.lastTerms o.orderId = some o

variable {w : QuoteWaits K L R C} {e : QuoteEvent K L R C}

lemma Sits.apart (h : w.Sits) :
    (w.desk.attachedQuoteOrders.flatMap fun f => numbers f.orders).Nodup := by
  have hapart := h.housed.apart
  rwa [QuoteDesk.families, List.flatMap_map] at hapart

lemma Sits.waitsInFamilies (h : w.Sits) : WaitsInFamilies w where
  once := h.housed.once
  apart := h.apart
  housed := fun n hn => by
    obtain ⟨o, ho, rfl⟩ := List.mem_map.1 hn
    obtain ⟨f, hf, hin⟩ := h.housed.housed o ho
    obtain ⟨g, hg, rfl⟩ := List.mem_map.1 hf
    exact ⟨g, hg, hin⟩
  terms := h.terms

lemma sits_new : Sits ({} : QuoteWaits K L R C) where
  housed := ⟨List.nodup_nil, List.nodup_nil, List.forall_mem_nil _,
    List.forall_mem_nil _⟩
  terms := List.forall_mem_nil _

variable {l : List (OrderRequest K L R)}

lemma pushedAt_eq
    (h : (w.step e).desk.pendingOrders = w.desk.pendingOrders ++ l) : w.pushedAt e = l := by
  rw [pushedAt, h, List.drop_left]

lemma toldAt_eq {ns : List ℕ} (h : (w.step e).desk.orderUpdates = w.desk.orderUpdates ++ ns) :
    w.toldAt e = ns := by
  rw [toldAt, h, List.drop_left]

lemma handledOnce_still (hwaiting : (w.step e).desk.waiting = w.waitingAt e)
    (hsame : w.waitingAt e = w.desk.waiting)
    (hsent : (w.step e).desk.pendingOrders = w.desk.pendingOrders ++ l)
    (hother : ∀ o ∈ l.filterMap OrderRequest.placement, o.orderId ∉ w.desk.waiting)
    (htold : (w.step e).desk.orderUpdates = w.desk.orderUpdates)
    (hconcerns : ∀ f ∈ w.desk.attachedQuoteOrders, ∀ n, ¬w.Concerns f n e)
    (hkept : ∀ c, e = .queued (.modify c) → c.orderId ∈ w.desk.waiting → l = []) :
    HandledOnce w e := by
  have hpushed := pushedAt_eq hsent
  have htell : w.toldAt e = [] := toldAt_eq (by rw [htold, List.append_nil])
  have hmoved : w.movedAt e = [] := by
    rw [movedAt, hpushed, hsame, List.filter_eq_nil_iff]
    intro o ho hin
    exact hother o ho (of_decide_eq_true hin)
  refine ⟨?_, ?_, ⟨?_, ?_⟩, ?_, ?_, ?_, ?_⟩
  · rw [hmoved, htell, hwaiting]
    exact List.Perm.refl _
  · rw [hmoved]
    exact List.forall_mem_nil _
  · rw [hmoved]
    exact List.Pairwise.nil
  · rw [hmoved]
    exact List.forall_mem_nil _
  · rw [htell]
    exact fun _ _ _ h => absurd h List.not_mem_nil
  · rw [htell]
    exact List.forall_mem_nil _
  · intro f hf n _ hn
    rw [hwaiting, hsame]
    exact iff_of_true hn (hconcerns f hf n)
  · intro c hc hin
    rw [hpushed]
    exact hkept c hc hin

lemma mem_waiting_without {ns : List ℕ} {n : ℕ} :
    n ∈ (without held ns).map StagedOrder.orderId ↔
      n ∈ held.map StagedOrder.orderId ∧ n ∉ ns := by
  simp only [List.mem_map, mem_without]
  constructor
  · rintro ⟨o, ⟨ho, hnot⟩, rfl⟩
    exact ⟨⟨o, ho, rfl⟩, hnot⟩
  · rintro ⟨⟨o, ho, rfl⟩, hnot⟩
    exact ⟨o, ⟨ho, hnot⟩, rfl⟩

lemma handledOnce_out {families gone : List (List (OrderRequest K L R))}
    (hhoused : Housed held families) (hterms : ∀ o ∈ held, (w.step e).lastTerms o.orderId = some o)
    (hat : w.waitingAt e = held.map StagedOrder.orderId)
    (hstays : ∀ n ∈ w.desk.waiting, n ∈ held.map StagedOrder.orderId)
    (hsub : gone.Sublist families)
    (hwaits : (w.step e).desk.waitingAttachedOrders = without held (gone.flatMap numbers))
    (hsent : (w.step e).desk.pendingOrders = w.desk.pendingOrders ++ l)
    (hplaced : l.filterMap OrderRequest.placement = gathered held (gone.flatMap numbers))
    (htold : (w.step e).desk.orderUpdates = w.desk.orderUpdates)
    (hconcerns : ∀ f ∈ w.desk.attachedQuoteOrders, ∀ n ∈ numbers f.orders,
      n ∈ gone.flatMap numbers ↔ w.Concerns f n e)
    (hkept : ∀ c, e ≠ .queued (.modify c)) : HandledOnce w e := by
  have hpushed := pushedAt_eq hsent
  have htell : w.toldAt e = [] := toldAt_eq (by rw [htold, List.append_nil])
  have hmoved : w.movedAt e = gathered held (gone.flatMap numbers) := by
    rw [movedAt, hpushed, hplaced, hat, List.filter_eq_self]
    intro o ho
    exact decide_eq_true (List.mem_map_of_mem (mem_gathered ho).1)
  have hwaiting : (w.step e).desk.waiting =
      (without held (gone.flatMap numbers)).map StagedOrder.orderId := by
    rw [QuoteDesk.waiting, hwaits]
  have hnodup : (gone.flatMap numbers).Nodup := hhoused.apart.sublist (hsub.flatMap numbers)
  refine ⟨?_, ?_, ⟨?_, ?_⟩, ?_, ?_, ?_, ?_⟩
  · rw [hmoved, htell, hwaiting, hat, List.append_nil, ← List.map_append]
    exact (perm_gathered hhoused.once hnodup).map _
  · intro o ho
    rw [hmoved] at ho
    exact hterms o (mem_gathered ho).1
  · rw [hmoved, gathered]
    refine (hhoused.led hsub).filterMap _ ?_
    intro a b hled o ho o' ho' hangs
    obtain ⟨hmem, hid⟩ := found ho
    obtain ⟨-, rfl⟩ := found ho'
    exact hled o hmem hid hangs
  · intro o ho n hn hangs
    rw [hmoved] at ho
    rw [htell, List.append_nil, hwaiting] at hn
    obtain ⟨hin, hnot⟩ := mem_waiting_without.1 hn
    obtain ⟨o', ho', rfl⟩ := List.mem_map.1 hin
    obtain ⟨g, hg, hng⟩ := hhoused.housed o' ho'
    obtain ⟨hmem, hids⟩ := mem_gathered ho
    obtain ⟨g', hg', hng'⟩ := List.mem_flatMap.1 hids
    have heq := eq_of_mem_flatMap hhoused.apart hg (hsub.subset hg')
      ((hhoused.whole g hg).closed o hmem _ hng hangs) hng'
    exact hnot (List.mem_flatMap.2 ⟨g', hg', heq ▸ hng⟩)
  · rw [htell]
    exact fun _ _ _ h => absurd h List.not_mem_nil
  · rw [htell]
    exact List.forall_mem_nil _
  · intro f hf n hnf hn
    rw [hwaiting, mem_waiting_without, ← hconcerns f hf n hnf]
    exact and_iff_right (hstays n hn)
  · intro c hc
    exact absurd hc (hkept c)

lemma handledOnce_released (h : w.Sits) {gone : List (List (OrderRequest K L R))}
    (hsub : gone.Sublist w.desk.families) (hrel : QuoteDesk.Released w.desk (w.step e).desk gone)
    (hterms : (w.step e).lastTerms = w.lastTerms) (hsame : w.waitingAt e = w.desk.waiting)
    (hconcerns : ∀ f ∈ w.desk.attachedQuoteOrders, ∀ n ∈ numbers f.orders,
      n ∈ gone.flatMap numbers ↔ w.Concerns f n e)
    (hkept : ∀ c, e ≠ .queued (.modify c)) : HandledOnce w e ∧ (w.step e).Sits := by
  refine ⟨handledOnce_out h.housed ?_ hsame (fun _ hn => hn) hsub hrel.waits hrel.sent
    (h.housed.placements fun g hg => hsub.subset hg) hrel.told hconcerns hkept,
    ⟨hrel.housed, ?_⟩⟩
  · intro o ho
    rw [hterms]
    exact h.terms o ho
  · intro o ho
    rw [hterms]
    rw [hrel.waits] at ho
    exact h.terms o (mem_without.1 ho).1

lemma handledOnce_polled (h : w.Sits) (now : ℕ) (view : ℕ → C → QuoteView) :
    HandledOnce w (.polled now view) ∧ (w.step (.polled now view)).Sits := by
  have hrun := QuoteDesk.released_pollFamilies now view w.desk.attachedQuoteOrders
    { w.desk with attachedQuoteOrders := [] } (by
      rw [QuoteDesk.families, List.map_nil, List.append_nil]
      exact h.housed)
  refine handledOnce_released h (List.filter_sublist.map _)
    ⟨hrun.waits, hrun.sent, hrun.told, hrun.housed⟩ rfl rfl ?_ (fun c hc => nomatch hc)
  intro f hf n hn
  rw [List.flatMap_map, List.mem_flatMap]
  constructor
  · rintro ⟨g, hg, hng⟩
    obtain ⟨hg, hdue⟩ := List.mem_filter.1 hg
    rw [eq_of_mem_flatMap h.apart hf hg hn hng]
    exact hdue
  · intro hdue
    exact ⟨f, List.mem_filter.2 ⟨hf, hdue⟩, hn⟩

lemma handledOnce_stopped (h : w.Sits) :
    HandledOnce w .stopped ∧ (w.step .stopped).Sits := by
  have hrun := QuoteDesk.released_foldl w.desk.families
    ({ w.desk with attachedQuoteOrders := [] } : QuoteDesk K L R C) (by
      rw [QuoteDesk.families, QuoteDesk.families, List.map_nil, List.append_nil]
      exact h.housed)
  refine handledOnce_released h (List.Sublist.refl _)
    ⟨hrun.waits, hrun.sent, hrun.told, hrun.housed⟩ rfl rfl ?_ (fun c hc => nomatch hc)
  intro f hf n hn
  exact iff_of_true (List.mem_flatMap.2 ⟨_, List.mem_map_of_mem hf, hn⟩) trivial

/-! A cancel, and what it leaves. -/

structure Discarded (d d' : QuoteDesk K L R C) (leaving : List ℕ) : Prop where
  waits : d'.waitingAttachedOrders = without d.waitingAttachedOrders leaving
  sent : d'.pendingOrders = d.pendingOrders
  told : d'.orderUpdates =
    d.orderUpdates ++ (gathered d.waitingAttachedOrders leaving).map StagedOrder.orderId
  housed : Housed d'.waitingAttachedOrders d'.families
  forgotten : ∀ o ∈ gathered d.waitingAttachedOrders leaving, o.orderId ∉ d'.placed ∧
    ∀ l ∈ d'.generated, l.1 ≠ o.orderId

lemma discarded_cancel {d : QuoteDesk K L R C} (h : Housed d.waitingAttachedOrders d.families)
    (orderId instrument : Option ℕ) :
    Discarded d (d.cancelWaitingAttached orderId instrument).1
      (d.families.flatMap (QuoteDesk.leavingOf d.waitingAttachedOrders orderId instrument)) := by
  obtain ⟨out, hcancelled, heq⟩ := QuoteDesk.cancelWaitingAttached_eq h orderId instrument
  have hplacements := h.cancelled_placements orderId instrument
  have hids : ∀ o ∈ gathered d.waitingAttachedOrders (d.families.flatMap
      (QuoteDesk.leavingOf d.waitingAttachedOrders orderId instrument)),
      o.orderId ∈ numbers (d.families.flatMap
        (QuoteDesk.cancelledOf d.waitingAttachedOrders orderId instrument)) := by
    intro o ho
    rw [← hplacements] at ho
    obtain ⟨r, hr, hplaced⟩ := List.mem_filterMap.1 ho
    refine List.mem_map.2 ⟨r, hr, ?_⟩
    cases r <;> first | (cases hplaced; rfl) | cases hplaced
  rw [heq, QuoteDesk.foldl_discard]
  refine ⟨hcancelled.waits, hcancelled.sent, ?_, hcancelled.housed, ?_⟩
  · rw [← hplacements]
    exact congrArg (· ++ _) hcancelled.told
  · intro o ho
    refine ⟨fun hin => ?_, fun l hl heq => ?_⟩
    · exact of_decide_eq_true (List.mem_filter.1 hin).2 (hids o ho)
    · exact of_decide_eq_true (List.mem_filter.1 hl).2 (heq ▸ hids o ho)

lemma mem_leavingOf {orderId instrument : Option ℕ} {n : ℕ} :
    n ∈ QuoteDesk.leavingOf held orderId instrument f ↔ n ∈ numbers f ∧
      (QuoteDesk.cancelsWhole orderId instrument (f.map (latest held)) = true ∨
        orderId = some n) := by
  unfold QuoteDesk.leavingOf
  split_ifs with hwhole
  · simp only [hwhole, true_or, and_true]
  · cases orderId with
    | none => simp [hwhole]
    | some m =>
        dsimp only
        split_ifs with hm
        · simp only [List.mem_singleton, hwhole, Bool.false_eq_true, false_or, Option.some_inj]
          constructor
          · rintro rfl
            exact ⟨hm, rfl⟩
          · exact fun h => h.2.symm
        · simp only [List.not_mem_nil, hwhole, Bool.false_eq_true, false_or, Option.some_inj,
            false_iff, not_and]
          rintro hn rfl
          exact hm hn

lemma handledOnce_discarded (h : w.Sits) (orderId instrument : Option ℕ) {leaving : List ℕ}
    (hleaving : leaving = w.desk.families.flatMap
      (QuoteDesk.leavingOf w.desk.waitingAttachedOrders orderId instrument))
    (hdisc : Discarded w.desk { (w.step e).desk with pendingOrders := w.desk.pendingOrders } leaving)
    {l : List (OrderRequest K L R)}
    (hsent : (w.step e).desk.pendingOrders = w.desk.pendingOrders ++ l)
    (hother : l.filterMap OrderRequest.placement = [])
    (hterms : (w.step e).lastTerms = w.lastTerms) (hsame : w.waitingAt e = w.desk.waiting)
    (horphans : ∀ n, orderId = some n → LeavesNoChild w.desk n)
    (hconcerns : ∀ f ∈ w.desk.attachedQuoteOrders, ∀ n ∈ numbers f.orders,
      (QuoteDesk.cancelsWhole orderId instrument
        (f.orders.map (latest w.desk.waitingAttachedOrders)) = true ∨ orderId = some n) ↔
        w.Concerns f n e)
    (hkept : ∀ c, e ≠ .queued (.modify c)) : HandledOnce w e ∧ (w.step e).Sits := by
  have hpushed := pushedAt_eq hsent
  have htell := toldAt_eq (w := w) (e := e) hdisc.told
  have hmoved : w.movedAt e = [] := by
    rw [movedAt, hpushed, hother]
    rfl
  have hwaits : (w.step e).desk.waitingAttachedOrders =
    without w.desk.waitingAttachedOrders leaving := hdisc.waits
  have hwaiting : (w.step e).desk.waiting =
      (without w.desk.waitingAttachedOrders leaving).map StagedOrder.orderId := by
    rw [QuoteDesk.waiting, hwaits]
  have hnodup : leaving.Nodup := by
    rw [hleaving]
    refine List.nodup_flatMap.2 ⟨fun f hf => ?_, ?_⟩
    · have hone := (List.nodup_flatMap.1 h.housed.apart).1 f hf
      unfold QuoteDesk.leavingOf
      split_ifs
      · exact hone
      · cases orderId with
        | none => exact List.nodup_nil
        | some n =>
            dsimp only
            split_ifs
            · exact List.nodup_singleton n
            · exact List.nodup_nil
    · refine (List.nodup_flatMap.1 h.housed.apart).2.imp ?_
      intro a b hdisj n hna hnb
      exact hdisj (QuoteDesk.leavingOf_subset hna) (QuoteDesk.leavingOf_subset hnb)
  -- whose number leaves is of a family, and leaves with it or alone
  have hof : ∀ n, n ∈ leaving ↔ ∃ f ∈ w.desk.attachedQuoteOrders, n ∈ numbers f.orders ∧
      (QuoteDesk.cancelsWhole orderId instrument
        (f.orders.map (latest w.desk.waitingAttachedOrders)) = true ∨ orderId = some n) := by
    intro n
    rw [hleaving, QuoteDesk.families, List.flatMap_map, List.mem_flatMap]
    simp only [mem_leavingOf]
  refine ⟨⟨?_, ?_, ⟨?_, ?_⟩, ?_, ?_, ?_, ?_⟩, ⟨?_, ?_⟩⟩
  · rw [hmoved, htell, hwaiting, hsame, List.map_nil, List.nil_append, ← List.map_append]
    exact (perm_gathered h.housed.once hnodup).map _
  · rw [hmoved]
    exact List.forall_mem_nil _
  · rw [hmoved]
    exact List.Pairwise.nil
  · rw [hmoved]
    exact List.forall_mem_nil _
  · intro o ho n hn hangs
    rw [htell] at hn
    rw [hwaits] at ho
    obtain ⟨hheld, hnot⟩ := mem_without.1 ho
    obtain ⟨o', ho', rfl⟩ := List.mem_map.1 hn
    obtain ⟨f, hf, hnf, hwhole⟩ := (hof _).1 (mem_gathered ho').2
    have hclosed := (h.housed.whole f.orders (List.mem_map_of_mem hf)).closed o hheld _ hnf hangs
    rcases hwhole with hwhole | hone
    · exact hnot ((hof _).2 ⟨f, hf, hclosed, Or.inl hwhole⟩)
    · rcases horphans _ hone f hf hnf with hhead | hnone
      · refine hnot ((hof _).2 ⟨f, hf, hclosed, Or.inl ?_⟩)
        rw [QuoteDesk.cancelsWhole, hone]
        have hlatest : (f.orders.map (latest w.desk.waitingAttachedOrders)).head?.any
            (some ·.orderId = some o'.orderId) = true := by
          rw [List.head?_map, Option.any_map]
          simpa only [Function.comp_def, orderId_latest, Option.some_inj] using hhead
        rw [hlatest, Bool.or_true]
      · exact hnone o hheld hangs
  · intro n hn
    rw [htell] at hn
    obtain ⟨o, ho, rfl⟩ := List.mem_map.1 hn
    exact hdisc.forgotten o ho
  · intro f hf n hnf hn
    rw [hwaiting, mem_waiting_without, hof, ← hconcerns f hf n hnf]
    constructor
    · rintro ⟨-, hnot⟩ hcancels
      exact hnot ⟨f, hf, hnf, hcancels⟩
    · intro hnot
      refine ⟨hn, ?_⟩
      rintro ⟨g, hg, hng, hcancels⟩
      exact hnot (eq_of_mem_flatMap h.apart hf hg hnf hng ▸ hcancels)
  · intro c hc
    exact absurd hc (hkept c)
  · exact hdisc.housed
  · intro o ho
    rw [hterms]
    rw [hwaits] at ho
    exact h.terms o (mem_without.1 ho).1

lemma cancels_iff {n : ℕ} (orderId : ℕ) :
    (QuoteDesk.cancelsWhole (some orderId) none (f.map (latest held)) = true ∨
      (some orderId : Option ℕ) = some n) ↔
        (n = orderId ∨ f.head?.any (·.orderId = orderId) = true) := by
  have hwhole : QuoteDesk.cancelsWhole (some orderId) none (f.map (latest held)) =
      f.head?.any (·.orderId = orderId) := by
    simp only [QuoteDesk.cancelsWhole, Option.isNone_some, Option.isSome_none, Bool.false_and,
      Bool.false_or, List.head?_map, Option.any_map, orderId_latest, Option.some_inj]
  rw [hwhole, Option.some_inj]
  constructor
  · rintro (h | h)
    · exact Or.inr h
    · exact Or.inl h.symm
  · rintro (h | h)
    · exact Or.inr h.symm
    · exact Or.inl h

lemma handledOnce_cancelled (h : w.Sits) (orderId : ℕ) (hleaves : LeavesNoChild w.desk orderId) :
    HandledOnce w (.cancelled orderId) ∧ (w.step (.cancelled orderId)).Sits := by
  have hdisc := discarded_cancel h.housed (some orderId) none
  refine handledOnce_discarded (l := []) h (some orderId) none rfl
    ⟨hdisc.waits, rfl, hdisc.told, hdisc.housed,
    hdisc.forgotten⟩ (hdisc.sent.trans (List.append_nil _).symm) rfl rfl rfl ?_ ?_
    (fun c hc => nomatch hc)
  · intro n hn
    exact Option.some.inj hn ▸ hleaves
  · intro f _ n _
    exact cancels_iff orderId

lemma handledOnce_allCancelled (h : w.Sits) :
    HandledOnce w .allCancelled ∧ (w.step .allCancelled).Sits := by
  have hdisc := discarded_cancel h.housed none none
  refine handledOnce_discarded (l := []) h none none rfl ⟨hdisc.waits, rfl, hdisc.told, hdisc.housed,
    hdisc.forgotten⟩ (hdisc.sent.trans (List.append_nil _).symm) rfl rfl rfl
    (fun _ hn => nomatch hn) ?_ (fun c hc => nomatch hc)
  intro f _ n _
  exact iff_of_true (Or.inl rfl) trivial

lemma handledOnce_queuedCancel (h : w.Sits) (orderId : ℕ)
    (hleaves : LeavesNoChild w.desk orderId) :
    HandledOnce w (.queued (.cancel orderId)) ∧ (w.step (.queued (.cancel orderId))).Sits := by
  have hdisc := discarded_cancel h.housed (some orderId) none
  have hdesk : (w.step (.queued (.cancel orderId))).desk =
      (w.desk.cancelWaitingAttached (some orderId) none).1 ∨
      (w.step (.queued (.cancel orderId))).desk =
        (w.desk.cancelWaitingAttached (some orderId) none).1.push (.cancel orderId) := by
    change w.desk.queueOrderDuringQuoteWait (.cancel orderId) = _ ∨
      w.desk.queueOrderDuringQuoteWait (.cancel orderId) = _
    unfold QuoteDesk.queueOrderDuringQuoteWait
    dsimp only
    split_ifs
    · exact Or.inl rfl
    · exact Or.inr rfl
  have hgood : ∀ l : List (OrderRequest K L R), l.filterMap OrderRequest.placement = [] →
      (w.step (.queued (.cancel orderId))).desk =
        { (w.desk.cancelWaitingAttached (some orderId) none).1 with
          pendingOrders := (w.desk.cancelWaitingAttached (some orderId) none).1.pendingOrders ++ l } →
      HandledOnce w (.queued (.cancel orderId)) ∧ (w.step (.queued (.cancel orderId))).Sits := by
    intro l hl heq
    refine handledOnce_discarded (l := l) h (some orderId) none rfl ?_ ?_ hl rfl rfl ?_ ?_
      (fun c hc => nomatch hc)
    · rw [heq]
      exact ⟨hdisc.waits, rfl, hdisc.told, hdisc.housed, hdisc.forgotten⟩
    · rw [heq, ← hdisc.sent]
    · intro n hn
      exact Option.some.inj hn ▸ hleaves
    · intro f _ n _
      exact cancels_iff orderId
  rcases hdesk with heq | heq
  · exact hgood [] rfl (by rw [heq, List.append_nil])
  · exact hgood [.cancel orderId] rfl heq

lemma handledOnce_queuedCancelAll (h : w.Sits) (instrument : ℕ) :
    HandledOnce w (.queued (.cancelAll instrument)) ∧
      (w.step (.queued (.cancelAll instrument))).Sits := by
  have hdisc := discarded_cancel h.housed none (some instrument)
  have heq : (w.step (.queued (.cancelAll instrument))).desk =
      { (w.desk.cancelWaitingAttached none (some instrument)).1 with
        pendingOrders := (w.desk.cancelWaitingAttached none (some instrument)).1.pendingOrders ++
          [.cancelAll instrument] } := rfl
  refine handledOnce_discarded (l := [.cancelAll instrument]) h none (some instrument) rfl ?_ ?_
    rfl rfl rfl ?_ ?_
    (fun c hc => nomatch hc)
  · rw [heq]
    exact ⟨hdisc.waits, rfl, hdisc.told, hdisc.housed, hdisc.forgotten⟩
  · rw [heq, ← hdisc.sent]
  · intro n hn
    cases hn
  · intro f _ n _
    have hwhole : QuoteDesk.cancelsWhole none (some instrument)
        (f.orders.map (latest w.desk.waitingAttachedOrders)) =
        f.orders.head?.any (fun r =>
          (latest w.desk.waitingAttachedOrders r).instrument = some instrument) := by
      simp only [QuoteDesk.cancelsWhole, Option.isNone_none, Option.isNone_some, Bool.and_false,
        Bool.false_or, Option.isSome_some, Bool.true_and, List.head?_map, Option.any_map,
        reduceCtorEq, decide_false]
      cases f.orders.head? <;> simp
    rw [hwhole]
    refine or_iff_left ?_
    rintro ⟨⟩

end QuoteWaits

/-! A change of what waits. -/

lemma FamilyOf.map (h : FamilyOf held f) {φ : StagedOrder K L R → StagedOrder K L R}
    (hid : ∀ o, (φ o).orderId = o.orderId)
    (hparent : ∀ o, (φ o).attrs.parentId = o.attrs.parentId) : FamilyOf (held.map φ) f where
  placed := fun r hr hsome => by
    obtain ⟨o, ho, heq⟩ := h.placed r hr hsome
    exact ⟨φ o, List.mem_map_of_mem ho, (hid o).trans heq⟩
  changes := fun r hr hnone o ho => by
    obtain ⟨o, hmem, rfl⟩ := List.mem_map.1 ho
    rw [hid]
    exact h.changes r hr hnone o hmem
  closed := fun o ho n hn hangs => by
    obtain ⟨o, hmem, rfl⟩ := List.mem_map.1 ho
    rw [hid]
    rw [StagedOrder.Hangs, hparent] at hangs
    exact h.closed o hmem n hn hangs
  led := h.led.imp fun hled o ho heq hangs => by
    obtain ⟨o, hmem, rfl⟩ := List.mem_map.1 ho
    rw [StagedOrder.Hangs, hparent] at hangs
    exact hled o hmem ((hid o).symm.trans heq) hangs

lemma Housed.map {families : List (List (OrderRequest K L R))} (h : Housed held families)
    {φ : StagedOrder K L R → StagedOrder K L R} (hid : ∀ o, (φ o).orderId = o.orderId)
    (hparent : ∀ o, (φ o).attrs.parentId = o.attrs.parentId) :
    Housed (held.map φ) families where
  once := by
    have hsame : (held.map φ).map StagedOrder.orderId = held.map StagedOrder.orderId := by
      rw [List.map_map]
      exact List.map_congr_left fun o _ => hid o
    rw [hsame]
    exact h.once
  apart := h.apart
  housed := fun o ho => by
    obtain ⟨o, hmem, rfl⟩ := List.mem_map.1 ho
    rw [hid]
    exact h.housed o hmem
  whole := fun f hf => (h.whole f hf).map hid hparent

namespace QuoteWaits

variable {w : QuoteWaits K L R C} {e : QuoteEvent K L R C}

def amendedBy (c : OrderChange K L R) (spec : K × WaitingAttrs L R) (o : StagedOrder K L R) :
    StagedOrder K L R := if o.orderId = c.orderId then o.amended c spec else o

lemma amendedBy_orderId (c : OrderChange K L R) (spec : K × WaitingAttrs L R)
    (o : StagedOrder K L R) : (amendedBy c spec o).orderId = o.orderId := by
  unfold amendedBy
  split_ifs <;> rfl

lemma amendedBy_parentId (c : OrderChange K L R) (spec : K × WaitingAttrs L R)
    (o : StagedOrder K L R) : (amendedBy c spec o).attrs.parentId = o.attrs.parentId := by
  unfold amendedBy
  split_ifs <;> rfl

lemma amend_cases (h : w.Sits) (c : OrderChange K L R) :
    (amendWaitingAttached w.desk.waitingAttachedOrders c [] = none ∧
        w.restate c = w.lastTerms ∧ (c.orderId ∈ w.desk.waiting → c.spec = none)) ∨
      ∃ spec, c.spec = some spec ∧ c.orderId ∈ w.desk.waiting ∧
        amendWaitingAttached w.desk.waitingAttachedOrders c [] =
          some (w.desk.waitingAttachedOrders.map (amendedBy c spec)) ∧
        w.restate c =
          Function.update w.lastTerms c.orderId ((w.lastTerms c.orderId).map (·.amended c spec)) := by
  unfold amendWaitingAttached restate
  cases hspec : c.spec with
  | none => exact Or.inl ⟨rfl, rfl, fun _ => rfl⟩
  | some spec =>
      dsimp only
      by_cases hin : c.orderId ∈ w.desk.waiting
      · have hany : w.desk.waitingAttachedOrders.any (·.orderId = c.orderId) = true := by
          obtain ⟨o, ho, heq⟩ := List.mem_map.1 hin
          exact List.any_eq_true.2 ⟨o, ho, decide_eq_true heq⟩
        refine Or.inr ⟨spec, rfl, hin, ?_, if_pos hin⟩
        rw [if_pos hany, List.foldl_nil, Removal.modifyFirst_eq_map]
        · refine congrArg some (List.map_congr_left fun o _ => ?_)
          simp only [amendedBy, decide_eq_true_eq]
        · refine (List.pairwise_map.1 h.housed.once).imp ?_
          intro a b hne ha hb
          exact hne ((of_decide_eq_true ha).trans (of_decide_eq_true hb).symm)
      · have hany : ¬w.desk.waitingAttachedOrders.any (·.orderId = c.orderId) = true := by
          intro hany
          obtain ⟨o, ho, heq⟩ := List.any_eq_true.1 hany
          exact hin (List.mem_map.2 ⟨o, ho, of_decide_eq_true heq⟩)
        exact Or.inl ⟨if_neg hany, if_neg hin, fun h => absurd h hin⟩

lemma sits_amended (h : w.Sits) (c : OrderChange K L R) {v : QuoteWaits K L R C}
    (hfamilies : v.desk.families = w.desk.families)
    (hheld : v.desk.waitingAttachedOrders =
      (amendWaitingAttached w.desk.waitingAttachedOrders c []).getD w.desk.waitingAttachedOrders)
    (hterms : v.lastTerms = w.restate c) : v.Sits ∧ v.desk.waiting = w.desk.waiting := by
  rcases amend_cases h c with ⟨hnone, hsame, -⟩ | ⟨spec, -, -, hsome, hupdate⟩
  · rw [hnone, Option.getD_none] at hheld
    refine ⟨⟨?_, ?_⟩, ?_⟩
    · rw [hheld, hfamilies]
      exact h.housed
    · rw [hheld, hterms, hsame]
      exact h.terms
    · rw [QuoteDesk.waiting, hheld]
      rfl
  · rw [hsome, Option.getD_some] at hheld
    refine ⟨⟨?_, ?_⟩, ?_⟩
    · rw [hheld, hfamilies]
      exact h.housed.map (amendedBy_orderId c spec) (amendedBy_parentId c spec)
    · rw [hheld, hterms, hupdate]
      intro o ho
      obtain ⟨o, hmem, rfl⟩ := List.mem_map.1 ho
      rw [amendedBy_orderId]
      unfold amendedBy
      split_ifs with hid
      · rw [hid, Function.update_self, ← hid, h.terms o hmem]
        rfl
      · rw [Function.update_of_ne hid, h.terms o hmem]
    · rw [QuoteDesk.waiting, hheld, List.map_map]
      exact List.map_congr_left fun o _ => amendedBy_orderId c spec o

lemma handledOnce_amended (h : w.Sits) (c : OrderChange K L R) :
    HandledOnce w (.amended c) ∧ (w.step (.amended c)).Sits := by
  obtain ⟨hsits, hwaiting⟩ := sits_amended (v := w.step (.amended c)) h c rfl rfl rfl
  refine ⟨handledOnce_still (l := []) hwaiting rfl (List.append_nil _).symm ?_ rfl
    (fun _ _ _ hc => hc) (fun _ hc => nomatch hc), hsits⟩
  exact List.forall_mem_nil _

lemma desk_queuedModify (c : OrderChange K L R) : (w.step (.queued (.modify c))).desk =
    match amendWaitingAttached w.desk.waitingAttachedOrders c [] with
    | some held => { w.desk with waitingAttachedOrders := held }
    | none => w.desk.push (.modify c) := rfl

lemma handledOnce_queuedModify (h : w.Sits) (c : OrderChange K L R)
    (hstates : c.orderId ∈ w.desk.waiting → c.spec.isSome) :
    HandledOnce w (.queued (.modify c)) ∧ (w.step (.queued (.modify c))).Sits := by
  have hdesk := desk_queuedModify (w := w) c
  have hcases := amend_cases h c
  cases hamend : amendWaitingAttached w.desk.waitingAttachedOrders c [] with
  | some held =>
      rw [hamend] at hdesk
      obtain ⟨hsits, hwaiting⟩ := sits_amended (v := w.step (.queued (.modify c))) h c
        (by rw [hdesk]; rfl) (by rw [hdesk, hamend]; rfl) rfl
      refine ⟨handledOnce_still (l := []) hwaiting rfl ?_ ?_ ?_ (fun _ _ _ hc => hc)
        (fun _ _ _ => rfl), hsits⟩
      · rw [hdesk, List.append_nil]
      · exact List.forall_mem_nil _
      · rw [hdesk]
  | none =>
      rw [hamend] at hdesk hcases
      obtain ⟨hsits, hwaiting⟩ := sits_amended (v := w.step (.queued (.modify c))) h c
        (by rw [hdesk]; rfl) (by rw [hdesk, hamend]; rfl) rfl
      refine ⟨handledOnce_still (l := [.modify c]) hwaiting rfl (by rw [hdesk]; rfl) ?_
        (by rw [hdesk]; rfl) (fun _ _ _ hc => hc) ?_, hsits⟩
      · exact List.forall_mem_nil _
      · intro c' hc' hin
        cases hc'
        rcases hcases with ⟨-, -, hspec⟩ | ⟨spec, -, -, hsome, -⟩
        · have hstated := hstates hin
          rw [hspec hin] at hstated
          cases hstated
        · cases hsome

lemma handledOnce_pushed (h : w.Sits) {r : OrderRequest K L R}
    (hdesk : (w.step (.queued r)).desk = w.desk.push r)
    (hterms : (w.step (.queued r)).lastTerms = w.lastTerms)
    (hsame : w.waitingAt (.queued r) = w.desk.waiting)
    (hother : ∀ o ∈ r.placement, o.orderId ∉ w.desk.waiting)
    (hconcerns : ∀ f n, ¬w.Concerns f n (.queued r)) (hkept : r.isModify = false) :
    HandledOnce w (.queued r) ∧ (w.step (.queued r)).Sits := by
  refine ⟨handledOnce_still (l := [r]) ?_ hsame (by rw [hdesk]; rfl) ?_ (by rw [hdesk]; rfl)
    (fun f _ n => hconcerns f n) ?_, ⟨?_, ?_⟩⟩
  · rw [hdesk, hsame]
    rfl
  · intro o ho
    rw [List.filterMap_cons, List.filterMap_nil] at ho
    cases hplaced : r.placement with
    | none =>
        rw [hplaced] at ho
        exact absurd ho List.not_mem_nil
    | some o' =>
        rw [hplaced] at ho
        rw [List.mem_singleton.1 ho]
        exact hother o' hplaced
  · intro c hc _
    cases hc
    cases hkept
  · rw [hdesk]
    exact h.housed
  · rw [hdesk, hterms]
    exact h.terms

lemma handledOnce_queued (h : w.Sits) (r : OrderRequest K L R)
    (hcond : StaysWhole w (.queued r)) :
    HandledOnce w (.queued r) ∧ (w.step (.queued r)).Sits := by
  cases r with
  | submitEx o =>
      exact handledOnce_pushed h rfl rfl rfl (fun o' ho' => Option.some.inj ho' ▸ hcond)
        (fun _ _ hc => hc) rfl
  | modify c => exact handledOnce_queuedModify h c hcond
  | cancel orderId => exact handledOnce_queuedCancel h orderId hcond
  | cancelAll instrument => exact handledOnce_queuedCancelAll h instrument
  | globalCancel =>
      exact handledOnce_pushed h rfl rfl rfl (fun o' ho' => nomatch ho') (fun _ _ hc => hc) rfl
  | submitBracket parentId tpId slId instrument =>
      exact handledOnce_pushed h rfl rfl rfl (fun o' ho' => nomatch ho') (fun _ _ hc => hc) rfl

lemma handledOnce_placed (h : w.Sits) (orderId : ℕ) (links : List (ℕ × ℕ)) :
    HandledOnce w (.placed orderId links) ∧ (w.step (.placed orderId links)).Sits := by
  refine ⟨handledOnce_still (l := []) rfl rfl (List.append_nil _).symm ?_ rfl
    (fun _ _ _ hc => hc) (fun _ hc => nomatch hc), ⟨h.housed, h.terms⟩⟩
  exact List.forall_mem_nil _

end QuoteWaits

end IbkrDx
