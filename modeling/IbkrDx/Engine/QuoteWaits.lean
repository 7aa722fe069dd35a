import IbkrDx.Engine.QuoteFamilies

/-!
# Families waiting for a quote

A family is given to send, and orders join one.

* **`families_whole`** — under the condition each placement that waits is sent once, behind its
  parent and with its last terms, or discarded once.
-/

namespace IbkrDx

section

variable {K L R C : Type}

variable {held : List (StagedOrder K L R)} {f : List (OrderRequest K L R)}
  {r : OrderRequest K L R} {n : ℕ} {o : StagedOrder K L R}

lemma orderId_of_placement (h : r.placement = some o) :
    o.orderId = r.orderId := by
  cases r <;> first | (cases h; rfl) | cases h

lemma sublist_numbers (orders : List (OrderRequest K L R)) :
    ((orders.filterMap OrderRequest.placement).map StagedOrder.orderId).Sublist
      (numbers orders) := by
  induction orders with
  | nil => exact List.Sublist.refl _
  | cons r orders ih =>
      rw [List.filterMap_cons]
      cases hplaced : r.placement with
      | none => exact ih.cons _
      | some o =>
          rw [List.map_cons, orderId_of_placement hplaced]
          exact ih.cons_cons _

lemma stageWaitingAttached_eq : ∀ (orders : List (OrderRequest K L R))
    (held : List (StagedOrder K L R)), (numbers orders).Nodup →
      stageWaitingAttached held orders = held ++ (orders.filterMap OrderRequest.placement).filter
        (·.orderId ∉ held.map StagedOrder.orderId)
  | [], held, _ => (List.append_nil held).symm
  | r :: orders, held, h => by
      obtain ⟨hnot, hrest⟩ := List.nodup_cons.1 h
      cases r with
      | submitEx o =>
          have hother : ∀ o' ∈ orders.filterMap OrderRequest.placement, o'.orderId ≠ o.orderId := by
            intro o' ho' heq
            have hmem := (sublist_numbers orders).subset (List.mem_map_of_mem ho')
            rw [heq] at hmem
            exact hnot hmem
          rw [stageWaitingAttached, stageWaitingAttached_eq orders _ hrest, List.filterMap_cons]
          have hany : held.any (·.orderId = o.orderId) = true ↔
              o.orderId ∈ held.map StagedOrder.orderId := by
            simp [List.any_eq_true, List.mem_map]
          dsimp only [OrderRequest.placement]
          by_cases hin : o.orderId ∈ held.map StagedOrder.orderId
          · rw [if_pos (hany.2 hin), List.filter_cons_of_neg (by simpa using hin)]
          · rw [if_neg (fun hcon => hin (hany.1 hcon)),
              List.filter_cons_of_pos (by simpa using hin),
              List.append_assoc, List.singleton_append]
            refine congrArg (fun l => held ++ o :: l) (List.filter_congr fun o' ho' => ?_)
            rw [List.map_append, List.map_singleton]
            simp only [List.mem_append, List.mem_singleton, hother o' ho', or_false]
      | modify c => exact stageWaitingAttached_eq orders held hrest
      | cancel n => exact stageWaitingAttached_eq orders held hrest
      | cancelAll n => exact stageWaitingAttached_eq orders held hrest
      | globalCancel => exact stageWaitingAttached_eq orders held hrest
      | submitBracket a b c n => exact stageWaitingAttached_eq orders held hrest

lemma FamilyOf.append (h : FamilyOf held f) {new : List (StagedOrder K L R)}
    (hnot : ∀ o ∈ new, o.orderId ∉ numbers f) (hhangs : ∀ o ∈ new, ∀ n ∈ numbers f, ¬o.Hangs n) :
    FamilyOf (held ++ new) f where
  placed := fun r hr hsome => by
    obtain ⟨o, ho, heq⟩ := h.placed r hr hsome
    exact ⟨o, List.mem_append_left _ ho, heq⟩
  changes := fun r hr hnone o ho heq => by
    rcases List.mem_append.1 ho with ho | ho
    · exact h.changes r hr hnone o ho heq
    · exact hnot o ho (heq ▸ List.mem_map_of_mem hr)
  closed := fun o ho n hn hangs => by
    rcases List.mem_append.1 ho with ho | ho
    · exact h.closed o ho n hn hangs
    · exact absurd hangs (hhangs o ho n hn)
  led := List.Pairwise.imp_of_mem (fun {a b} ha _ hled o ho heq => by
    rcases List.mem_append.1 ho with ho | ho
    · exact hled o ho heq
    · exact absurd (heq ▸ ha) (hnot o ho)) h.led

namespace FindsItsPlace

variable {d : QuoteDesk K L R C} {orders : List (OrderRequest K L R)}

lemma mem_fresh {o : StagedOrder K L R} :
    o ∈ d.fresh orders ↔ (∃ r ∈ orders, r.placement = some o) ∧ o.orderId ∉ d.waiting := by
  rw [QuoteDesk.fresh, List.mem_filter, List.mem_filterMap, decide_eq_true_iff]

lemma nodup_fresh (h : FindsItsPlace d orders) :
    ((d.fresh orders).map StagedOrder.orderId).Nodup :=
  h.distinct.sublist ((List.filter_sublist.map _).trans (sublist_numbers orders))

lemma once (h : FindsItsPlace d orders) (hheld : d.waiting.Nodup) :
    ((d.waitingAttachedOrders ++ d.fresh orders).map StagedOrder.orderId).Nodup := by
  rw [List.map_append]
  refine List.nodup_append.2 ⟨hheld, h.nodup_fresh, ?_⟩
  rintro n hn m hm rfl
  obtain ⟨o, ho, rfl⟩ := List.mem_map.1 hm
  exact (mem_fresh.1 ho).2 hn

lemma led_numbers (h : FindsItsPlace d orders) :
    (numbers orders).Pairwise fun a b => ∀ o ∈ d.fresh orders, o.orderId = a → ¬o.Hangs b := by
  refine List.pairwise_map.2 (List.Pairwise.imp_of_mem ?_ h.led)
  intro a b ha _ hled o ho heq
  obtain ⟨⟨r, hr, hplaced⟩, -⟩ := mem_fresh.1 ho
  have hid := (orderId_of_placement hplaced).symm.trans heq
  have hsame : r = a := List.inj_on_of_nodup_map h.distinct hr ha hid
  exact hled o (hsame ▸ hplaced)

lemma placed (_h : FindsItsPlace d orders) : ∀ r ∈ orders, r.placement.isSome →
    ∃ o ∈ d.waitingAttachedOrders ++ d.fresh orders, o.orderId = r.orderId := by
  intro r hr hsome
  obtain ⟨o, ho⟩ := Option.isSome_iff_exists.1 hsome
  have hid := orderId_of_placement ho
  by_cases hin : o.orderId ∈ d.waiting
  · obtain ⟨o', ho', heq⟩ := List.mem_map.1 hin
    exact ⟨o', List.mem_append_left _ ho', heq.trans hid⟩
  · exact ⟨o, List.mem_append_right _ (mem_fresh.2 ⟨⟨r, hr, ho⟩, hin⟩), hid⟩

lemma isModify_of_none (h : FindsItsPlace d orders) (hr : r ∈ orders) (hnone : r.placement = none) :
    r.isModify = true := by
  rcases h.placements r hr with hsome | hmodify
  · rw [hnone] at hsome
    cases hsome
  · exact hmodify

lemma changes_apart (h : FindsItsPlace d orders) : ∀ r ∈ orders, r.placement = none →
    ∀ o ∈ d.waitingAttachedOrders ++ d.fresh orders, o.orderId ≠ r.orderId := by
  intro r hr hnone o ho heq
  rcases List.mem_append.1 ho with ho | ho
  · exact h.changes r hr (h.isModify_of_none hr hnone) (heq ▸ List.mem_map_of_mem ho)
  · obtain ⟨⟨r', hr', hplaced⟩, -⟩ := mem_fresh.1 ho
    have hid := (orderId_of_placement hplaced).symm.trans heq
    have hsame : r' = r := List.inj_on_of_nodup_map h.distinct hr' hr hid
    rw [hsame, hnone] at hplaced
    cases hplaced

lemma listed (h : FindsItsPlace d orders) (hhoused : Housed d.waitingAttachedOrders d.families)
    (hr : r ∈ orders) (hin : r.orderId ∈ d.waiting) :
    ∃ f ∈ d.attachedQuoteOrders, r.orderId ∈ numbers f.orders ∧
      ∃ r' ∈ orders.head?, r'.orderId ∈ numbers f.orders := by
  obtain ⟨o, ho, heq⟩ := List.mem_map.1 hin
  obtain ⟨g, hg, hng⟩ := hhoused.housed o ho
  obtain ⟨f, hf, rfl⟩ := List.mem_map.1 hg
  rw [heq] at hng
  refine ⟨f, hf, hng, ?_⟩
  by_contra hno
  push Not at hno
  exact (h.elsewhere f hf hno r hr).1 hng

lemma whole_other (h : FindsItsPlace d orders) (hhoused : Housed d.waitingAttachedOrders d.families)
    {f : WaitingFamily K L R C} (hf : f ∈ d.attachedQuoteOrders)
    (hother : ∀ r ∈ orders.head?, r.orderId ∉ numbers f.orders) :
    FamilyOf (d.waitingAttachedOrders ++ d.fresh orders) f.orders := by
  refine (hhoused.whole f.orders (List.mem_map_of_mem hf)).append ?_ ?_
  · intro o ho
    obtain ⟨⟨r, hr, hplaced⟩, -⟩ := mem_fresh.1 ho
    rw [orderId_of_placement hplaced]
    exact (h.elsewhere f hf hother r hr).1
  · intro o ho n hn
    obtain ⟨⟨r, hr, hplaced⟩, -⟩ := mem_fresh.1 ho
    exact (h.elsewhere f hf hother r hr).2 o hplaced n hn

lemma not_hangs_fresh (h : FindsItsPlace d orders) {o : StagedOrder K L R}
    (ho : o ∈ d.waitingAttachedOrders) {n : ℕ}
    (hn : n ∈ (d.fresh orders).map StagedOrder.orderId) : ¬o.Hangs n := by
  obtain ⟨o', ho', rfl⟩ := List.mem_map.1 hn
  obtain ⟨⟨r, hr, hplaced⟩, hnot⟩ := mem_fresh.1 ho'
  have hid := orderId_of_placement hplaced
  rw [hid] at hnot ⊢
  exact h.first r hr hnot o ho

/-- **Orders of which none waits are a family.** -/
theorem familyOf (h : FindsItsPlace d orders) (hnone : ∀ r ∈ orders, r.orderId ∉ d.waiting) :
    FamilyOf (d.waitingAttachedOrders ++ d.fresh orders) orders where
  placed := h.placed
  changes := h.changes_apart
  closed := fun o ho n hn hangs => by
    obtain ⟨r, hr, rfl⟩ := mem_numbers.1 hn
    rcases List.mem_append.1 ho with ho | ho
    · exact absurd hangs (h.first r hr (hnone r hr) o ho)
    · obtain ⟨⟨r', hr', hplaced⟩, -⟩ := mem_fresh.1 ho
      rw [orderId_of_placement hplaced]
      exact List.mem_map_of_mem hr'
  led := by
    refine List.Pairwise.imp_of_mem ?_ h.led_numbers
    intro a b ha _ hled o ho heq
    rcases List.mem_append.1 ho with ho | ho
    · obtain ⟨r, hr, rfl⟩ := mem_numbers.1 ha
      exact absurd (heq ▸ List.mem_map_of_mem ho) (hnone r hr)
    · exact hled o ho heq

/-- **A family of its own waits beside the others.** -/
theorem housed_new (h : FindsItsPlace d orders)
    (hhoused : Housed d.waitingAttachedOrders d.families)
    (hnone : ∀ f ∈ d.attachedQuoteOrders, ∀ r ∈ orders.head?, r.orderId ∉ numbers f.orders) :
    Housed (d.waitingAttachedOrders ++ d.fresh orders) (d.families ++ [orders]) where
  once := h.once hhoused.once
  apart := by
    rw [List.flatMap_append, List.flatMap_singleton]
    refine List.nodup_append.2 ⟨hhoused.apart, h.distinct, ?_⟩
    rintro n hn m hm rfl
    obtain ⟨g, hg, hng⟩ := List.mem_flatMap.1 hn
    obtain ⟨f, hf, rfl⟩ := List.mem_map.1 hg
    obtain ⟨r, hr, rfl⟩ := mem_numbers.1 hm
    exact (h.elsewhere f hf (hnone f hf) r hr).1 hng
  housed := fun o ho => by
    rcases List.mem_append.1 ho with ho | ho
    · obtain ⟨g, hg, hin⟩ := hhoused.housed o ho
      exact ⟨g, List.mem_append_left _ hg, hin⟩
    · obtain ⟨⟨r, hr, hplaced⟩, -⟩ := mem_fresh.1 ho
      refine ⟨orders, List.mem_append_right _ (List.mem_singleton.2 rfl), ?_⟩
      rw [orderId_of_placement hplaced]
      exact List.mem_map_of_mem hr
  whole := fun g hg => by
    rcases List.mem_append.1 hg with hg | hg
    · obtain ⟨f, hf, rfl⟩ := List.mem_map.1 hg
      exact h.whole_other hhoused hf (hnone f hf)
    · rw [List.mem_singleton.1 hg]
      refine h.familyOf fun r hr hin => ?_
      obtain ⟨f, hf, -, r', hr', hlisted⟩ := h.listed hhoused hr hin
      exact hnone f hf r' hr' hlisted

lemma mem_first (h : FindsItsPlace d orders) (hhoused : Housed d.waitingAttachedOrders d.families)
    {f : WaitingFamily K L R C} (hf : f ∈ d.attachedQuoteOrders)
    (hfirst : ∃ r ∈ orders.head?, r.orderId ∈ numbers f.orders) (hr : r ∈ orders)
    (hin : r.orderId ∈ d.waiting) : r.orderId ∈ numbers f.orders := by
  obtain ⟨g, hg, hng, r', hr', hlisted⟩ := h.listed hhoused hr hin
  obtain ⟨q, hq, hqf⟩ := hfirst
  cases Option.some.inj (hq.symm.trans hr')
  have hapart := hhoused.apart
  rw [QuoteDesk.families, List.flatMap_map] at hapart
  have hsame := eq_of_mem_flatMap hapart hf hg hqf hlisted
  rwa [hsame]

section

variable (h : FindsItsPlace d orders)
  (hhoused : Housed d.waitingAttachedOrders d.families)
  {f : WaitingFamily K L R C} (hf : f ∈ d.attachedQuoteOrders)
  {g : List (OrderRequest K L R)} {ns : List ℕ} (hnumbers : numbers g = numbers f.orders ++ ns)
  (hsub : ns.Sublist (numbers orders))
  (hfresh : ∀ n, n ∈ ns ↔ n ∈ (d.fresh orders).map StagedOrder.orderId)
  (hmem : ∀ q ∈ g, q ∈ f.orders ∨
    ∃ o ∈ d.waitingAttachedOrders ++ d.fresh orders, q = .submitEx o)

include h hhoused hf hnumbers hsub hfresh hmem

/-- **A family others join is whole.** -/
theorem whole_joined : FamilyOf (d.waitingAttachedOrders ++ d.fresh orders) g := by
  have hwhole := hhoused.whole f.orders (List.mem_map_of_mem hf)
  have hunlisted : ∀ o ∈ d.fresh orders, o.orderId ∉ numbers f.orders := by
    intro o ho
    obtain ⟨⟨r, hr, hplaced⟩, hnot⟩ := mem_fresh.1 ho
    exact h.unlisted r hr o hplaced hnot f hf
  refine ⟨?_, ?_, ?_, ?_⟩
  · intro q hq hsome
    rcases hmem q hq with hq | ⟨o, ho, rfl⟩
    · obtain ⟨o, ho, heq⟩ := hwhole.placed q hq hsome
      exact ⟨o, List.mem_append_left _ ho, heq⟩
    · exact ⟨o, ho, rfl⟩
  · intro q hq hnone o ho heq
    rcases hmem q hq with hq | ⟨o', ho', rfl⟩
    · rcases List.mem_append.1 ho with ho | ho
      · exact hwhole.changes q hq hnone o ho heq
      · exact hunlisted o ho (heq ▸ List.mem_map_of_mem hq)
    · cases hnone
  · intro o ho n hn hangs
    rw [hnumbers, List.mem_append] at hn ⊢
    rcases List.mem_append.1 ho with ho | ho
    · rcases hn with hn | hn
      · exact Or.inl (hwhole.closed o ho n hn hangs)
      · exact absurd hangs (h.not_hangs_fresh ho ((hfresh n).1 hn))
    · exact Or.inr ((hfresh _).2 (List.mem_map_of_mem ho))
  · rw [hnumbers]
    refine List.pairwise_append.2 ⟨?_, ?_, ?_⟩
    · refine List.Pairwise.imp_of_mem ?_ hwhole.led
      intro a b ha _ hled o ho heq
      rcases List.mem_append.1 ho with ho | ho
      · exact hled o ho heq
      · exact absurd (heq ▸ ha) (hunlisted o ho)
    · refine List.Pairwise.imp_of_mem ?_ (h.led_numbers.sublist hsub)
      intro a b ha _ hled o ho heq
      rcases List.mem_append.1 ho with ho | ho
      · obtain ⟨o', ho', hid⟩ := List.mem_map.1 ((hfresh a).1 ha)
        exact absurd (heq.trans hid.symm ▸ List.mem_map_of_mem ho) (mem_fresh.1 ho').2
      · exact hled o ho heq
    · intro a ha b hb o ho heq hangs
      rcases List.mem_append.1 ho with ho | ho
      · exact h.not_hangs_fresh ho ((hfresh b).1 hb) hangs
      · exact hunlisted o ho (heq ▸ ha)

/-- **The families wait on, one of them joined.** -/
theorem housed_joined (hfirst : ∃ r ∈ orders.head?, r.orderId ∈ numbers f.orders)
    {rest : List (WaitingFamily K L R C)} (hperm : d.attachedQuoteOrders.Perm (f :: rest)) :
    Housed (d.waitingAttachedOrders ++ d.fresh orders)
      (g :: rest.map WaitingFamily.orders) := by
  have hhouse : Housed d.waitingAttachedOrders (f.orders :: rest.map WaitingFamily.orders) :=
    hhoused.perm (hperm.map WaitingFamily.orders)
  refine ⟨h.once hhoused.once, ?_, ?_, ?_⟩
  · have hapart := hhouse.apart
    rw [List.flatMap_cons] at hapart ⊢
    rw [hnumbers]
    obtain ⟨hown, hothers, hbetween⟩ := List.nodup_append.1 hapart
    have hnew : ∀ n ∈ ns, ∀ k ∈ d.attachedQuoteOrders, n ∉ numbers k.orders := by
      intro n hn k hk
      obtain ⟨o, ho, rfl⟩ := List.mem_map.1 ((hfresh n).1 hn)
      obtain ⟨⟨r, hr, hplaced⟩, hnot⟩ := mem_fresh.1 ho
      exact h.unlisted r hr o hplaced hnot k hk
    refine List.nodup_append.2 ⟨List.nodup_append.2 ⟨hown, h.distinct.sublist hsub, ?_⟩,
      hothers, ?_⟩
    · rintro n hn m hm rfl
      exact hnew n hm f hf hn
    · rintro n hn m hm rfl
      rcases List.mem_append.1 hn with hn | hn
      · exact hbetween n hn n hm rfl
      · obtain ⟨k, hk, hnk⟩ := List.mem_flatMap.1 hm
        obtain ⟨k', hk', rfl⟩ := List.mem_map.1 hk
        exact hnew n hn k' (hperm.mem_iff.2 (List.mem_cons_of_mem f hk')) hnk
  · intro o ho
    rcases List.mem_append.1 ho with ho | ho
    · obtain ⟨k, hk, hin⟩ := hhouse.housed o ho
      rcases List.mem_cons.1 hk with rfl | hk
      · refine ⟨g, List.mem_cons_self, ?_⟩
        rw [hnumbers]
        exact List.mem_append_left _ hin
      · exact ⟨k, List.mem_cons_of_mem _ hk, hin⟩
    · refine ⟨g, List.mem_cons_self, ?_⟩
      rw [hnumbers]
      exact List.mem_append_right _ ((hfresh _).2 (List.mem_map_of_mem ho))
  · intro k hk
    rcases List.mem_cons.1 hk with rfl | hk
    · exact h.whole_joined hhoused hf hnumbers hsub hfresh hmem
    · obtain ⟨k', hk', rfl⟩ := List.mem_map.1 hk
      refine h.whole_other hhoused (hperm.mem_iff.2 (List.mem_cons_of_mem f hk')) ?_
      intro r hr hin
      obtain ⟨q, hq, hqf⟩ := hfirst
      cases Option.some.inj (hq.symm.trans hr)
      exact hhouse.apart_head (List.mem_map_of_mem hk') hin hqf

end

end FindsItsPlace

namespace QuoteDesk

variable {d : QuoteDesk K L R C}

lemma queue_apart (hmodify : r.isModify = true)
    (hapart : ∀ o ∈ d.waitingAttachedOrders, o.orderId ≠ r.orderId) :
    d.queueOrderDuringQuoteWait r = d.push r := by
  cases r with
  | modify c =>
      have hany : ¬d.waitingAttachedOrders.any (·.orderId = c.orderId) = true := by
        intro hany
        obtain ⟨o, ho, hid⟩ := List.any_eq_true.1 hany
        exact hapart o ho (of_decide_eq_true hid)
      have hamend : amendWaitingAttached d.waitingAttachedOrders c [] = none := by
        unfold amendWaitingAttached
        cases c.spec with
        | none => rfl
        | some spec => exact if_neg hany
      unfold queueOrderDuringQuoteWait
      simp only [hamend]
  | _ => cases hmodify

lemma foldl_queue : ∀ (l : List (OrderRequest K L R)) (d : QuoteDesk K L R C),
    (∀ r ∈ l, r.isModify = true) →
    (∀ r ∈ l, ∀ o ∈ d.waitingAttachedOrders, o.orderId ≠ r.orderId) →
      l.foldl queueOrderDuringQuoteWait d = { d with pendingOrders := d.pendingOrders ++ l }
  | [], d, _, _ => by rw [List.foldl_nil, List.append_nil]
  | r :: l, d, hmodify, hapart => by
      rw [List.foldl_cons,
        queue_apart (hmodify r List.mem_cons_self) (hapart r List.mem_cons_self),
        foldl_queue l (d.push r) (fun r hr => hmodify r (List.mem_cons_of_mem _ hr))
          (fun r hr => hapart r (List.mem_cons_of_mem _ hr))]
      simp only [push, List.append_assoc, List.singleton_append]

end QuoteDesk

namespace QuoteWaits

variable {w : QuoteWaits K L R C} {orders : List (OrderRequest K L R)}

def staged (w : QuoteWaits K L R C) (orders : List (OrderRequest K L R)) : QuoteDesk K L R C :=
  { w.desk with waitingAttachedOrders := w.desk.waitingAttachedOrders ++ w.desk.fresh orders }

lemma transmitted_eq (h : FindsItsPlace w.desk orders) (acquire : Acquire C) (now : ℕ) :
    (w.step (.transmitted orders acquire now)).desk =
      (w.staged orders).acceptAttachedOrders orders acquire now := by
  have hstage := stageWaitingAttached_eq orders w.desk.waitingAttachedOrders h.distinct
  change QuoteDesk.acceptAttachedOrders { w.desk with waitingAttachedOrders := _ } _ _ _ = _
  rw [hstage]
  rfl

lemma terms_staged (h : w.Sits) (hplace : FindsItsPlace w.desk orders) {acquire : Acquire C}
    {now : ℕ} : ∀ o ∈ (w.staged orders).waitingAttachedOrders,
      (w.step (.transmitted orders acquire now)).lastTerms o.orderId = some o := by
  intro o ho
  change ((w.desk.fresh orders).find? (·.orderId = o.orderId)).orElse _ = some o
  cases hfind : (w.desk.fresh orders).find? (·.orderId = o.orderId) with
  | some o' =>
      obtain ⟨hmem, hid⟩ := found hfind
      have hheld := List.mem_append_right w.desk.waitingAttachedOrders hmem
      rw [List.inj_on_of_nodup_map (hplace.once h.housed.once) hheld ho hid]
      rfl
  | none =>
      rcases List.mem_append.1 ho with ho | ho
      · exact h.terms o ho
      · exact absurd (decide_eq_true rfl) (List.find?_eq_none.1 hfind o ho)

variable {d : QuoteDesk K L R C}

lemma handledOnce_staged (h : w.Sits) (hplace : FindsItsPlace w.desk orders)
    {acquire : Acquire C} {now : ℕ}
    (hdesk : (w.step (.transmitted orders acquire now)).desk = d)
    (hwaits : d.waitingAttachedOrders = (w.staged orders).waitingAttachedOrders)
    (hhoused : Housed (w.staged orders).waitingAttachedOrders d.families)
    {l : List (OrderRequest K L R)} (hsent : d.pendingOrders = w.desk.pendingOrders ++ l)
    (hplaced : l.filterMap OrderRequest.placement = [])
    (htold : d.orderUpdates = w.desk.orderUpdates) :
    HandledOnce w (.transmitted orders acquire now) ∧
      (w.step (.transmitted orders acquire now)).Sits := by
  subst hdesk
  have hnothing : ([] : List (List (OrderRequest K L R))).Sublist
      (w.step (.transmitted orders acquire now)).desk.families := List.nil_sublist _
  refine ⟨handledOnce_out hhoused (terms_staged h hplace) ?_ ?_ hnothing ?_ hsent
    hplaced htold ?_ (fun c hc => nomatch hc), ⟨?_, ?_⟩⟩
  · exact List.map_append.symm
  · intro n hn
    exact List.map_append ▸ List.mem_append_left _ hn
  · rw [hwaits, List.flatMap_nil, without_nil]
  · intro f _ n _
    exact iff_of_false List.not_mem_nil id
  · rw [hwaits]
    exact hhoused
  · rw [hwaits]
    exact terms_staged h hplace

lemma accept_eq {first : OrderRequest K L R}
    {rest : List (OrderRequest K L R)} (acquire : Acquire C) (now : ℕ)
    (hfamily : waitingFamily orders d.waitingAttachedOrders = first :: rest) :
    d.acceptAttachedOrders orders acquire now =
      if d.attachedQuoteOrders.any (·.lists first.orderId) then
        (first :: rest).foldl (QuoteDesk.joinFamily first.orderId) d
      else if (first :: rest).all (·.isModify) then
        (first :: rest).foldl QuoteDesk.queueOrderDuringQuoteWait d
      else
        match acquire with
        | .nothing => d.release (first :: rest)
        | .quote instrument contract =>
            { d with attachedQuoteOrders := d.attachedQuoteOrders ++
                [⟨first :: rest, contract, instrument, now, now + 1000, false⟩] }
        | .mark instrument contract =>
            { d with attachedQuoteOrders := d.attachedQuoteOrders ++
                [⟨first :: rest, contract, instrument, now, now + 1000, true⟩] } := by
  unfold QuoteDesk.acceptAttachedOrders
  cases acquire <;> rw [hfamily]

lemma isModify_latest (h : (latest held r).isModify = true) : latest held r = r := by
  unfold latest at h ⊢
  cases hfind : held.find? (·.orderId = r.orderId) with
  | none => rfl
  | some o =>
      rw [hfind] at h
      cases h

lemma placement_of_isModify (hmodify : r.isModify = true) : r.placement = none := by
  cases r with
  | modify c => rfl
  | _ => cases hmodify

lemma apart_of_isModify (hplace : FindsItsPlace w.desk orders)
    (hr : r ∈ orders.map (latest (w.staged orders).waitingAttachedOrders))
    (hmodify : r.isModify = true) :
    ∀ o ∈ (w.staged orders).waitingAttachedOrders, o.orderId ≠ r.orderId := by
  obtain ⟨q, hq, rfl⟩ := List.mem_map.1 hr
  have hsame := isModify_latest hmodify
  rw [hsame] at hmodify ⊢
  exact hplace.changes_apart q hq (placement_of_isModify hmodify)

lemma fresh_of_isModify
    (h : ∀ r ∈ orders.map (latest held), r.isModify = true) : d.fresh orders = [] := by
  rw [List.eq_nil_iff_forall_not_mem]
  intro o ho
  obtain ⟨⟨r, hr, hplaced⟩, -⟩ := FindsItsPlace.mem_fresh.1 ho
  have hmodify := h _ (List.mem_map_of_mem hr)
  have hsame := isModify_latest hmodify
  rw [hsame] at hmodify
  rw [placement_of_isModify hmodify] at hplaced
  cases hplaced

lemma handledOnce_new (h : w.Sits) (hplace : FindsItsPlace w.desk orders)
    (acquire : Acquire C) (now : ℕ)
    (hnone : ∀ f ∈ w.desk.attachedQuoteOrders, ∀ r ∈ orders.head?, r.orderId ∉ numbers f.orders) :
    HandledOnce w (.transmitted orders acquire now) ∧
      (w.step (.transmitted orders acquire now)).Sits := by
  have hdesk := transmitted_eq hplace acquire now
  have hhoused : Housed (w.staged orders).waitingAttachedOrders ((w.staged orders).families ++
    [orders]) := hplace.housed_new h.housed hnone
  have hwhole := hhoused.whole orders (List.mem_append_right _ (List.mem_singleton.2 rfl))
  have hfamily := hwhole.waitingFamily_eq
  cases orders with
  | nil =>
      refine handledOnce_staged (l := []) h hplace (d := w.staged []) ?_ rfl ?_
        (List.append_nil _).symm rfl rfl
      · rw [hdesk]
        unfold QuoteDesk.acceptAttachedOrders
        rw [hfamily]
        rfl
      · change Housed (w.desk.waitingAttachedOrders ++ []) w.desk.families
        rw [List.append_nil]
        exact h.housed
  | cons first rest =>
      rw [List.map_cons] at hfamily
      rw [accept_eq acquire now hfamily, if_neg] at hdesk
      swap
      · intro hany
        obtain ⟨f, hf, hlists⟩ := List.any_eq_true.1 hany
        have hin := any_orderId.1 hlists
        rw [orderId_latest] at hin
        exact hnone f hf first rfl hin
      rw [← List.map_cons] at hdesk
      split_ifs at hdesk with hall
      · have hmodify : ∀ r ∈ (first :: rest).map
            (latest (w.staged (first :: rest)).waitingAttachedOrders), r.isModify = true :=
          List.all_eq_true.1 hall
        rw [QuoteDesk.foldl_queue _ _ hmodify
          (fun r hr => apart_of_isModify hplace hr (hmodify r hr))] at hdesk
        refine handledOnce_staged h hplace hdesk rfl ?_ rfl ?_ rfl
        · change Housed (w.desk.waitingAttachedOrders ++ w.desk.fresh (first :: rest))
            w.desk.families
          rw [fresh_of_isModify hmodify, List.append_nil]
          exact h.housed
        · rw [List.filterMap_eq_nil_iff]
          exact fun r hr => placement_of_isModify (hmodify r hr)
      · have hkeep : ∀ f : WaitingFamily K L R C, f.orders = (first :: rest).map
            (latest (w.staged (first :: rest)).waitingAttachedOrders) →
            Housed (w.staged (first :: rest)).waitingAttachedOrders
              (QuoteDesk.families { w.staged (first :: rest) with
                attachedQuoteOrders := (w.staged (first :: rest)).attachedQuoteOrders ++ [f] }) := by
          intro f hf
          rw [QuoteDesk.families_keep, hf]
          have hfirst : Housed (w.staged (first :: rest)).waitingAttachedOrders
              ((first :: rest) :: ((w.staged (first :: rest)).families ++ [])) := by
            rw [List.append_nil]
            exact hhoused.perm List.perm_append_comm
          exact hfirst.keep
        cases acquire with
        | quote instrument contract =>
            exact handledOnce_staged (l := []) h hplace hdesk rfl (hkeep _ rfl)
              (List.append_nil _).symm rfl rfl
        | mark instrument contract =>
            exact handledOnce_staged (l := []) h hplace hdesk rfl (hkeep _ rfl)
              (List.append_nil _).symm rfl rfl
        | nothing =>
            rw [← hwhole.waitingFamily_eq, QuoteDesk.release_refreshed hwhole,
              QuoteDesk.release_eq hwhole] at hdesk
            have htake : Housed (without (w.staged (first :: rest)).waitingAttachedOrders
                (numbers (first :: rest))) w.desk.families :=
              (hhoused.perm List.perm_append_comm).take
            refine ⟨handledOnce_out hhoused (terms_staged h hplace) ?_ ?_
              (List.sublist_append_right _ [first :: rest]) ?_ (by rw [hdesk]; rfl) ?_
              (by rw [hdesk]; rfl) ?_
              (fun c hc => nomatch hc), ⟨?_, ?_⟩⟩
            · exact List.map_append.symm
            · intro n hn
              exact List.map_append ▸ List.mem_append_left _ hn
            · rw [hdesk, List.flatMap_singleton]
            · rw [List.flatMap_singleton]
              exact hwhole.placements
            · intro f hf n hn
              refine iff_of_false (fun hin => ?_) id
              rw [List.flatMap_singleton] at hin
              obtain ⟨r, hr, rfl⟩ := mem_numbers.1 hin
              exact (hplace.elsewhere f hf (hnone f hf) r hr).1 hn
            · rw [hdesk]
              exact htake
            · rw [hdesk]
              intro o ho
              exact terms_staged h hplace o (mem_without.1 ho).1

end QuoteWaits

/-! Orders that join a family. -/

namespace WaitingFamily

variable {k : WaitingFamily K L R C} {q : OrderRequest K L R}

def addAll (k : WaitingFamily K L R C) (l : List (OrderRequest K L R)) : WaitingFamily K L R C :=
  l.foldl add k

lemma numbers_modifyFirst (r : OrderRequest K L R) (l : List (OrderRequest K L R)) :
    numbers (Removal.modifyFirst (·.orderId = r.orderId) (fun _ => r) l) = numbers l :=
  Removal.map_modifyFirst (fun _ ha => (of_decide_eq_true ha).symm) l

lemma numbers_add (k : WaitingFamily K L R C) (r : OrderRequest K L R) :
    numbers (k.add r).orders = numbers k.orders ++
      [r.orderId].filter (· ∉ numbers k.orders) := by
  have hlists : k.lists r.orderId = true ↔ r.orderId ∈ numbers k.orders := any_orderId
  unfold add
  by_cases hin : r.orderId ∈ numbers k.orders
  · rw [if_pos (hlists.2 hin), numbers_modifyFirst, List.filter_cons_of_neg (by simpa using hin),
      List.filter_nil, List.append_nil]
  · rw [if_neg (fun h => hin (hlists.1 h)), List.filter_cons_of_pos (by simpa using hin)]
    exact List.map_append

lemma mem_add (h : q ∈ (k.add r).orders) : q ∈ k.orders ∨ q = r := by
  unfold add at h
  split_ifs at h with hlists
  · exact (Removal.mem_modifyFirst h).imp_right fun ⟨_, _, _, heq⟩ => heq
  · exact (List.mem_append.1 h).imp_right List.mem_singleton.1

lemma lists_add {n : ℕ} (h : k.lists n = true) : (k.add r).lists n = true := by
  have hin := any_orderId.1 h
  refine any_orderId.2 ?_
  rw [numbers_add]
  exact List.mem_append_left _ hin

lemma mem_addAll : ∀ {l : List (OrderRequest K L R)} {k : WaitingFamily K L R C},
    q ∈ (k.addAll l).orders → q ∈ k.orders ∨ q ∈ l
  | [], _, h => Or.inl h
  | r :: l, k, h => by
      rcases mem_addAll (l := l) (k := k.add r) h with hin | hin
      · rcases mem_add hin with hin | rfl
        · exact Or.inl hin
        · exact Or.inr List.mem_cons_self
      · exact Or.inr (List.mem_cons_of_mem _ hin)

lemma numbers_addAll : ∀ {l : List (OrderRequest K L R)} {k : WaitingFamily K L R C},
    (numbers l).Nodup →
      numbers (k.addAll l).orders = numbers k.orders ++ (numbers l).filter (· ∉ numbers k.orders)
  | [], k, _ => (List.append_nil _).symm
  | r :: l, k, h => by
      obtain ⟨hnot, hrest⟩ := List.nodup_cons.1 h
      have ih := numbers_addAll (l := l) (k := k.add r) hrest
      have hsplit : numbers (r :: l) = [r.orderId] ++ numbers l := rfl
      change numbers ((k.add r).addAll l).orders = _
      rw [ih, numbers_add, hsplit, List.filter_append, List.append_assoc]
      refine congrArg (fun ns => _ ++ (_ ++ ns)) (List.filter_congr fun n hn => ?_)
      have hne : n ≠ r.orderId := fun heq => hnot (heq ▸ hn)
      by_cases hin : r.orderId ∈ numbers k.orders
      · simp [hin]
      · simp [hin, hne]

lemma numbers_addAll_listed : ∀ {l : List (OrderRequest K L R)} {k : WaitingFamily K L R C},
    (∀ n ∈ numbers l, n ∈ numbers k.orders) → numbers (k.addAll l).orders = numbers k.orders
  | [], k, _ => rfl
  | r :: l, k, h => by
      have hin := h r.orderId List.mem_cons_self
      have hsame : numbers (k.add r).orders = numbers k.orders := by
        rw [numbers_add, List.filter_cons_of_neg (by simpa using hin), List.filter_nil,
          List.append_nil]
      have ih := numbers_addAll_listed (l := l) (k := k.add r)
        (fun n hn => hsame ▸ h n (List.mem_cons_of_mem _ hn))
      exact ih.trans hsame

end WaitingFamily

namespace QuoteDesk

lemma foldl_joinFamily (n : ℕ) : ∀ (l : List (OrderRequest K L R)) (d : QuoteDesk K L R C),
    (∀ r ∈ l, r.isModify = true → ∀ o ∈ d.waitingAttachedOrders, o.orderId ≠ r.orderId) →
      l.foldl (joinFamily n) d = { d with
        attachedQuoteOrders := Removal.modifyFirst (·.lists n)
          (·.addAll (l.filter (!·.isModify))) d.attachedQuoteOrders
        pendingOrders := d.pendingOrders ++ l.filter (·.isModify) }
  | [], d, _ => by
      have hid := Removal.modifyFirst_id (p := (·.lists n)) d.attachedQuoteOrders
      change d = { d with
        attachedQuoteOrders := Removal.modifyFirst (·.lists n) id d.attachedQuoteOrders
        pendingOrders := d.pendingOrders ++ [] }
      rw [hid, List.append_nil]
  | r :: l, d, h => by
      have hrest := fun q hq => h q (List.mem_cons_of_mem r hq)
      rw [List.foldl_cons]
      by_cases hmodify : r.isModify = true
      · have hjoin : joinFamily n d r = d.push r := by
          rw [joinFamily, if_pos hmodify]
          exact queue_apart hmodify (h r List.mem_cons_self hmodify)
        rw [hjoin, foldl_joinFamily n l (d.push r) hrest]
        simp [push, hmodify]
      · have hjoin : joinFamily n d r = { d with
            attachedQuoteOrders :=
              Removal.modifyFirst (·.lists n) (·.add r) d.attachedQuoteOrders } := if_neg hmodify
        have hfold := foldl_joinFamily n l (joinFamily n d r) (by rw [hjoin]; exact hrest)
        have hcomp := Removal.modifyFirst_modifyFirst
          (p := fun k : WaitingFamily K L R C => k.lists n)
          (f := fun k => k.add r) (fun k => k.addAll (l.filter (!·.isModify)))
          (fun k hk => WaitingFamily.lists_add hk) d.attachedQuoteOrders
        rw [hfold, hjoin]
        dsimp only
        rw [hcomp]
        have hnot := Bool.eq_false_iff.2 hmodify
        rw [List.filter_cons_of_pos (by simp [hnot]), List.filter_cons_of_neg hmodify]
        rfl

end QuoteDesk

namespace QuoteWaits

variable {w : QuoteWaits K L R C} {orders : List (OrderRequest K L R)}

lemma foldl_withHanging_of_listed {base : List (OrderRequest K L R)} {ns : List ℕ}
    (hclosed : ∀ o ∈ held, ∀ n, n ∈ numbers base ∨ n ∈ ns → o.Hangs n →
      o.orderId ∈ numbers base ∨ o.orderId ∈ ns) :
    ∀ (l : List (StagedOrder K L R)) (X : List (OrderRequest K L R)), (∀ o ∈ l, o ∈ held) →
      (∀ q ∈ X, ∃ o ∈ held, q = .submitEx o ∧ o.orderId ∈ ns) →
        ∃ Y, l.foldl withHanging (base ++ X) = base ++ Y ∧
          ∀ q ∈ Y, ∃ o ∈ held, q = .submitEx o ∧ o.orderId ∈ ns
  | [], X, _, hX => ⟨X, rfl, hX⟩
  | o :: l, X, hl, hX => by
      have hrest := fun o' ho' => hl o' (List.mem_cons_of_mem o ho')
      rw [List.foldl_cons]
      unfold withHanging
      split_ifs with hhangs
      · obtain ⟨hparent, hlisted, hnot⟩ := hhangs
        have hin : o.orderId ∈ ns := by
          have hlist := any_orderId.1 hlisted
          rw [numbers, List.map_append, List.mem_append] at hlist
          have hnew : o.orderId ∉ numbers base := fun hbase => by
            have hall : o.orderId ∈ numbers (base ++ X) := by
              rw [numbers, List.map_append]
              exact List.mem_append_left _ hbase
            rw [any_orderId.2 hall] at hnot
            cases hnot
          refine (hclosed o (hl o List.mem_cons_self) o.attrs.parentId (hlist.imp_right ?_)
            ⟨hparent, rfl⟩).resolve_left hnew
          intro hX'
          obtain ⟨q, hq, hid⟩ := List.mem_map.1 hX'
          obtain ⟨o', _, rfl, hns⟩ := hX q hq
          exact hid ▸ hns
        rw [List.append_assoc]
        refine foldl_withHanging_of_listed hclosed l _ hrest ?_
        intro q hq
        rcases List.mem_append.1 hq with hq | hq
        · exact hX q hq
        · exact ⟨o, hl o List.mem_cons_self, List.mem_singleton.1 hq, hin⟩
      · exact foldl_withHanging_of_listed hclosed l X hrest hX

lemma waitingFamily_joined
    (hplaced : ∀ r ∈ orders, r.placement.isSome → ∃ o ∈ held, o.orderId = r.orderId)
    {ns : List ℕ} (hclosed : ∀ o ∈ held, ∀ n, n ∈ numbers orders ∨ n ∈ ns → o.Hangs n →
      o.orderId ∈ numbers orders ∨ o.orderId ∈ ns) :
    ∃ Y, waitingFamily orders held = orders.map (latest held) ++ Y ∧
      ∀ q ∈ Y, ∃ o ∈ held, q = .submitEx o ∧ o.orderId ∈ ns := by
  have hmap : orders.filterMap (asItWaits held) = orders.map (latest held) ++ [] := by
    rw [List.append_nil, ← List.filterMap_eq_map]
    exact List.filterMap_congr fun r hr => asItWaits_eq (hplaced r hr)
  rw [waitingFamily, hmap]
  refine foldl_withHanging_of_listed ?_ held [] (fun o ho => ho) (List.forall_mem_nil _)
  rw [numbers_latest]
  exact hclosed

lemma latest_cases (hplace : FindsItsPlace w.desk orders) (hr : r ∈ orders) :
    (latest (w.staged orders).waitingAttachedOrders r).isModify = true ∨
      r.placement.isSome ∧ ∃ o ∈ (w.staged orders).waitingAttachedOrders,
        latest (w.staged orders).waitingAttachedOrders r = .submitEx o := by
  cases hplaced : r.placement with
  | none =>
      refine Or.inl ?_
      have hnone : (w.staged orders).waitingAttachedOrders.find? (·.orderId = r.orderId) = none :=
        List.find?_eq_none.2 fun o ho hid =>
          hplace.changes_apart r hr hplaced o ho (of_decide_eq_true hid)
      have hsame : latest (w.staged orders).waitingAttachedOrders r = r := by
        rw [latest, hnone]
        rfl
      rw [hsame]
      exact hplace.isModify_of_none hr hplaced
  | some o =>
      refine Or.inr ⟨rfl, ?_⟩
      obtain ⟨o', ho', hid⟩ := hplace.placed r hr (by rw [hplaced]; rfl)
      cases hfind : (w.staged orders).waitingAttachedOrders.find? (·.orderId = r.orderId) with
      | none => exact absurd (decide_eq_true hid) (List.find?_eq_none.1 hfind o' ho')
      | some o'' =>
          refine ⟨o'', (found hfind).1, ?_⟩
          rw [latest, hfind]
          rfl

lemma handledOnce_joined (h : w.Sits) (hplace : FindsItsPlace w.desk orders)
    (acquire : Acquire C) (now : ℕ) {k : WaitingFamily K L R C}
    (hk : k ∈ w.desk.attachedQuoteOrders) {first : OrderRequest K L R}
    (hhead : orders.head? = some first) (hfirst : first.orderId ∈ numbers k.orders) :
    HandledOnce w (.transmitted orders acquire now) ∧
      (w.step (.transmitted orders acquire now)).Sits := by
  have hdesk := transmitted_eq hplace acquire now
  set held := (w.staged orders).waitingAttachedOrders with hheld
  have hlists : ∃ r ∈ orders.head?, r.orderId ∈ numbers k.orders := ⟨first, hhead, hfirst⟩
  have hwhole := h.housed.whole k.orders (List.mem_map_of_mem hk)
  -- what hangs from the orders is among them, or in the family they join
  have hclosed : ∀ o ∈ held, ∀ n, n ∈ numbers orders ∨ n ∈ numbers k.orders → o.Hangs n →
      o.orderId ∈ numbers orders ∨ o.orderId ∈ numbers k.orders := by
    intro o ho n hn hangs
    rcases List.mem_append.1 ho with ho | ho
    · refine Or.inr ?_
      rcases hn with hn | hn
      · obtain ⟨r, hr, rfl⟩ := mem_numbers.1 hn
        by_cases hin : r.orderId ∈ w.desk.waiting
        · exact hwhole.closed o ho _ (hplace.mem_first h.housed hk hlists hr hin) hangs
        · exact absurd hangs (hplace.first r hr hin o ho)
      · exact hwhole.closed o ho n hn hangs
    · obtain ⟨⟨r, hr, hplaced⟩, -⟩ := FindsItsPlace.mem_fresh.1 ho
      rw [orderId_of_placement hplaced]
      exact Or.inl (List.mem_map_of_mem hr)
  obtain ⟨Y, hfamily, hY⟩ : ∃ Y, waitingFamily orders held = orders.map (latest held) ++ Y ∧
      ∀ q ∈ Y, ∃ o ∈ held, q = .submitEx o ∧ o.orderId ∈ numbers k.orders :=
    waitingFamily_joined hplace.placed hclosed
  obtain ⟨rest, rfl⟩ : ∃ rest, orders = first :: rest := by
    cases orders with
    | nil => cases hhead
    | cons r rest =>
        cases hhead
        exact ⟨rest, rfl⟩
  rw [List.map_cons, List.cons_append] at hfamily
  rw [accept_eq (d := w.staged (first :: rest)) acquire now hfamily, if_pos, orderId_latest]
    at hdesk
  swap
  · refine List.any_eq_true.2 ⟨k, hk, any_orderId.2 ?_⟩
    rw [orderId_latest]
    exact hfirst
  rw [← List.cons_append, ← List.map_cons] at hdesk
  -- a change among them is of what waits nowhere
  have hapart : ∀ r ∈ (first :: rest).map (latest held) ++ Y, r.isModify = true →
      ∀ o ∈ held, o.orderId ≠ r.orderId := by
    intro r hr hmodify
    rcases List.mem_append.1 hr with hr | hr
    · exact apart_of_isModify hplace hr hmodify
    · obtain ⟨o, _, rfl, _⟩ := hY r hr
      cases hmodify
  rw [QuoteDesk.foldl_joinFamily _ _ _ hapart] at hdesk
  -- the family they join
  have hany : (w.desk.attachedQuoteOrders.find? (·.lists first.orderId)) = some k := by
    cases hfind : w.desk.attachedQuoteOrders.find? (·.lists first.orderId) with
    | none => exact absurd (any_orderId.2 hfirst) (List.find?_eq_none.1 hfind k hk)
    | some k' =>
        have hin : first.orderId ∈ numbers k'.orders :=
          any_orderId.1 (List.find?_some hfind :)
        rw [eq_of_mem_flatMap h.apart (List.mem_of_find?_eq_some hfind) hk hin hfirst]
  obtain ⟨joined, hjoined⟩ : ∃ l, l = ((first :: rest).map (latest held) ++ Y).filter
      (!·.isModify) := ⟨_, rfl⟩
  rw [← hjoined] at hdesk
  have hperm := Removal.perm_modifyFirst (·.addAll joined) hany
  have hsub : (numbers (((first :: rest).map (latest held)).filter (!·.isModify))).Sublist
      (numbers (first :: rest)) := by
    rw [← numbers_latest held (first :: rest)]
    exact List.filter_sublist.map _
  have hnumbers : numbers (k.addAll joined).orders = numbers k.orders ++
      (numbers (((first :: rest).map (latest held)).filter (!·.isModify))).filter
        (· ∉ numbers k.orders) := by
    have hfirsts := WaitingFamily.numbers_addAll (k := k) (hplace.distinct.sublist hsub)
    rw [← hfirsts, hjoined, List.filter_append, WaitingFamily.addAll, List.foldl_append]
    refine WaitingFamily.numbers_addAll_listed fun n hn => ?_
    obtain ⟨q, hq, rfl⟩ := mem_numbers.1 hn
    obtain ⟨o, _, rfl, hns⟩ := hY q (List.mem_filter.1 hq).1
    change o.orderId ∈ numbers (k.addAll _).orders
    rw [hfirsts]
    exact List.mem_append_left _ hns
  have hfresh : ∀ n, n ∈ (numbers (((first :: rest).map (latest held)).filter
      (!·.isModify))).filter (· ∉ numbers k.orders) ↔
        n ∈ (w.desk.fresh (first :: rest)).map StagedOrder.orderId := by
    intro n
    rw [List.mem_filter, decide_eq_true_iff]
    constructor
    · rintro ⟨hn, hnot⟩
      obtain ⟨q, hq, rfl⟩ := mem_numbers.1 hn
      obtain ⟨hin, hother⟩ := List.mem_filter.1 hq
      obtain ⟨r, hr, rfl⟩ := List.mem_map.1 hin
      rcases latest_cases hplace hr with hmodify | ⟨hsome, -⟩
      · rw [hmodify] at hother
        cases hother
      · obtain ⟨o, hplaced⟩ := Option.isSome_iff_exists.1 hsome
        have hid := orderId_of_placement hplaced
        rw [orderId_latest] at hnot ⊢
        refine List.mem_map.2 ⟨o, FindsItsPlace.mem_fresh.2 ⟨⟨r, hr, hplaced⟩, ?_⟩, hid⟩
        rw [hid]
        exact fun hwaits => hnot (hplace.mem_first h.housed hk hlists hr hwaits)
    · intro hn
      obtain ⟨o, ho, rfl⟩ := List.mem_map.1 hn
      obtain ⟨⟨r, hr, hplaced⟩, hnot⟩ := FindsItsPlace.mem_fresh.1 ho
      refine ⟨?_, hplace.unlisted r hr o hplaced hnot k hk⟩
      rw [orderId_of_placement hplaced, ← orderId_latest held r]
      refine List.mem_map_of_mem (List.mem_filter.2 ⟨List.mem_map_of_mem hr, ?_⟩)
      cases hmodify : (latest held r).isModify with
      | false => rfl
      | true =>
          have hsame := isModify_latest hmodify
          rw [hsame] at hmodify
          rw [placement_of_isModify hmodify] at hplaced
          cases hplaced
  have hmem : ∀ q ∈ (k.addAll joined).orders, q ∈ k.orders ∨ ∃ o ∈ held, q = .submitEx o := by
    intro q hq
    refine (WaitingFamily.mem_addAll hq).imp_right fun hin => ?_
    rw [hjoined] at hin
    obtain ⟨hin, hother⟩ := List.mem_filter.1 hin
    rcases List.mem_append.1 hin with hin | hin
    · obtain ⟨r, hr, rfl⟩ := List.mem_map.1 hin
      rcases latest_cases hplace hr with hmodify | ⟨-, hsome⟩
      · rw [hmodify] at hother
        cases hother
      · exact hsome
    · obtain ⟨o, ho, heq, -⟩ := hY q hin
      exact ⟨o, ho, heq⟩
  have hhoused := hplace.housed_joined h.housed hk hnumbers (List.filter_sublist.trans hsub)
    hfresh hmem hlists (Removal.perm_eraseP hany)
  refine handledOnce_staged h hplace hdesk rfl (hhoused.perm ?_) rfl ?_ rfl
  · exact (hperm.map WaitingFamily.orders).symm
  · rw [List.filterMap_eq_nil_iff]
    intro r hr
    exact placement_of_isModify (List.mem_filter.1 hr).2

lemma handledOnce_transmitted (h : w.Sits) (hplace : FindsItsPlace w.desk orders)
    (acquire : Acquire C) (now : ℕ) :
    HandledOnce w (.transmitted orders acquire now) ∧
      (w.step (.transmitted orders acquire now)).Sits := by
  by_cases hnone : ∀ k ∈ w.desk.attachedQuoteOrders, ∀ r ∈ orders.head?,
      r.orderId ∉ numbers k.orders
  · exact handledOnce_new h hplace acquire now hnone
  · push Not at hnone
    obtain ⟨k, hk, first, hhead, hfirst⟩ := hnone
    exact handledOnce_joined h hplace acquire now hk hhead hfirst

/-- **Each event handles what waits once.** -/
theorem handledOnce_step (h : w.Sits) {e : QuoteEvent K L R C} (hcond : StaysWhole w e) :
    HandledOnce w e ∧ (w.step e).Sits := by
  cases e with
  | placed orderId links => exact handledOnce_placed h orderId links
  | transmitted orders acquire now => exact handledOnce_transmitted h hcond acquire now
  | queued r => exact handledOnce_queued h r hcond
  | amended c => exact handledOnce_amended h c
  | cancelled orderId => exact handledOnce_cancelled h orderId hcond
  | allCancelled => exact handledOnce_allCancelled h
  | polled now view => exact handledOnce_polled h now view
  | stopped => exact handledOnce_stopped h

end QuoteWaits

/-! ## Whole runs -/

/-- **A family goes out whole, or is told as cancelled, each member once.** -/
theorem families_whole {es : List (QuoteEvent K L R C)}
    (hrun : Runs.Along QuoteWaits.step StaysWhole {} es) :
    WaitsInFamilies (Runs.run QuoteWaits.step {} es) ∧
      Runs.Along QuoteWaits.step HandledOnce {} es := by
  have hstep : ∀ (w : QuoteWaits K L R C) (e : QuoteEvent K L R C), w.Sits → StaysWhole w e →
      (w.step e).Sits := fun w e h hcond => (QuoteWaits.handledOnce_step h hcond).2
  exact ⟨(hrun.invariant hstep QuoteWaits.sits_new).waitsInFamilies,
    hrun.mono hstep (fun w e h hcond => (QuoteWaits.handledOnce_step h hcond).1)
      QuoteWaits.sits_new⟩

instance (d : QuoteDesk K L R C) (orders : List (OrderRequest K L R)) :
    Decidable (FindsItsPlace d orders) :=
  have : Decidable (∀ f ∈ d.attachedQuoteOrders,
      (∀ r ∈ orders.head?, r.orderId ∉ numbers f.orders) → ∀ r ∈ orders,
        r.orderId ∉ numbers f.orders ∧
          ∀ o ∈ r.placement, ∀ n ∈ numbers f.orders, ¬o.Hangs n) := inferInstance
  decidable_of_iff
    ((numbers orders).Nodup ∧ (∀ r ∈ orders, r.placement.isSome ∨ r.isModify) ∧
      (orders.Pairwise fun a b => ∀ o ∈ a.placement, ¬o.Hangs b.orderId) ∧
      (∀ r ∈ orders, r.isModify → r.orderId ∉ d.waiting) ∧
      (∀ f ∈ d.attachedQuoteOrders, (∀ r ∈ orders.head?, r.orderId ∉ numbers f.orders) →
        ∀ r ∈ orders, r.orderId ∉ numbers f.orders ∧
          ∀ o ∈ r.placement, ∀ n ∈ numbers f.orders, ¬o.Hangs n) ∧
      (∀ r ∈ orders, r.orderId ∉ d.waiting → ∀ o ∈ d.waitingAttachedOrders, ¬o.Hangs r.orderId) ∧
      ∀ r ∈ orders, ∀ o ∈ r.placement, o.orderId ∉ d.waiting →
        ∀ f ∈ d.attachedQuoteOrders, o.orderId ∉ numbers f.orders)
    ⟨fun ⟨h₁, h₂, h₃, h₄, h₅, h₆, h₇⟩ => ⟨h₁, h₂, h₃, h₄, h₅, h₆, h₇⟩,
      fun ⟨h₁, h₂, h₃, h₄, h₅, h₆, h₇⟩ => ⟨h₁, h₂, h₃, h₄, h₅, h₆, h₇⟩⟩

instance (d : QuoteDesk K L R C) (orderId : ℕ) : Decidable (LeavesNoChild d orderId) :=
  inferInstanceAs (Decidable (∀ f ∈ d.attachedQuoteOrders, orderId ∈ numbers f.orders → _ ∨ _))

instance (w : QuoteWaits K L R C) (e : QuoteEvent K L R C) : Decidable (StaysWhole w e) :=
  match e with
  | .transmitted orders _ _ => inferInstanceAs (Decidable (FindsItsPlace w.desk orders))
  | .queued (.submitEx o) => inferInstanceAs (Decidable (o.orderId ∉ w.desk.waiting))
  | .queued (.modify c) =>
      inferInstanceAs (Decidable (c.orderId ∈ w.desk.waiting → c.spec.isSome = true))
  | .queued (.cancel orderId) => inferInstanceAs (Decidable (LeavesNoChild w.desk orderId))
  | .cancelled orderId => inferInstanceAs (Decidable (LeavesNoChild w.desk orderId))
  | .queued (.cancelAll _) | .queued .globalCancel | .queued (.submitBracket _ _ _ _) =>
      isTrue trivial
  | .placed _ _ | .amended _ | .allCancelled | .polled _ _ | .stopped => isTrue trivial

end

def memberOf (parentId orderId : ℕ) : StagedOrder Unit Unit Unit :=
  ⟨orderId, 1, (), 100, 0, ⟨parentId, "", 0, 0, none, [], ()⟩, ()⟩

/-- A parent and its exit wait; another exit joins them, the parent is amended, the new exit is
cancelled, and the quote is there. -/
def joinedRun : List (QuoteEvent Unit Unit Unit Unit) :=
  [.transmitted [.submitEx (memberOf 0 10), .submitEx (memberOf 10 11)] (.quote 1 ()) 0,
    .transmitted [.submitEx (memberOf 0 10), .submitEx (memberOf 10 12)] .nothing 5,
    .amended ⟨10, 50, 0, some ((), ⟨0, "", 0, 0, none, [], ()⟩)⟩,
    .queued (.cancel 12), .polled 1000 fun _ _ => ⟨false, false, true⟩]

theorem families_whole_joined : WaitsInFamilies (Runs.run QuoteWaits.step {} joinedRun) ∧
    Runs.Along QuoteWaits.step HandledOnce {} joinedRun :=
  families_whole (by decide)

/-- A child of a parent that waits is given to send with an exit of its own, and needs no quote. -/
def partedRun : List (QuoteEvent Unit Unit Unit Unit) :=
  [.transmitted [.submitEx (memberOf 0 10), .submitEx (memberOf 10 11)] (.quote 1 ()) 0,
    .transmitted [.submitEx (memberOf 10 12), .submitEx (memberOf 12 13)] .nothing 5]

/-- **A child goes ahead of its parent**, which waits on. -/
theorem child_ahead_of_parent : ¬Runs.Along QuoteWaits.step HandledOnce {} partedRun := by
  rintro ⟨-, hhandled, -⟩
  exact hhandled.behind.2 (memberOf 10 12) (by decide) 10 (by decide)
    (by decide)

end IbkrDx

