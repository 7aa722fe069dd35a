import IbkrDx.Engine.MarketState

/-!
# The slot table's invariant

The invariant of the slot table: the two maps between contract ids and slots are inverse to each
other, the list of slots given back holds each freed slot once, the tables are one another's length,
and every server tag names a live slot.

* **`Sound.step`** — every call that is as promised keeps the invariant.
-/

namespace IbkrDx

namespace MarketState

variable {Quote F : Type}

/-! ## The invariant -/

structure Aligned (m : MarketState Quote F) : Prop where
  clocks : m.clocks.length = m.quotes.length
  instrumentToConId : m.instrumentToConId.length = m.quotes.length
  minTicks : m.minTicks.length = m.quotes.length
  minTickScaled : m.minTickScaled.length = m.quotes.length
  sizeTicks : m.sizeTicks.length = m.quotes.length
  symbols : m.symbols.length = m.quotes.length
  secTypes : m.secTypes.length = m.quotes.length
  exchanges : m.exchanges.length = m.quotes.length
  optionKeys : m.optionKeys.length = m.quotes.length
  narrowings : m.narrowings.length = m.quotes.length

def Live (m : MarketState Quote F) (id : InstrumentId) : Prop := (m.conId id).isSome

structure Sound (m : MarketState Quote F) : Prop where
  aligned : m.Aligned
  count : m.activeCount ≤ m.quotes.length
  freeNodup : m.freeIds.Nodup
  memFree : ∀ id, id ∈ m.freeIds ↔ id < m.activeCount ∧ m.instrumentToConId[id]? = some freeSlot
  /-- A contract id names the slot that holds it. -/
  named : ∀ c id, c ≠ 0 → m.conIdToInstrument c = some id →
    id < m.activeCount ∧ m.instrumentToConId[id]? = some c
  /-- A slot that holds a contract id is named by it. -/
  held : ∀ id c, id < m.activeCount → m.instrumentToConId[id]? = some c → c ≠ 0 → c ≠ freeSlot →
    m.conIdToInstrument c = some id
  noSentinel : m.conIdToInstrument freeSlot = none
  tagged : ∀ tag id, m.serverTagToInstrument tag = some id → m.Live id

variable {m : MarketState Quote F}

variable {id : InstrumentId} {c : ConId}

lemma conId_eq_some :
    m.conId id = some c ↔
      id < m.activeCount ∧ m.instrumentToConId[id]? = some c ∧ c ≠ freeSlot := by
  simp only [conId]
  split
  · next hlt => simp [Option.filter_eq_some_iff, hlt]
  · next hlt => simp [hlt]

lemma live_iff :
    m.Live id ↔ id < m.activeCount ∧ ∃ c, m.instrumentToConId[id]? = some c ∧ c ≠ freeSlot := by
  simp only [Live, conId]
  split
  · next hlt =>
      cases hc : m.instrumentToConId[id]? with
      | none => simp
      | some c => simp [Option.filter, hlt]
  · next hlt => simp [hlt]

variable [Inhabited Quote] [Zero F]

lemma sound_new : (new : MarketState Quote F).Sound := by
  refine ⟨⟨?_, ?_, ?_, ?_, ?_, ?_, ?_, ?_, ?_, ?_⟩, Nat.zero_le _, List.nodup_nil, ?_, ?_, ?_, rfl, ?_⟩
  all_goals simp [new]

/-! ## What a slot is taken from -/

/-- The slot `id` is taken from `m`, which leaves `m'`. -/
structure Allocated (m : MarketState Quote F) (id : InstrumentId) (m' : MarketState Quote F) :
    Prop where
  aligned : m'.Aligned
  count : m'.activeCount ≤ m'.quotes.length
  active : ∀ j, j < m'.activeCount ↔ j < m.activeCount ∨ j = id
  notLive : ¬ m.Live id
  freeNodup : m'.freeIds.Nodup
  memFree : ∀ j, j ∈ m'.freeIds ↔ j ∈ m.freeIds ∧ j ≠ id
  same : ∀ j < m.activeCount, m'.instrumentToConId[j]? = m.instrumentToConId[j]?
  map : m'.conIdToInstrument = m.conIdToInstrument
  tags : m'.serverTagToInstrument = m.serverTagToInstrument

/-- A write into what a slot holds touches neither the contracts, nor the freed slots, nor the tags,
nor the size of a table. -/
structure SameDirectory (m m' : MarketState Quote F) : Prop where
  aligned : m.Aligned → m'.Aligned
  length : m'.quotes.length = m.quotes.length
  count : m'.activeCount = m.activeCount
  free : m'.freeIds = m.freeIds
  map : m'.conIdToInstrument = m.conIdToInstrument
  ids : m'.instrumentToConId = m.instrumentToConId
  tags : m'.serverTagToInstrument = m.serverTagToInstrument

lemma Aligned.grow (h : m.Aligned) : m.grow.Aligned := by
  refine ⟨?_, ?_, ?_, ?_, ?_, ?_, ?_, ?_, ?_, ?_⟩
  all_goals simp [MarketState.grow, h.1, h.2, h.3, h.4, h.5, h.6, h.7, h.8, h.9, h.10]

lemma length_le_allocSlot (m : MarketState Quote F) :
    m.quotes.length ≤ m.allocSlot.2.quotes.length := by
  simp only [allocSlot]
  split
  · exact le_refl _
  · split
    · simp [grow]
    · exact le_refl _

lemma Sound.allocSlot (h : m.Sound)
    (hroom : m.allocSlot.2.quotes.length < u32Bound) :
    Allocated m m.allocSlot.1 m.allocSlot.2 := by
  cases hfree : m.freeIds with
  | cons id freeIds =>
      have hmem : id ∈ m.freeIds := by simp [hfree]
      have hid := (h.memFree id).1 hmem
      have hnodup := h.freeNodup
      rw [hfree, List.nodup_cons] at hnodup
      simp only [MarketState.allocSlot, hfree]
      refine ⟨⟨h.aligned.1, h.aligned.2, h.aligned.3, h.aligned.4, h.aligned.5, h.aligned.6,
        h.aligned.7, h.aligned.8, h.aligned.9, h.aligned.10⟩, h.count, ?_, ?_, hnodup.2, ?_,
        fun _ _ => rfl, rfl, rfl⟩
      · intro j
        exact ⟨Or.inl, fun hj => hj.elim (fun hj => hj) (fun hj => hj ▸ hid.1)⟩
      · rw [live_iff]
        rintro ⟨-, c, hc, hne⟩
        exact hne (Option.some.inj (hc.symm.trans hid.2))
      · intro j
        rw [hfree, List.mem_cons]
        constructor
        · intro hj
          exact ⟨Or.inr hj, fun heq => hnodup.1 (heq ▸ hj)⟩
        · rintro ⟨hj, hne⟩
          exact hj.resolve_left hne
  | nil =>
      -- the next unused slot: every slot in use is below it, and so is none of the freed ones
      obtain ⟨m₁, hm₁, haligned, hlt, hsame, hcount, hfree₁, hmap, htags⟩ :
          ∃ m₁, m₁ = (if m.activeCount = m.quotes.length then m.grow else m) ∧ m₁.Aligned ∧
            m.activeCount < m₁.quotes.length ∧
            (∀ j < m.activeCount, m₁.instrumentToConId[j]? = m.instrumentToConId[j]?) ∧
            m₁.activeCount = m.activeCount ∧ m₁.freeIds = [] ∧
            m₁.conIdToInstrument = m.conIdToInstrument ∧
            m₁.serverTagToInstrument = m.serverTagToInstrument := by
        refine ⟨_, rfl, ?_⟩
        have hcount := h.count
        split
        · next hfull =>
            refine ⟨h.aligned.grow, by simp [grow, hfull], fun j hj => ?_, rfl, hfree, rfl, rfl⟩
            exact List.getElem?_append_left (by rw [h.aligned.instrumentToConId]; omega)
        · next hfull => exact ⟨h.aligned, by omega, fun _ _ => rfl, rfl, hfree, rfl, rfl⟩
      simp only [MarketState.allocSlot, hfree, ← hm₁] at hroom ⊢
      have hwrap : (m₁.activeCount + 1) % u32Bound = m.activeCount + 1 := by
        rw [hcount]
        exact Nat.mod_eq_of_lt (by omega)
      refine ⟨⟨haligned.1, haligned.2, haligned.3, haligned.4, haligned.5, haligned.6,
        haligned.7, haligned.8, haligned.9, haligned.10⟩, ?_, ?_, ?_, ?_, ?_, hsame, hmap, htags⟩
      · show (m₁.activeCount + 1) % u32Bound ≤ m₁.quotes.length
        omega
      · intro j
        show j < (m₁.activeCount + 1) % u32Bound ↔ _
        omega
      · rw [live_iff]
        exact fun hlive => absurd hlive.1 (lt_irrefl _)
      · show m₁.freeIds.Nodup
        rw [hfree₁]
        exact List.nodup_nil
      · intro j
        show j ∈ m₁.freeIds ↔ _
        simp [hfree₁, hfree]

omit [Inhabited Quote] [Zero F] in
/-- **Naming the slot taken.**  Under the contract id it is taken for, or under none. -/
lemma Allocated.sound {m' : MarketState Quote F} (h : m.Sound)
    (ha : Allocated m id m') (hc : c ≠ freeSlot)
    (hfresh : c ≠ 0 → m.conIdToInstrument c = none) {map : ConId → Option InstrumentId}
    (hmap : ∀ d, d ≠ 0 → map d = if d = c then some id else m.conIdToInstrument d) :
    { m' with
      conIdToInstrument := map
      instrumentToConId := m'.instrumentToConId.set id c }.Sound := by
  have hid : id < m'.activeCount := (ha.active id).2 (Or.inr rfl)
  have hlen : id < m'.instrumentToConId.length := by
    rw [ha.aligned.instrumentToConId]
    exact lt_of_lt_of_le hid ha.count
  have hself : (m'.instrumentToConId.set id c)[id]? = some c := List.getElem?_set_self hlen
  have hother : ∀ j, j ≠ id → j < m'.activeCount →
      j < m.activeCount ∧ (m'.instrumentToConId.set id c)[j]? = m.instrumentToConId[j]? := by
    intro j hj hlt
    have hold := ((ha.active j).1 hlt).resolve_right hj
    rw [List.getElem?_set_ne (Ne.symm hj), ha.same j hold]
    exact ⟨hold, rfl⟩
  have hzero : freeSlot ≠ 0 := by decide
  refine ⟨⟨ha.aligned.1, by simpa using ha.aligned.2, ha.aligned.3, ha.aligned.4, ha.aligned.5,
    ha.aligned.6, ha.aligned.7, ha.aligned.8, ha.aligned.9, ha.aligned.10⟩, ha.count,
    ha.freeNodup, ?_, ?_, ?_, ?_, ?_⟩
  · intro j
    by_cases hj : j = id
    · subst hj
      rw [ha.memFree, hself]
      exact iff_of_false (fun hmem => hmem.2 rfl) (fun hmem => hc (Option.some.inj hmem.2))
    · rw [ha.memFree, h.memFree]
      constructor
      · rintro ⟨⟨hlt, heq⟩, -⟩
        have hnow := (ha.active j).2 (Or.inl hlt)
        exact ⟨hnow, by rw [(hother j hj hnow).2, heq]⟩
      · rintro ⟨hlt, heq⟩
        obtain ⟨hold, hsame⟩ := hother j hj hlt
        exact ⟨⟨hold, by rw [← hsame, heq]⟩, hj⟩
  · intro d j hd hdj
    change map d = some j at hdj
    rw [hmap d hd] at hdj
    split at hdj
    · next heq =>
        obtain rfl := Option.some.inj hdj
        exact ⟨hid, heq ▸ hself⟩
    · obtain ⟨hlt, heq⟩ := h.named d j hd hdj
      have hj : j ≠ id := by
        rintro rfl
        refine ha.notLive (live_iff.2 ⟨hlt, d, heq, ?_⟩)
        rintro rfl
        exact absurd (h.noSentinel.symm.trans hdj) (by simp)
      have hnow := (ha.active j).2 (Or.inl hlt)
      exact ⟨hnow, by rw [(hother j hj hnow).2, heq]⟩
  · intro j d hlt hjd hd hdfree
    show map d = some j
    rw [hmap d hd]
    by_cases hj : j = id
    · subst hj
      rw [hself] at hjd
      rw [if_pos (Option.some.inj hjd).symm]
    · obtain ⟨hold, hsame⟩ := hother j hj hlt
      have hnamed := h.held j d hold (hsame ▸ hjd) hd hdfree
      rw [if_neg, hnamed]
      rintro rfl
      exact absurd ((hfresh hd).symm.trans hnamed) (by simp)
  · show map freeSlot = none
    rw [hmap freeSlot hzero, if_neg (Ne.symm hc), h.noSentinel]
  · intro tag j htag
    have hlive := h.tagged tag j (ha.tags ▸ htag)
    have hj : j ≠ id := fun heq => ha.notLive (heq ▸ hlive)
    rw [live_iff] at hlive ⊢
    obtain ⟨hlt, d, hd, hne⟩ := hlive
    have hnow := (ha.active j).2 (Or.inl hlt)
    exact ⟨hnow, d, by rw [(hother j hj hnow).2, hd], hne⟩

/-! ## Calls keep the table sound -/

section

omit [Inhabited Quote] [Zero F]

variable {m m' m'' : MarketState Quote F}

namespace SameDirectory

lemma refl (m : MarketState Quote F) : SameDirectory m m := ⟨fun h => h, rfl, rfl, rfl, rfl, rfl, rfl⟩

lemma trans (h : SameDirectory m m') (h' : SameDirectory m' m'') : SameDirectory m m'' :=
  ⟨fun ha => h'.aligned (h.aligned ha), h'.length.trans h.length, h'.count.trans h.count,
    h'.free.trans h.free, h'.map.trans h.map, h'.ids.trans h.ids, h'.tags.trans h.tags⟩

lemma live (h : SameDirectory m m') (id : InstrumentId) : m'.Live id ↔ m.Live id := by
  rw [live_iff, live_iff, h.count, h.ids]

lemma sound (h : SameDirectory m m') (hm : m.Sound) : m'.Sound := by
  refine ⟨h.aligned hm.aligned, ?_, h.free ▸ hm.freeNodup, ?_, ?_, ?_, h.map ▸ hm.noSentinel, ?_⟩
  · rw [h.count, h.length]
    exact hm.count
  · rw [h.free, h.count, h.ids]
    exact hm.memFree
  · rw [h.map, h.count, h.ids]
    exact hm.named
  · rw [h.map, h.count, h.ids]
    exact hm.held
  · intro tag id htag
    rw [h.live]
    exact hm.tagged tag id (h.tags ▸ htag)

lemma ite {p : Prop} [Decidable p] (h : SameDirectory m m') (h' : SameDirectory m m'') :
    SameDirectory m (if p then m' else m'') := by
  split
  · exact h
  · exact h'

lemma of_set (quotes : List Quote) (clocks : List TradeClock) (minTicks sizeTicks : List F)
    (minTickScaled : List ℤ) (symbols secTypes exchanges optionKeys narrowings : List (Option String))
    (hquotes : quotes.length = m.quotes.length) (hclocks : clocks.length = m.clocks.length)
    (hminTicks : minTicks.length = m.minTicks.length)
    (hsizeTicks : sizeTicks.length = m.sizeTicks.length)
    (hscaled : minTickScaled.length = m.minTickScaled.length)
    (hsymbols : symbols.length = m.symbols.length) (hsecTypes : secTypes.length = m.secTypes.length)
    (hexchanges : exchanges.length = m.exchanges.length)
    (hoptionKeys : optionKeys.length = m.optionKeys.length)
    (hnarrowings : narrowings.length = m.narrowings.length) :
    SameDirectory m { m with
      quotes := quotes, clocks := clocks, minTicks := minTicks, sizeTicks := sizeTicks
      minTickScaled := minTickScaled, symbols := symbols, secTypes := secTypes
      exchanges := exchanges, optionKeys := optionKeys, narrowings := narrowings } := by
  refine ⟨fun ha => ?_, hquotes, rfl, rfl, rfl, rfl, rfl⟩
  refine ⟨?_, ?_, ?_, ?_, ?_, ?_, ?_, ?_, ?_, ?_⟩
  all_goals simp [*, ha.1, ha.2, ha.3, ha.4, ha.5, ha.6, ha.7, ha.8, ha.9, ha.10]

end SameDirectory

lemma same_setSymbol (m : MarketState Quote F) (id : InstrumentId) (symbol : String) :
    SameDirectory m (m.setSymbol id symbol) := by
  apply SameDirectory.of_set <;> simp

lemma same_setRouting (upper : String → String) (m : MarketState Quote F) (id : InstrumentId)
    (secType exchange : String) : SameDirectory m (m.setRouting upper id secType exchange) := by
  have hfirst : SameDirectory m (if secType = "" then m
      else { m with secTypes := m.secTypes.set id (some (upper secType)) }) := by
    refine .ite (.refl m) ?_
    apply SameDirectory.of_set <;> simp
  refine hfirst.trans (.ite (.refl _) ?_)
  apply SameDirectory.of_set <;> simp

lemma same_setOptionKey (m : MarketState Quote F) (id : InstrumentId) (key : Option String) :
    SameDirectory m { m with optionKeys := m.optionKeys.set id key } := by
  apply SameDirectory.of_set <;> simp

lemma same_setNarrowing (m : MarketState Quote F) (id : InstrumentId) (narrowing : Option String) :
    SameDirectory m { m with narrowings := m.narrowings.set id narrowing } := by
  apply SameDirectory.of_set <;> simp

lemma same_fixSymbol (m : MarketState Quote F) (id : InstrumentId) (symbol : String) :
    SameDirectory m (m.fixSymbol id symbol) := .ite (same_setSymbol m id symbol) (.refl m)

lemma same_fixOptionKey (m : MarketState Quote F) (id : InstrumentId) (key : String) :
    SameDirectory m (m.fixOptionKey id key) := .ite (same_setOptionKey m id _) (.refl m)

lemma same_fixNarrowing (m : MarketState Quote F) (id : InstrumentId) (narrowing : String) :
    SameDirectory m (m.fixNarrowing id narrowing) := .ite (same_setNarrowing m id _) (.refl m)

lemma Sound.adoptConId (h : m.Sound) (id : InstrumentId) {c : ConId} (hc : c ≠ freeSlot) :
    (m.adoptConId id c).2.Sound := by
  simp only [MarketState.adoptConId]
  split
  · exact h
  · next hzero =>
      split
      · exact h
      · next hslot =>
          split
          · exact h
          · next hmap =>
              simp only [not_or, not_le] at hzero
              rw [not_not] at hslot
              rw [Option.not_isSome_iff_eq_none] at hmap
              obtain ⟨hc0, hid⟩ := hzero
              have hlen : id < m.instrumentToConId.length := by
                rw [h.aligned.instrumentToConId]
                exact lt_of_lt_of_le hid h.count
              have hself : (m.instrumentToConId.set id c)[id]? = some c :=
                List.getElem?_set_self hlen
              have hother : ∀ j, j ≠ id →
                  (m.instrumentToConId.set id c)[j]? = m.instrumentToConId[j]? :=
                fun j hj => List.getElem?_set_ne (Ne.symm hj)
              refine ⟨⟨h.aligned.1, by simpa using h.aligned.2, h.aligned.3, h.aligned.4,
                h.aligned.5, h.aligned.6, h.aligned.7, h.aligned.8, h.aligned.9, h.aligned.10⟩,
                h.count, h.freeNodup, ?_, ?_, ?_, ?_, ?_⟩
              · intro j
                show j ∈ m.freeIds ↔ j < m.activeCount ∧ (m.instrumentToConId.set id c)[j]? = _
                rw [h.memFree]
                by_cases hj : j = id
                · subst hj
                  rw [hself, hslot]
                  exact iff_of_false (fun hmem => absurd (Option.some.inj hmem.2) (by decide))
                    (fun hmem => hc (Option.some.inj hmem.2))
                · rw [hother j hj]
              · intro d j hd hdj
                change Function.update m.conIdToInstrument c (some id) d = some j at hdj
                show j < m.activeCount ∧ (m.instrumentToConId.set id c)[j]? = some d
                by_cases hdc : d = c
                · subst hdc
                  rw [Function.update_self] at hdj
                  obtain rfl := Option.some.inj hdj
                  exact ⟨hid, hself⟩
                · rw [Function.update_of_ne hdc] at hdj
                  obtain ⟨hlt, heq⟩ := h.named d j hd hdj
                  refine ⟨hlt, ?_⟩
                  rw [hother j ?_, heq]
                  rintro rfl
                  exact hd (Option.some.inj (heq.symm.trans hslot))
              · intro j d hlt hjd hd hdfree
                change (m.instrumentToConId.set id c)[j]? = some d at hjd
                show Function.update m.conIdToInstrument c (some id) d = some j
                by_cases hj : j = id
                · subst hj
                  rw [hself] at hjd
                  obtain rfl := Option.some.inj hjd
                  exact Function.update_self _ _ _
                · rw [hother j hj] at hjd
                  have hnamed := h.held j d hlt hjd hd hdfree
                  rw [Function.update_of_ne, hnamed]
                  rintro rfl
                  exact absurd (hmap.symm.trans hnamed) (by simp)
              · show Function.update m.conIdToInstrument c (some id) freeSlot = none
                rw [Function.update_of_ne (Ne.symm hc), h.noSentinel]
              · intro tag j htag
                have hlive := h.tagged tag j htag
                rw [live_iff] at hlive ⊢
                show j < m.activeCount ∧
                  ∃ d, (m.instrumentToConId.set id c)[j]? = some d ∧ d ≠ freeSlot
                obtain ⟨hlt, d, hd, hne⟩ := hlive
                by_cases hj : j = id
                · subst hj
                  exact ⟨hlt, c, hself, hc⟩
                · exact ⟨hlt, d, by rw [hother j hj, hd], hne⟩

end

lemma Sound.unregister (h : m.Sound) (id : InstrumentId) :
    (m.unregister id).2.Sound := by
  simp only [MarketState.unregister]
  split
  · exact h
  · next c hc =>
      have hlive : m.Live id := by rw [Live, hc]; rfl
      obtain ⟨hid, hslot, hcfree⟩ := conId_eq_some.1 hc
      have hlen : id < m.instrumentToConId.length := by
        rw [h.aligned.instrumentToConId]
        exact lt_of_lt_of_le hid h.count
      have hself : (m.instrumentToConId.set id freeSlot)[id]? = some freeSlot :=
        List.getElem?_set_self hlen
      have hother : ∀ j, j ≠ id →
          (m.instrumentToConId.set id freeSlot)[j]? = m.instrumentToConId[j]? :=
        fun j hj => List.getElem?_set_ne (Ne.symm hj)
      refine ⟨⟨?_, ?_, ?_, ?_, ?_, ?_, ?_, ?_, ?_, ?_⟩, ?_, ?_, ?_, ?_, ?_, ?_, ?_⟩
      iterate 10
        simp [clearServerTagsFor, h.aligned.1, h.aligned.2, h.aligned.3, h.aligned.4, h.aligned.5,
          h.aligned.6, h.aligned.7, h.aligned.8, h.aligned.9, h.aligned.10]
      · simpa [clearServerTagsFor] using h.count
      · refine List.nodup_cons.2 ⟨fun hmem => ?_, h.freeNodup⟩
        have hfreed := ((h.memFree id).1 hmem).2
        exact hcfree (Option.some.inj (hslot.symm.trans hfreed))
      · intro j
        show j ∈ id :: m.freeIds ↔
          j < m.activeCount ∧ (m.instrumentToConId.set id freeSlot)[j]? = some freeSlot
        rw [List.mem_cons, h.memFree]
        by_cases hj : j = id
        · subst hj
          exact iff_of_true (Or.inl rfl) ⟨hid, hself⟩
        · rw [hother j hj]
          exact or_iff_right hj
      · intro d j hd hdj
        change Function.update m.conIdToInstrument c none d = some j at hdj
        show j < m.activeCount ∧ (m.instrumentToConId.set id freeSlot)[j]? = some d
        by_cases hdc : d = c
        · subst hdc
          rw [Function.update_self] at hdj
          exact absurd hdj (by simp)
        · rw [Function.update_of_ne hdc] at hdj
          obtain ⟨hlt, heq⟩ := h.named d j hd hdj
          refine ⟨hlt, ?_⟩
          rw [hother j ?_, heq]
          rintro rfl
          exact hdc (Option.some.inj (heq.symm.trans hslot))
      · intro j d hlt hjd hd hdfree
        change (m.instrumentToConId.set id freeSlot)[j]? = some d at hjd
        show Function.update m.conIdToInstrument c none d = some j
        have hj : j ≠ id := by
          rintro rfl
          exact hdfree (Option.some.inj (hjd.symm.trans hself))
        rw [hother j hj] at hjd
        have hnamed := h.held j d hlt hjd hd hdfree
        rw [Function.update_of_ne, hnamed]
        rintro rfl
        exact hj (Option.some.inj (hnamed.symm.trans (h.held id d hid hslot hd hdfree)))
      · show Function.update m.conIdToInstrument c none freeSlot = none
        rw [Function.update_of_ne (Ne.symm hcfree), h.noSentinel]
      · intro tag j htag
        obtain ⟨hget, hne⟩ := Option.filter_eq_some_iff.1 htag
        have hj : j ≠ id := by simpa using hne
        have hother' := h.tagged tag j hget
        rw [live_iff] at hother' ⊢
        show j < m.activeCount ∧
          ∃ d, (m.instrumentToConId.set id freeSlot)[j]? = some d ∧ d ≠ freeSlot
        obtain ⟨hlt, d, hd, hdne⟩ := hother'
        exact ⟨hlt, d, by rw [hother j hj, hd], hdne⟩

lemma Sound.register (h : m.Sound) (hc : c ≠ freeSlot)
    (hroom : (m.register c).2.quotes.length < u32Bound) : (m.register c).2.Sound := by
  simp only [MarketState.register] at hroom ⊢
  split at hroom
  · exact h
  · next hmap =>
      refine Allocated.sound h (h.allocSlot hroom) hc (fun _ => hmap) fun d _ => ?_
      rw [Function.update_apply, (h.allocSlot hroom).map]

lemma Sound.takeUnnamed (h : m.Sound)
    (hroom : m.allocSlot.2.quotes.length < u32Bound) :
    { m.allocSlot.2 with
      instrumentToConId := m.allocSlot.2.instrumentToConId.set m.allocSlot.1 0 }.Sound := by
  refine Allocated.sound h (h.allocSlot hroom) (by decide) (fun hne => absurd rfl hne)
    fun d hd => ?_
  rw [if_neg hd, (h.allocSlot hroom).map]

omit [Inhabited Quote] [Zero F] in
lemma Sound.retag (h : m.Sound) {tags : ℕ → Option InstrumentId}
    (htags : ∀ tag id, tags tag = some id → m.Live id) :
    { m with serverTagToInstrument := tags }.Sound :=
  ⟨⟨h.aligned.1, h.aligned.2, h.aligned.3, h.aligned.4, h.aligned.5, h.aligned.6, h.aligned.7,
    h.aligned.8, h.aligned.9, h.aligned.10⟩, h.count, h.freeNodup, h.memFree, h.named, h.held,
    h.noSentinel, htags⟩

omit [Inhabited Quote] [Zero F] in
lemma same_describe (upper : String → String) (m : MarketState Quote F) (id : InstrumentId)
    (symbol secType exchange optionKey narrowing : String) :
    SameDirectory m
      ((if symbol = "" then
          { m with
            optionKeys := m.optionKeys.set id (stated optionKey)
            narrowings := m.narrowings.set id (stated narrowing) }
        else
          { m with
            optionKeys := m.optionKeys.set id (stated optionKey)
            narrowings := m.narrowings.set id (stated narrowing) }.setSymbol id symbol).setRouting
        upper id secType exchange) := by
  have hstated : SameDirectory m { m with
      optionKeys := m.optionKeys.set id (stated optionKey)
      narrowings := m.narrowings.set id (stated narrowing) } := by
    apply SameDirectory.of_set <;> simp
  refine SameDirectory.trans ?_ (same_setRouting upper _ id secType exchange)
  exact .ite hstated (hstated.trans (same_setSymbol _ id symbol))

lemma Sound.registerDescribed (upper : String → String) (h : m.Sound)
    (hc : c ≠ freeSlot) (symbol secType exchange optionKey narrowing : String)
    (hroom : (m.registerDescribed upper c symbol secType exchange optionKey narrowing).2.quotes.length
      < u32Bound) :
    (m.registerDescribed upper c symbol secType exchange optionKey narrowing).2.Sound := by
  by_cases hzero : c ≠ 0
  · have hsame : SameDirectory (m.register c).2
        (m.registerDescribed upper c symbol secType exchange optionKey narrowing).2 := by
      rw [MarketState.registerDescribed, if_pos hzero]
      exact ((same_fixSymbol _ _ symbol).trans (same_setRouting upper _ _ secType exchange)).trans
        (same_fixOptionKey _ _ optionKey)
    exact hsame.sound (h.register hc (hsame.length ▸ hroom))
  · cases hfind : m.instrumentByDescriptor symbol secType exchange optionKey narrowing with
    | some id =>
        simp only [MarketState.registerDescribed, if_neg hzero, hfind]
        exact ((same_fixOptionKey m id optionKey).trans (same_fixNarrowing _ id narrowing)).sound h
    | none =>
        simp only [MarketState.registerDescribed, if_neg hzero, hfind] at hroom ⊢
        have hsame := same_describe upper { m.allocSlot.2 with
          instrumentToConId := m.allocSlot.2.instrumentToConId.set m.allocSlot.1 0 } m.allocSlot.1
          symbol secType exchange optionKey narrowing
        exact hsame.sound (h.takeUnnamed (hsame.length ▸ hroom))

/-! ## Any calls -/

end MarketState

/-- What the callers of the table promise of a call: no contract is known by the sentinel, and a tag
is registered for a live slot. -/
def TableCall.Promised {Quote F : Type} (m : MarketState Quote F) : TableCall Quote F → Prop
  | .register c | .registerDescribed c .. | .adoptConId _ c => c ≠ freeSlot
  | .registerServerTag _ id => m.Live id
  | _ => True

namespace MarketState

variable {Quote F : Type} [Inhabited Quote] [Zero F] (upper : String → String) (scaled : F → ℤ)

def Promised : MarketState Quote F → List (TableCall Quote F) → Prop
  | _, [] => True
  | m, call :: calls => call.Promised m ∧ Promised (m.step upper scaled call) calls

lemma Sound.step {m : MarketState Quote F} (h : m.Sound) {call : TableCall Quote F}
    (hcall : call.Promised m) (hroom : (m.step upper scaled call).quotes.length < u32Bound) :
    (m.step upper scaled call).Sound := by
  cases call with
  | register c => exact h.register hcall hroom
  | registerDescribed c symbol secType exchange optionKey narrowing =>
      exact h.registerDescribed upper hcall symbol secType exchange optionKey narrowing hroom
  | adoptConId id c => exact h.adoptConId id hcall
  | unregister id => exact h.unregister id
  | registerServerTag tag id =>
      refine h.retag fun tag' id' htag => ?_
      rw [Function.update_apply] at htag
      split at htag
      · obtain rfl := Option.some.inj htag
        exact hcall
      · exact h.tagged tag' id' htag
  | forgetServerTag tag =>
      refine h.retag fun tag' id' htag => ?_
      rw [Function.update_apply] at htag
      split at htag
      · exact absurd htag (by simp)
      · exact h.tagged tag' id' htag
  | clearServerTags => exact h.retag fun _ _ htag => absurd htag (by simp)
  | clearServerTagsFor id =>
      refine h.retag fun tag' id' htag => ?_
      exact h.tagged tag' id' (Option.filter_eq_some_iff.1 htag).1
  | setSymbol id symbol => exact (same_setSymbol m id symbol).sound h
  | setRouting id secType exchange => exact (same_setRouting upper m id secType exchange).sound h
  | setOrderIdentity id key =>
      exact (SameDirectory.ite (.refl m) (same_setOptionKey m id (some key))).sound h
  | setMinTick id minTick =>
      refine SameDirectory.sound (m := m) ?_ h
      apply SameDirectory.of_set <;> simp
  | setSizeTick id sizeTick =>
      refine SameDirectory.sound (m := m) ?_ h
      apply SameDirectory.of_set <;> simp
  | setQuoteAndClock id quote clock =>
      refine SameDirectory.sound (m := m) ?_ h
      apply SameDirectory.of_set <;> simp

end MarketState

end IbkrDx
