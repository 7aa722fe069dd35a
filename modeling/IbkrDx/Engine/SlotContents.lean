import IbkrDx.Engine.SlotTable

/-!
# No slot is two contracts

What a slot holds is what the calls since it was last given back wrote into it, and nothing else.
With the invariant of the slot table, that is what keeps two contracts apart.

* **`slot_table_keeps_contracts_apart`** — over any calls, in every state they reach.
-/

namespace IbkrDx

structure Slot (Quote F : Type) where
  quote : Quote
  clock : TradeClock
  minTick : F
  minTickScaled : ℤ
  sizeTick : F
  symbol : Option String
  secType : Option String
  exchange : Option String
  optionKey : Option String
  narrowing : Option String
  deriving DecidableEq

namespace Slot

variable {Quote F : Type}

def empty [Inhabited Quote] [Zero F] : Slot Quote F :=
  ⟨default, {}, 0, 0, 0, none, none, none, none, none⟩

def route (upper : String → String) (secType exchange : String) (s : Slot Quote F) :
    Slot Quote F :=
  { s with
    secType := if secType = "" then s.secType else some (upper secType)
    exchange := if exchange = "" then s.exchange else some (upper exchange) }

def fix (held : Option String) (text : String) : Option String :=
  if text ≠ "" ∧ held = none then some text else held

end Slot

namespace MarketState

variable {Quote F : Type} [Inhabited Quote] [Zero F] (upper : String → String) (scaled : F → ℤ)

def slot (m : MarketState Quote F) (id : InstrumentId) : Slot Quote F where
  quote := m.quotes.getD id default
  clock := m.clocks.getD id {}
  minTick := m.minTicks.getD id 0
  minTickScaled := m.minTickScaled.getD id 0
  sizeTick := m.sizeTicks.getD id 0
  symbol := m.symbols.getD id none
  secType := m.secTypes.getD id none
  exchange := m.exchanges.getD id none
  optionKey := m.optionKeys.getD id none
  narrowing := m.narrowings.getD id none

def describes (m : MarketState Quote F) (conId : ConId)
    (symbol secType exchange optionKey narrowing : String) (s : Slot Quote F) : Slot Quote F :=
  if conId ≠ 0 then
    { s.route upper secType exchange with
      symbol := Slot.fix s.symbol symbol
      optionKey := Slot.fix s.optionKey optionKey }
  else if (m.instrumentByDescriptor symbol secType exchange optionKey narrowing).isSome then
    { s with
      optionKey := Slot.fix s.optionKey optionKey
      narrowing := Slot.fix s.narrowing narrowing }
  else
    { s.route upper secType exchange with
      symbol := if symbol = "" then s.symbol else some symbol
      optionKey := stated optionKey
      narrowing := stated narrowing }

end MarketState

/-- What a call writes into the slot `id`: what it states itself of the slot it addresses or is
answered with, and nothing where a slot is given back. -/
def TableCall.writes {Quote F : Type} [Inhabited Quote] [Zero F] (upper : String → String)
    (scaled : F → ℤ) (m : MarketState Quote F) (id : InstrumentId) :
    TableCall Quote F → Slot Quote F → Slot Quote F
  | .registerDescribed c symbol secType exchange optionKey narrowing, s =>
      if (m.registerDescribed upper c symbol secType exchange optionKey narrowing).1 = id then
        m.describes upper c symbol secType exchange optionKey narrowing s
      else s
  | .unregister j, s => if j = id ∧ (m.conId j).isSome then .empty else s
  | .setSymbol j symbol, s => if j = id then { s with symbol := some symbol } else s
  | .setRouting j secType exchange, s => if j = id then s.route upper secType exchange else s
  | .setOrderIdentity j key, s =>
      if j = id ∧ key ≠ "" then { s with optionKey := some key } else s
  | .setMinTick j minTick, s =>
      if j = id then { s with minTick := minTick, minTickScaled := scaled minTick } else s
  | .setSizeTick j sizeTick, s => if j = id then { s with sizeTick := sizeTick } else s
  | .setQuoteAndClock j quote clock, s =>
      if j = id then { s with quote := quote, clock := clock } else s
  | _, s => s

namespace MarketState

variable {Quote F : Type} [Inhabited Quote] [Zero F] (upper : String → String) (scaled : F → ℤ)

/-- What some calls write into the slot `id` one after another. -/
def replay (id : InstrumentId) : MarketState Quote F → List (TableCall Quote F) →
    Slot Quote F → Slot Quote F
  | _, [], s => s
  | m, call :: calls, s =>
      replay id (m.step upper scaled call) calls (call.writes upper scaled m id s)

lemma getD_set {α : Type} (l : List α) (i j : ℕ) (a d : α) (h : j < l.length) :
    (l.set i a).getD j d = if i = j then a else l.getD j d := by
  by_cases hij : i = j
  · subst hij
    simp [List.getD, h]
  · simp [List.getD, hij]

lemma getD_append_default {α : Type} (l : List α) (j : ℕ) (d : α) :
    (l ++ [d]).getD j d = l.getD j d := by
  rw [List.getD_eq_getElem?_getD, List.getD_eq_getElem?_getD, List.getElem?_append]
  split
  · rfl
  · next h =>
      rw [List.getElem?_eq_none (not_lt.1 h), List.getElem?_singleton]
      split <;> rfl

section

variable {m : MarketState Quote F} {j : InstrumentId} (ha : m.Aligned) (hj : j < m.quotes.length)

include ha hj

lemma slot_setSymbol (id : InstrumentId) (symbol : String) :
    (m.setSymbol id symbol).slot j
      = if id = j then { m.slot j with symbol := some symbol } else m.slot j := by
  simp only [slot, setSymbol, getD_set _ _ _ _ _ (ha.symbols ▸ hj)]
  split <;> rfl

lemma slot_setOptionKey (id : InstrumentId) (key : Option String) :
    { m with optionKeys := m.optionKeys.set id key }.slot j
      = if id = j then { m.slot j with optionKey := key } else m.slot j := by
  simp only [slot, getD_set _ _ _ _ _ (ha.optionKeys ▸ hj)]
  split <;> rfl

lemma slot_setNarrowing (id : InstrumentId) (narrowing : Option String) :
    { m with narrowings := m.narrowings.set id narrowing }.slot j
      = if id = j then { m.slot j with narrowing := narrowing } else m.slot j := by
  simp only [slot, getD_set _ _ _ _ _ (ha.narrowings ▸ hj)]
  split <;> rfl

lemma slot_setRouting (id : InstrumentId) (secType exchange : String) :
    (m.setRouting upper id secType exchange).slot j
      = if id = j then (m.slot j).route upper secType exchange else m.slot j := by
  by_cases hsec : secType = "" <;> by_cases hexc : exchange = "" <;>
    simp only [slot, setRouting, Slot.route, hsec, hexc, if_true, if_false,
      getD_set _ _ _ _ _ (ha.secTypes ▸ hj), getD_set _ _ _ _ _ (ha.exchanges ▸ hj)] <;>
    split <;> rfl

lemma slot_fixSymbol (id : InstrumentId) (symbol : String) :
    (m.fixSymbol id symbol).slot j
      = if id = j then { m.slot j with symbol := Slot.fix (m.slot j).symbol symbol }
        else m.slot j := by
  by_cases hid : id = j
  · subst hid
    rw [if_pos rfl, fixSymbol]
    split
    · next hfix =>
        rw [slot_setSymbol ha hj, if_pos rfl, Slot.fix, if_pos]
        exact hfix
    · next hfix =>
        rw [Slot.fix, if_neg]
        exact hfix
  · rw [if_neg hid, fixSymbol]
    split
    · rw [slot_setSymbol ha hj, if_neg hid]
    · rfl

lemma slot_fixOptionKey (id : InstrumentId) (key : String) :
    (m.fixOptionKey id key).slot j
      = if id = j then { m.slot j with optionKey := Slot.fix (m.slot j).optionKey key }
        else m.slot j := by
  by_cases hid : id = j
  · subst hid
    rw [if_pos rfl, fixOptionKey]
    split
    · next hfix =>
        rw [slot_setOptionKey ha hj, if_pos rfl, Slot.fix, if_pos]
        exact hfix
    · next hfix =>
        rw [Slot.fix, if_neg]
        exact hfix
  · rw [if_neg hid, fixOptionKey]
    split
    · rw [slot_setOptionKey ha hj, if_neg hid]
    · rfl

lemma slot_fixNarrowing (id : InstrumentId) (narrowing : String) :
    (m.fixNarrowing id narrowing).slot j
      = if id = j then { m.slot j with narrowing := Slot.fix (m.slot j).narrowing narrowing }
        else m.slot j := by
  by_cases hid : id = j
  · subst hid
    rw [if_pos rfl, fixNarrowing]
    split
    · next hfix =>
        rw [slot_setNarrowing ha hj, if_pos rfl, Slot.fix, if_pos]
        exact hfix
    · next hfix =>
        rw [Slot.fix, if_neg]
        exact hfix
  · rw [if_neg hid, fixNarrowing]
    split
    · rw [slot_setNarrowing ha hj, if_neg hid]
    · rfl

lemma slot_describe (id : InstrumentId) (symbol secType exchange optionKey narrowing : String) :
    ((if symbol = "" then
        { m with
          optionKeys := m.optionKeys.set id (stated optionKey)
          narrowings := m.narrowings.set id (stated narrowing) }
      else
        { m with
          optionKeys := m.optionKeys.set id (stated optionKey)
          narrowings := m.narrowings.set id (stated narrowing) }.setSymbol id symbol).setRouting
      upper id secType exchange).slot j
      = if id = j then
          { (m.slot j).route upper secType exchange with
            symbol := if symbol = "" then (m.slot j).symbol else some symbol
            optionKey := stated optionKey
            narrowing := stated narrowing }
        else m.slot j := by
  have hstated : SameDirectory m { m with
      optionKeys := m.optionKeys.set id (stated optionKey)
      narrowings := m.narrowings.set id (stated narrowing) } := by
    apply SameDirectory.of_set <;> simp
  have hslot : { m with
      optionKeys := m.optionKeys.set id (stated optionKey)
      narrowings := m.narrowings.set id (stated narrowing) }.slot j
      = if id = j then
          { m.slot j with optionKey := stated optionKey, narrowing := stated narrowing }
        else m.slot j := by
    simp only [slot, getD_set _ _ _ _ _ (ha.optionKeys ▸ hj),
      getD_set _ _ _ _ _ (ha.narrowings ▸ hj)]
    split <;> rfl
  have hnamed := hstated.trans (same_setSymbol _ id symbol)
  split
  · rw [slot_setRouting upper (hstated.aligned ha) (hstated.length ▸ hj), hslot]
    split <;> rfl
  · rw [slot_setRouting upper (hnamed.aligned ha) (hnamed.length ▸ hj),
      slot_setSymbol (hstated.aligned ha) (hstated.length ▸ hj), hslot]
    split <;> rfl

end

lemma slot_allocSlot (m : MarketState Quote F) (j : InstrumentId) :
    m.allocSlot.2.slot j = m.slot j := by
  simp only [allocSlot]
  split
  · rfl
  · split
    · simp only [slot, grow, getD_append_default]
    · rfl

lemma slot_register (m : MarketState Quote F) (c : ConId) (j : InstrumentId) :
    (m.register c).2.slot j = m.slot j := by
  simp only [register]
  split
  · rfl
  · exact slot_allocSlot m j

variable {m : MarketState Quote F} {j : InstrumentId}

lemma slot_unregister (ha : m.Aligned)
    (hj : j < m.quotes.length) (id : InstrumentId) :
    (m.unregister id).2.slot j
      = if id = j ∧ (m.conId id).isSome then Slot.empty else m.slot j := by
  simp only [unregister]
  split
  · next hc => simp [hc]
  · next c hc =>
      simp only [slot, clearServerTagsFor, getD_set _ _ _ _ _ hj,
        getD_set _ _ _ _ _ (ha.clocks ▸ hj), getD_set _ _ _ _ _ (ha.minTicks ▸ hj),
        getD_set _ _ _ _ _ (ha.minTickScaled ▸ hj), getD_set _ _ _ _ _ (ha.sizeTicks ▸ hj),
        getD_set _ _ _ _ _ (ha.symbols ▸ hj), getD_set _ _ _ _ _ (ha.secTypes ▸ hj),
        getD_set _ _ _ _ _ (ha.exchanges ▸ hj), getD_set _ _ _ _ _ (ha.optionKeys ▸ hj),
        getD_set _ _ _ _ _ (ha.narrowings ▸ hj), hc, Option.isSome_some, and_true]
      split <;> rfl

lemma length_le_register (m : MarketState Quote F) (c : ConId) :
    m.quotes.length ≤ (m.register c).2.quotes.length := by
  simp only [register]
  split
  · exact le_refl _
  · exact length_le_allocSlot m

lemma slot_registerDescribed (h : m.Sound) {c : ConId}
    (hc : c ≠ freeSlot) {symbol secType exchange optionKey narrowing : String}
    (hroom : (m.registerDescribed upper c symbol secType exchange optionKey narrowing).2.quotes.length
      < u32Bound) (hj : j < m.quotes.length) :
    (m.registerDescribed upper c symbol secType exchange optionKey narrowing).2.slot j
      = if (m.registerDescribed upper c symbol secType exchange optionKey narrowing).1 = j then
          m.describes upper c symbol secType exchange optionKey narrowing (m.slot j)
        else m.slot j := by
  by_cases hzero : c ≠ 0
  · simp only [registerDescribed, if_pos hzero] at hroom ⊢
    have hsymbol := same_fixSymbol (m.register c).2 (m.register c).1 symbol
    have hrouted := hsymbol.trans (same_setRouting upper _ (m.register c).1 secType exchange)
    have hkeyed := hrouted.trans (same_fixOptionKey _ (m.register c).1 optionKey)
    have hregistered := h.register hc (hkeyed.length ▸ hroom)
    have hj' := lt_of_lt_of_le hj (length_le_register m c)
    rw [slot_fixOptionKey (hrouted.aligned hregistered.aligned) (hrouted.length ▸ hj'),
      slot_setRouting upper (hsymbol.aligned hregistered.aligned) (hsymbol.length ▸ hj'),
      slot_fixSymbol hregistered.aligned hj', slot_register]
    by_cases hid : (m.register c).1 = j
    · simp only [hid, if_true, describes, if_pos hzero]
      rfl
    · simp only [if_neg hid]
  · cases hfind : m.instrumentByDescriptor symbol secType exchange optionKey narrowing with
    | some id =>
        have hkeyed := same_fixOptionKey m id optionKey
        simp only [registerDescribed, if_neg hzero, hfind]
        rw [slot_fixNarrowing (hkeyed.aligned h.aligned) (hkeyed.length ▸ hj),
          slot_fixOptionKey h.aligned hj]
        by_cases hid : id = j
        · simp only [hid, if_true, describes, if_neg hzero, hfind, Option.isSome_some]
        · simp only [if_neg hid]
    | none =>
        simp only [registerDescribed, if_neg hzero, hfind] at hroom ⊢
        have hsame := same_describe upper { m.allocSlot.2 with
          instrumentToConId := m.allocSlot.2.instrumentToConId.set m.allocSlot.1 0 } m.allocSlot.1
          symbol secType exchange optionKey narrowing
        have htaken := h.takeUnnamed (hsame.length ▸ hroom)
        have hslot : { m.allocSlot.2 with
            instrumentToConId := m.allocSlot.2.instrumentToConId.set m.allocSlot.1 0 }.slot j
            = m.slot j := slot_allocSlot m j
        have hdescribed := slot_describe upper htaken.aligned
          (lt_of_lt_of_le hj (length_le_allocSlot m)) m.allocSlot.1 symbol secType exchange
          optionKey narrowing
        refine hdescribed.trans ?_
        rw [hslot, describes, if_neg hzero, hfind]
        rfl

lemma slot_step (h : m.Sound) {call : TableCall Quote F}
    (hcall : call.Promised m) (hroom : (m.step upper scaled call).quotes.length < u32Bound)
    (hj : j < m.quotes.length) :
    (m.step upper scaled call).slot j = call.writes upper scaled m j (m.slot j) := by
  have ha := h.aligned
  cases call with
  | register c => exact slot_register m c j
  | registerDescribed c symbol secType exchange optionKey narrowing =>
      exact slot_registerDescribed upper h hcall hroom hj
  | adoptConId id c =>
      simp only [step, adoptConId, TableCall.writes]
      split
      · rfl
      · split
        · rfl
        · split <;> rfl
  | unregister id => exact slot_unregister ha hj id
  | registerServerTag tag id => rfl
  | forgetServerTag tag => rfl
  | clearServerTags => rfl
  | clearServerTagsFor id => rfl
  | setSymbol id symbol => exact slot_setSymbol ha hj id symbol
  | setRouting id secType exchange => exact slot_setRouting upper ha hj id secType exchange
  | setOrderIdentity id key =>
      simp only [step, setOrderIdentity, TableCall.writes]
      by_cases hkey : key = ""
      · simp [hkey]
      · rw [if_neg hkey, slot_setOptionKey ha hj]
        simp [hkey]
  | setMinTick id minTick =>
      simp only [step, setMinTick, TableCall.writes, slot, getD_set _ _ _ _ _ (ha.minTicks ▸ hj),
        getD_set _ _ _ _ _ (ha.minTickScaled ▸ hj)]
      split <;> rfl
  | setSizeTick id sizeTick =>
      simp only [step, setSizeTick, TableCall.writes, slot, getD_set _ _ _ _ _ (ha.sizeTicks ▸ hj)]
      split <;> rfl
  | setQuoteAndClock id quote clock =>
      simp only [step, setQuoteAndClock, TableCall.writes, slot, getD_set _ _ _ _ _ hj,
        getD_set _ _ _ _ _ (ha.clocks ▸ hj)]
      split <;> rfl

/-! ## Any calls -/

lemma length_le_step (m : MarketState Quote F) (call : TableCall Quote F) :
    m.quotes.length ≤ (m.step upper scaled call).quotes.length := by
  cases call with
  | register c => exact length_le_register m c
  | registerDescribed c symbol secType exchange optionKey narrowing =>
      simp only [step, registerDescribed]
      split
      · rw [(same_fixOptionKey _ _ _).length, (same_setRouting upper _ _ _ _).length,
          (same_fixSymbol _ _ _).length]
        exact length_le_register m c
      · split
        · rw [(same_fixNarrowing _ _ _).length, (same_fixOptionKey _ _ _).length]
        · exact (same_describe upper { m.allocSlot.2 with
            instrumentToConId := m.allocSlot.2.instrumentToConId.set m.allocSlot.1 0 }
            m.allocSlot.1 symbol secType exchange optionKey narrowing).length ▸
            length_le_allocSlot m
  | adoptConId id c =>
      simp only [step, adoptConId]
      split
      · exact le_refl _
      · split
        · exact le_refl _
        · split <;> exact le_refl _
  | unregister id =>
      simp only [step, unregister]
      split
      · exact le_refl _
      · simp [clearServerTagsFor]
  | setRouting id secType exchange => exact (same_setRouting upper m id _ _).length.ge
  | setOrderIdentity id key =>
      exact (SameDirectory.ite (.refl m) (same_setOptionKey m id (some key))).length.ge
  | setQuoteAndClock id quote clock => simp [step, setQuoteAndClock]
  | _ => exact le_refl _

lemma length_le_run (calls : List (TableCall Quote F)) :
    ∀ m : MarketState Quote F, m.quotes.length ≤ (m.run upper scaled calls).quotes.length := by
  induction calls with
  | nil => intro m; exact le_refl _
  | cons call calls ih => intro m; exact (length_le_step upper scaled m call).trans (ih _)

lemma Sound.run (calls : List (TableCall Quote F)) :
    ∀ {m : MarketState Quote F}, m.Sound → m.Promised upper scaled calls →
      (m.run upper scaled calls).quotes.length < u32Bound → (m.run upper scaled calls).Sound := by
  induction calls with
  | nil => intro m h _ _; exact h
  | cons call calls ih =>
      intro m h hpromised hroom
      have hnow := lt_of_le_of_lt (length_le_run upper scaled calls _) hroom
      exact ih (h.step upper scaled hpromised.1 hnow) hpromised.2 hroom

lemma slot_run (calls : List (TableCall Quote F)) :
    ∀ {m : MarketState Quote F}, m.Sound → m.Promised upper scaled calls →
      (m.run upper scaled calls).quotes.length < u32Bound → j < m.quotes.length →
      (m.run upper scaled calls).slot j = replay upper scaled j m calls (m.slot j) := by
  induction calls with
  | nil => intro m _ _ _ _; rfl
  | cons call calls ih =>
      intro m h hpromised hroom hj
      have hnow := lt_of_le_of_lt (length_le_run upper scaled calls _) hroom
      rw [replay, ← slot_step upper scaled h hpromised.1 hnow hj]
      exact ih (h.step upper scaled hpromised.1 hnow) hpromised.2 hroom
        (lt_of_lt_of_le hj (length_le_step upper scaled m call))

lemma promised_append {calls calls' : List (TableCall Quote F)} :
    ∀ {m : MarketState Quote F}, m.Promised upper scaled (calls ++ calls') →
      m.Promised upper scaled calls ∧
        (m.run upper scaled calls).Promised upper scaled calls' := by
  induction calls with
  | nil => intro m h; exact ⟨trivial, h⟩
  | cons call calls ih => intro m h; exact ⟨⟨h.1, (ih h.2).1⟩, (ih h.2).2⟩

lemma tags_allocSlot (m : MarketState Quote F) :
    m.allocSlot.2.serverTagToInstrument = m.serverTagToInstrument := by
  simp only [allocSlot]
  split
  · rfl
  · split <;> rfl

lemma tags_register (m : MarketState Quote F) (c : ConId) :
    (m.register c).2.serverTagToInstrument = m.serverTagToInstrument := by
  simp only [register]
  split
  · rfl
  · exact tags_allocSlot m

lemma tags_registerDescribed (m : MarketState Quote F) (c : ConId)
    (symbol secType exchange optionKey narrowing : String) :
    (m.registerDescribed upper c symbol secType exchange optionKey narrowing).2.serverTagToInstrument
      = m.serverTagToInstrument := by
  simp only [registerDescribed]
  split
  · rw [(same_fixOptionKey _ _ _).tags, (same_setRouting upper _ _ _ _).tags,
      (same_fixSymbol _ _ _).tags, tags_register]
  · split
    · rw [(same_fixNarrowing _ _ _).tags, (same_fixOptionKey _ _ _).tags]
    · exact (same_describe upper { m.allocSlot.2 with
        instrumentToConId := m.allocSlot.2.instrumentToConId.set m.allocSlot.1 0 }
        m.allocSlot.1 symbol secType exchange optionKey narrowing).tags.trans (tags_allocSlot m)

variable {id : InstrumentId}

lemma tag_step {call : TableCall Quote F} {tag : ℕ}
    (hno : m.serverTagToInstrument tag ≠ some id)
    (htag : (m.step upper scaled call).serverTagToInstrument tag = some id) :
    call = .registerServerTag tag id := by
  cases call with
  | register c => exact absurd (tags_register m c ▸ htag) hno
  | registerDescribed c symbol secType exchange optionKey narrowing =>
      exact absurd (tags_registerDescribed upper m c _ _ _ _ _ ▸ htag) hno
  | adoptConId j c =>
      refine absurd ?_ hno
      simp only [step, adoptConId] at htag
      split at htag
      · exact htag
      · split at htag
        · exact htag
        · split at htag <;> exact htag
  | unregister j =>
      refine absurd ?_ hno
      simp only [step, unregister] at htag
      split at htag
      · exact htag
      · exact (Option.filter_eq_some_iff.1 htag).1
  | registerServerTag tag' j =>
      change Function.update m.serverTagToInstrument tag' (some j) tag = some id at htag
      rw [Function.update_apply] at htag
      split at htag
      · next heq => rw [heq, Option.some.inj htag]
      · exact absurd htag hno
  | forgetServerTag tag' =>
      change Function.update m.serverTagToInstrument tag' none tag = some id at htag
      rw [Function.update_apply] at htag
      split at htag
      · exact absurd htag (by simp)
      · exact absurd htag hno
  | clearServerTags => exact absurd htag (by simp [step, clearServerTags])
  | clearServerTagsFor j => exact absurd (Option.filter_eq_some_iff.1 htag).1 hno
  | setRouting j secType exchange =>
      exact absurd ((same_setRouting upper m j secType exchange).tags ▸ htag) hno
  | setOrderIdentity j key =>
      exact absurd ((SameDirectory.ite (p := key = "") (.refl m)
        (same_setOptionKey m j (some key))).tags ▸ htag) hno
  | _ => exact absurd htag hno

lemma tag_run (calls : List (TableCall Quote F)) {tag : ℕ} :
    ∀ {m : MarketState Quote F}, m.serverTagToInstrument tag ≠ some id →
      (m.run upper scaled calls).serverTagToInstrument tag = some id →
      .registerServerTag tag id ∈ calls := by
  induction calls with
  | nil => intro m hno htag; exact absurd htag hno
  | cons call calls ih =>
      intro m hno htag
      by_cases hnext : (m.step upper scaled call).serverTagToInstrument tag = some id
      · rw [tag_step upper scaled hno hnext]
        exact List.mem_cons_self
      · exact List.mem_cons_of_mem _ (ih hnext htag)

lemma untagged_unregister (hlive : m.Live id)
    (tag : ℕ) : (m.unregister id).2.serverTagToInstrument tag ≠ some id := by
  obtain ⟨c, hc⟩ := Option.isSome_iff_exists.1 hlive
  simp only [unregister, hc]
  intro htag
  have hne := (Option.filter_eq_some_iff.1 htag).2
  simp at hne

end MarketState

/-! ## No slot is two contracts -/

open MarketState in
/-- **No slot is two contracts.**  After any calls that are as promised, as long as the tables hold
fewer slots than a `u32` counts: a contract id and the live slot that holds it name each other; the
slots given back are listed once each and are the freed ones in use before; the tables are one
another's length and hold every slot handed out; what a slot holds since it was given back is what
the calls since then wrote into it, its tags included; and every tag names a live slot. -/
theorem slot_table_keeps_contracts_apart {Quote F : Type} [Inhabited Quote] [Zero F]
    (upper : String → String) (scaled : F → ℤ) (calls : List (TableCall Quote F))
    (hpromised : new.Promised upper scaled calls)
    (hroom : (new.run upper scaled calls).quotes.length < u32Bound) :
    (∀ c id, c ≠ 0 → ((new.run upper scaled calls).conIdToInstrument c = some id ↔
        (new.run upper scaled calls).conId id = some c)) ∧
      (new.run upper scaled calls).freeIds.Nodup ∧
      (∀ id, id ∈ (new.run upper scaled calls).freeIds ↔
        id < (new.run upper scaled calls).activeCount ∧
          ¬ (new.run upper scaled calls).Live id) ∧
      (new.run upper scaled calls).Aligned ∧
      (new.run upper scaled calls).activeCount ≤ (new.run upper scaled calls).quotes.length ∧
      (∀ before id after, calls = before ++ .unregister id :: after →
        (new.run upper scaled before).Live id →
        (new.run upper scaled calls).slot id
            = replay upper scaled id (new.run upper scaled (before ++ [.unregister id])) after
                .empty ∧
          ∀ tag, (new.run upper scaled calls).serverTagToInstrument tag = some id →
            .registerServerTag tag id ∈ after) ∧
      ∀ tag id, (new.run upper scaled calls).serverTagToInstrument tag = some id →
        (new.run upper scaled calls).Live id := by
  have h := sound_new.run upper scaled calls hpromised hroom
  refine ⟨?_, h.freeNodup, ?_, h.aligned, h.count, ?_, h.tagged⟩
  · intro c id hc
    rw [conId_eq_some]
    constructor
    · intro hmap
      obtain ⟨hlt, hget⟩ := h.named c id hc hmap
      refine ⟨hlt, hget, ?_⟩
      rintro rfl
      exact absurd (h.noSentinel.symm.trans hmap) (by simp)
    · rintro ⟨hlt, hget, hne⟩
      exact h.held id c hlt hget hc hne
  · intro id
    rw [h.memFree]
    refine and_congr_right fun hlt => ?_
    have hlen : id < (new.run upper scaled calls).instrumentToConId.length := by
      rw [h.aligned.instrumentToConId]
      exact lt_of_lt_of_le hlt h.count
    rw [live_iff, List.getElem?_eq_getElem hlen]
    simp [hlt]
  · rintro before id after rfl hlive
    obtain ⟨hbefore, hrest⟩ := promised_append upper scaled hpromised
    have hsplit : ∀ m : MarketState Quote F, m.run upper scaled (before ++ .unregister id :: after)
        = ((m.run upper scaled before).unregister id).2.run upper scaled after := by
      intro m
      simp only [run, List.foldl_append, List.foldl_cons]
      rfl
    have hgiven : (new : MarketState Quote F).run upper scaled (before ++ [.unregister id])
        = ((new.run upper scaled before).unregister id).2 := by
      simp only [run, List.foldl_append, List.foldl_cons, List.foldl_nil]
      rfl
    rw [hsplit] at hroom ⊢
    rw [hgiven]
    have hlength := length_le_step upper scaled (new.run upper scaled before) (.unregister id)
    have hsound := sound_new.run upper scaled before hbefore
      (lt_of_le_of_lt (hlength.trans (length_le_run upper scaled after _)) hroom)
    have hid : id < (new.run upper scaled before).quotes.length :=
      lt_of_lt_of_le (live_iff.1 hlive).1 hsound.count
    refine ⟨?_, fun tag htag => tag_run upper scaled after (untagged_unregister hlive tag) htag⟩
    rw [slot_run upper scaled after (hsound.unregister id) hrest.2 hroom
      (lt_of_lt_of_le hid hlength), slot_unregister hsound.aligned hid, if_pos ⟨rfl, hlive⟩]

open MarketState in
/-- A contract given back and its slot taken by another, which is described without an id. -/
theorem slot_table_keeps_contracts_apart_five :
    (new.run id id [.register 5, .setSymbol 0 "OLD", .registerServerTag 9 0, .unregister 0,
        .registerDescribed 0 "NEW" "STK" "" "" ""] : MarketState ℕ ℤ).slot 0
      = { Slot.empty with symbol := some "NEW", secType := some "STK" } := by
  obtain ⟨-, -, -, -, -, hslot, -⟩ := slot_table_keeps_contracts_apart id id
    ([.register 5, .setSymbol 0 "OLD", .registerServerTag 9 0, .unregister 0,
      .registerDescribed 0 "NEW" "STK" "" "" ""] : List (TableCall ℕ ℤ))
    ⟨show (5 : ConId) ≠ freeSlot by decide, trivial, show (conId _ 0).isSome by decide +kernel,
      trivial, show (0 : ConId) ≠ freeSlot by decide, trivial⟩ (by decide +kernel)
  refine (hslot [.register 5, .setSymbol 0 "OLD", .registerServerTag 9 0] 0
    [.registerDescribed 0 "NEW" "STK" "" "" ""] rfl
    (show (conId _ 0).isSome by decide +kernel)).1.trans ?_
  decide +kernel

/-! ## A `u32` of slots -/

/-- The first `n` contracts registered one after another. -/
def registrations (n : ℕ) : List (TableCall ℕ ℤ) :=
  (List.range n).map fun i : ℕ => .register ((i : ℤ) + 1)

namespace MarketState

lemma promised_registrations (calls : List (TableCall ℕ ℤ)) :
    ∀ m : MarketState ℕ ℤ, (∀ call ∈ calls, ∃ c, call = .register c ∧ c ≠ freeSlot) →
      m.Promised id id calls := by
  induction calls with
  | nil => intro m _; trivial
  | cons call calls ih =>
      intro m h
      obtain ⟨c, rfl, hc⟩ := h call List.mem_cons_self
      exact ⟨hc, ih _ fun call' hmem => h call' (List.mem_cons_of_mem _ hmem)⟩

lemma register_unfreed {m : MarketState ℕ ℤ} {c : ConId} (hfree : m.freeIds = [])
    (hmap : m.conIdToInstrument c = none) (hids : 0 < m.instrumentToConId.length) :
    (m.register c).2.activeCount = (m.activeCount + 1) % u32Bound ∧
      (m.register c).2.freeIds = [] ∧
      (m.register c).2.conIdToInstrument
        = Function.update m.conIdToInstrument c (some m.activeCount) ∧
      0 < (m.register c).2.instrumentToConId.length ∧
      (m.activeCount = 0 → (m.register c).2.instrumentToConId[0]? = some c) := by
  simp only [register, hmap, allocSlot, hfree]
  split
  · refine ⟨rfl, hfree, rfl, by simp [grow], ?_⟩
    intro hzero
    show (m.grow.instrumentToConId.set m.activeCount c)[0]? = some c
    rw [hzero, List.getElem?_set_self (by simp [grow])]
  · refine ⟨rfl, hfree, rfl, by simpa using hids, ?_⟩
    intro hzero
    show (m.instrumentToConId.set m.activeCount c)[0]? = some c
    rw [hzero, List.getElem?_set_self hids]

lemma run_registrations_succ (n : ℕ) (m : MarketState ℕ ℤ) :
    m.run id id (registrations (n + 1))
      = ((m.run id id (registrations n)).register (n + 1)).2 := by
  simp only [run, registrations, List.range_succ, List.map_append, List.foldl_append]
  rfl

lemma run_registrations (n : ℕ) :
    (new.run id id (registrations n)).activeCount = n % u32Bound ∧
      (new.run id id (registrations n)).freeIds = [] ∧
      (∀ c : ConId, (n : ℤ) < c → (new.run id id (registrations n)).conIdToInstrument c = none) ∧
      0 < (new.run id id (registrations n)).instrumentToConId.length ∧
      (0 < n → (new.run id id (registrations n)).conIdToInstrument 1 = some 0) := by
  induction n with
  | zero =>
      refine ⟨rfl, rfl, fun _ _ => rfl, ?_, fun h => absurd h (lt_irrefl 0)⟩
      show 0 < (List.replicate maxInstruments (0 : ConId)).length
      rw [List.length_replicate]
      decide
  | succ n ih =>
      obtain ⟨hcount, hfree, hmap, hids, hone⟩ := ih
      have hnew : (n : ℤ) < (n : ℤ) + 1 := Int.lt_succ _
      obtain ⟨hcount', hfree', hmap', hids', -⟩ := register_unfreed hfree (hmap _ hnew) hids
      rw [run_registrations_succ]
      refine ⟨by rw [hcount', hcount, Nat.mod_add_mod], hfree', fun c hc => ?_, hids', fun _ => ?_⟩
      · rw [Nat.cast_succ] at hc
        rw [hmap', Function.update_of_ne (ne_of_gt hc)]
        exact hmap c (hnew.trans hc)
      · rw [hmap']
        by_cases hn : n = 0
        · subst hn
          rw [hcount]
          rfl
        · have hpos : 0 < n := Nat.pos_of_ne_zero hn
          have hother : (1 : ℤ) ≠ (n : ℤ) + 1 := by omega
          rw [Function.update_of_ne hother]
          exact hone hpos

end MarketState

open MarketState in
/-- **A count that wraps.**  Behind the slots a `u32` counts, the first slot is handed out again
while it is held: the contract that takes it and the one that had it both name it. -/
theorem not_slot_table_keeps_contracts_apart :
    ¬ ∀ calls : List (TableCall ℕ ℤ), new.Promised id id calls → ∀ c i, c ≠ 0 →
      ((new.run id id calls).conIdToInstrument c = some i ↔
        (new.run id id calls).conId i = some c) := by
  intro h
  obtain ⟨n, hn⟩ : ∃ n, n = u32Bound := ⟨_, rfl⟩
  have hpromised : (new : MarketState ℕ ℤ).Promised id id (registrations (n + 1)) := by
    refine promised_registrations _ _ fun call hcall => ?_
    obtain ⟨i, -, rfl⟩ := List.mem_map.1 hcall
    have hne : (i : ℤ) + 1 ≠ freeSlot := by
      rw [freeSlot]
      omega
    exact ⟨_, rfl, hne⟩
  obtain ⟨hcount, hfree, hmap, hids, -⟩ := run_registrations n
  obtain ⟨-, -, -, -, hlast⟩ := register_unfreed hfree (hmap _ (Int.lt_succ _)) hids
  obtain ⟨-, -, -, -, hone⟩ := run_registrations (n + 1)
  have hheld := conId_eq_some.1 ((h _ hpromised 1 0 one_ne_zero).1 (hone (Nat.succ_pos n)))
  rw [run_registrations_succ, hlast (by rw [hcount, hn, Nat.mod_self])] at hheld
  have hone' : (n : ℤ) + 1 = 1 := Option.some.inj hheld.2.1
  have hpos : 0 < n := by rw [hn]; decide
  omega

end IbkrDx
