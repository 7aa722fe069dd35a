import IbkrDx.Engine.SlotContents
import IbkrDx.Lib.Runs

/-!
# Contracts named by description

Whether two descriptions of `engine/market_state.rs` that conflict are answered with one slot.  A
slot takes its identity and its narrowing from the first description to state them; its type and its
exchange it takes when a description takes the slot, or when the caller records the routing behind
the registration.

* **`conflicting_descriptions_apart`** — two descriptions answered with one slot do not conflict.
* **`not_conflicting_descriptions_apart`** — a type that is stated to a slot with none on record is
  not taken over from the description alone.
-/

namespace IbkrDx

structure DescribedContract where
  symbol : String
  secType : String
  exchange : String
  optionKey : String
  narrowing : String
  deriving DecidableEq

namespace MarketState

variable {Quote F : Type} [Inhabited Quote] [Zero F] (upper : String → String) (scaled : F → ℤ)

def describe (m : MarketState Quote F) (a : DescribedContract) :
    InstrumentId × MarketState Quote F :=
  m.registerDescribed upper 0 a.symbol a.secType a.exchange a.optionKey a.narrowing

end MarketState

def DescribedContract.call {Quote F : Type} (a : DescribedContract) : TableCall Quote F :=
  .registerDescribed 0 a.symbol a.secType a.exchange a.optionKey a.narrowing

/-- The call leaves the slot taken, and does not restate it as something it would not be matched
by. -/
def TableCall.Agrees {Quote F : Type} [Inhabited Quote] [Zero F] (id : InstrumentId)
    (m : MarketState Quote F) : TableCall Quote F → Prop
  | .unregister j => j ≠ id
  | .setRouting j secType exchange =>
      j = id → blankOrEq (m.slot id).secType secType ∧ blankOrEq (m.slot id).exchange exchange
  | .setOrderIdentity j key => j = id → key = "" ∨ unstatedOrEq (m.slot id).optionKey key
  | _ => True

/-- What `str::to_uppercase` does to texts that differ in the case of ASCII letters, and to its own
results. -/
structure UpperCases (upper : String → String) : Prop where
  eqIgnore : ∀ s t, eqIgnoreAsciiCase s t → upper s = upper t
  idem : ∀ s, upper (upper s) = upper s

/-! ## The contract of a slot that stays taken -/

namespace MarketState

variable {Quote F : Type} {m m' : MarketState Quote F} {id j : InstrumentId}

lemma SameDirectory.conId (h : SameDirectory m m') (j : InstrumentId) : m'.conId j = m.conId j := by
  rw [MarketState.conId, MarketState.conId, h.count, h.ids]

lemma Allocated.conId (h : Allocated m id m') (hlive : m.Live j) (map : ConId → Option InstrumentId)
    (c : ConId) :
    { m' with conIdToInstrument := map, instrumentToConId := m'.instrumentToConId.set id c }.conId j
      = m.conId j := by
  have hlt := (live_iff.1 hlive).1
  have hlt' := (h.active j).2 (Or.inl hlt)
  have hne : id ≠ j := fun heq => h.notLive (heq ▸ hlive)
  simp only [MarketState.conId, if_pos hlt, if_pos hlt', List.getElem?_set_ne hne, h.same j hlt]

variable [Inhabited Quote] [Zero F] (upper : String → String) (scaled : F → ℤ)

lemma conId_register (h : m.Sound) {c : ConId} (hroom : (m.register c).2.quotes.length < u32Bound)
    (hlive : m.Live j) : (m.register c).2.conId j = m.conId j := by
  simp only [register] at hroom ⊢
  split at hroom
  · rfl
  · exact (h.allocSlot hroom).conId hlive _ _

lemma conId_register_self (h : m.Sound) {c : ConId} (hc : c ≠ freeSlot) (hzero : c ≠ 0)
    (hroom : (m.register c).2.quotes.length < u32Bound) :
    (m.register c).2.conId (m.register c).1 = some c := by
  have hsound := h.register hc hroom
  have hmap : (m.register c).2.conIdToInstrument c = some (m.register c).1 := by
    simp only [register]
    split
    · next hmap => exact hmap
    · exact Function.update_self _ _ _
  obtain ⟨hlt, hget⟩ := hsound.named c _ hzero hmap
  exact conId_eq_some.2 ⟨hlt, hget, hc⟩

lemma same_registerDescribed (c : ConId) (hzero : c ≠ 0)
    (symbol secType exchange optionKey narrowing : String) :
    SameDirectory (m.register c).2
      (m.registerDescribed upper c symbol secType exchange optionKey narrowing).2 := by
  rw [registerDescribed, if_pos hzero]
  exact ((same_fixSymbol _ _ symbol).trans (same_setRouting upper _ _ secType exchange)).trans
    (same_fixOptionKey _ _ optionKey)

lemma describe_live (h : m.Sound) {a : DescribedContract}
    (hroom : (m.describe upper a).2.quotes.length < u32Bound) (hlive : m.Live j) :
    (m.describe upper a).2.conId j = m.conId j ∧
      ((m.describe upper a).1 = j → m.instrumentByDescriptor a.symbol a.secType a.exchange
        a.optionKey a.narrowing = some j) := by
  cases hfind : m.instrumentByDescriptor a.symbol a.secType a.exchange a.optionKey a.narrowing with
  | some id =>
      simp only [describe, registerDescribed, ne_eq, not_true_eq_false, if_false, hfind] at hroom ⊢
      exact ⟨((same_fixOptionKey m id a.optionKey).trans
        (same_fixNarrowing _ id a.narrowing)).conId j, fun heq => heq ▸ rfl⟩
  | none =>
      simp only [describe, registerDescribed, ne_eq, not_true_eq_false, if_false, hfind] at hroom ⊢
      have hsame := same_describe upper { m.allocSlot.2 with
        instrumentToConId := m.allocSlot.2.instrumentToConId.set m.allocSlot.1 0 } m.allocSlot.1
        a.symbol a.secType a.exchange a.optionKey a.narrowing
      have halloc := h.allocSlot (hsame.length ▸ hroom)
      exact ⟨(hsame.conId j).trans (halloc.conId hlive _ 0),
        fun heq => absurd hlive (heq ▸ halloc.notLive)⟩

lemma conId_step (h : m.Sound) {call : TableCall Quote F} (hcall : call.Promised m)
    (hroom : (m.step upper scaled call).quotes.length < u32Bound) (hlive : m.Live j)
    (hagrees : call.Agrees j m) :
    (m.step upper scaled call).conId j = m.conId j ∨
      ∃ c, c ≠ 0 ∧ (m.step upper scaled call).conId j = some c := by
  cases call with
  | register c => exact Or.inl (conId_register h hroom hlive)
  | registerDescribed c symbol secType exchange optionKey narrowing =>
      by_cases hzero : c ≠ 0
      · have hsame := same_registerDescribed (m := m) upper c hzero symbol secType exchange
          optionKey narrowing
        exact Or.inl ((hsame.conId j).trans (conId_register h (hsame.length ▸ hroom) hlive))
      · obtain rfl : c = 0 := not_not.1 hzero
        exact Or.inl (describe_live upper (a := ⟨symbol, secType, exchange, optionKey, narrowing⟩) h
          hroom hlive).1
  | adoptConId id c =>
      simp only [step, MarketState.adoptConId]
      split
      · exact Or.inl rfl
      · next hzero =>
          split
          · exact Or.inl rfl
          · split
            · exact Or.inl rfl
            · obtain ⟨hlt, hlive⟩ := live_iff.1 hlive
              rcases eq_or_ne id j with rfl | hne
              · have hlen : id < m.instrumentToConId.length := by
                  rw [h.aligned.instrumentToConId]
                  exact lt_of_lt_of_le hlt h.count
                exact Or.inr ⟨c, fun hc => hzero (Or.inl hc), conId_eq_some.2
                  ⟨hlt, List.getElem?_set_self hlen, hcall⟩⟩
              · refine Or.inl ?_
                simp only [MarketState.conId, List.getElem?_set_ne hne]
  | unregister id =>
      have hne : id ≠ j := hagrees
      refine Or.inl ?_
      simp only [step, MarketState.unregister]
      split
      · rfl
      · simp only [MarketState.conId, clearServerTagsFor, List.getElem?_set_ne hne]
  | setRouting id secType exchange => exact Or.inl ((same_setRouting upper m id _ _).conId j)
  | setOrderIdentity id key =>
      exact Or.inl ((SameDirectory.ite (.refl m) (same_setOptionKey m id (some key))).conId j)
  | _ => exact Or.inl rfl

end MarketState

/-! ## What a slot goes on stating -/

section Settles

variable {Quote F : Type}

/-- Every identity, narrowing and routing that `s` states, `s'` states as well. -/
structure Settles (upper : String → String) (s s' : Slot Quote F) : Prop where
  optionKey : ∀ k, k ≠ "" → s.optionKey = some k → s'.optionKey = some k
  narrowing : ∀ n, s.narrowing = some n → s'.narrowing = some n
  secType : ∀ t, s.secType = some t → ∃ t', s'.secType = some t' ∧ upper t' = upper t
  exchange : ∀ e, s.exchange = some e → ∃ e', s'.exchange = some e' ∧ upper e' = upper e

variable {upper : String → String} {s s' s'' : Slot Quote F}

lemma Settles.of_eq (hkey : s'.optionKey = s.optionKey) (hnarrowing : s'.narrowing = s.narrowing)
    (htype : s'.secType = s.secType) (hexchange : s'.exchange = s.exchange) :
    Settles upper s s' where
  optionKey _ _ h := hkey.trans h
  narrowing _ h := hnarrowing.trans h
  secType t h := ⟨t, htype.trans h, rfl⟩
  exchange e h := ⟨e, hexchange.trans h, rfl⟩

lemma Settles.refl (s : Slot Quote F) : Settles upper s s := .of_eq rfl rfl rfl rfl

lemma Settles.trans (h : Settles upper s s') (h' : Settles upper s' s'') : Settles upper s s'' where
  optionKey k hk hs := h'.optionKey k hk (h.optionKey k hk hs)
  narrowing n hs := h'.narrowing n (h.narrowing n hs)
  secType t hs := by
    obtain ⟨t', ht', heq⟩ := h.secType t hs
    obtain ⟨t'', ht'', heq'⟩ := h'.secType t' ht'
    exact ⟨t'', ht'', heq'.trans heq⟩
  exchange e hs := by
    obtain ⟨e', he', heq⟩ := h.exchange e hs
    obtain ⟨e'', he'', heq'⟩ := h'.exchange e' he'
    exact ⟨e'', he'', heq'.trans heq⟩

lemma upper_eq_of_blankOrEq (hupper : UpperCases upper) {r t : String} (ht : t ≠ "")
    (h : blankOrEq (some r) t) : upper r = upper t := by
  rw [blankOrEq, Bool.or_eq_true, decide_eq_true_iff] at h
  exact hupper.eqIgnore r t (h.resolve_left ht)

lemma upper_written (hupper : UpperCases upper) {o : Option String} {t : String}
    (h : blankOrEq o t) : ∀ r, o = some r →
      ∃ r', (if t = "" then o else some (upper t)) = some r' ∧ upper r' = upper r := by
  rintro r rfl
  rcases eq_or_ne t "" with rfl | ht
  · exact ⟨r, if_pos rfl, rfl⟩
  · exact ⟨upper t, if_neg ht, (hupper.idem t).trans (upper_eq_of_blankOrEq hupper ht h).symm⟩

lemma settles_route (hupper : UpperCases upper) {secType exchange : String}
    (ht : blankOrEq s.secType secType) (he : blankOrEq s.exchange exchange) :
    Settles upper s (s.route upper secType exchange) where
  optionKey _ _ h := h
  narrowing _ h := h
  secType := upper_written hupper ht
  exchange := upper_written hupper he

lemma fix_some (held text : String) : Slot.fix (some held) text = some held :=
  if_neg fun h => Option.some_ne_none held h.2

lemma settles_fix (s : Slot Quote F) (optionKey narrowing : String) :
    Settles upper s { s with
      optionKey := Slot.fix s.optionKey optionKey
      narrowing := Slot.fix s.narrowing narrowing } where
  optionKey k _ h := by rw [h, fix_some]
  narrowing n h := by rw [h, fix_some]
  secType t h := ⟨t, h, rfl⟩
  exchange e h := ⟨e, h, rfl⟩

end Settles

namespace MarketState

variable {Quote F : Type} [Inhabited Quote] [Zero F] {m : MarketState Quote F} {j : InstrumentId}
  {upper : String → String} (scaled : F → ℤ)

omit [Inhabited Quote] [Zero F] in
lemma lt_length_of_live (h : m.Sound) (hlive : m.Live j) : j < m.quotes.length :=
  lt_of_lt_of_le (live_iff.1 hlive).1 h.count

lemma settles_step (hupper : UpperCases upper) (h : m.Sound) {call : TableCall Quote F}
    (hcall : call.Promised m) (hroom : (m.step upper scaled call).quotes.length < u32Bound)
    (hlive : m.Live j) (hagrees : call.Agrees j m)
    (hunnamed : (m.step upper scaled call).conId j = some 0) :
    m.conId j = some 0 ∧ Settles upper (m.slot j) ((m.step upper scaled call).slot j) := by
  refine ⟨?_, ?_⟩
  · rcases conId_step upper scaled h hcall hroom hlive hagrees with heq | ⟨c, hc, heq⟩
    · exact heq.symm.trans hunnamed
    · exact absurd (Option.some.inj (heq.symm.trans hunnamed)) hc
  · rw [slot_step upper scaled h hcall hroom (lt_length_of_live h hlive)]
    cases call with
    | registerDescribed c symbol secType exchange optionKey narrowing =>
        rw [TableCall.writes]
        split
        case isFalse => exact .refl _
        case isTrue hanswer =>
          rcases eq_or_ne c 0 with rfl | hzero
          · have hfind := (describe_live upper
              (a := ⟨symbol, secType, exchange, optionKey, narrowing⟩) h hroom hlive).2 hanswer
            simp only [describes, ne_eq, not_true_eq_false, if_false, hfind, Option.isSome_some,
              if_true]
            exact settles_fix _ _ _
          · -- the slot would have the contract's id
            have hsame := same_registerDescribed (m := m) upper c hzero symbol secType exchange
              optionKey narrowing
            have hself := conId_register_self h hcall hzero (hsame.length ▸ hroom)
            have hregistered : (m.register c).1 = j := by
              rw [← hanswer, registerDescribed, if_pos hzero]
            rw [hregistered] at hself
            have hnamed := (hsame.conId j).trans hself
            exact absurd (Option.some.inj (hnamed.symm.trans hunnamed)) hzero
    | unregister id =>
        rw [TableCall.writes, if_neg fun hid => hagrees hid.1]
        exact .refl _
    | setRouting id secType exchange =>
        rw [TableCall.writes]
        split
        case isFalse => exact .refl _
        case isTrue hid => exact settles_route hupper (hagrees hid).1 (hagrees hid).2
    | setOrderIdentity id key =>
        rw [TableCall.writes]
        split
        case isFalse => exact .refl _
        case isTrue hid =>
          refine ⟨fun k hk hs => ?_, fun n hs => hs, fun t hs => ⟨t, hs, rfl⟩,
            fun e hs => ⟨e, hs, rfl⟩⟩
          have hkey := (hagrees hid.1).resolve_left hid.2
          rw [hs, unstatedOrEq, Option.all_some, Bool.or_eq_true, decide_eq_true_iff,
            decide_eq_true_iff] at hkey
          exact congrArg some (hkey.resolve_left hk).symm
    | setSymbol id symbol => rw [TableCall.writes]; split <;> exact .of_eq rfl rfl rfl rfl
    | setMinTick id minTick => rw [TableCall.writes]; split <;> exact .of_eq rfl rfl rfl rfl
    | setSizeTick id sizeTick => rw [TableCall.writes]; split <;> exact .of_eq rfl rfl rfl rfl
    | setQuoteAndClock id quote clock =>
        rw [TableCall.writes]; split <;> exact .of_eq rfl rfl rfl rfl
    | _ => exact .refl _

lemma settles_run (hupper : UpperCases upper) (calls : List (TableCall Quote F)) :
    ∀ {m : MarketState Quote F}, m.Sound → m.Promised upper scaled calls →
      (m.run upper scaled calls).quotes.length < u32Bound → m.Live j →
      Runs.Along (step upper scaled) (fun m call => call.Agrees j m) m calls →
      (m.run upper scaled calls).Live j ∧
        ((m.run upper scaled calls).conId j = some 0 → m.conId j = some 0 ∧
          Settles upper (m.slot j) ((m.run upper scaled calls).slot j)) := by
  induction calls with
  | nil => exact fun _ _ _ hlive _ => ⟨hlive, fun hunnamed => ⟨hunnamed, .refl _⟩⟩
  | cons call calls ih =>
      intro m h hpromised hroom hlive hagrees
      have hnow := lt_of_le_of_lt (length_le_run upper scaled calls _) hroom
      have hkept : (m.step upper scaled call).Live j := by
        rcases conId_step upper scaled h hpromised.1 hnow hlive hagrees.1 with heq | ⟨c, -, heq⟩
        · exact (congrArg Option.isSome heq).trans hlive
        · exact congrArg Option.isSome heq
      obtain ⟨hlast, hsettles⟩ := ih (h.step upper scaled hpromised.1 hnow) hpromised.2 hroom hkept
        hagrees.2
      refine ⟨hlast, fun hunnamed => ?_⟩
      obtain ⟨hmid, hrest⟩ := hsettles hunnamed
      obtain ⟨hfirst, hone⟩ := settles_step scaled hupper h hpromised.1 hnow hlive hagrees.1 hmid
      exact ⟨hfirst, hone.trans hrest⟩

/-! ## Two descriptions -/

structure Found (m : MarketState Quote F) (j : InstrumentId) (a : DescribedContract) : Prop where
  unnamed : m.conId j = some 0
  secType : blankOrEq (m.slot j).secType a.secType
  exchange : blankOrEq (m.slot j).exchange a.exchange
  optionKey : unstatedOrEq (m.slot j).optionKey a.optionKey
  narrowing : unstatedOrEq (m.slot j).narrowing a.narrowing

variable {a : DescribedContract}

lemma found_of_find
    (h : m.instrumentByDescriptor a.symbol a.secType a.exchange a.optionKey a.narrowing = some j) :
    m.Found j a := by
  have hlt := List.mem_range.1 (List.mem_of_find?_eq_some h)
  have hmatch := List.find?_some h
  simp only [Bool.and_eq_true, decide_eq_true_iff] at hmatch
  obtain ⟨⟨⟨⟨⟨hid, -⟩, htype⟩, hexchange⟩, hkey⟩, hnarrowing⟩ := hmatch
  exact ⟨conId_eq_some.2 ⟨hlt, hid, by decide⟩, htype, hexchange, hkey, hnarrowing⟩

structure Describes (upper : String → String) (a : DescribedContract) (s : Slot Quote F) :
    Prop where
  optionKey : a.optionKey ≠ "" → s.optionKey = some a.optionKey
  narrowing : a.narrowing ≠ "" → s.narrowing = some a.narrowing
  secType : a.secType ≠ "" → ∀ t, s.secType = some t → upper t = upper a.secType
  exchange : a.exchange ≠ "" → ∀ e, s.exchange = some e → upper e = upper a.exchange

/-- No slot has a blank identity or a blank narrowing on record. -/
structure Unblank (m : MarketState Quote F) : Prop where
  optionKeys : some "" ∉ m.optionKeys
  narrowings : some "" ∉ m.narrowings

lemma getD_ne {α : Type} {l : List (Option α)} {x : α} (h : some x ∉ l) (j : ℕ) :
    l.getD j none ≠ some x := by
  intro heq
  rw [List.getD_eq_getElem?_getD] at heq
  cases hget : l[j]? with
  | none => exact Option.some_ne_none x (heq.symm.trans (by rw [hget, Option.getD_none]))
  | some o =>
      rw [hget, Option.getD_some] at heq
      exact h (heq ▸ List.mem_of_getElem? hget)

lemma stated_ne_blank (t : String) : stated t ≠ some "" := by
  rw [stated]
  split
  · exact (Option.some_ne_none "").symm
  · next h => exact fun heq => h (Option.some.inj heq)

lemma not_mem_set {α : Type} {l : List α} {x y : α} (h : x ∉ l) (hne : y ≠ x) (i : ℕ) :
    x ∉ l.set i y := fun hmem => (List.mem_or_eq_of_mem_set hmem).elim h fun heq => hne heq.symm

lemma Unblank.allocSlot (h : m.Unblank) : m.allocSlot.2.Unblank := by
  simp only [MarketState.allocSlot]
  split
  · exact ⟨h.1, h.2⟩
  · split
    · exact ⟨by simpa [grow] using h.1, by simpa [grow] using h.2⟩
    · exact ⟨h.1, h.2⟩

lemma Unblank.register (h : m.Unblank) (c : ConId) : (m.register c).2.Unblank := by
  simp only [MarketState.register]
  split
  · exact h
  · exact ⟨h.allocSlot.1, h.allocSlot.2⟩

omit [Inhabited Quote] [Zero F] in
lemma Unblank.setRouting (h : m.Unblank) (id : InstrumentId) (secType exchange : String) :
    (m.setRouting upper id secType exchange).Unblank := by
  simp only [MarketState.setRouting]
  split <;> split <;> exact ⟨h.1, h.2⟩

omit [Inhabited Quote] [Zero F] in
lemma Unblank.fixSymbol (h : m.Unblank) (id : InstrumentId) (symbol : String) :
    (m.fixSymbol id symbol).Unblank := by
  rw [MarketState.fixSymbol]
  split <;> exact ⟨h.1, h.2⟩

omit [Inhabited Quote] [Zero F] in
lemma Unblank.fixOptionKey (h : m.Unblank) (id : InstrumentId) (key : String) :
    (m.fixOptionKey id key).Unblank := by
  rw [MarketState.fixOptionKey]
  split
  case isTrue hkey => exact ⟨not_mem_set h.1 (fun heq => hkey.1 (Option.some.inj heq)) id, h.2⟩
  case isFalse => exact h

omit [Inhabited Quote] [Zero F] in
lemma Unblank.fixNarrowing (h : m.Unblank) (id : InstrumentId) (narrowing : String) :
    (m.fixNarrowing id narrowing).Unblank := by
  rw [MarketState.fixNarrowing]
  split
  case isTrue hset => exact ⟨h.1, not_mem_set h.2 (fun heq => hset.1 (Option.some.inj heq)) id⟩
  case isFalse => exact h

lemma Unblank.step (h : m.Unblank) (call : TableCall Quote F) :
    (m.step upper scaled call).Unblank := by
  cases call with
  | register c => exact h.register c
  | registerDescribed c symbol secType exchange optionKey narrowing =>
      simp only [MarketState.step, registerDescribed]
      split
      · exact (((h.register c).fixSymbol _ symbol).setRouting _ secType exchange).fixOptionKey _
          optionKey
      · split
        · exact (h.fixOptionKey _ optionKey).fixNarrowing _ narrowing
        · have hstated : some "" ∉ m.allocSlot.2.optionKeys.set m.allocSlot.1 (stated optionKey) ∧
              some "" ∉ m.allocSlot.2.narrowings.set m.allocSlot.1 (stated narrowing) :=
            ⟨not_mem_set h.allocSlot.1 (stated_ne_blank _) _,
              not_mem_set h.allocSlot.2 (stated_ne_blank _) _⟩
          refine Unblank.setRouting ?_ _ secType exchange
          split <;> exact ⟨hstated.1, hstated.2⟩
  | adoptConId id c =>
      simp only [MarketState.step, adoptConId]
      split
      · exact h
      · split
        · exact h
        · split <;> exact ⟨h.1, h.2⟩
  | unregister id =>
      simp only [MarketState.step, unregister]
      split
      · exact h
      · exact ⟨not_mem_set h.1 (Option.some_ne_none "").symm id,
          not_mem_set h.2 (Option.some_ne_none "").symm id⟩
  | setRouting id secType exchange => exact h.setRouting id secType exchange
  | setOrderIdentity id key =>
      simp only [MarketState.step, setOrderIdentity]
      split
      · exact h
      · next hkey => exact ⟨not_mem_set h.1 (fun heq => hkey (Option.some.inj heq)) id, h.2⟩
  | _ => exact ⟨h.1, h.2⟩

lemma Unblank.run (calls : List (TableCall Quote F)) :
    ∀ {m : MarketState Quote F}, m.Unblank → (m.run upper scaled calls).Unblank := by
  induction calls with
  | nil => exact fun h => h
  | cons call calls ih => exact fun h => ih (h.step scaled call)

lemma unblank_new : (new : MarketState Quote F).Unblank :=
  ⟨fun h => Option.some_ne_none _ (List.eq_of_mem_replicate h),
    fun h => Option.some_ne_none _ (List.eq_of_mem_replicate h)⟩

lemma fix_eq {held : Option String} {t : String} (ht : t ≠ "") (hblank : held ≠ some "")
    (h : unstatedOrEq held t) : Slot.fix held t = some t := by
  cases held with
  | none => exact if_pos ⟨ht, rfl⟩
  | some k =>
      rw [unstatedOrEq, Option.all_some, Bool.or_eq_true, decide_eq_true_iff,
        decide_eq_true_iff] at h
      rw [fix_some, h.resolve_left fun hk => hblank (congrArg some hk)]

lemma describes_answer (hupper : UpperCases upper) (h : m.Sound) (hblank : m.Unblank)
    (hroom : (m.describe upper a).2.quotes.length < u32Bound)
    (ha : (m.describe upper a).1 = j) :
    (m.describe upper a).2.Live j ∧ Describes upper a ((m.describe upper a).2.slot j) := by
  cases hfind : m.instrumentByDescriptor a.symbol a.secType a.exchange a.optionKey a.narrowing with
  | some id =>
      have hanswer : (m.describe upper a).1 = id := by
        simp only [describe, registerDescribed, ne_eq, not_true_eq_false, if_false, hfind]
      obtain rfl := hanswer.symm.trans ha
      have hfound := found_of_find hfind
      have hlive : m.Live id := congrArg Option.isSome hfound.unnamed
      have hslot : (m.describe upper a).2.slot id = m.describes upper 0 a.symbol a.secType
          a.exchange a.optionKey a.narrowing (m.slot id) :=
        (slot_registerDescribed upper h (by decide) hroom (lt_length_of_live h hlive)).trans
          (if_pos ha)
      refine ⟨(congrArg Option.isSome (describe_live upper h hroom hlive).1).trans hlive, ?_⟩
      rw [hslot]
      simp only [describes, ne_eq, not_true_eq_false, if_false, hfind, Option.isSome_some, if_true]
      exact ⟨fun hk => fix_eq hk (getD_ne hblank.1 id) hfound.optionKey,
        fun hn => fix_eq hn (getD_ne hblank.2 id) hfound.narrowing,
        fun ht t hs => upper_eq_of_blankOrEq hupper ht (hs ▸ hfound.secType),
        fun he e hs => upper_eq_of_blankOrEq hupper he (hs ▸ hfound.exchange)⟩
  | none =>
      simp only [describe, registerDescribed, ne_eq, not_true_eq_false, if_false, hfind]
        at hroom ha ⊢
      have hsame := same_describe upper { m.allocSlot.2 with
        instrumentToConId := m.allocSlot.2.instrumentToConId.set m.allocSlot.1 0 } m.allocSlot.1
        a.symbol a.secType a.exchange a.optionKey a.narrowing
      have halloc := h.allocSlot (hsame.length ▸ hroom)
      have htaken := h.takeUnnamed (hsame.length ▸ hroom)
      have hlt := (halloc.active m.allocSlot.1).2 (Or.inr rfl)
      have hlen := lt_of_lt_of_le hlt halloc.count
      have hslot := slot_describe upper htaken.aligned hlen m.allocSlot.1 a.symbol a.secType
        a.exchange a.optionKey a.narrowing
      rw [if_pos rfl] at hslot
      obtain rfl := ha
      refine ⟨?_, ?_⟩
      · rw [hsame.live, live_iff]
        exact ⟨hlt, 0, List.getElem?_set_self (halloc.aligned.instrumentToConId ▸ hlen), by decide⟩
      · rw [hslot]
        exact ⟨fun hk => if_neg hk, fun hn => if_neg hn,
          fun ht t hs => by
            rw [← Option.some.inj ((if_neg ht).symm.trans hs)]
            exact hupper.idem a.secType,
          fun he e hs => by
            rw [← Option.some.inj ((if_neg he).symm.trans hs)]
            exact hupper.idem a.exchange⟩

/-- The slot has a routing on record for what a description stated: it had one behind the
registration, or its caller records it next. -/
def Recorded (j : InstrumentId) (a : DescribedContract) (between : List (TableCall Quote F))
    (held : Option String) : Prop :=
  held ≠ none ∨ between.head? = some (.setRouting j a.secType a.exchange)

lemma recorded_run (hupper : UpperCases upper) (h : m.Sound)
    (hlive : m.Live j) (hdescribes : Describes upper a (m.slot j))
    {between : List (TableCall Quote F)} (hpromised : m.Promised upper scaled between)
    (hroom : (m.run upper scaled between).quotes.length < u32Bound)
    (hagrees : Runs.Along (step upper scaled) (TableCall.Agrees j) m between)
    (hunnamed : (m.run upper scaled between).conId j = some 0) :
    (a.secType ≠ "" → Recorded j a between (m.slot j).secType →
        ∃ t, ((m.run upper scaled between).slot j).secType = some t ∧ upper t = upper a.secType) ∧
      (a.exchange ≠ "" → Recorded j a between (m.slot j).exchange →
        ∃ e, ((m.run upper scaled between).slot j).exchange = some e ∧
          upper e = upper a.exchange) := by
  have hsettles :=
    ((settles_run scaled hupper between h hpromised hroom hlive hagrees).2 hunnamed).2
  -- the caller's own routing, where it comes next
  have hown (hhead : between.head? = some (.setRouting j a.secType a.exchange)) :
      Settles upper ((m.slot j).route upper a.secType a.exchange)
        ((m.run upper scaled between).slot j) := by
    obtain ⟨rest, rfl⟩ := List.head?_eq_some_iff.1 hhead
    have hnow := lt_of_le_of_lt (length_le_run upper scaled rest _) hroom
    have hslot : (m.step upper scaled (.setRouting j a.secType a.exchange)).slot j
        = (m.slot j).route upper a.secType a.exchange :=
      (slot_step upper scaled h hpromised.1 hnow (lt_length_of_live h hlive)).trans (if_pos rfl)
    have hlive' : (m.step upper scaled (.setRouting j a.secType a.exchange)).Live j :=
      ((same_setRouting upper m j a.secType a.exchange).live j).2 hlive
    have hrest := ((settles_run scaled hupper rest (h.step upper scaled hpromised.1 hnow)
      hpromised.2 hroom hlive' hagrees.2).2 hunnamed).2
    rwa [hslot] at hrest
  refine ⟨fun ht hrecorded => ?_, fun he hrecorded => ?_⟩
  · rcases hrecorded with hheld | hhead
    · obtain ⟨t, hs⟩ := Option.ne_none_iff_exists'.1 hheld
      obtain ⟨t', hs', heq⟩ := hsettles.secType t hs
      exact ⟨t', hs', heq.trans (hdescribes.secType ht t hs)⟩
    · obtain ⟨t', hs', heq⟩ := (hown hhead).secType (upper a.secType) (if_neg ht)
      exact ⟨t', hs', heq.trans (hupper.idem _)⟩
  · rcases hrecorded with hheld | hhead
    · obtain ⟨e, hs⟩ := Option.ne_none_iff_exists'.1 hheld
      obtain ⟨e', hs', heq⟩ := hsettles.exchange e hs
      exact ⟨e', hs', heq.trans (hdescribes.exchange he e hs)⟩
    · obtain ⟨e', hs', heq⟩ := (hown hhead).exchange (upper a.exchange) (if_neg he)
      exact ⟨e', hs', heq.trans (hupper.idem _)⟩

lemma run_append (calls calls' : List (TableCall Quote F)) (m : MarketState Quote F) :
    m.run upper scaled (calls ++ calls') = (m.run upper scaled calls).run upper scaled calls' :=
  List.foldl_append

lemma eq_of_unstatedOrEq {t u : String} (ht : t ≠ "") (h : unstatedOrEq (some t) u) : t = u := by
  rw [unstatedOrEq, Option.all_some, Bool.or_eq_true, decide_eq_true_iff, decide_eq_true_iff] at h
  exact h.resolve_left ht

end MarketState

open MarketState in
/-- **Descriptions that conflict are kept apart.**  Two descriptions answered with one slot, which
stays taken in between and is not restated as something else, state the same identity and the same
narrowing where both state one; and, where the first one's routing is on record for the slot, the
same type and the same exchange but for case. -/
theorem conflicting_descriptions_apart {Quote F : Type} [Inhabited Quote] [Zero F]
    {upper : String → String} (hupper : UpperCases upper) (scaled : F → ℤ)
    (before between : List (TableCall Quote F)) (a b : DescribedContract) (j : InstrumentId)
    (hpromised : new.Promised upper scaled (before ++ a.call :: between))
    (hroom : (new.run upper scaled (before ++ a.call :: (between ++ [b.call]))).quotes.length
      < u32Bound)
    (hagrees : Runs.Along (step upper scaled) (TableCall.Agrees j)
      (new.run upper scaled (before ++ [a.call])) between)
    (ha : ((new.run upper scaled before).describe upper a).1 = j)
    (hb : ((new.run upper scaled (before ++ a.call :: between)).describe upper b).1 = j) :
    (a.optionKey ≠ "" → b.optionKey ≠ "" → a.optionKey = b.optionKey) ∧
      (a.narrowing ≠ "" → b.narrowing ≠ "" → a.narrowing = b.narrowing) ∧
      (Recorded j a between ((new.run upper scaled (before ++ [a.call])).slot j).secType →
        a.secType ≠ "" → b.secType ≠ "" → upper a.secType = upper b.secType) ∧
      (Recorded j a between ((new.run upper scaled (before ++ [a.call])).slot j).exchange →
        a.exchange ≠ "" → b.exchange ≠ "" → upper a.exchange = upper b.exchange) := by
  obtain ⟨hbefore, ha', hbetween⟩ := promised_append upper scaled hpromised
  have hsplit (calls : List (TableCall Quote F)) : new.run upper scaled (before ++ a.call :: calls)
      = ((new.run upper scaled before).describe upper a).2.run upper scaled calls :=
    run_append scaled before (a.call :: calls) new
  have hone : new.run upper scaled (before ++ [a.call])
      = ((new.run upper scaled before).describe upper a).2 := hsplit []
  have hnext : (new.run upper scaled before).step upper scaled a.call
      = ((new.run upper scaled before).describe upper a).2 := rfl
  rw [hsplit, run_append] at hroom
  rw [hsplit] at hb
  rw [hone] at hagrees ⊢
  rw [hnext] at hbetween
  generalize hm : (new : MarketState Quote F).run upper scaled before = m at *
  have hroom₂ := lt_of_le_of_lt (length_le_run upper scaled [b.call] _) hroom
  have hroom₁ := lt_of_le_of_lt (length_le_run upper scaled between _) hroom₂
  have hroom₀ := lt_of_le_of_lt (length_le_step upper scaled m a.call) hroom₁
  have hsound : m.Sound := hm ▸ sound_new.run upper scaled before hbefore (hm ▸ hroom₀)
  have hblank : m.Unblank := hm ▸ unblank_new.run scaled before
  obtain ⟨hlive, hdescribes⟩ := describes_answer hupper hsound hblank hroom₁ ha
  have hsound₁ : (m.describe upper a).2.Sound := hsound.step upper scaled ha' hroom₁
  have hsound₂ := hsound₁.run upper scaled between hbetween hroom₂
  have hlive₂ := (settles_run scaled hupper between hsound₁ hbetween hroom₂ hlive hagrees).1
  have hfound := found_of_find ((describe_live upper hsound₂ hroom hlive₂).2 hb)
  have hsettles := ((settles_run scaled hupper between hsound₁ hbetween hroom₂ hlive hagrees).2
    hfound.unnamed).2
  obtain ⟨htyped, hrouted⟩ := recorded_run scaled hupper hsound₁ hlive hdescribes hbetween hroom₂
    hagrees hfound.unnamed
  refine ⟨fun hk _ => ?_, fun hn _ => ?_, fun hrecorded ht ht' => ?_, fun hrecorded he he' => ?_⟩
  · have hkey := hfound.optionKey
    rw [hsettles.optionKey _ hk (hdescribes.optionKey hk)] at hkey
    exact eq_of_unstatedOrEq hk hkey
  · have hnarrowing := hfound.narrowing
    rw [hsettles.narrowing _ (hdescribes.narrowing hn)] at hnarrowing
    exact eq_of_unstatedOrEq hn hnarrowing
  · obtain ⟨t, hs, heq⟩ := htyped ht hrecorded
    exact heq.symm.trans (upper_eq_of_blankOrEq hupper ht' (hs ▸ hfound.secType))
  · obtain ⟨e, hs, heq⟩ := hrouted he hrecorded
    exact heq.symm.trans (upper_eq_of_blankOrEq hupper he' (hs ▸ hfound.exchange))

def asciiUpper (s : String) : String := s.map Char.toUpper

lemma toUpper_toLower (c : Char) : c.toLower.toUpper = c.toUpper := by
  refine Char.ext ?_
  delta Char.toUpper Char.toLower
  split <;> split <;> grind [UInt32.toNat_add, UInt32.le_iff_toNat_le]

lemma toUpper_toUpper (c : Char) : c.toUpper.toUpper = c.toUpper := by
  refine Char.ext ?_
  delta Char.toUpper
  split
  · rw [dif_neg]
    grind [UInt32.toNat_add, UInt32.le_iff_toNat_le]
  · rfl

lemma upperCases_asciiUpper : UpperCases asciiUpper where
  eqIgnore s t h := by
    have hlower (u : String) : asciiUpper (u.map Char.toLower) = asciiUpper u := by
      rw [asciiUpper, asciiUpper, String.map_map]
      exact congrArg (String.map · u) (funext toUpper_toLower)
    rw [← hlower s, ← hlower t, of_decide_eq_true h]
  idem s := by
    rw [asciiUpper, asciiUpper, String.map_map]
    exact congrArg (String.map · s) (funext toUpper_toUpper)

open MarketState in
/-- A stock and the option on it, the stock's routing recorded by its caller. -/
theorem conflicting_descriptions_apart_two :
    ((new.run asciiUpper id [.registerDescribed 0 "AAPL" "" "" "" "",
          .registerDescribed 0 "AAPL" "stk" "" "" "", .setRouting 0 "stk" ""]
        : MarketState ℕ ℤ).describe asciiUpper ⟨"AAPL", "OPT", "", "", ""⟩).1 ≠ 0 := by
  intro hb
  have hzero : (0 : ConId) ≠ freeSlot := by decide
  have hapart := conflicting_descriptions_apart upperCases_asciiUpper (id : ℤ → ℤ)
    [(.registerDescribed 0 "AAPL" "" "" "" "" : TableCall ℕ ℤ)] [.setRouting 0 "stk" ""]
    ⟨"AAPL", "stk", "", "", ""⟩ ⟨"AAPL", "OPT", "", "", ""⟩ 0
    ⟨hzero, hzero, trivial, trivial⟩ (by decide +kernel)
    ⟨fun _ => ⟨by decide +kernel, by decide +kernel⟩, trivial⟩ (by decide +kernel) hb
  exact absurd (hapart.2.2.1 (Or.inr rfl) (by decide) (by decide)) (by decide +kernel)

open MarketState in
/-- **A type that is not on record.**  A slot taken by a description that leaves the type blank
answers a stock, and behind it an option; and a slot that is restated answers what it was restated
as. -/
theorem not_conflicting_descriptions_apart :
    (¬ ∀ (before between : List (TableCall ℕ ℤ)) (a b : DescribedContract) (j : InstrumentId),
      new.Promised asciiUpper id (before ++ a.call :: between) → .unregister j ∉ between →
      ((new.run asciiUpper id before).describe asciiUpper a).1 = j →
      ((new.run asciiUpper id (before ++ a.call :: between)).describe asciiUpper b).1 = j →
      a.symbol = b.symbol → a.secType ≠ "" → b.secType ≠ "" →
        asciiUpper a.secType = asciiUpper b.secType) ∧
      ((new.run asciiUpper id [.registerDescribed 0 "AAPL" "STK" "" "" "", .setRouting 0 "OPT" ""]
        : MarketState ℕ ℤ).describe asciiUpper ⟨"AAPL", "OPT", "", "", ""⟩).1 = 0 := by
  refine ⟨fun h => ?_, by decide +kernel⟩
  have hzero : (0 : ConId) ≠ freeSlot := by decide
  exact absurd (h [.registerDescribed 0 "AAPL" "" "" "" ""] [] ⟨"AAPL", "STK", "", "", ""⟩
    ⟨"AAPL", "OPT", "", "", ""⟩ 0 ⟨hzero, hzero, trivial⟩ List.not_mem_nil (by decide +kernel)
    (by decide +kernel) rfl (by decide) (by decide)) (by decide +kernel)

end IbkrDx
