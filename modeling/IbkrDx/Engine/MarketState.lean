import IbkrDx.Engine.Quantities
import IbkrDx.Protocol.Fix

/-!
# The slot table

The table of contracts in `engine/market_state.rs`: parallel tables indexed by slot, a map from
contract id to slot and back, a map from server tag to slot, and the list of slots given back.

* `MarketState` — the tables and the maps.
* `register`, `adoptConId`, `registerDescribed`, `unregister` — how slots are taken and given back.
* `TableCall`, `MarketState.step`, `MarketState.run` — any sequence of calls.

Quotes and floating-point increments are parameters, and so are the scaled form of an increment and
Unicode upper-casing.  A write past the tables panics in the source before it changes anything; the
model leaves the tables as they are.  The count of slots is a `u32`, and wraps as one.
-/

namespace IbkrDx

/-- A contract id: an `i64`. -/
abbrev ConId := ℤ

/-- Sentinel marking a freed slot: `i64::MIN`. -/
def freeSlot : ConId := -2 ^ 63

def maxInstruments : ℕ := 4096

/-- The trade time last stated as a base, and how far past it the last offset stood. -/
structure TradeClock where
  baseSecs : ℕ := 0
  offsetSecs : ℕ := 0
  deriving DecidableEq

structure MarketState (Quote F : Type) where
  quotes : List Quote
  clocks : List TradeClock
  /-- High-water mark: slots ever allocated. -/
  activeCount : ℕ
  freeIds : List InstrumentId
  conIdToInstrument : ConId → Option InstrumentId
  instrumentToConId : List ConId
  serverTagToInstrument : ℕ → Option InstrumentId
  minTicks : List F
  minTickScaled : List ℤ
  sizeTicks : List F
  symbols : List (Option String)
  secTypes : List (Option String)
  exchanges : List (Option String)
  optionKeys : List (Option String)
  narrowings : List (Option String)

def eqIgnoreAsciiCase (s t : String) : Bool := s.map Char.toLower = t.map Char.toLower

/-- A field the caller left blank, or one the slot has never had set, does not distinguish two
contracts. -/
def blankOrEq (stored : Option String) (incoming : String) : Bool :=
  incoming = "" || stored.all fun s => eqIgnoreAsciiCase s incoming

/-- A slot that states nothing here matches anything, and one that states something only that. -/
def unstatedOrEq (stored : Option String) (incoming : String) : Bool :=
  stored.all fun s => s = "" || s = incoming

def stated (s : String) : Option String := if s = "" then none else some s

namespace MarketState

variable {Quote F : Type} [Inhabited Quote] [Zero F]

def new : MarketState Quote F where
  quotes := List.replicate maxInstruments default
  clocks := List.replicate maxInstruments {}
  activeCount := 0
  freeIds := []
  conIdToInstrument := fun _ => none
  instrumentToConId := List.replicate maxInstruments 0
  serverTagToInstrument := fun _ => none
  minTicks := List.replicate maxInstruments 0
  minTickScaled := List.replicate maxInstruments 0
  sizeTicks := List.replicate maxInstruments 0
  symbols := List.replicate maxInstruments none
  secTypes := List.replicate maxInstruments none
  exchanges := List.replicate maxInstruments none
  optionKeys := List.replicate maxInstruments none
  narrowings := List.replicate maxInstruments none

/-! ## What a slot holds -/

def setSymbol (m : MarketState Quote F) (id : InstrumentId) (symbol : String) :
    MarketState Quote F := { m with symbols := m.symbols.set id (some symbol) }

/-- Record the security type and the exchange of a slot, where they are stated. -/
def setRouting (upper : String → String) (m : MarketState Quote F) (id : InstrumentId)
    (secType exchange : String) : MarketState Quote F :=
  let m := if secType = "" then m
    else { m with secTypes := m.secTypes.set id (some (upper secType)) }
  if exchange = "" then m else { m with exchanges := m.exchanges.set id (some (upper exchange)) }

def setOrderIdentity (m : MarketState Quote F) (id : InstrumentId) (key : String) :
    MarketState Quote F :=
  if key = "" then m else { m with optionKeys := m.optionKeys.set id (some key) }

def setMinTick (scaled : F → ℤ) (m : MarketState Quote F) (id : InstrumentId) (minTick : F) :
    MarketState Quote F :=
  { m with
    minTicks := m.minTicks.set id minTick
    minTickScaled := m.minTickScaled.set id (scaled minTick) }

def setSizeTick (m : MarketState Quote F) (id : InstrumentId) (sizeTick : F) :
    MarketState Quote F := { m with sizeTicks := m.sizeTicks.set id sizeTick }

/-- What is written through `quote_and_clock_mut`. -/
def setQuoteAndClock (m : MarketState Quote F) (id : InstrumentId) (quote : Quote)
    (clock : TradeClock) : MarketState Quote F :=
  { m with quotes := m.quotes.set id quote, clocks := m.clocks.set id clock }

/-! ## Taking a slot and giving it back -/

def grow (m : MarketState Quote F) : MarketState Quote F :=
  { m with
    quotes := m.quotes ++ [default]
    clocks := m.clocks ++ [{}]
    instrumentToConId := m.instrumentToConId ++ [0]
    minTicks := m.minTicks ++ [0]
    minTickScaled := m.minTickScaled ++ [0]
    sizeTicks := m.sizeTicks ++ [0]
    symbols := m.symbols ++ [none]
    secTypes := m.secTypes ++ [none]
    exchanges := m.exchanges ++ [none]
    optionKeys := m.optionKeys ++ [none]
    narrowings := m.narrowings ++ [none] }

/-- Take a slot: a reclaimed one first, else the next unused one, the tables grown to hold it. -/
def allocSlot (m : MarketState Quote F) : InstrumentId × MarketState Quote F :=
  match m.freeIds with
  | id :: freeIds => (id, { m with freeIds := freeIds })
  | [] =>
      let id := m.activeCount
      let m := if id = m.quotes.length then m.grow else m
      (id, { m with activeCount := (m.activeCount + 1) % u32Bound })

def register (m : MarketState Quote F) (conId : ConId) : InstrumentId × MarketState Quote F :=
  match m.conIdToInstrument conId with
  | some id => (id, m)
  | none =>
      let (id, m) := m.allocSlot
      (id, { m with
        conIdToInstrument := Function.update m.conIdToInstrument conId (some id)
        instrumentToConId := m.instrumentToConId.set id conId })

/-- Give a slot the contract id a lookup found for it. -/
def adoptConId (m : MarketState Quote F) (id : InstrumentId) (conId : ConId) :
    Bool × MarketState Quote F :=
  if conId = 0 ∨ m.activeCount ≤ id then (false, m)
  else if m.instrumentToConId[id]? ≠ some 0 then (false, m)
  else if (m.conIdToInstrument conId).isSome then (false, m)
  else (true, { m with
    conIdToInstrument := Function.update m.conIdToInstrument conId (some id)
    instrumentToConId := m.instrumentToConId.set id conId })

/-- The live slot without a contract id that this description names, if there is one. -/
def instrumentByDescriptor (m : MarketState Quote F)
    (symbol secType exchange optionKey narrowing : String) : Option InstrumentId :=
  (List.range m.activeCount).find? fun i =>
    m.instrumentToConId[i]? = some 0
      && eqIgnoreAsciiCase ((m.symbols.getD i none).getD "") symbol
      && blankOrEq (m.secTypes.getD i none) secType
      && blankOrEq (m.exchanges.getD i none) exchange
      && unstatedOrEq (m.optionKeys.getD i none) optionKey
      && unstatedOrEq (m.narrowings.getD i none) narrowing

def fixSymbol (m : MarketState Quote F) (id : InstrumentId) (symbol : String) :
    MarketState Quote F :=
  if symbol ≠ "" ∧ m.symbols.getD id none = none then m.setSymbol id symbol else m

def fixOptionKey (m : MarketState Quote F) (id : InstrumentId) (key : String) :
    MarketState Quote F :=
  if key ≠ "" ∧ m.optionKeys.getD id none = none then
    { m with optionKeys := m.optionKeys.set id (some key) }
  else m

/-- What narrowed a description's lookup, where the slot states nothing. -/
def fixNarrowing (m : MarketState Quote F) (id : InstrumentId) (narrowing : String) :
    MarketState Quote F :=
  if narrowing ≠ "" ∧ m.narrowings.getD id none = none then
    { m with narrowings := m.narrowings.set id (some narrowing) }
  else m

/-- Register a contract a caller described, which may carry no contract id. -/
def registerDescribed (upper : String → String) (m : MarketState Quote F) (conId : ConId)
    (symbol secType exchange optionKey narrowing : String) :
    InstrumentId × MarketState Quote F :=
  if conId ≠ 0 then
    let (id, m) := m.register conId
    (id, ((m.fixSymbol id symbol).setRouting upper id secType exchange).fixOptionKey id optionKey)
  else
    match m.instrumentByDescriptor symbol secType exchange optionKey narrowing with
    | some id => (id, (m.fixOptionKey id optionKey).fixNarrowing id narrowing)
    | none =>
        let (id, m) := m.allocSlot
        let m := { m with
          instrumentToConId := m.instrumentToConId.set id 0
          optionKeys := m.optionKeys.set id (stated optionKey)
          narrowings := m.narrowings.set id (stated narrowing) }
        let m := if symbol = "" then m else m.setSymbol id symbol
        (id, m.setRouting upper id secType exchange)

def clearServerTagsFor (m : MarketState Quote F) (instrument : InstrumentId) :
    MarketState Quote F :=
  { m with
    serverTagToInstrument := fun tag => (m.serverTagToInstrument tag).filter (· ≠ instrument) }

/-- The contract of a slot; nothing for a slot never handed out and for a freed one. -/
def conId (m : MarketState Quote F) (instrument : InstrumentId) : Option ConId :=
  if instrument < m.activeCount then
    (m.instrumentToConId[instrument]?).filter (· ≠ freeSlot)
  else none

/-- Reclaim a slot: everything it holds is cleared, and the next registration takes it. -/
def unregister (m : MarketState Quote F) (instrument : InstrumentId) :
    Option ConId × MarketState Quote F :=
  match m.conId instrument with
  | none => (none, m)
  | some conId =>
      let m := { m with
        conIdToInstrument := Function.update m.conIdToInstrument conId none
        instrumentToConId := m.instrumentToConId.set instrument freeSlot
        quotes := m.quotes.set instrument default
        clocks := m.clocks.set instrument {}
        symbols := m.symbols.set instrument none
        secTypes := m.secTypes.set instrument none
        exchanges := m.exchanges.set instrument none
        minTicks := m.minTicks.set instrument 0
        minTickScaled := m.minTickScaled.set instrument 0
        sizeTicks := m.sizeTicks.set instrument 0
        optionKeys := m.optionKeys.set instrument none
        narrowings := m.narrowings.set instrument none }
      let m := m.clearServerTagsFor instrument
      (some conId, { m with freeIds := instrument :: m.freeIds })

/-! ## Server tags -/

def registerServerTag (m : MarketState Quote F) (tag : ℕ) (instrument : InstrumentId) :
    MarketState Quote F :=
  { m with
    serverTagToInstrument := Function.update m.serverTagToInstrument tag (some instrument) }

def forgetServerTag (m : MarketState Quote F) (tag : ℕ) : MarketState Quote F :=
  { m with serverTagToInstrument := Function.update m.serverTagToInstrument tag none }

def clearServerTags (m : MarketState Quote F) : MarketState Quote F :=
  { m with serverTagToInstrument := fun _ => none }

end MarketState

/-! ## Any calls -/

inductive TableCall (Quote F : Type) where
  | register (conId : ConId)
  | registerDescribed (conId : ConId) (symbol secType exchange optionKey narrowing : String)
  | adoptConId (id : InstrumentId) (conId : ConId)
  | unregister (id : InstrumentId)
  | registerServerTag (tag : ℕ) (id : InstrumentId)
  | forgetServerTag (tag : ℕ)
  | clearServerTags
  | clearServerTagsFor (id : InstrumentId)
  | setSymbol (id : InstrumentId) (symbol : String)
  | setRouting (id : InstrumentId) (secType exchange : String)
  | setOrderIdentity (id : InstrumentId) (key : String)
  | setMinTick (id : InstrumentId) (minTick : F)
  | setSizeTick (id : InstrumentId) (sizeTick : F)
  | setQuoteAndClock (id : InstrumentId) (quote : Quote) (clock : TradeClock)

namespace MarketState

variable {Quote F : Type} [Inhabited Quote] [Zero F] (upper : String → String) (scaled : F → ℤ)

def step (m : MarketState Quote F) : TableCall Quote F → MarketState Quote F
  | .register conId => (m.register conId).2
  | .registerDescribed conId symbol secType exchange optionKey narrowing =>
      (m.registerDescribed upper conId symbol secType exchange optionKey narrowing).2
  | .adoptConId id conId => (m.adoptConId id conId).2
  | .unregister id => (m.unregister id).2
  | .registerServerTag tag id => m.registerServerTag tag id
  | .forgetServerTag tag => m.forgetServerTag tag
  | .clearServerTags => m.clearServerTags
  | .clearServerTagsFor id => m.clearServerTagsFor id
  | .setSymbol id symbol => m.setSymbol id symbol
  | .setRouting id secType exchange => m.setRouting upper id secType exchange
  | .setOrderIdentity id key => m.setOrderIdentity id key
  | .setMinTick id minTick => m.setMinTick scaled id minTick
  | .setSizeTick id sizeTick => m.setSizeTick id sizeTick
  | .setQuoteAndClock id quote clock => m.setQuoteAndClock id quote clock

def run (m : MarketState Quote F) (calls : List (TableCall Quote F)) : MarketState Quote F :=
  calls.foldl (step upper scaled) m

end MarketState

end IbkrDx
