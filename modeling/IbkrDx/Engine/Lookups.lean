import Mathlib.Algebra.Order.Ring.Rat
import IbkrDx.Bridge.Records
import IbkrDx.Lib.Removal

/-!
# What the venue is asked of contracts

A caller asks for the details of a contract, and the rows of the answer reach it under its own
number, an end behind them.  A request that states no contract id is held while the venue is asked
which contract it names, under a number of the engine's own.

Times are milliseconds on one clock.  What tells one option from another, and what narrows a lookup
by description, goes through as it stands.
-/

namespace IbkrDx

/-! ## Contracts -/

section Contracts

variable (Terms Narrowing : Type)

structure ContractRef where
  conId : ℤ
  symbol : String
  secType : String
  exchange : String
  currency : String
  /-- The expiry, strike, right and multiplier. -/
  terms : Terms
  deriving DecidableEq

structure SecDefFilters where
  narrowing : Narrowing
  secId : String := ""
  secIdType : String := ""
  issuerId : String := ""
  deriving DecidableEq

structure Contract extends ContractRef Terms where
  lookupFilters : SecDefFilters Narrowing
  deriving DecidableEq

structure ContractDefinition where
  conId : ℕ
  symbol : String
  secType : String
  exchange : String
  currency : String
  terms : Terms
  narrowing : Narrowing
  multiplier : ℚ
  validExchanges : List String
  /-- What its trading sessions are asked for by. -/
  joinKey : String
  timeZoneId : Option String := none
  tradingHours : Option String := none
  liquidHours : Option String := none

inductive RequestKind where
  | subscribe (regulatorySnapshot : Bool)
  | historical
  | headTimestamp
  | historicalTicks
  | historicalSchedule
  | histogram
  | fundamental
  | realTimeBar
  | depth (isSmartDepth : Bool)
  | tickByTick
  deriving DecidableEq

structure Request where
  kind : RequestKind
  reqId : ℤ
  contract : ContractRef Terms
  filters : SecDefFilters Narrowing
  includeExpired : Bool := false
  calculation : Option (Contract Terms Narrowing) := none

end Contracts

variable {Terms Narrowing : Type}

/-- `ContractDetails::from_definition(def).contract`. -/
def ContractDefinition.contract (d : ContractDefinition Terms Narrowing) : Contract Terms Narrowing where
  conId := d.conId
  symbol := d.symbol
  secType := d.secType
  exchange := d.exchange
  currency := d.currency
  terms := d.terms
  lookupFilters := { narrowing := d.narrowing }

def identifierUnstated (conId : ℤ) : Bool := conId == 0 || conId == 2147483647

def exchangeToFix (exchange : String) : String :=
  if exchange = "SMART" then "BEST" else if exchange = "ISLAND" then "NASDAQ" else exchange

def secTypeToFix (secType : String) : String := if secType = "STK" then "CS" else secType

/-- `unnamed`: why a contract described by symbol is not served. -/
def unnamed (secType symbol exchange : String) (listings : ℕ) (so : String) : String :=
  if 1 < listings then
    s!"{secType} {symbol} on {exchange} matches {listings} contracts, so it names none and {so}: "
      ++ "state the currency or the exchange"
  else s!"no security definition has been found for {secType} {symbol} on {exchange}, so {so}"

/-- `described`: a request is looked up by its description, whatever else its contract held. -/
def described (filters : SecDefFilters Narrowing) : SecDefFilters Narrowing :=
  { filters with secId := "", secIdType := "", issuerId := "" }

def isInternal (n : ℕ) : Bool := decide (engineIdBase ≤ n)

namespace Request

/-- `contract_named`: the contract, where the venue has not numbered it. -/
def contractNamed (cmd : Request Terms Narrowing) : Option (ContractRef Terms) :=
  if identifierUnstated cmd.contract.conId then some cmd.contract else none

def namedByIdAlone (cmd : Request Terms Narrowing) : Option (ℤ × String) :=
  match cmd.kind with
  | .fundamental | .realTimeBar | .depth _ => none
  | _ =>
      if !identifierUnstated cmd.contract.conId &&
          (cmd.contract.secType.isEmpty || cmd.contract.exchange.isEmpty) then
        some (cmd.contract.conId, cmd.contract.exchange)
      else none

/-- `request_id`: two kinds carry a wider number than a caller may state. -/
def requestId (cmd : Request Terms Narrowing) : Option ℕ :=
  match cmd.kind with
  | .subscribe _ | .tickByTick =>
      if 0 ≤ cmd.reqId ∧ cmd.reqId < 2 ^ 32 then some cmd.reqId.toNat else none
  | _ => some cmd.reqId.toNat

/-- `engine_owned`, of a subscription. -/
def engineOwned (cmd : Request Terms Narrowing) : Bool :=
  match cmd.kind with
  | .subscribe _ => decide (engineIdBase ≤ cmd.reqId)
  | _ => false

/-- `name_the_contract`: a request that gave the contract by id alone takes it whole. -/
def nameTheContract (cmd : Request Terms Narrowing) (d : ContractDefinition Terms Narrowing) :
    Request Terms Narrowing :=
  let named := d.contract
  let calculation := match cmd.kind with
    | .subscribe _ => cmd.calculation.map fun _ => named
    | _ => cmd.calculation
  let contract :=
    if cmd.namedByIdAlone.isSome then named.toContractRef
    else match cmd.kind with
      | .subscribe _ =>
          { cmd.contract with
            conId := d.conId
            secType := if cmd.contract.secType.isEmpty then named.secType else cmd.contract.secType
            exchange :=
              if cmd.contract.exchange.isEmpty then named.exchange else cmd.contract.exchange }
      | _ => { cmd.contract with conId := d.conId }
  { cmd with
    contract := contract
    filters := if cmd.namedByIdAlone.isSome then named.lookupFilters else cmd.filters
    calculation := calculation }

end Request

/-! ## The lookups -/

section State

variable (Terms Narrowing : Type)

structure Description where
  symbol : String
  secType : String
  exchange : String
  currency : String
  filters : SecDefFilters Narrowing
  includeExpired : Bool

/-- What a lookup states to the venue: the id it is asked by, or a description. -/
inductive LookupTerms where
  | contract (conId : ℤ) (exchange : String)
  | described (d : Description Narrowing)

/-- The name of one leg of a fan-out: the caller's number and a count. -/
abbrev LegName := ℕ × ℕ

structure PendingSecdef where
  reqId : ℕ
  singleShot : Bool
  deadline : ℕ

/-- A lookup asked of each venue its contract trades on. -/
structure PendingFanout where
  apiReqId : ℕ
  fanoutReqIds : List LegName
  answered : List LegName
  deadline : ℕ

/-- A row that waits for its trading hours. -/
structure PendingSchedulePair where
  apiReqId : ℕ
  joinKey : String
  definition : ContractDefinition Terms Narrowing
  isLast : Bool
  deadline : ℕ

structure ContinuousLookup where
  listedToo : Bool
  askingListed : Bool
  listedFound : Bool
  held : List (ContractDefinition Terms Narrowing)
  description : Description Narrowing

inductive Told where
  /-- Its lookup begins: the caller's own word, kept here to tell its lookups apart. -/
  | asked (n : ℕ)
  /-- `push_contract_details`; `held` says that the row was held until the end. -/
  | row (n : ℕ) (d : ContractDefinition Terms Narrowing) (held : Bool)
  /-- `push_contract_details_end`. -/
  | lookupEnd (n : ℕ)
  /-- `push_historical_error`. -/
  | historicalError (n : ℕ) (code : ℤ) (why : String)
  /-- `push_historical_over`. -/
  | historicalOver (n : ℕ)
  /-- `note_book_let_go`. -/
  | bookLetGo (n : ℤ) (isSmartDepth : Bool)

/-- A request held until its contract is named, and the ticket it is known by here. -/
structure HeldRequest where
  ticket : ℕ
  lookup : ℕ
  command : Request Terms Narrowing
  askedAt : ℕ

structure ReleasedRequest where
  ticket : ℕ
  asked : Request Terms Narrowing
  definition : ContractDefinition Terms Narrowing
  command : Request Terms Narrowing

structure AbandonedRequest where
  ticket : ℕ
  asked : Request Terms Narrowing
  told : List (Told Terms Narrowing)

/-- The requests held until they are named, and what became of each that was. -/
structure Naming where
  pendingNamed : List (HeldRequest Terms Narrowing) := []
  resolvedNamed : List (ReleasedRequest Terms Narrowing) := []
  parked : List (ℕ × Request Terms Narrowing) := []
  taken : List (ReleasedRequest Terms Narrowing) := []
  abandoned : List (AbandonedRequest Terms Narrowing) := []
  withdrawn : List (ℕ × Request Terms Narrowing) := []

structure Lookups where
  connected : Bool := true
  written : ℕ := 0
  wire : List (ℕ × LookupTerms Narrowing) := []
  pendingSecdef : List PendingSecdef := []
  pendingFanout : List PendingFanout := []
  pendingSchedulePair : List (PendingSchedulePair Terms Narrowing) := []
  detailsDelivered : ℕ → Finset ℕ := fun _ => ∅
  continuousLookups : AList fun _ : ℕ => ContinuousLookup Terms Narrowing := ∅
  contractRuleScopes : Finset (ℕ × String) := ∅
  nextFanoutId : ℕ := 1
  nextInternalSecdefId : ℕ := 4026531840
  sessionOver : Option String := none
  naming : Naming Terms Narrowing := {}
  told : List (Told Terms Narrowing) := []

end State

def noDefinition : ℤ := 200

def notConnected : ℤ := 504

def noAnswer : ℤ := -1

def noDefinitionFound : String := "No security definition has been found for the request"

def secdefTimeout : ℕ := 10000

def lookupTimeout : ℕ := 20000

def namingTimeout : ℕ := 12000

/-- How long a row waits for its trading hours. -/
def scheduleTimeout : ℕ := 3000

def unansweredAfter (n : ℕ) : ℕ := if isInternal n then secdefTimeout else lookupTimeout

/-! ## Rows and ends -/

/-- Keep a row of a continuous future: one a contract, and one a venue and multiplier. -/
def ContinuousLookup.keep (asked : ContinuousLookup Terms Narrowing)
    (d : ContractDefinition Terms Narrowing) : ContinuousLookup Terms Narrowing :=
  if asked.held.any fun held => held.conId = d.conId ∨
      (held.exchange = d.exchange ∧ held.multiplier = d.multiplier) then asked
  else { asked with held := asked.held ++ [d] }

def ContinuousLookup.found (asked : ContinuousLookup Terms Narrowing) :
    ContinuousLookup Terms Narrowing :=
  { asked with listedFound := true }

namespace Lookups

variable (fails : ℕ → Option String)

def tell (t : Told Terms Narrowing) (s : Lookups Terms Narrowing) : Lookups Terms Narrowing :=
  { s with told := s.told ++ [t] }

/-- The continuous future a number asks for, where its rows are held. -/
def holding (s : Lookups Terms Narrowing) (n : ℕ) : Option (ContinuousLookup Terms Narrowing) :=
  (s.continuousLookups.lookup n).filter fun asked => !asked.askingListed

/-- `hand_over`: hand a caller one contract its lookup found. -/
def handOver (n : ℕ) (d : ContractDefinition Terms Narrowing) (s : Lookups Terms Narrowing) :
    Lookups Terms Narrowing :=
  match s.holding n with
  | some asked => { s with continuousLookups := s.continuousLookups.insert n (asked.keep d) }
  | none =>
      if d.conId ∈ s.detailsDelivered n then s
      else
        { s with
          detailsDelivered :=
            Function.update s.detailsDelivered n (insert d.conId (s.detailsDelivered n))
          continuousLookups := match s.continuousLookups.lookup n with
            | some asked => s.continuousLookups.insert n asked.found
            | none => s.continuousLookups
          told := s.told ++ [.row n d false] }

lemma handOver_pending (s : Lookups Terms Narrowing) (n : ℕ)
    (d : ContractDefinition Terms Narrowing) :
    (s.handOver n d).pendingSecdef = s.pendingSecdef ∧
      (s.handOver n d).pendingFanout = s.pendingFanout ∧
      (s.handOver n d).pendingSchedulePair = s.pendingSchedulePair := by
  unfold handOver
  split
  · exact ⟨rfl, rfl, rfl⟩
  · split_ifs <;> exact ⟨rfl, rfl, rfl⟩

/-- `fail_lookup`: end a lookup without the venue's answer. -/
def failLookup (n : ℕ) (code : ℤ) (why : String) (s : Lookups Terms Narrowing) :
    Lookups Terms Narrowing :=
  { s with
    continuousLookups := s.continuousLookups.erase n
    told := s.told ++ [.historicalError n code why, .lookupEnd n] }

def writeLookup (n : ℕ) (terms : LookupTerms Narrowing) (s : Lookups Terms Narrowing) :
    Option String × Lookups Terms Narrowing :=
  if s.connected then
    match fails s.written with
    | some why => (some why, { s with written := s.written + 1 })
    | none => (none, { s with written := s.written + 1, wire := s.wire ++ [(n, terms)] })
  else (some "no connection to the venue", s)

/-- A lookup that was not written is queued all the same where it is the engine's own:
`refuse_unsent_lookup`. -/
def queueOrRefuse (n : ℕ) (queue : Lookups Terms Narrowing → Lookups Terms Narrowing) :
    Option String × Lookups Terms Narrowing → Lookups Terms Narrowing
  | (none, s) => queue s
  | (some why, s) =>
      if isInternal n then queue s
      else s.failLookup n notConnected s!"contract details request could not be sent: {why}"

/-- `send_secdef_request`: ask for the contract an id names. -/
def sendSecdefRequest (n : ℕ) (conId : ℤ) (exchange : String) (now : ℕ)
    (s : Lookups Terms Narrowing) : Lookups Terms Narrowing :=
  let forgotten :=
    { s with
      detailsDelivered := Function.update s.detailsDelivered n ∅
      continuousLookups := s.continuousLookups.erase n }
  queueOrRefuse n
    (fun s => { s with pendingSecdef := s.pendingSecdef ++ [⟨n, true, now + unansweredAfter n⟩] })
    (forgotten.writeLookup fails n (.contract conId exchange))

/-- `send_secdef_request_by_symbol`: ask for the contracts a description names. -/
def sendSecdefRequestBySymbol (n : ℕ) (d : Description Narrowing) (now : ℕ)
    (s : Lookups Terms Narrowing) : Lookups Terms Narrowing :=
  queueOrRefuse n
    (fun s =>
      { s with
        detailsDelivered := Function.update s.detailsDelivered n ∅
        pendingSecdef := s.pendingSecdef ++ [⟨n, false, now + unansweredAfter n⟩] })
    (s.writeLookup fails n (.described d))

/-- `send_contract_details_lookup`: a continuous future is asked for first, and the listed months
behind it. -/
def sendContractDetailsLookup (n : ℕ) (d : Description Narrowing) (now : ℕ)
    (s : Lookups Terms Narrowing) : Lookups Terms Narrowing :=
  let s :=
    if d.secType = "CONTFUT" ∨ d.secType = "FUT+CONTFUT" ∨ d.secType = "CONTFUT+FUT" then
      { s with
        continuousLookups := s.continuousLookups.insert n
          { listedToo := d.secType ≠ "CONTFUT", askingListed := false, listedFound := false,
            held := [], description := d } }
    else { s with continuousLookups := s.continuousLookups.erase n }
  s.sendSecdefRequestBySymbol fails n d now

/-- Hand over what is held of a continuous future, under the type it is reported as. -/
def handHeld (n : ℕ) (held : List (ContractDefinition Terms Narrowing)) (s : Lookups Terms Narrowing) :
    Lookups Terms Narrowing :=
  { s with told := s.told ++ held.map fun d => .row n { d with secType := "CONTFUT" } true }

/-- `end_lookup`: the rest of a continuous future's answer is settled at the end. -/
def endLookup (n now : ℕ) (s : Lookups Terms Narrowing) : Lookups Terms Narrowing :=
  match s.continuousLookups.lookup n with
  | none => s.tell (.lookupEnd n)
  | some asked =>
      if asked.listedToo && !asked.askingListed then
        sendSecdefRequestBySymbol fails n { asked.description with secType := "FUT" } now
          { s with
            continuousLookups := s.continuousLookups.insert n { asked with askingListed := true } }
      else
        let s := { s with continuousLookups := s.continuousLookups.erase n }
        let found := if asked.listedToo then asked.listedFound else !asked.held.isEmpty
        if found then (s.handHeld n asked.held).tell (.lookupEnd n)
        else (s.tell (.historicalError n noDefinition noDefinitionFound)).tell (.lookupEnd n)

/-- `refuse_lookup`: refused while a continuous future is asked for, a lookup goes on as though
that part had ended. -/
def refuseLookup (n : ℕ) (code : ℤ) (why : String) (now : ℕ) (s : Lookups Terms Narrowing) :
    Lookups Terms Narrowing :=
  if (s.holding n).isSome then s.endLookup fails n now else s.failLookup n code why

end Lookups

/-! ## Requests held until they are named -/

/-- `push_hmds_refusal`. -/
def hmdsRefusal (n : ℕ) (code : ℤ) (why : String) (fromHistorical : Bool) :
    List (Told Terms Narrowing) :=
  .historicalError n code why :: if fromHistorical then [.historicalOver n] else []

namespace Request

/-- Why a request cannot be sent for the contract it names, where it names one. -/
def whyAbandoned (cmd : Request Terms Narrowing) (listings : ℕ) : Option String :=
  match cmd.namedByIdAlone with
  | some (conId, _) =>
      some (s!"no security definition has been found for contract {conId}, "
        ++ "so the request could not be sent")
  | none => cmd.contractNamed.map fun named =>
      unnamed named.secType named.symbol named.exchange listings "the request could not be sent"

def bookLetGo (cmd : Request Terms Narrowing) : List (Told Terms Narrowing) :=
  match cmd.kind with
  | .depth isSmartDepth => [.bookLetGo cmd.reqId isSmartDepth]
  | _ => []

/-- `abandon_named`: what a caller is told of a request that cannot be sent. -/
def abandonNamed (cmd : Request Terms Narrowing) (listings : ℕ) : List (Told Terms Narrowing) :=
  match cmd.whyAbandoned listings with
  | none => []
  | some why =>
      if cmd.engineOwned then []
      else
        cmd.bookLetGo ++ match cmd.requestId with
        | some n => hmdsRefusal n noDefinition why (cmd.kind = .historical)
        | none => []

/-- What a caller is told of a request the connection went away under. -/
def refusedUnanswered (cmd : Request Terms Narrowing) (why : String) : List (Told Terms Narrowing) :=
  match cmd.requestId with
  | some n => hmdsRefusal n notConnected why (cmd.kind = .historical)
  | none => []

end Request

namespace Naming

def park (lookup : ℕ) (cmd : Request Terms Narrowing) (now : ℕ) (w : Naming Terms Narrowing) :
    Naming Terms Narrowing :=
  { w with
    pendingNamed := w.pendingNamed ++ [⟨w.parked.length, lookup, cmd, now⟩]
    parked := w.parked ++ [(w.parked.length, cmd)] }

def behind (w : Naming Terms Narrowing) (lookup : ℕ) : Option (HeldRequest Terms Narrowing) :=
  w.pendingNamed.find? (·.lookup == lookup)

def takeOut (lookup : ℕ) (w : Naming Terms Narrowing) : Naming Terms Narrowing :=
  { w with pendingNamed := w.pendingNamed.eraseP (·.lookup == lookup) }

def release (h : HeldRequest Terms Narrowing) (d : ContractDefinition Terms Narrowing)
    (w : Naming Terms Narrowing) : Naming Terms Narrowing :=
  { w with
    resolvedNamed := w.resolvedNamed ++ [⟨h.ticket, h.command, d, h.command.nameTheContract d⟩] }

def abandon (hs : List (HeldRequest Terms Narrowing))
    (told : HeldRequest Terms Narrowing → List (Told Terms Narrowing)) (w : Naming Terms Narrowing) :
    Naming Terms Narrowing :=
  { w with abandoned := w.abandoned ++ hs.map fun h => ⟨h.ticket, h.command, told h⟩ }

/-- `withdraw_named`: withdraw what waits under a number, named or not. -/
def withdraw (n : ℕ) (kind : RequestKind → Bool) (w : Naming Terms Narrowing) :
    Naming Terms Narrowing :=
  let meant := fun cmd : Request Terms Narrowing => cmd.requestId == some n && kind cmd.kind
  { w with
    pendingNamed := w.pendingNamed.filter fun h => !meant h.command
    resolvedNamed := w.resolvedNamed.filter fun r => !meant r.command
    withdrawn := w.withdrawn
      ++ ((w.pendingNamed.filter fun h => meant h.command).map fun h => (h.ticket, h.command))
      ++ (w.resolvedNamed.filter fun r => meant r.command).map fun r => (r.ticket, r.asked) }

/-- Send on as many of the released as a pass has room for. -/
def take (count : ℕ) (w : Naming Terms Narrowing) : Naming Terms Narrowing :=
  { w with
    resolvedNamed := w.resolvedNamed.drop count
    taken := w.taken ++ w.resolvedNamed.take count }

end Naming

namespace Lookups

variable (fails : ℕ → Option String)

def giveUp (hs : List (HeldRequest Terms Narrowing))
    (told : HeldRequest Terms Narrowing → List (Told Terms Narrowing)) (s : Lookups Terms Narrowing) :
    Lookups Terms Narrowing :=
  { s with naming := s.naming.abandon hs told, told := s.told ++ hs.flatMap told }

/-- `abandon_holders_of`: end what waited on a lookup answered with no definition. -/
def abandonHoldersOf (n : ℕ) (s : Lookups Terms Narrowing) : Lookups Terms Narrowing :=
  match s.naming.behind n with
  | some h =>
      { s with naming := s.naming.takeOut n }.giveUp [h] fun h => h.command.abandonNamed 0
  | none => s

def releaseNamed (n listings : ℕ) (d : ContractDefinition Terms Narrowing)
    (s : Lookups Terms Narrowing) : Lookups Terms Narrowing :=
  match s.naming.behind n with
  | some h =>
      if 1 < listings then
        { s with naming := s.naming.takeOut n }.giveUp [h] fun h => h.command.abandonNamed listings
      else { s with naming := (s.naming.takeOut n).release h d }
  | none => s

/-- Hold a request behind a lookup under the engine's next number. -/
def parkBehind (cmd : Request Terms Narrowing) (now : ℕ)
    (ask : ℕ → Lookups Terms Narrowing → Lookups Terms Narrowing) (s : Lookups Terms Narrowing) :
    Lookups Terms Narrowing :=
  let n := s.nextInternalSecdefId
  let asked := ask n { s with nextInternalSecdefId := (n + 1) % 2 ^ 32 }
  { asked with naming := asked.naming.park n cmd now }

/-- A chargeable snapshot of a share or warrant needs the contract's market classification. -/
def wantsItsDefinition (cmd : Request Terms Narrowing) : Bool :=
  cmd.kind = .subscribe true ∧ 0 < cmd.contract.conId ∧
    identifierUnstated cmd.contract.conId = false ∧ cmd.contract.exchange ≠ "" ∧
    (secTypeToFix cmd.contract.secType = "CS" ∨ secTypeToFix cmd.contract.secType = "WAR")

/-- `hold_until_named`: hold a request until the venue names its contract, or hand it back where it
names nothing that can be looked up.  `unheld` says that the odd-lot sides are offered and the
definition is not held. -/
def holdUntilNamed (cmd : Request Terms Narrowing) (unheld : Bool) (now : ℕ)
    (s : Lookups Terms Narrowing) : Option (Request Terms Narrowing) × Lookups Terms Narrowing :=
  if wantsItsDefinition cmd && unheld then
    (none, s.parkBehind cmd now fun n s =>
      s.sendSecdefRequest fails n cmd.contract.conId cmd.contract.exchange now)
  else match cmd.namedByIdAlone with
    | some (conId, exchange) =>
        (none, s.parkBehind cmd now fun n s => s.sendSecdefRequest fails n conId exchange now)
    | none => match cmd.contractNamed with
      | some named =>
          if named.symbol = "" then
            (none, { s with told := s.told ++ cmd.abandonNamed 0 })
          else
            let d : Description Narrowing :=
              { symbol := named.symbol
                secType := named.secType
                exchange := named.exchange
                currency := named.currency
                filters := described cmd.filters
                includeExpired := cmd.includeExpired &&
                  (cmd.kind = .historical ∨ cmd.kind = .headTimestamp ∨
                    cmd.kind = .historicalTicks) }
            (none, s.parkBehind cmd now fun n s => s.sendSecdefRequestBySymbol fails n d now)
      | none => (some cmd, s)

/-- `sweep_pending_named`: give up the requests whose contract the venue never named. -/
def sweepPendingNamed (now : ℕ) (s : Lookups Terms Narrowing) : Lookups Terms Narrowing :=
  let waits := fun h : HeldRequest Terms Narrowing => decide (now - h.askedAt < namingTimeout)
  { s with naming := { s.naming with pendingNamed := s.naming.pendingNamed.filter waits } }.giveUp
    (s.naming.pendingNamed.filter fun h => !waits h) fun h => h.command.abandonNamed 0

end Lookups

/-! ## Definitions -/

inductive ReplyName where
  | number (n : ℕ)
  | leg (leg : LegName)
  | neither

section Replies

variable (Terms Narrowing : Type)

structure DefinitionReply where
  name : ReplyName
  /-- `parse_secdef_responses`: every contract it describes. -/
  listings : List (ContractDefinition Terms Narrowing)
  /-- `parse_secdef_response`: the one it is read as. -/
  flat : Option (ContractDefinition Terms Narrowing)
  isLastWire : Bool

end Replies

def PendingFanout.answer (p : PendingFanout) (leg : LegName) (now : ℕ) : PendingFanout :=
  { p with
    answered := if leg ∈ p.answered then p.answered else p.answered ++ [leg]
    deadline := now + secdefTimeout }

@[simp]
lemma PendingFanout.apiReqId_answer (p : PendingFanout) (leg : LegName) (now : ℕ) :
    (p.answer leg now).apiReqId = p.apiReqId := rfl

structure Schedule where
  timezone : String
  statedOnTheNamedClock : Bool
  tradingHours : String
  liquidHours : String

/-- A definition with its hours, where the reply could be read. -/
def ContractDefinition.withSchedule (d : ContractDefinition Terms Narrowing) :
    Option Schedule → ContractDefinition Terms Narrowing
  | none => d
  | some sched =>
      { d with
        timeZoneId :=
          if sched.statedOnTheNamedClock then
            if sched.timezone.isEmpty then none else some sched.timezone
          else some "UTC"
        tradingHours := some sched.tradingHours
        liquidHours := some sched.liquidHours }

def ContractDefinition.withoutSchedule (d : ContractDefinition Terms Narrowing) :
    ContractDefinition Terms Narrowing :=
  { d with timeZoneId := none, tradingHours := none, liquidHours := none }

namespace Lookups

variable (fails : ℕ → Option String)

def noteScopes (reply : DefinitionReply Terms Narrowing) (s : Lookups Terms Narrowing) :
    Lookups Terms Narrowing :=
  { s with
    contractRuleScopes := reply.listings.foldl (fun scopes d =>
      if d.conId ≠ 0 ∧ d.secType ≠ "NEWS" ∧ d.exchange ≠ "" then
        insert (d.conId, exchangeToFix d.exchange) scopes
      else scopes) s.contractRuleScopes }

def awaits (s : Lookups Terms Narrowing) (n : ℕ) : Bool := s.pendingSecdef.any (·.reqId == n)

def deliverListings (n : ℕ) (reply : DefinitionReply Terms Narrowing) (s : Lookups Terms Narrowing) :
    Lookups Terms Narrowing :=
  if 1 < reply.listings.length ∧ isInternal n = false ∧ s.awaits n then
    (reply.listings.filter fun d =>
      d.conId ≠ 0 ∧ reply.flat.map (·.conId) ≠ some d.conId).foldl (fun s d => s.handOver n d) s
  else s

def endBehindItsRow (n now : ℕ) (s : Lookups Terms Narrowing) : Lookups Terms Narrowing :=
  if s.pendingSchedulePair.any (·.apiReqId == n) then
    { s with
      pendingSchedulePair :=
        Removal.modifyFirst (·.apiReqId == n) (fun p => { p with isLast := true })
          s.pendingSchedulePair }
  else s.endLookup fails n now

/-- Whether the master row of a contract waits for its hours. -/
def awaitingSchedule (s : Lookups Terms Narrowing) (n conId : ℕ) : Bool :=
  s.pendingSchedulePair.any fun p => p.apiReqId = n ∧ p.definition.conId = conId

/-- The row a leg answers with, but where the master row of that contract waits for its hours. -/
def handLeg (n : ℕ) (flat : Option (ContractDefinition Terms Narrowing)) (s : Lookups Terms Narrowing) :
    Lookups Terms Narrowing :=
  match flat with
  | some d =>
      if d.conId ≠ 0 ∧ s.awaitingSchedule n d.conId = false then s.handOver n d else s
  | none => s

def answerLeg (leg : LegName) (flat : Option (ContractDefinition Terms Narrowing)) (now : ℕ)
    (p : PendingFanout) (s : Lookups Terms Narrowing) : Lookups Terms Narrowing :=
  let s := s.handLeg p.apiReqId flat
  let p' := p.answer leg now
  if p'.fanoutReqIds.length ≤ p'.answered.length then
    { s with
      pendingFanout := Removal.swapRemove (fun p => decide (leg ∈ p.fanoutReqIds))
        s.pendingFanout }.endBehindItsRow fails p.apiReqId now
  else
    { s with
      pendingFanout := Removal.modifyFirst (fun p => decide (leg ∈ p.fanoutReqIds))
        (·.answer leg now) s.pendingFanout }

def fanoutExchanges (d : ContractDefinition Terms Narrowing) (s : Lookups Terms Narrowing) :
    List String :=
  d.validExchanges.filter fun e =>
    e ≠ "" ∧ e ≠ "CORPACT" ∧ (d.conId, exchangeToFix e) ∉ s.contractRuleScopes

/-- The entries of a number that one definition does not end are over. -/
def dropBySymbol (n : ℕ) (s : Lookups Terms Narrowing) : Lookups Terms Narrowing :=
  { s with pendingSecdef := s.pendingSecdef.filter fun y => y.reqId ≠ n ∨ y.singleShot }

/-- Ask each venue about a contract a description named, or end where there is none to ask. -/
def fanOut (n : ℕ) (exchanges : List String) (now : ℕ) (s : Lookups Terms Narrowing) :
    Lookups Terms Narrowing :=
  let s := s.dropBySymbol n
  if isInternal n then s
  else if exchanges = [] then s.endBehindItsRow fails n now
  else
    { s with
      nextFanoutId := (s.nextFanoutId + exchanges.length) % 2 ^ 32
      pendingFanout := s.pendingFanout ++
        [{ apiReqId := n
           fanoutReqIds := (List.range exchanges.length).map fun i =>
             (n, (s.nextFanoutId + i) % 2 ^ 32)
           answered := []
           deadline := now + secdefTimeout }] }

/-- The row a definition is: handed over, or parked until its trading hours are in. -/
def takeRow (n : ℕ) (d : ContractDefinition Terms Narrowing) (isLast : Bool) (now : ℕ)
    (s : Lookups Terms Narrowing) : Lookups Terms Narrowing :=
  if isInternal n then s
  else if d.joinKey = "" then
    if isLast then (s.handOver n d).endLookup fails n now else s.handOver n d
  else
    { s with
      pendingSchedulePair :=
        s.pendingSchedulePair ++ [⟨n, d.joinKey, d, isLast, now + scheduleTimeout⟩] }

def takeNoContract (n now : ℕ) (s : Lookups Terms Narrowing) : Lookups Terms Narrowing :=
  if isInternal n then (s.dropBySymbol n).abandonHoldersOf n
  else (s.dropBySymbol n).refuseLookup fails n noDefinition noDefinitionFound now

def answerLookup (d : ContractDefinition Terms Narrowing) (isLastWire : Bool) (now : ℕ)
    (x : PendingSecdef) (s : Lookups Terms Narrowing) : Lookups Terms Narrowing :=
  let n := x.reqId
  let isLast := isLastWire || x.singleShot
  let exchanges := s.fanoutExchanges d
  let taken :=
    { s with
      pendingSecdef :=
        if isLast then s.pendingSecdef.eraseP (·.reqId == n)
        else Removal.modifyFirst (·.reqId == n)
          (fun x => { x with deadline := now + unansweredAfter n }) s.pendingSecdef }
  if d.conId = 0 then taken.takeNoContract fails n now
  else if isLast then taken.takeRow fails n d true now
  else (taken.takeRow fails n d false now).fanOut fails n exchanges now

def readDefinition (reply : DefinitionReply Terms Narrowing) (now : ℕ) (s : Lookups Terms Narrowing) :
    Lookups Terms Narrowing :=
  let s := s.noteScopes reply
  match reply.name with
  | .neither => s
  | .leg leg =>
      match s.pendingFanout.find? fun p => decide (leg ∈ p.fanoutReqIds) with
      | some p => s.answerLeg fails leg reply.flat now p
      | none => s
  | .number n =>
      let s := s.deliverListings n reply
      match reply.flat with
      | none => s
      | some d =>
          let s := if d.conId ≠ 0 then s.releaseNamed n reply.listings.length d else s
          match s.pendingSecdef.find? (·.reqId == n) with
          | some x => s.answerLookup fails d reply.isLastWire now x
          | none => s

/-- `handle_schedule_reply`: the row that waits for these hours goes out with them. -/
def readSchedule (joinKey : String) (schedule : Option Schedule) (now : ℕ)
    (s : Lookups Terms Narrowing) : Lookups Terms Narrowing :=
  match s.pendingSchedulePair.find? (·.joinKey == joinKey) with
  | none => s
  | some p =>
      let s :=
        { s with
          pendingSchedulePair := Removal.swapRemove (·.joinKey == joinKey)
            s.pendingSchedulePair }.handOver p.apiReqId (p.definition.withSchedule schedule)
      if p.isLast then s.endLookup fails p.apiReqId now else s

/-- A session reject: of the lookup it names, or of the only one, where it names nothing and
`alone` says that no search and no chain waits. -/
def readReject (stated : Option ℕ) (alone : Bool) (reason : String) (now : ℕ)
    (s : Lookups Terms Narrowing) : Lookups Terms Narrowing :=
  let named := (stated.bind fun n => s.pendingSecdef.find? (·.reqId == n)).or
    (if stated = none ∧ alone ∧ s.pendingSecdef.length = 1 ∧ s.pendingFanout.isEmpty then
      s.pendingSecdef.head? else none)
  match named with
  | none => s
  | some x =>
      let s := { s with pendingSecdef := s.pendingSecdef.eraseP (·.reqId == x.reqId) }
      if isInternal x.reqId then s
      else s.refuseLookup fails x.reqId noDefinition
        s!"contract details request rejected: {reason}" now

/-! ## Deadlines, and the connection -/

/-- `sweep_contract_details`: end the lookups that went unanswered, and all of them once the session
is over. -/
def sweepContractDetails (now : ℕ) (s : Lookups Terms Narrowing) : Lookups Terms Narrowing :=
  let idle := s.pendingSecdef.isEmpty && s.pendingFanout.isEmpty && s.pendingSchedulePair.isEmpty
  let due := fun deadline => decide (deadline ≤ now) || s.sessionOver.isSome
  let expired :=
    ((s.pendingSecdef.filter fun x => due x.deadline && !isInternal x.reqId).map (·.reqId))
      ++ (s.pendingFanout.filter fun p => due p.deadline).map (·.apiReqId)
  let swept :=
    { s with
      detailsDelivered := if idle then fun _ => ∅ else s.detailsDelivered
      pendingSecdef := s.pendingSecdef.filter fun x => !due x.deadline
      pendingFanout := s.pendingFanout.filter fun p => !due p.deadline }
  let code := if s.sessionOver.isSome then notConnected else noAnswer
  let why := match s.sessionOver with
    | some reason => s!"the session is over: {reason}"
    | none => "contract details request timed out — no reply from the gateway"
  expired.foldl (fun s n => s.failLookup n code why) swept

/-- A row whose hours did not come goes out without them. -/
def emitRow (now : ℕ) (s : Lookups Terms Narrowing) (p : PendingSchedulePair Terms Narrowing) :
    Lookups Terms Narrowing :=
  let s := s.handOver p.apiReqId p.definition.withoutSchedule
  if p.isLast then s.endLookup fails p.apiReqId now else s

def sweepPendingSchedulePairs (now : ℕ) (s : Lookups Terms Narrowing) : Lookups Terms Narrowing :=
  (s.pendingSchedulePair.filter fun p => decide (p.deadline ≤ now)).foldl (emitRow fails now)
    { s with pendingSchedulePair := s.pendingSchedulePair.filter fun p => !decide (p.deadline ≤ now) }

def wentAway : String := "the trading connection went away before the venue answered"

/-- `fail_pending_lookups`, when the trading connection goes. -/
def failPendingLookups (now : ℕ) (s : Lookups Terms Narrowing) : Lookups Terms Narrowing :=
  let unended :=
    ((s.pendingSecdef.filter fun x => !isInternal x.reqId).map (·.reqId))
      ++ s.pendingFanout.map (·.apiReqId)
  let ended := unended ++ s.continuousLookups.keys.filter fun n => decide (n ∉ unended)
  let cleared :=
    { s with
      connected := false
      pendingSecdef := []
      pendingFanout := []
      continuousLookups := ∅
      pendingSchedulePair :=
        (s.pendingSchedulePair.filter fun p : PendingSchedulePair Terms Narrowing =>
          (s.continuousLookups.lookup p.apiReqId).isNone).map
          fun p : PendingSchedulePair Terms Narrowing => { p with deadline := now } }
  let emitted := cleared.sweepPendingSchedulePairs fails now
  let failed := ended.foldl (fun s n => s.failLookup n notConnected wentAway)
    { emitted with detailsDelivered := fun _ => ∅ }
  { failed with naming := { failed.naming with pendingNamed := [] } }.giveUp
    failed.naming.pendingNamed fun h => h.command.refusedUnanswered wentAway

end Lookups

/-! ## Events -/

section Events

variable (Terms Narrowing : Type)

inductive LookupEvent where
  /-- A lookup by id, a caller's or the engine's own. -/
  | asksById (n : ℕ) (conId : ℤ) (exchange : String) (now : ℕ)
  | asksByDescription (n : ℕ) (d : Description Narrowing) (now : ℕ)
  | definition (reply : DefinitionReply Terms Narrowing) (now : ℕ)
  | schedule (joinKey : String) (schedule : Option Schedule) (now : ℕ)
  | reject (stated : Option ℕ) (alone : Bool) (reason : String) (now : ℕ)
  | sweepsPairs (now : ℕ)
  | sweepsDetails (now : ℕ)
  | sweepsNamed (now : ℕ)
  | sessionEnds (reason : String)
  | drops (now : ℕ)
  | connects
  | holds (cmd : Request Terms Narrowing) (unheld : Bool) (now : ℕ)
  | withdraws (n : ℕ) (kind : RequestKind → Bool)
  | takes (count : ℕ)

end Events

namespace Lookups

def step (fails : ℕ → Option String) (s : Lookups Terms Narrowing) :
    LookupEvent Terms Narrowing → Lookups Terms Narrowing
  | .asksById n conId exchange now => (s.tell (.asked n)).sendSecdefRequest fails n conId exchange now
  | .asksByDescription n d now => (s.tell (.asked n)).sendContractDetailsLookup fails n d now
  | .definition reply now => s.readDefinition fails reply now
  | .schedule joinKey schedule now => s.readSchedule fails joinKey schedule now
  | .reject stated alone reason now => s.readReject fails stated alone reason now
  | .sweepsPairs now => s.sweepPendingSchedulePairs fails now
  | .sweepsDetails now => s.sweepContractDetails now
  | .sweepsNamed now => s.sweepPendingNamed now
  | .sessionEnds reason => { s with sessionOver := some reason }
  | .drops now => s.failPendingLookups fails now
  | .connects => { s with connected := true }
  | .holds cmd unheld now => (s.holdUntilNamed fails cmd unheld now).2
  | .withdraws n kind => { s with naming := s.naming.withdraw n kind }
  | .takes count => { s with naming := s.naming.take count }

end Lookups

end IbkrDx
