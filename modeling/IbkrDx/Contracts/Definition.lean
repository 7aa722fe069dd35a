import IbkrDx.Engine.MarketState
import IbkrDx.Protocol.ChainScopes

/-!
# Reading one contract's definition

`parse_secdef_record` of `control/contracts` with what it calls, and the tables a reply states once
for every contract in it.

* `MarketRule`, `parseMarketRules` — the increment rules a record states.
* `OrderTypeTable`, `parseOrderTypeTables`, `parseMarketClassifications`,
  `ineligibilityDescriptions` — the tables.
* `readDefinition_congr` — a definition depends on the fields under those tags alone.

Numbers are of any ordered type, with what reads and truncates them given.
-/

namespace IbkrDx.Contracts

open Decimal Texts

/-! ## Texts and numbers -/

/-- What is asked of `f64`. -/
structure Figures (V : Type) where
  parse : String → Option V
  trunc : V → V
  hundred : V
  tenThousandth : V

/-- `str::parse::<u32>`. -/
def parseUnsigned (v : String) : Option ℕ := parse u32Bound (Utf8.encode v.toList)

/-- `str::parse::<i32>`. -/
def parseI32 (v : String) : Option ℤ :=
  (parseI64 v.toList).filter fun n => decide (-2 ^ 31 ≤ n ∧ n < 2 ^ 31)

/-- `str::trim`. -/
def trimmed (v : String) : String := String.ofList (trimBlanks v.toList)

/-- `str::split` at one character. -/
def splitText (c : Char) (v : String) : List String := (v.toList.splitOn c).map String.ofList

/-! ## Tags -/

abbrev tagSecurityType : ℕ := 167
abbrev tagSecurityExchange : ℕ := 207
abbrev tagIbConId : ℕ := 6008
abbrev tagIbOrderTypeKey : ℕ := 6430
abbrev tagIbOrderTypes : ℕ := 6431
abbrev tagIbMarketClassification : ℕ := 6523
abbrev tagIbAlgoGroup : ℕ := 6599
abbrev tagIneligibilityId : ℕ := 6767
abbrev tagIneligibilityDescription : ℕ := 6768
abbrev tagMarketRuleStart : ℕ := 6019
abbrev tagMarketRuleId : ℕ := 6031
abbrev tagLowEdge : ℕ := 6023
abbrev tagIncrement : ℕ := 6027
abbrev tagPriceIncrementCount : ℕ := 6026
abbrev tagSizeIncrementCount : ℕ := 6030

/-- The tags that open a section a reply states once for all its contracts. -/
abbrev sectionTags : List ℕ := [6019, 6344, 6432, 6622, 6766]

/-! ## Increment rules -/

structure PriceIncrement (V : Type) where
  lowEdge : V
  increment : V
  deriving DecidableEq

structure MarketRule (V : Type) where
  ruleId : ℤ := -1
  negativePrices : Bool := false
  priceMagnifier : ℤ := 0
  priceIncrements : List (PriceIncrement V) := []
  sizeIncrements : List (PriceIncrement V) := []
  pricePlaces : Option ℤ := none
  sizePlaces : Option ℤ := none

/-- The table of a rule that the bands now arriving belong to. -/
inductive RuleTable where
  | price
  | size
  deriving DecidableEq

structure RuleWalk (V : Type) where
  rules : List (MarketRule V) := []
  current : Option (MarketRule V) := none
  pendingLowEdge : Option V := none
  filling : RuleTable := .price
  inRules : Bool := false
  displayPlaces : Bool := false
  sizePlaces : Bool := false

variable {V : Type}

def RuleWalk.step (nums : Figures V) (w : RuleWalk V) (f : ℕ × String) : RuleWalk V :=
  if f.1 = tagMarketRuleStart then
    { w with inRules := true, rules := w.rules ++ w.current.toList, current := none }
  else if f.1 = tagMarketRuleId ∧ w.inRules then
    { w with
      rules := w.rules ++ w.current.toList
      current := some { w.current.getD {} with ruleId := (parseI32 f.2).getD (-1) }
      pendingLowEdge := none
      filling := .price }
  else if f.1 ∈ [55, 6344, 6432, 6622, 6766] then
    { w with inRules := false, rules := w.rules ++ w.current.toList, current := none }
  else if f.1 = 6020 then
    { w with current := w.current.map fun rule => { rule with negativePrices := f.2 == "1" } }
  else if f.1 = 6021 then
    { w with current := w.current.map fun rule =>
        { rule with priceMagnifier := (parseI32 f.2).getD 0 } }
  else if f.1 = 6022 then { w with displayPlaces := true, sizePlaces := false }
  else if f.1 = 6029 then
    { w with
      sizePlaces := true
      current := w.current.map fun rule => { rule with sizePlaces := none } }
  else if f.1 = 6025 then
    match w.current with
    | none => w
    | some rule =>
        if w.displayPlaces then
          { w with
            displayPlaces := false
            current := some { rule with pricePlaces := parseI32 f.2 } }
        else if w.sizePlaces then
          match parseI32 f.2 with
          | none => w
          | some places =>
              { w with current := some { rule with
                  sizePlaces := some (rule.sizePlaces.elim places (max · places)) } }
        else w
  else if f.1 = tagLowEdge then
    if w.current.isSome then { w with pendingLowEdge := nums.parse f.2 } else w
  else if f.1 = tagIncrement then
    match w.current, w.pendingLowEdge with
    | some rule, some lowEdge =>
        match nums.parse f.2 with
        | none => { w with pendingLowEdge := none }
        | some increment =>
            { w with
              pendingLowEdge := none
              current := some (match w.filling with
                | .price =>
                    { rule with priceIncrements := rule.priceIncrements ++ [⟨lowEdge, increment⟩] }
                | .size =>
                    { rule with sizeIncrements := rule.sizeIncrements ++ [⟨lowEdge, increment⟩] }) }
    | _, _ => w
  else if f.1 = tagPriceIncrementCount then
    { w with
      sizePlaces := false
      filling := .price
      pendingLowEdge := none
      current := w.current.map fun rule => { rule with priceIncrements := [] } }
  else if f.1 = tagSizeIncrementCount then
    { w with
      sizePlaces := false
      filling := .size
      pendingLowEdge := none
      current := w.current.map fun rule => { rule with sizeIncrements := [] } }
  else w

def marketRules (nums : Figures V) (fs : List (ℕ × String)) : List (MarketRule V) :=
  let w := fs.foldl (RuleWalk.step nums) {}
  w.rules ++ w.current.toList

def parseMarketRules (nums : Figures V) (data : Bytes) : List (MarketRule V) :=
  marketRules nums (tagSequence data)

def staysInRules (inRules : Bool) (tag : ℕ) : Bool :=
  if tag = tagMarketRuleStart then true
  else if tag ∈ [55, 6344, 6432, 6622, 6766] then false
  else inRules

def statesRule : Bool → List (ℕ × String) → Bool
  | _, [] => false
  | inRules, f :: fs =>
      (decide (f.1 = tagMarketRuleId) && inRules) || statesRule (staysInRules inRules f.1) fs

def RuleWalk.Idle (w : RuleWalk V) (inRules : Bool) : Prop :=
  w.rules = [] ∧ w.current = none ∧ w.inRules = inRules

lemma RuleWalk.Idle.ite {c : Prop} [Decidable c] {w w' : RuleWalk V} {inRules : Bool}
    (h : w.Idle inRules) (h' : w'.Idle inRules) : (if c then w else w').Idle inRules := by
  split_ifs
  · exact h
  · exact h'

lemma RuleWalk.Idle.step {w : RuleWalk V} {inRules : Bool} (h : w.Idle inRules) (nums : Figures V)
    {f : ℕ × String} (hf : (decide (f.1 = tagMarketRuleId) && inRules) = false) :
    (RuleWalk.step nums w f).Idle (staysInRules inRules f.1) := by
  obtain ⟨rules, current, pendingLowEdge, filling, inRules', displayPlaces, sizePlaces⟩ := w
  obtain rfl : rules = [] := h.1
  obtain rfl : current = none := h.2.1
  obtain rfl : inRules' = inRules := h.2.2
  have hno : ¬ (f.1 = tagMarketRuleId ∧ inRules' = true) := fun hcon => by
    rw [decide_eq_true hcon.1, hcon.2] at hf
    exact Bool.false_ne_true hf.symm
  unfold RuleWalk.step staysInRules
  dsimp only
  rw [if_neg hno]
  by_cases hstart : f.1 = tagMarketRuleStart
  · rw [if_pos hstart, if_pos hstart]
    exact ⟨rfl, rfl, rfl⟩
  rw [if_neg hstart, if_neg hstart]
  by_cases hends : f.1 ∈ [55, 6344, 6432, 6622, 6766]
  · rw [if_pos hends, if_pos hends]
    exact ⟨rfl, rfl, rfl⟩
  rw [if_neg hends, if_neg hends]
  repeat' first
    | exact ⟨rfl, rfl, rfl⟩
    | refine RuleWalk.Idle.ite ?_ ?_

variable {nums : Figures V}

lemma marketRules_eq_nil {fs : List (ℕ × String)}
    (h : statesRule false fs = false) : marketRules nums fs = [] := by
  have hrun : ∀ (fs : List (ℕ × String)) (w : RuleWalk V) (inRules : Bool), w.Idle inRules →
      statesRule inRules fs = false →
      ∃ inRules', (fs.foldl (RuleWalk.step nums) w).Idle inRules' := by
    intro fs
    induction fs with
    | nil => exact fun w inRules hw _ => ⟨inRules, hw⟩
    | cons f fs ih =>
        intro w inRules hw hstates
        obtain ⟨hf, hfs⟩ := Bool.or_eq_false_iff.1 hstates
        exact ih _ _ (hw.step nums hf) hfs
  obtain ⟨inRules, hrules, hcurrent, -⟩ := hrun fs {} false ⟨rfl, rfl, rfl⟩ h
  rw [marketRules, hrules, hcurrent]
  rfl

lemma statesRule_append {fs gs : List (ℕ × String)} (h : ∀ f ∈ fs, f.1 ≠ tagMarketRuleStart) :
    statesRule false (fs ++ gs) = statesRule false gs := by
  induction fs with
  | nil => rfl
  | cons f fs ih =>
      obtain ⟨hf, hfs⟩ := List.forall_mem_cons.1 h
      have hstays : staysInRules false f.1 = false := by
        rw [staysInRules, if_neg hf]
        split_ifs <;> rfl
      rw [List.cons_append, statesRule, hstays, ih hfs, Bool.and_false, Bool.false_or]

/-! ## What a reply states once -/

/-- The markets of the contracts read so far. -/
structure DetailsWalk where
  classifications : ℕ → Option String := fun _ => none
  inDetails : Bool := false
  conId : Option ℕ := none

def DetailsWalk.step (w : DetailsWalk) (f : ℕ × String) : DetailsWalk :=
  if f.1 = 6344 then { w with inDetails := true }
  else if f.1 ∈ [55, 6019, 6432, 6622, 6766] then { w with inDetails := false }
  else if f.1 = tagIbConId ∧ w.inDetails then { w with conId := parseUnsigned f.2 }
  else if f.1 = tagIbMarketClassification ∧ w.inDetails then
    match w.conId with
    | none => w
    | some conId =>
        { w with classifications := Function.update w.classifications conId (some f.2) }
  else w

def parseMarketClassifications (data : Bytes) : ℕ → Option String :=
  ((tagSequence data).foldl DetailsWalk.step {}).classifications

/-- An order-type table, and the algorithm group stated beside it. -/
abbrev OrderTypeTable := List (String × ℤ) × String

structure TableWalk where
  tables : List (String × OrderTypeTable) := []
  inTable : Bool := false
  key : Option String := none

/-- `entry(key).or_default()`, and what is done to it. -/
def onEntry (key : String) (change : OrderTypeTable → OrderTypeTable) :
    List (String × OrderTypeTable) → List (String × OrderTypeTable)
  | [] => [(key, change ([], ""))]
  | (k, table) :: rest =>
      if k = key then (k, change table) :: rest else (k, table) :: onEntry key change rest

def orderTypeEntries (value : String) : List (String × ℤ) :=
  ((splitText ',' value).filter (· ≠ "")).map fun token =>
    let parts := (splitText '/' token).filter (· ≠ "")
    (parts.head?.getD "", (parts[1]?.bind parseI32).getD 0)

def TableWalk.step (w : TableWalk) (f : ℕ × String) : TableWalk :=
  if f.1 = 6432 then { w with inTable := true }
  else if f.1 ∈ [55, 6019, 6344, 6622, 6766] then { w with inTable := false }
  else if f.1 = tagIbOrderTypeKey ∧ w.inTable then { w with key := some f.2 }
  else if f.1 = tagIbOrderTypes ∧ w.inTable then
    match w.key with
    | none => w
    | some key =>
        { w with tables := onEntry key (fun t => (orderTypeEntries f.2, t.2)) w.tables }
  else if f.1 = tagIbAlgoGroup ∧ w.inTable then
    match w.key with
    | none => w
    | some key => { w with tables := onEntry key (fun t => (t.1, f.2)) w.tables }
  else w

def parseOrderTypeTables (data : Bytes) : List (String × OrderTypeTable) :=
  ((tagSequence data).foldl TableWalk.step {}).tables

/-- One field of the walk over the reasons: the number open, and the reasons named. -/
def reasonStep (w : String × List (String × String)) (f : ℕ × String) :
    String × List (String × String) :=
  if f.1 = tagIneligibilityId then (f.2, w.2)
  else if f.1 = tagIneligibilityDescription ∧ w.1 ≠ "" then (w.1, w.2 ++ [(w.1, f.2)])
  else w

/-- `ineligibility_descriptions`: what each number means, in the order stated. -/
def ineligibilityDescriptions (data : Bytes) : List (String × String) :=
  ((tagSequence data).foldl reasonStep ("", [])).2

/-! ## A definition -/

inductive SecurityType where
  | stock | option | future | forex | index | bond | warrant | futureOption | cfd | commodity
  | fund | forward | bill | combo | crypto | fixedIncome | securitiesLending | news | basket
  | indexOption | icuContract | icsContract | physicalSettlement
  | other (name : String)
  deriving DecidableEq

def SecurityType.fromFix (s : String) : SecurityType :=
  match s with
  | "CS" | "STK" => .stock
  | "OPT" => .option
  | "FUT" => .future
  | "CASH" => .forex
  | "IND" => .index
  | "CORP" | "BOND" => .bond
  | "WAR" => .warrant
  | "FOP" => .futureOption
  | "CFD" => .cfd
  | "CMDTY" => .commodity
  | "FUND" => .fund
  | "FWD" => .forward
  | "BILL" => .bill
  | "BAG" => .combo
  | "CRYPTO" => .crypto
  | "FIXED" => .fixedIncome
  | "SLB" => .securitiesLending
  | "NEWS" => .news
  | "BSK" => .basket
  | "IOPT" => .indexOption
  | "ICU" => .icuContract
  | "ICS" => .icsContract
  | "PHYSS" => .physicalSettlement
  | name => .other name

def SecurityType.toApiStr : SecurityType → String
  | .stock => "STK"
  | .option => "OPT"
  | .future => "FUT"
  | .forex => "CASH"
  | .index => "IND"
  | .bond => "BOND"
  | .warrant => "WAR"
  | .futureOption => "FOP"
  | .cfd => "CFD"
  | .commodity => "CMDTY"
  | .fund => "FUND"
  | .forward => "FWD"
  | .bill => "BILL"
  | .combo => "BAG"
  | .crypto => "CRYPTO"
  | .fixedIncome => "FIXED"
  | .securitiesLending => "SLB"
  | .news => "NEWS"
  | .basket => "BSK"
  | .indexOption => "IOPT"
  | .icuContract => "ICU"
  | .icsContract => "ICS"
  | .physicalSettlement => "PHYSS"
  | .other name => name

inductive OptionRight where
  | call
  | put
  deriving DecidableEq

structure ContractDefinition (V : Type) where
  conId : ℕ
  symbol : String
  secType : SecurityType
  exchange : String
  primaryExchange : String
  currency : String
  localSymbol : String
  tradingClass : String
  longName : String
  minTick : V
  multiplier : V
  multiplierStated : Bool
  multiplierText : String
  validExchanges : List String
  orderTypes : List String
  orderTypeKey : String
  orderTypeRules : List (String × ℤ)
  algoGroup : String
  marketClassification : String
  marketRuleIds : String
  marketRuleId : Option ℕ
  lastTradeDate : String
  strike : V
  right : Option OptionRight
  stockType : String
  contractMonth : String
  evRule : String
  evMultiplier : ℤ
  underConId : ℕ
  underSymbol : String
  underSecType : String
  lastTradeTime : String
  issueDate : String
  smartVenues : List String
  bondNotes : String
  descAppend : String
  bondType : String
  couponType : String
  nextOptionDate : String
  nextOptionType : String
  ratings : String
  fundName : String
  fundFamily : String
  fundType : String
  fundFrontLoad : String
  fundBackLoad : String
  fundBackLoadTimeInterval : String
  fundManagementFee : String
  fundNotifyAmount : String
  fundMinimumInitialPurchase : String
  fundMinimumSubsequentPurchase : String
  fundBlueSkyStates : String
  fundBlueSkyTerritories : String
  fundDistributionPolicyIndicator : String
  fundAssetType : String
  realExpirationDate : String
  historyLimit : ℤ
  historyLimited : Bool
  sizeIncrement : V
  suggestedSizeIncrement : V
  suggestedSize : V
  minSize : V
  minSizeStated : Bool
  minSizeText : String
  lastPricePrecision : String
  lastSizePrecision : String
  settlementMethod : String
  callable : Bool
  puttable : Bool
  convertible : Bool
  nextOptionPartial : Bool
  fundClosed : Bool
  fundClosedForNewInvestors : Bool
  fundClosedForNewMoney : Bool
  couponText : String
  coupon : V
  aggGroup : ℤ
  priceMagnifier : ℤ
  industry : String
  category : String
  subcategory : String
  country : String
  marketName : String
  joinKey : String
  secIdList : List (String × String)
  cusip : String
  isin : String
  ineligibilityReasonList : List (String × String)

/-- `name_the_ineligibility_reasons`: the words of a table beside the numbers a contract states,
where they are not named. -/
def nameTheIneligibilityReasons (table : List (String × String)) (d : ContractDefinition V) :
    ContractDefinition V :=
  { d with ineligibilityReasonList := d.ineligibilityReasonList.map fun (id, description) =>
      if description ≠ "" then (id, description)
      else (id, ((table.reverse.find? fun entry => entry.1 = id).map Prod.snd).getD description) }

/-! ## What is walked over a record's bytes -/

/-- What stands behind a tag and its equals sign, in a part that begins with them. -/
def stripField (tag : ℕ) (part : Bytes) : Option Bytes :=
  if text tag ++ [eqSign] <+: part then some (part.drop ((text tag).length + 1)) else none

def firstOf (tag : ℕ) (data : Bytes) : Option Bytes :=
  (data.splitOn soh).findSome? (stripField tag)

/-- The identifiers read so far, and the last value stated. -/
structure SecIds where
  lastAltId : String := ""
  secIdList : List (String × String) := []
  cusip : String := ""
  isin : String := ""
  deriving DecidableEq

def SecIds.step (s : SecIds) (part : Bytes) : SecIds :=
  match stripField 455 part, stripField 456 part with
  | some value, _ => { s with lastAltId := fromUtf8Lossy value }
  | none, some value =>
      let kind := fromUtf8Lossy value
      let s := { s with secIdList := s.secIdList ++ [(kind, s.lastAltId)] }
      if kind = "1" then { s with cusip := s.lastAltId, lastAltId := "" }
      else if kind = "4" then { s with isin := s.lastAltId }
      else s
  | none, none => s

/-- What a record states more than once, as it is walked. -/
structure Walk (V : Type) where
  conId : Option String
  symbol : Option String
  exchange : Option String
  orderTypeKey : Option String
  marketRuleIds : Option String
  rules : List (MarketRule V)
  secIdList : List (String × String)
  cusip : String
  isin : String

def walk (nums : Figures V) (data : Bytes) : Walk V :=
  let tags := tagSequence data
  let own := tags.takeWhile fun f => decide (f.1 ∉ sectionTags)
  let secIds := (data.splitOn soh).foldl SecIds.step {}
  { conId := ((own.filter fun f => f.1 = tagIbConId).getLast?).map Prod.snd
    symbol := (firstOf tagSymbol data).map fromUtf8Lossy
    exchange := (firstOf tagSecurityExchange data).map fun value =>
      ((Utf8.decode value).map String.ofList).getD ""
    orderTypeKey := (own.find? fun f => f.1 = tagIbOrderTypeKey).map Prod.snd
    marketRuleIds := (((tags.takeWhile fun f => decide (f.1 ≠ tagMarketRuleStart)).filter fun f =>
      f.1 = tagMarketRuleId).getLast?).map Prod.snd
    rules := parseMarketRules nums data
    secIdList := secIds.secIdList
    cusip := secIds.cusip
    isin := secIds.isin }

/-! ## Reading a record -/

def exchangeFromFix (exchange : String) : String := if exchange = "BEST" then "SMART" else exchange

def deliveredExchange (exchange secType currency : String) (islandForNasdaq : Bool) : String :=
  if eqIgnoreAsciiCase secType "STK" && eqIgnoreAsciiCase currency "USD" &&
      eqIgnoreAsciiCase exchange "NASDAQ" && islandForNasdaq then "ISLAND"
  else exchange

def stated (tags : TagMap) (tag : ℕ) : String := (tags tag).getD ""

def flagged (tags : TagMap) (tag : ℕ) : Bool :=
  (tags tag).any fun v => v == "1" || eqIgnoreAsciiCase v "true"

/-- A value that stands at its default unless stated, and must read where it is. -/
def readOr {α : Type} (read : String → Option α) (default : α) : Option String → Option α
  | none => some default
  | some v => read v

variable [LinearOrder V] [Zero V] [One V]

def finest (bands : List (PriceIncrement V)) : Option V :=
  ((bands.map PriceIncrement.increment).filter fun v => decide (0 < v)).min?

/-- What the venue suggests dealing in, where that is above nought. -/
def suggestion (nums : Figures V) (tags : TagMap) : Option V :=
  ((tags 6581).bind nums.parse).filter fun v => decide (0 < v)

def lotOf (nums : Figures V) (ruled onSmart usListed : Bool) (bands : List (PriceIncrement V))
    (sizeIncrement : V) (suggested : Option V) : V :=
  let band := (bands.reverse.find? fun b => b.lowEdge ≤ 0).or bands.head?
  let whole :=
    if usListed then
      if band.isSome ∧ 0 < nums.trunc sizeIncrement then nums.trunc sizeIncrement else nums.hundred
    else 1
  let lot := if ruled then max (band.elim 0 PriceIncrement.increment) whole else 0
  match suggested with
  | some s => if onSmart then s else max s lot
  | none => lot

def sizesOf (bond byLot onSmart : Bool) (bands : List (PriceIncrement V)) (least : Option V)
    (lot : V) (suggested : Option V) : V × V :=
  match least with
  | some least => (least, least)
  | none =>
      if bond then
        let start := bands.head?.elim 0 PriceIncrement.lowEdge
        (match suggested with
          | some s => if onSmart then s else max s start
          | none => start, lot)
      else if byLot then (lot, lot)
      else (1, 1)

/-- Industry, category and subcategory; one thing stated alone is the category. -/
def industryOf (tags : TagMap) : String × String × String :=
  match tags 6624 with
  | none => ("", "", "")
  | some v =>
      let parts := (splitText '|' v).map trimmed
      let industry := parts[0]?.getD ""
      let category := parts[1]?.getD ""
      let subcategory := parts[2]?.getD ""
      if category = "" ∧ subcategory = "" then ("", industry, subcategory)
      else (industry, category, subcategory)

/-- `apply_order_type_table`: the order types, their rules and the algorithm group. -/
def applyOrderTypeTable (tables : List (String × OrderTypeTable)) (key : String)
    (orderTypes : List String) : List String × OrderTypeTable :=
  if key = "" ∧ tables = [] then (orderTypes, [], "")
  else
    let table := (tables.lookup key).getD ([], "")
    (table.1.map Prod.fst, table)

/-- What a record's fields and its walk are read as, its ineligibility reasons not yet named. -/
def readDefinition (nums : Figures V) (islandForNasdaq : Bool)
    (orderTypeTables : List (String × OrderTypeTable)) (classifications : ℕ → Option String)
    (tags : TagMap) (w : Walk V) : Option (ContractDefinition V) :=
  if tags tagMsgType ≠ some "d" then none
  else do
    let conId ← readOr parseUnsigned 0 w.conId
    let multiplier ← readOr nums.parse 1 (tags tagMultiplier)
    let strike ← readOr nums.parse 0 (tags 202)
    let underConId ← readOr parseUnsigned 0 (tags tagUnderlyingConId)
    let secType := (tags tagSecurityType).elim (.other "") SecurityType.fromFix
    let currency := stated tags 15
    let delivered (exchange : String) :=
      deliveredExchange (exchangeFromFix exchange) secType.toApiStr currency islandForNasdaq
    let exchange := delivered (w.exchange.getD "")
    let sizeBands := w.rules.flatMap MarketRule.sizeIncrements
    let size := finest sizeBands
    let suggested := suggestion nums tags
    let validExchanges := (tags 6046).elim [] fun v => (splitText ',' v).map exchangeFromFix
    let orderTypeKey := w.orderTypeKey.getD ""
    let ordering := applyOrderTypeTable orderTypeTables orderTypeKey
      ((tags tagIbOrderTypes).elim [] (splitText ','))
    let marketClassification := (classifications conId).getD ""
    let onSmart := exchange == "SMART" || exchange == "BEST"
    let usListed := (secType, marketClassification) == (.stock, "USSTK") ||
      (secType, marketClassification) == (.warrant, "USWAR")
    let lot := lotOf nums (!w.rules.isEmpty) onSmart usListed sizeBands (size.getD 0) suggested
    let minSizeStated := ((tags 8193).bind parseI32).any (· ≠ 0)
    let minSizeText := stated tags 8175
    let least :=
      if 0 < size.getD 0 ∧ size.getD 0 < 1 then some (size.getD 0)
      else if minSizeStated then some ((nums.parse minSizeText).getD nums.tenThousandth)
      else none
    let bond := secType == .bond || secType == .bill || secType == .fixedIncome
    let byLot := (ordering.1.any fun t => t == "BOARDLOT" || t == "DFTLOT") &&
      validExchanges.contains exchange
    let sizes := sizesOf bond byLot onSmart sizeBands least lot suggested
    let historyLimit := (tags 6319).bind fun v => parseI64 (trimBlanks v.toList)
    let industry := industryOf tags
    some {
      conId := conId
      symbol := w.symbol.getD ""
      secType := secType
      exchange := exchange
      primaryExchange := delivered (stated tags 6470)
      currency := currency
      localSymbol := stated tags 6035
      tradingClass := stated tags tagIbTradingClass
      longName := stated tags 306
      minTick := (finest (w.rules.flatMap MarketRule.priceIncrements)).getD 0
      multiplier := multiplier
      multiplierStated := (tags tagMultiplier).isSome
      multiplierText := stated tags tagMultiplier
      validExchanges := validExchanges
      orderTypes := ordering.1
      orderTypeKey := orderTypeKey
      orderTypeRules := ordering.2.1
      algoGroup := ordering.2.2
      marketClassification := marketClassification
      marketRuleIds := w.marketRuleIds.getD ""
      marketRuleId := w.marketRuleIds.bind parseUnsigned
      lastTradeDate := ((tags 541).or (tags 200)).getD ""
      strike := strike
      right := (tags 201).bind fun v =>
        if v ∈ ["C", "Call", "1"] then some .call
        else if v ∈ ["P", "Put", "0"] then some .put
        else none
      stockType := stated tags 8077
      contractMonth := stated tags 200
      evRule := stated tags 6858
      evMultiplier := ((tags 6859).bind fun v => parseI64 (trimBlanks v.toList)).getD 0
      underConId := underConId
      underSymbol := stated tags 6855
      underSecType := stated tags 310
      lastTradeTime := stated tags 8584
      issueDate := stated tags 225
      smartVenues := (tags 6177).elim [] fun v =>
        (((splitText ',' v).map trimmed).filter (· ≠ "")).map exchangeFromFix
      bondNotes := stated tags 6493
      descAppend := if stated tags 6494 = "" then stated tags 6853 else stated tags 6494
      bondType := stated tags 6495
      couponType := stated tags 6496
      nextOptionDate := stated tags 6501
      nextOptionType := stated tags 6502
      ratings := stated tags 6720
      fundName := stated tags 6481
      fundFamily := stated tags 6472
      fundType := stated tags 6473
      fundFrontLoad := stated tags 6474
      fundBackLoad := stated tags 6475
      fundBackLoadTimeInterval := stated tags 6482
      fundManagementFee := stated tags 6476
      fundNotifyAmount := stated tags 6478
      fundMinimumInitialPurchase := stated tags 6479
      fundMinimumSubsequentPurchase := stated tags 8505
      fundBlueSkyStates := stated tags 8150
      fundBlueSkyTerritories := stated tags 8151
      fundDistributionPolicyIndicator := stated tags 8502
      fundAssetType := stated tags 8503
      realExpirationDate := if stated tags 8383 = "" then stated tags 6614 else stated tags 8383
      historyLimit := historyLimit.getD (-1)
      historyLimited := historyLimit.any (· ≠ 0)
      sizeIncrement := sizes.2
      suggestedSizeIncrement := max (size.getD 0) (suggested.getD 0)
      suggestedSize := suggested.getD 0
      minSize := sizes.1
      minSizeStated := minSizeStated
      minSizeText := minSizeText
      lastPricePrecision := trimmed (stated tags 8598)
      lastSizePrecision := trimmed (stated tags 8599)
      settlementMethod := stated tags 6660
      callable := flagged tags 6497
      puttable := flagged tags 6498
      convertible := flagged tags 6499
      nextOptionPartial := flagged tags 6500
      fundClosed := flagged tags 6477
      fundClosedForNewInvestors := flagged tags 6511
      fundClosedForNewMoney := flagged tags 6512
      couponText := stated tags 223
      coupon := ((tags 223).bind fun v => nums.parse (trimmed v)).getD 0
      aggGroup := ((tags 6178).bind fun v => parseI32 (trimmed v)).getD 0
      priceMagnifier := ((tags 6021).bind fun v => parseI32 (trimmed v)).getD 0
      industry := industry.1
      category := industry.2.1
      subcategory := industry.2.2
      country := stated tags 6911
      marketName := stated tags 58
      joinKey := stated tags 6256
      secIdList := w.secIdList
      cusip := w.cusip
      isin := w.isin
      ineligibilityReasonList := (tags 6765).elim [] fun v =>
        (((splitText ',' v).map trimmed).filter (· ≠ "")).map fun id => (id, "") }

/-- `parse_secdef_record`: one contract out of a reply, with the tables the reply states once for
every contract in it. -/
def parseSecdefRecord (nums : Figures V) (islandForNasdaq : Bool)
    (orderTypeTables : List (String × OrderTypeTable)) (classifications : ℕ → Option String)
    (data : Bytes) : Option (ContractDefinition V) :=
  (readDefinition nums islandForNasdaq orderTypeTables classifications (fixParse data)
    (walk nums data)).map (nameTheIneligibilityReasons (ineligibilityDescriptions data))

def parseSecdefResponse (nums : Figures V) (islandForNasdaq : Bool) (data : Bytes) :
    Option (ContractDefinition V) :=
  parseSecdefRecord nums islandForNasdaq (parseOrderTypeTables data)
    (parseMarketClassifications data) data

/-! ## What a definition depends on -/

lemma applyOrderTypeTable_of_ne {tables : List (String × OrderTypeTable)} {key : String}
    (h : key ≠ "" ∨ tables ≠ []) (orderTypes orderTypes' : List String) :
    applyOrderTypeTable tables key orderTypes = applyOrderTypeTable tables key orderTypes' := by
  have hno : ¬ (key = "" ∧ tables = []) := fun hcon => h.elim (· hcon.1) (· hcon.2)
  rw [applyOrderTypeTable, applyOrderTypeTable, if_neg hno, if_neg hno]

/-- The tags a record's fields are always looked up by, but for its type and its order types. -/
def keyedTags : List ℕ :=
  [15, 58, 167, 200, 201, 202, 223, 225, 231, 306, 310, 541, 6021, 6035, 6046, 6058, 6177, 6178,
    6256, 6319, 6346, 6470, 6472, 6473, 6474, 6475, 6476, 6477, 6478, 6479, 6481, 6482, 6493,
    6494, 6495, 6496, 6497, 6498, 6499, 6500, 6501, 6502, 6511, 6512, 6581, 6624, 6660, 6720,
    6765, 6855, 6858, 6859, 6911, 8077, 8150, 8151, 8175, 8193, 8383, 8502, 8503, 8505, 8584,
    8598, 8599]

lemma readDefinition_congr {islandForNasdaq : Bool}
    {orderTypeTables : List (String × OrderTypeTable)} {classifications : ℕ → Option String}
    {tags tags' : TagMap} {w : Walk V} (htype : tags tagMsgType = tags' tagMsgType)
    (horder : applyOrderTypeTable orderTypeTables (w.orderTypeKey.getD "")
        ((tags tagIbOrderTypes).elim [] (splitText ',')) =
      applyOrderTypeTable orderTypeTables (w.orderTypeKey.getD "")
        ((tags' tagIbOrderTypes).elim [] (splitText ',')))
    (hexpiry : stated tags 8383 = "" → tags 6614 = tags' 6614)
    (happend : stated tags 6494 = "" → tags 6853 = tags' 6853)
    (h : ∀ t ∈ keyedTags, tags t = tags' t) :
    readDefinition nums islandForNasdaq orderTypeTables classifications tags w =
      readDefinition nums islandForNasdaq orderTypeTables classifications tags' w := by
  -- the two fields read only where another states nothing
  have hsecond {t u : ℕ} (ht : t ∈ keyedTags) (hu : stated tags t = "" → tags u = tags' u) :
      (if (tags' t).getD "" = "" then (tags u).getD "" else (tags' t).getD "") =
        if (tags' t).getD "" = "" then (tags' u).getD "" else (tags' t).getD "" := by
    rw [stated, h t ht] at hu
    split_ifs with hnone
    · rw [hu hnone]
    · rfl
  have hexpires := hsecond (by decide) hexpiry
  have happends := hsecond (by decide) happend
  unfold readDefinition
  simp (disch := decide) only [stated, flagged, suggestion, industryOf, htype, horder, h]
  rw [hexpires, happends]
  rfl

lemma readDefinition_some (islandForNasdaq : Bool)
    (orderTypeTables : List (String × OrderTypeTable)) (classifications : ℕ → Option String)
    {tags : TagMap} {w : Walk V} (htype : tags tagMsgType = some "d") {id : ℕ}
    (hid : readOr parseUnsigned 0 w.conId = some id)
    (hmultiplier : (readOr nums.parse 1 (tags tagMultiplier)).isSome)
    (hstrike : (readOr nums.parse 0 (tags 202)).isSome)
    (hunder : (readOr parseUnsigned 0 (tags tagUnderlyingConId)).isSome) :
    ∃ d, readDefinition nums islandForNasdaq orderTypeTables classifications tags w = some d ∧
      d.conId = id := by
  obtain ⟨multiplier, hmultiplier⟩ := Option.isSome_iff_exists.1 hmultiplier
  obtain ⟨strike, hstrike⟩ := Option.isSome_iff_exists.1 hstrike
  obtain ⟨underConId, hunder⟩ := Option.isSome_iff_exists.1 hunder
  unfold readDefinition
  rw [if_neg (not_not_intro htype), hid, hmultiplier, hstrike, hunder]
  exact ⟨_, rfl, rfl⟩

end IbkrDx.Contracts
