import IbkrDx.Protocol.TextFrames
import Mathlib.Data.Int.Order.Lemmas

/-!
# The conditions of an order

The conditions an order waits on, as a replace or a placement states them: one repeating group a
condition, eleven fields each, every unused one left empty; and as a report of the order is read.

* **`conditions_read_back`** — a list of conditions reads back, each in its place.
-/

namespace IbkrDx

open Texts

/-! ## Conditions -/

/-- What an `f64` is read from and written as, and what it is taken for. -/
structure FloatTexts (F : Type) where
  /-- `str::parse::<f64>`. -/
  parse : List Char → Option F
  /-- `f64`'s `Display`. -/
  shown : F → List Char
  priceFromF64 : F → Int64
  asI32 : F → Int32
  asI64 : F → Int64
  /-- It is written in visible ASCII characters. -/
  visible : ∀ x, ∀ c ∈ shown x, 33 ≤ c.toNat ∧ c.toNat ≤ 126

/-- A condition that must be met before an order activates. -/
inductive OrderCondition (F : Type) where
  | price (conId : Int64) (exchange : String) (price : Int64) (isMore : Bool)
      (triggerMethod : Int32) (isConjunctionConnection : Bool)
  | time (time : String) (isMore isConjunctionConnection : Bool)
  | margin (percent : Int32) (isMore isConjunctionConnection : Bool)
  | execution (symbol exchange secType : String) (isConjunctionConnection : Bool)
  | volume (conId : Int64) (exchange : String) (volume : Int64)
      (isMore isConjunctionConnection : Bool)
  | percentChange (conId : Int64) (exchange : String) (percent : F)
      (isMore isConjunctionConnection : Bool)
  deriving DecidableEq

namespace OrderCondition

variable {F : Type}

def isConjunctionConnection : OrderCondition F → Bool
  | .price _ _ _ _ _ joined => joined
  | .time _ _ joined => joined
  | .margin _ _ joined => joined
  | .execution _ _ _ joined => joined
  | .volume _ _ _ _ joined => joined
  | .percentChange _ _ _ _ joined => joined

end OrderCondition

/-! ## Writing them -/

def priceScale : ℕ := 100000000

/-- The eight digits of a fraction without the zeros at their end. -/
def fractionDigits (frac : ℕ) : List Char :=
  ((((Decimal.low 8 frac).map fun b => Char.ofNat b.toNat).reverse).dropWhile (· = '0')).reverse

def formatPrice (price : Int64) : List Char :=
  let whole := price.toInt.tdiv priceScale
  let frac := (price.toInt.tmod priceScale).natAbs
  (if price.toInt < 0 ∧ whole = 0 then ['-'] else []) ++ signed whole ++
    if frac = 0 then [] else '.' :: fractionDigits frac

section

variable {F : Type} (R : FloatTexts F)

def conjunction (last : Bool) (c : OrderCondition F) : String :=
  if last then "n" else if c.isConjunctionConnection then "a" else "o"

def operator (isMore : Bool) : String := if isMore then ">=" else "<="

def executionExchange (exchange : String) : String :=
  if exchange = "SMART" ∨ exchange = "BEST" then "*" else exchange

def packedExecution (symbol exchange secType : String) : String :=
  s!"symbol={symbol};exchange={executionExchange exchange};securityType={secType};"

def conditionStrings (last : Bool) (c : OrderCondition F) : List String :=
  match c with
  | .price conId exchange price isMore triggerMethod _ =>
      ["1", conjunction last c, operator isMore, .ofList (signed conId.toInt), exchange,
        .ofList (signed triggerMethod.toInt), .ofList (formatPrice price), "", "", "", ""]
  | .time time isMore _ =>
      ["3", conjunction last c, operator isMore, "", "", "", "", time, "", "", ""]
  | .margin percent isMore _ =>
      ["4", conjunction last c, operator isMore, "", "", "", "", "",
        .ofList (signed percent.toInt), "", ""]
  | .execution symbol exchange secType _ =>
      ["5", conjunction last c, "", "", "", "", "", "", "", "",
        packedExecution symbol exchange secType]
  | .volume conId exchange volume isMore _ =>
      ["6", conjunction last c, operator isMore, .ofList (signed conId.toInt), exchange, "", "",
        "", "", .ofList (signed volume.toInt), ""]
  | .percentChange conId exchange percent isMore _ =>
      ["7", conjunction last c, operator isMore, .ofList (signed conId.toInt), exchange, "", "",
        "", .ofList (R.shown percent), "", ""]

/-- `build_condition_strings`: how many, and the texts of each. -/
def buildConditionStrings (conditions : List (OrderCondition F)) : List String :=
  .ofList (numeral conditions.length) :: (conditions.zipIdx.map fun x =>
    conditionStrings R (decide (x.2 = conditions.length - 1)) x.1).flatten

def conditionTags : List UInt32 :=
  [6222, 6137, 6126, 6123, 6124, 6127, 6125, 6223, 6245, 6263, 6246]

def onOff (on : Bool) : String := if on then "1" else "0"

/-- The fields `push_order_attrs` writes for an order's conditions. -/
def pushConditions (conditions : List (OrderCondition F))
    (ignoreRth includeOvernight cancelOrder : Bool) : List (UInt32 × String) :=
  if conditions = [] then []
  else
    let strs := buildConditionStrings R conditions
    (6136, strs.headD "") ::
      [(6128, onOff ignoreRth), (8612, onOff includeOvernight), (6151, onOff cancelOrder)] ++
        (List.range conditions.length).flatMap fun i =>
          conditionTags.zip (strs.drop (1 + i * conditionTags.length))

/-! ## Reading them -/

def cell (c : TagMap) (tag : ℕ) : Option (List Char) := (c tag).map fun s => trimBlanks s.toList

def statedText (c : TagMap) (tag : ℕ) : String := .ofList ((cell c tag).getD [])

def statedNumber (c : TagMap) (tag : ℕ) : Option F := (cell c tag).bind R.parse

def statedConId (c : TagMap) : Int64 := (((cell c 6123).bind parseI64).map Int64.ofInt).getD 0

def statedOperator (c : TagMap) : Option Bool :=
  if cell c 6126 = some ">=".toList then some true
  else if cell c 6126 = some "<=".toList then some false
  else none

def statedConjunction (c : TagMap) : Bool := decide (cell c 6137 = some "a".toList)

def packedField (packed : List Char) (name : String) : String :=
  .ofList (((packed.splitOn ';').findSome? (stripPrefix (name.toList ++ ['=']))).getD [])

def decodeCondition (c : TagMap) : Option (OrderCondition F) :=
  match (cell c 6222).map String.ofList with
  | some "1" => do
      let price ← statedNumber R c 6125
      let isMore ← statedOperator c
      return .price (statedConId c) (statedText c 6124) (R.priceFromF64 price) isMore 0
        (statedConjunction c)
  | some "3" => do
      let isMore ← statedOperator c
      return .time (statedText c 6223) isMore (statedConjunction c)
  | some "4" => do
      let percent ← statedNumber R c 6245
      let isMore ← statedOperator c
      return .margin (R.asI32 percent) isMore (statedConjunction c)
  | some "5" =>
      let packed := (statedText c 6246).toList
      some (.execution (packedField packed "symbol") (packedField packed "exchange")
        (packedField packed "securityType") (statedConjunction c))
  | some "6" => do
      let volume ← statedNumber R c 6263
      let isMore ← statedOperator c
      return .volume (statedConId c) (statedText c 6124) (R.asI64 volume) isMore
        (statedConjunction c)
  | some "7" => do
      let percent ← statedNumber R c 6245
      let isMore ← statedOperator c
      return .percentChange (statedConId c) (statedText c 6124) percent isMore
        (statedConjunction c)
  | _ => none

def decodeConditions (msg : Bytes) : List (OrderCondition F) :=
  (fixParseRepeating msg 6222).filterMap (decodeCondition R)

end

/-! ## What a condition reads back as -/

/-- A text a caller states: no separator of the wire or of a packed field, no blanks around it. -/
def Tidy (s : String) : Prop := '\x01' ∉ s.toList ∧ ';' ∉ s.toList ∧ Trimmed s.toList

instance : DecidablePred Tidy := fun _ => inferInstanceAs (Decidable (_ ∧ _))

namespace OrderCondition

variable {F : Type}

/-- A condition whose texts are tidy and whose numbers' decimal texts read back exactly. -/
def Writable (R : FloatTexts F) : OrderCondition F → Prop
  | .price _ exchange p _ _ _ =>
      Tidy exchange ∧ (R.parse (formatPrice p)).map R.priceFromF64 = some p
  | .time t _ _ => Tidy t
  | .margin percent _ _ => (R.parse (signed percent.toInt)).map R.asI32 = some percent
  | .execution symbol exchange secType _ => Tidy symbol ∧ Tidy exchange ∧ Tidy secType
  | .volume _ exchange v _ _ =>
      Tidy exchange ∧ (R.parse (signed v.toInt)).map R.asI64 = some v
  | .percentChange _ exchange percent _ _ =>
      Tidy exchange ∧ R.parse (R.shown percent) = some percent

/-- A condition behind the wire: every character outside ASCII a star, no trigger method, and the
last joins nothing. -/
def readBack (last : Bool) : OrderCondition F → OrderCondition F
  | .price conId exchange p isMore _ joined =>
      .price conId (starred exchange) p isMore 0 (joined && !last)
  | .time t isMore joined => .time (starred t) isMore (joined && !last)
  | .margin percent isMore joined => .margin percent isMore (joined && !last)
  | .execution symbol exchange secType joined =>
      .execution (starred symbol) (starred (executionExchange exchange)) (starred secType)
        (joined && !last)
  | .volume conId exchange v isMore joined =>
      .volume conId (starred exchange) v isMore (joined && !last)
  | .percentChange conId exchange percent isMore joined =>
      .percentChange conId (starred exchange) percent isMore (joined && !last)

end OrderCondition

/-! ## Texts on the wire -/

def star (c : Char) : Char := if c.val < 128 then c else '*'

lemma toList_starred (s : String) : (starred s).toList = s.toList.map star := String.toList_ofList

lemma starred_ofList (v : List Char) : starred (.ofList v) = .ofList (v.map star) := by
  rw [starred, String.toList_ofList]
  rfl

lemma star_of_range {c : Char} (h : 33 ≤ c.toNat ∧ c.toNat ≤ 126) : star c = c :=
  if_pos (UInt32.lt_iff_toNat_lt.2 (lt_of_le_of_lt h.2 (by decide)))

lemma whitespace_star {c : Char} (h : whitespace c = false) : whitespace (star c) = false := by
  unfold star
  split
  · exact h
  · decide

lemma trim_visible {v : List Char} (h : ∀ c ∈ v, 33 ≤ c.toNat ∧ c.toNat ≤ 126) :
    trimBlanks (starred (.ofList v)).toList = v := by
  have hstar : v.map star = v := (List.map_congr_left fun c hc => star_of_range (h c hc)).trans
    (List.map_id v)
  rw [starred_ofList, String.toList_ofList, hstar, (Trimmed.of_range h).trim_eq]

lemma trim_starred {s : String} (h : Trimmed s.toList) :
    trimBlanks (starred s).toList = (starred s).toList := by
  obtain ⟨hhead, hlast⟩ := trimmed_iff.1 h
  refine Trimmed.trim_eq (trimmed_iff.2 ⟨?_, ?_⟩)
  · rw [toList_starred, List.head?_map]
    intro c hc
    obtain ⟨d, hd, rfl⟩ := Option.mem_map.1 hc
    exact whitespace_star (hhead d hd)
  · rw [toList_starred, List.getLast?_map]
    intro c hc
    obtain ⟨d, hd, rfl⟩ := Option.mem_map.1 hc
    exact whitespace_star (hlast d hd)

lemma range_of_mem_formatPrice {p : Int64} {c : Char} (h : c ∈ formatPrice p) :
    33 ≤ c.toNat ∧ c.toNat ≤ 126 := by
  have hdigits : ∀ c ∈ fractionDigits (p.toInt.tmod priceScale).natAbs,
      33 ≤ c.toNat ∧ c.toNat ≤ 126 := by
    intro c hc
    have hmem := (List.dropWhile_sublist _).subset (List.mem_reverse.1 hc)
    obtain ⟨b, hb, rfl⟩ := List.mem_map.1 (List.mem_reverse.1 hmem)
    have hdigit := Decimal.isDigit_of_mem_low hb
    rw [Decimal.isDigit, decide_eq_true_iff, UInt8.le_iff_toNat_le, UInt8.le_iff_toNat_le] at hdigit
    have hlow : 48 ≤ b.toNat := hdigit.1
    have hhigh : b.toNat ≤ 57 := hdigit.2
    rw [Utf8.toNat_ofNat (Or.inl (by omega))]
    omega
  simp only [formatPrice, List.mem_append] at h
  rcases h with (h | h) | h
  · split at h
    · rw [List.mem_singleton.1 h]
      decide
    · exact absurd h List.not_mem_nil
  · exact range_of_mem_signed h
  · split at h
    · exact absurd h List.not_mem_nil
    · rcases List.mem_cons.1 h with rfl | h
      · decide
      · exact hdigits c h

/-! ## One condition -/

def Carries (c : TagMap) (strs : List String) : Prop :=
  ∀ f ∈ conditionTags.zip strs, c f.1.toNat = some (starred f.2)

lemma carries_zip {m : TagMap} {s₁ s₂ s₃ s₄ s₅ s₆ s₇ s₈ s₉ s₁₀ s₁₁ : String}
    (h : Carries m [s₁, s₂, s₃, s₄, s₅, s₆, s₇, s₈, s₉, s₁₀, s₁₁]) :
    m 6222 = some (starred s₁) ∧ m 6137 = some (starred s₂) ∧ m 6126 = some (starred s₃) ∧
      m 6123 = some (starred s₄) ∧ m 6124 = some (starred s₅) ∧ m 6127 = some (starred s₆) ∧
      m 6125 = some (starred s₇) ∧ m 6223 = some (starred s₈) ∧ m 6245 = some (starred s₉) ∧
      m 6263 = some (starred s₁₀) ∧ m 6246 = some (starred s₁₁) := by
  simpa [Carries, conditionTags] using h

section

variable {F : Type} (R : FloatTexts F)

lemma packedField_packed {symbol exchange secType : List Char} (hsymbol : ';' ∉ symbol)
    (hexchange : ';' ∉ exchange) (hsecType : ';' ∉ secType) {packed : List Char}
    (hpacked : packed = [("symbol", symbol), ("exchange", exchange),
      ("securityType", secType)].flatMap fun f => f.1.toList ++ '=' :: f.2 ++ [';']) :
    packedField packed "symbol" = .ofList symbol ∧
      packedField packed "exchange" = .ofList exchange ∧
      packedField packed "securityType" = .ofList secType := by
  have hparts : packed.splitOn ';' = ["symbol".toList ++ '=' :: symbol,
      "exchange".toList ++ '=' :: exchange, "securityType".toList ++ '=' :: secType, []] := by
    rw [hpacked, splitOn_flatMap ';' fun f : String × List Char => f.1.toList ++ '=' :: f.2]
    · rfl
    · simp [hsymbol, hexchange, hsecType]
  simp only [packedField, hparts]
  refine ⟨?_, ?_, ?_⟩
  · rfl
  · rfl
  · rfl

variable {m : TagMap}

lemma cell_visible {t : ℕ} {v : List Char} (hm : m t = some (starred (.ofList v)))
    (h : ∀ c ∈ v, 33 ≤ c.toNat ∧ c.toNat ≤ 126) : cell m t = some v := by
  rw [cell, hm, Option.map_some, trim_visible h]

lemma statedText_tidy {t : ℕ} {s : String} (hm : m t = some (starred s))
    (h : Tidy s) : statedText m t = starred s := by
  rw [statedText, cell, hm, Option.map_some, trim_starred h.2.2, Option.getD_some,
    String.ofList_toList]

lemma statedOperator_operator {isMore : Bool}
    (hm : m 6126 = some (starred (operator isMore))) : statedOperator m = some isMore := by
  rw [statedOperator, cell, hm]
  cases isMore <;> decide

lemma statedConjunction_conjunction {last : Bool} {c : OrderCondition F}
    (hm : m 6137 = some (starred (conjunction last c))) :
    statedConjunction m = (c.isConjunctionConnection && !last) := by
  rw [statedConjunction, cell, hm, conjunction]
  cases last <;> cases c.isConjunctionConnection <;> decide

lemma statedConId_signed {conId : Int64}
    (hm : m 6123 = some (starred (.ofList (signed conId.toInt)))) : statedConId m = conId := by
  rw [statedConId, cell_visible hm fun c hc => range_of_mem_signed hc, Option.bind_some,
    parseI64_signed (Int64.le_toInt conId) (Int64.toInt_lt conId), Option.map_some,
    Option.getD_some, Int64.ofInt_toInt]

lemma statedNumber_visible {t : ℕ} {v : List Char}
    (hm : m t = some (starred (.ofList v))) (h : ∀ c ∈ v, 33 ≤ c.toNat ∧ c.toNat ≤ 126) :
    statedNumber R m t = R.parse v := by
  rw [statedNumber, cell_visible hm h, Option.bind_some]

def packedNames (symbol exchange secType : String) : List (String × List Char) :=
  [("symbol", symbol.toList), ("exchange", (executionExchange exchange).toList),
    ("securityType", secType.toList)]

lemma toList_packedExecution (symbol exchange secType : String) :
    (packedExecution symbol exchange secType).toList =
      (packedNames symbol exchange secType).flatMap fun f => f.1.toList ++ '=' :: f.2 ++ [';'] := by
  show ("symbol=" ++ symbol ++ ";exchange=" ++ executionExchange exchange ++ ";securityType=" ++
    secType ++ ";").toList = _
  simp [packedNames, String.toList_append]

lemma executionExchange_tidy {exchange : String} (h : Tidy exchange) :
    Tidy (executionExchange exchange) := by
  unfold executionExchange
  split
  · decide
  · exact h

lemma not_mem_map_star {c : Char} (hc : c ≠ '*') {v : List Char} (h : c ∉ v) :
    c ∉ v.map star := by
  intro hcon
  obtain ⟨d, hd, hstar⟩ := List.mem_map.1 hcon
  unfold star at hstar
  split at hstar
  · exact h (hstar ▸ hd)
  · exact hc hstar.symm

lemma packedField_starred {symbol exchange secType : String} (hsymbol : Tidy symbol)
    (hexchange : Tidy exchange) (hsecType : Tidy secType)
    (hm : m 6246 = some (starred (packedExecution symbol exchange secType))) :
    packedField (statedText m 6246).toList "symbol" = starred symbol ∧
      packedField (statedText m 6246).toList "exchange" = starred (executionExchange exchange) ∧
      packedField (statedText m 6246).toList "securityType" = starred secType := by
  have htrimmed : Trimmed (packedExecution symbol exchange secType).toList := by
    rw [toList_packedExecution, trimmed_iff]
    refine ⟨?_, ?_⟩
    · intro c hc
      obtain rfl : 's' = c := by simpa [packedNames] using hc
      decide
    · intro c hc
      rw [packedNames, List.flatMap_cons, List.flatMap_cons, List.flatMap_cons, List.flatMap_nil,
        List.append_nil, ← List.append_assoc, ← List.append_assoc, List.getLast?_concat] at hc
      obtain rfl : ';' = c := Option.some.inj hc
      decide
  have htext : (statedText m 6246).toList =
      (packedExecution symbol exchange secType).toList.map star := by
    rw [statedText, cell, hm, Option.map_some, trim_starred htrimmed, Option.getD_some,
      String.toList_ofList, toList_starred]
  have hnames : (packedExecution symbol exchange secType).toList.map star =
      [("symbol", symbol.toList.map star),
        ("exchange", (executionExchange exchange).toList.map star),
        ("securityType", secType.toList.map star)].flatMap fun f =>
          f.1.toList ++ '=' :: f.2 ++ [';'] := by
    have hstars : "symbol".toList.map star = "symbol".toList ∧
        "exchange".toList.map star = "exchange".toList ∧
        "securityType".toList.map star = "securityType".toList ∧ star '=' = '=' ∧
        star ';' = ';' := by decide
    obtain ⟨h₁, h₂, h₃, h₄, h₅⟩ := hstars
    rw [toList_packedExecution, packedNames]
    simp only [List.flatMap_cons, List.flatMap_nil, List.map_append, List.map_cons, List.map_nil,
      h₁, h₂, h₃, h₄, h₅]
  have hread := packedField_packed (not_mem_map_star (by decide) hsymbol.2.1)
    (not_mem_map_star (by decide) (executionExchange_tidy hexchange).2.1)
    (not_mem_map_star (by decide) hsecType.2.1) (htext.trans hnames)
  exact hread

lemma decodeCondition_carries {c : OrderCondition F} (h : c.Writable R) {last : Bool}
    (hm : Carries m (conditionStrings R last c)) :
    decodeCondition R m = some (c.readBack last) := by
  have hkinds : ∀ {kind : String}, trimBlanks (starred kind).toList = kind.toList →
      m 6222 = some (starred kind) → (cell m 6222).map String.ofList = some kind := by
    intro kind htrim hkind
    rw [cell, hkind, Option.map_some, Option.map_some, htrim, String.ofList_toList]
  cases c with
  | price conId exchange p isMore trigger joined =>
      obtain ⟨hkind, hconj, hop, hcon, hexch, -, hprice, -⟩ := carries_zip hm
      obtain ⟨f, hf, hp⟩ := Option.map_eq_some_iff.1 h.2
      have hread : statedNumber R m 6125 = some f :=
        (statedNumber_visible R hprice fun c hc => range_of_mem_formatPrice hc).trans hf
      have htext : statedText m 6124 = starred exchange := statedText_tidy hexch h.1
      simp only [decodeCondition, hkinds (by decide) hkind, hread, statedOperator_operator hop,
        statedConId_signed hcon, statedConjunction_conjunction hconj, Option.bind_eq_bind,
        Option.bind_some, Option.pure_def, htext, hp]
      rfl
  | time t isMore joined =>
      obtain ⟨hkind, hconj, hop, -, -, -, -, htime, -⟩ := carries_zip hm
      have htext : statedText m 6223 = starred t := statedText_tidy htime h
      simp only [decodeCondition, hkinds (by decide) hkind, statedOperator_operator hop,
        statedConjunction_conjunction hconj, Option.bind_eq_bind, Option.bind_some,
        Option.pure_def, htext]
      rfl
  | margin percent isMore joined =>
      obtain ⟨hkind, hconj, hop, -, -, -, -, -, hpercent, -⟩ := carries_zip hm
      obtain ⟨f, hf, hp⟩ := Option.map_eq_some_iff.1 h
      have hread : statedNumber R m 6245 = some f :=
        (statedNumber_visible R hpercent fun c hc => range_of_mem_signed hc).trans hf
      simp only [decodeCondition, hkinds (by decide) hkind, hread, statedOperator_operator hop,
        statedConjunction_conjunction hconj, Option.bind_eq_bind, Option.bind_some,
        Option.pure_def, hp]
      rfl
  | execution symbol exchange secType joined =>
      obtain ⟨hkind, hconj, -, -, -, -, -, -, -, -, hpacked⟩ := carries_zip hm
      obtain ⟨hsymbol, hexchange, hsecType⟩ := packedField_starred h.1 h.2.1 h.2.2 hpacked
      simp only [decodeCondition, hkinds (by decide) hkind, hsymbol, hexchange, hsecType,
        statedConjunction_conjunction hconj]
      rfl
  | volume conId exchange v isMore joined =>
      obtain ⟨hkind, hconj, hop, hcon, hexch, -, -, -, -, hvolume, -⟩ := carries_zip hm
      obtain ⟨f, hf, hp⟩ := Option.map_eq_some_iff.1 h.2
      have hread : statedNumber R m 6263 = some f :=
        (statedNumber_visible R hvolume fun c hc => range_of_mem_signed hc).trans hf
      have htext : statedText m 6124 = starred exchange := statedText_tidy hexch h.1
      simp only [decodeCondition, hkinds (by decide) hkind, hread, statedOperator_operator hop,
        statedConId_signed hcon, statedConjunction_conjunction hconj, Option.bind_eq_bind,
        Option.bind_some, Option.pure_def, htext, hp]
      rfl
  | percentChange conId exchange percent isMore joined =>
      obtain ⟨hkind, hconj, hop, hcon, hexch, -, -, -, hpercent, -⟩ := carries_zip hm
      have hread : statedNumber R m 6245 = some percent :=
        (statedNumber_visible R hpercent (R.visible percent)).trans h.2
      have htext : statedText m 6124 = starred exchange := statedText_tidy hexch h.1
      simp only [decodeCondition, hkinds (by decide) hkind, hread, statedOperator_operator hop,
        statedConId_signed hcon, statedConjunction_conjunction hconj, Option.bind_eq_bind,
        Option.bind_some, Option.pure_def, htext]
      rfl

/-! ## A list of conditions -/

def conditionGroups (conditions : List (OrderCondition F)) : List (List (UInt32 × String)) :=
  conditions.zipIdx.map fun x =>
    conditionTags.zip (conditionStrings R (decide (x.2 = conditions.length - 1)) x.1)

lemma length_conditionStrings (last : Bool) (c : OrderCondition F) :
    (conditionStrings R last c).length = conditionTags.length := by
  cases c <;> rfl

lemma flatMap_range_zip {α β : Type*} (ts : List α) : ∀ bs : List (List β),
    (∀ b ∈ bs, b.length = ts.length) →
    (List.range bs.length).flatMap (fun i => ts.zip (bs.flatten.drop (i * ts.length))) =
      (bs.map ts.zip).flatten
  | [], _ => rfl
  | b :: bs, h => by
      obtain ⟨hb, hbs⟩ := List.forall_mem_cons.1 h
      have hfirst : ts.zip ((b :: bs).flatten.drop (0 * ts.length)) = ts.zip b := by
        rw [Nat.zero_mul, List.drop_zero, List.flatten_cons]
        conv_lhs => rw [← List.append_nil ts, List.zip_append hb.symm, List.zip_nil_left,
          List.append_nil]
      have hrest : ∀ i, (b :: bs).flatten.drop ((i + 1) * ts.length) =
          bs.flatten.drop (i * ts.length) := by
        intro i
        rw [List.flatten_cons, Nat.succ_mul, Nat.add_comm, ← hb, List.drop_append,
          List.drop_eq_nil_of_le (Nat.le_add_right _ _), List.nil_append, Nat.add_sub_cancel_left]
      rw [List.length_cons, List.range_succ_eq_map, List.flatMap_cons, hfirst, List.flatMap_map]
      simp only [Nat.succ_eq_add_one, hrest]
      rw [flatMap_range_zip ts bs hbs, List.map_cons, List.flatten_cons]

def conditionHead (conditions : List (OrderCondition F))
    (ignoreRth includeOvernight cancelOrder : Bool) : List (UInt32 × String) :=
  if conditions = [] then []
  else (6136, .ofList (numeral conditions.length)) ::
    [(6128, onOff ignoreRth), (8612, onOff includeOvernight), (6151, onOff cancelOrder)]

lemma pushConditions_eq (conditions : List (OrderCondition F))
    (ignoreRth includeOvernight cancelOrder : Bool) :
    pushConditions R conditions ignoreRth includeOvernight cancelOrder =
      conditionHead conditions ignoreRth includeOvernight cancelOrder ++
        (conditionGroups R conditions).flatten := by
  by_cases hnil : conditions = []
  · rw [pushConditions, conditionHead, if_pos hnil, if_pos hnil, hnil]
    rfl
  · have hblocks := flatMap_range_zip conditionTags (conditions.zipIdx.map fun x =>
      conditionStrings R (decide (x.2 = conditions.length - 1)) x.1) (by
        intro b hb
        obtain ⟨x, -, rfl⟩ := List.mem_map.1 hb
        exact length_conditionStrings R _ _)
    rw [List.length_map, List.length_zipIdx, List.map_map] at hblocks
    rw [pushConditions, if_neg hnil, conditionHead, if_neg hnil, buildConditionStrings]
    simp only [List.headD_cons, Nat.add_comm 1, List.drop_succ_cons, hblocks]
    rfl

end

/-! ## A message of groups -/

section

variable {startTag : ℕ}

lemma foldl_push_header {front : List (ℕ × String)} (h : ∀ f ∈ front, f.1 ≠ startTag)
    (header : List (ℕ × String)) :
    front.foldl (Repeating.push startTag) ⟨header, []⟩ = ⟨header ++ front, []⟩ := by
  induction front generalizing header with
  | nil => rw [List.foldl_nil, List.append_nil]
  | cons f front ih =>
      obtain ⟨hf, hfront⟩ := List.forall_mem_cons.1 h
      rw [List.foldl_cons, Repeating.push, if_neg hf, dif_pos rfl, ih hfront,
        List.append_assoc, List.singleton_append]

lemma foldl_push_last {rest : List (ℕ × String)} (h : ∀ f ∈ rest, f.1 ≠ startTag)
    (header : List (ℕ × String)) (groups : List (List (ℕ × String))) (g : List (ℕ × String)) :
    rest.foldl (Repeating.push startTag) ⟨header, groups ++ [g]⟩ =
      ⟨header, groups ++ [g ++ rest]⟩ := by
  induction rest generalizing g with
  | nil => rw [List.foldl_nil, List.append_nil]
  | cons f rest ih =>
      obtain ⟨hf, hrest⟩ := List.forall_mem_cons.1 h
      rw [List.foldl_cons, Repeating.push, if_neg hf, dif_neg (by simp)]
      simp only [List.dropLast_concat, List.getLast_append_singleton]
      rw [ih hrest, List.append_assoc, List.singleton_append]

def GroupOf (startTag : ℕ) (g : List (ℕ × String)) : Prop :=
  ∃ v rest, g = (startTag, v) :: rest ∧ ∀ f ∈ rest, f.1 ≠ startTag

lemma foldl_push_groups {gs : List (List (ℕ × String))} (h : ∀ g ∈ gs, GroupOf startTag g)
    (header : List (ℕ × String)) (groups : List (List (ℕ × String))) :
    gs.flatten.foldl (Repeating.push startTag) ⟨header, groups⟩ = ⟨header, groups ++ gs⟩ := by
  induction gs generalizing groups with
  | nil => rw [List.flatten_nil, List.foldl_nil, List.append_nil]
  | cons g gs ih =>
      obtain ⟨⟨v, rest, rfl, hrest⟩, hgs⟩ := List.forall_mem_cons.1 h
      rw [List.flatten_cons, List.foldl_append, List.foldl_cons, Repeating.push, if_pos rfl,
        foldl_push_last hrest, ih hgs, List.append_assoc, List.singleton_append,
        List.singleton_append]

lemma distribute_groups {front back : List (ℕ × String)} (hfront : ∀ f ∈ front, f.1 ≠ startTag)
    (hback : ∀ f ∈ back, f.1 ≠ startTag) {gs : List (List (ℕ × String))} {g : List (ℕ × String)}
    (h : ∀ g' ∈ gs ++ [g], GroupOf startTag g') :
    distribute startTag (front ++ (gs ++ [g]).flatten ++ back) = ⟨front, gs ++ [g ++ back]⟩ := by
  rw [distribute, List.foldl_append, List.foldl_append, foldl_push_header hfront,
    foldl_push_groups h, List.nil_append, List.nil_append, foldl_push_last hback]

end

/-! ## Reading a message -/

/-- Fields that state no condition and hold no separator. -/
def NoCondition (fs : List (UInt32 × String)) : Prop :=
  ∀ f ∈ fs, f.1 ∉ conditionTags ∧ '\x01' ∉ f.2.toList

instance : DecidablePred NoCondition := fun _ => inferInstanceAs (Decidable (∀ f ∈ _, _ ∧ _))

lemma toNat_not_mem {tag : UInt32} (h : tag ∉ conditionTags) :
    tag.toNat ∉ conditionTags.map UInt32.toNat := by
  intro hcon
  obtain ⟨t, ht, he⟩ := List.mem_map.1 hcon
  exact h (UInt32.toNat_inj.1 he ▸ ht)

section

variable {F : Type} (R : FloatTexts F)

lemma carries_insertAll {strs : List String} (hlength : strs.length = conditionTags.length)
    {back : List (ℕ × String)} (base : TagMap)
    (hback : ∀ f ∈ back, f.1 ∉ conditionTags.map UInt32.toNat) :
    Carries (insertAll ((conditionTags.zip strs).map readOf ++ back) base) strs := by
  intro f hf
  have htags : ((conditionTags.zip strs).map readOf).map Prod.fst =
      ((conditionTags.zip strs).map Prod.fst).map UInt32.toNat := by
    rw [List.map_map, List.map_map]
    rfl
  have hnodup : (((conditionTags.zip strs).map readOf).map Prod.fst).Nodup := by
    rw [htags, List.map_fst_zip hlength.ge]
    decide
  have hskip : f.1.toNat ∉ back.map Prod.fst := by
    intro hcon
    obtain ⟨f', hf', he⟩ := List.mem_map.1 hcon
    exact hback f' hf' (he ▸ List.mem_map_of_mem (List.of_mem_zip hf).1)
  rw [insertAll_append, insertAll_of_not_mem _ hskip]
  exact insertAll_of_mem base hnodup (List.mem_map_of_mem hf)

lemma groupOf_zip {strs : List String} (hlength : strs.length = conditionTags.length) :
    GroupOf 6222 ((conditionTags.zip strs).map readOf) := by
  cases strs with
  | nil => cases hlength
  | cons kind rest =>
      refine ⟨starred kind, (conditionTags.tail.zip rest).map readOf, rfl, ?_⟩
      intro f hf
      obtain ⟨g, hg, rfl⟩ := List.mem_map.1 hf
      have htag : conditionTags.tail.all (fun tag => decide (tag.toNat ≠ 6222)) = true := by decide
      exact of_decide_eq_true (List.all_eq_true.1 htag g.1 (List.of_mem_zip hg).1)

lemma decode_group {c : OrderCondition F} (h : c.Writable R) (last : Bool) (base : TagMap)
    {back : List (ℕ × String)} (hback : ∀ f ∈ back, f.1 ∉ conditionTags.map UInt32.toNat) :
    decodeCondition R (insertAll
      ((conditionTags.zip (conditionStrings R last c)).map readOf ++ back) base) =
        some (c.readBack last) :=
  decodeCondition_carries R h
    (carries_insertAll (length_conditionStrings R last c) base hback)

lemma tag_not_mem {fs : List (UInt32 × String)} (h : NoCondition fs) :
    ∀ f ∈ fs.map readOf, f.1 ∉ conditionTags.map UInt32.toNat := by
  intro f hf
  obtain ⟨g, hg, rfl⟩ := List.mem_map.1 hf
  exact toNat_not_mem (h g hg).1

lemma ne_start {fs : List (ℕ × String)} (h : ∀ f ∈ fs, f.1 ∉ conditionTags.map UInt32.toNat) :
    ∀ f ∈ fs, f.1 ≠ 6222 := fun f hf he => h f hf (he ▸ by decide)

lemma separator_not_mem_visible {v : List Char} (h : ∀ c ∈ v, 33 ≤ c.toNat ∧ c.toNat ≤ 126) :
    '\x01' ∉ (String.ofList v).toList := by
  rw [String.toList_ofList]
  exact fun hcon => absurd (h _ hcon).1 (by decide)

lemma separator_not_mem_conjunction (last : Bool) (c : OrderCondition F) :
    '\x01' ∉ (conjunction last c).toList := by
  unfold conjunction
  cases last <;> cases c.isConjunctionConnection <;> decide

lemma separator_not_mem_operator (isMore : Bool) : '\x01' ∉ (operator isMore).toList := by
  cases isMore <;> decide

lemma separator_not_mem_packed {symbol exchange secType : String} (hsymbol : Tidy symbol)
    (hexchange : Tidy exchange) (hsecType : Tidy secType) :
    '\x01' ∉ (packedExecution symbol exchange secType).toList := by
  rw [toList_packedExecution]
  simp [packedNames, hsymbol.1, (executionExchange_tidy hexchange).1, hsecType.1]

lemma separator_not_mem_strings {c : OrderCondition F} (h : c.Writable R) (last : Bool) :
    ∀ s ∈ conditionStrings R last c, '\x01' ∉ s.toList := by
  have hsigned (n : ℤ) : '\x01' ∉ (String.ofList (signed n)).toList :=
    separator_not_mem_visible fun c hc => range_of_mem_signed hc
  have hconj := separator_not_mem_conjunction last c
  cases c with
  | price conId exchange p isMore trigger joined =>
      simp only [conditionStrings, List.forall_mem_cons]
      exact ⟨by decide, hconj, separator_not_mem_operator _, hsigned _, h.1.1, hsigned _,
        separator_not_mem_visible fun c hc => range_of_mem_formatPrice hc, by decide⟩
  | time t isMore joined =>
      simp only [conditionStrings, List.forall_mem_cons]
      exact ⟨by decide, hconj, separator_not_mem_operator _, by decide, by decide, by decide,
        by decide, h.1, by decide⟩
  | margin percent isMore joined =>
      simp only [conditionStrings, List.forall_mem_cons]
      exact ⟨by decide, hconj, separator_not_mem_operator _, by decide, by decide, by decide,
        by decide, by decide, hsigned _, by decide⟩
  | execution symbol exchange secType joined =>
      simp only [conditionStrings, List.forall_mem_cons]
      exact ⟨by decide, hconj, by decide, by decide, by decide, by decide, by decide, by decide,
        by decide, by decide, separator_not_mem_packed h.1 h.2.1 h.2.2, by simp⟩
  | volume conId exchange v isMore joined =>
      simp only [conditionStrings, List.forall_mem_cons]
      exact ⟨by decide, hconj, separator_not_mem_operator _, hsigned _, h.1.1, by decide,
        by decide, by decide, by decide, hsigned _, by decide⟩
  | percentChange conId exchange percent isMore joined =>
      simp only [conditionStrings, List.forall_mem_cons]
      exact ⟨by decide, hconj, separator_not_mem_operator _, hsigned _, h.1.1, by decide,
        by decide, by decide, separator_not_mem_visible (R.visible percent), by decide⟩

lemma noCondition_head (conditions : List (OrderCondition F))
    (ignoreRth includeOvernight cancelOrder : Bool) :
    NoCondition (conditionHead conditions ignoreRth includeOvernight cancelOrder) := by
  have honOff (on : Bool) : '\x01' ∉ (onOff on).toList := by cases on <;> decide
  have hcount : '\x01' ∉ (String.ofList (numeral conditions.length)).toList :=
    separator_not_mem_visible fun c hc =>
      ⟨le_trans (by decide) (digit_of_mem_numeral hc).1,
        le_trans (digit_of_mem_numeral hc).2 (by decide)⟩
  unfold conditionHead
  split
  · exact fun f hf => absurd hf List.not_mem_nil
  · simp only [NoCondition, List.forall_mem_cons]
    exact ⟨⟨by decide, hcount⟩, ⟨by decide, honOff _⟩, ⟨by decide, honOff _⟩,
      ⟨by decide, honOff _⟩, by simp⟩

lemma separator_not_mem_groups {conditions : List (OrderCondition F)}
    (h : ∀ c ∈ conditions, c.Writable R) :
    ∀ f ∈ (conditionGroups R conditions).flatten, '\x01' ∉ f.2.toList := by
  intro f hf
  obtain ⟨g, hg, hf⟩ := List.mem_flatten.1 hf
  obtain ⟨x, hx, rfl⟩ := List.mem_map.1 hg
  exact separator_not_mem_strings R (h x.1 (List.fst_mem_of_mem_zipIdx hx)) _ f.2
    (List.of_mem_zip hf).2

/-- **The conditions of an order read back as they were sent**, each in its place: behind the wire
a text's characters outside ASCII are stars, a price condition's trigger method is 0, an execution
condition's SMART or BEST is a star, and the last condition joins nothing. -/
theorem conditions_read_back {kind : UInt32 × String} {front back : List (UInt32 × String)}
    (hfront : NoCondition (kind :: front)) (hback : NoCondition back)
    {conditions : List (OrderCondition F)} (h : ∀ c ∈ conditions, c.Writable R)
    (ignoreRth includeOvernight cancelOrder : Bool) (seq : UInt32) :
    decodeConditions R (fixBuild (kind :: (front ++
        pushConditions R conditions ignoreRth includeOvernight cancelOrder ++ back)) seq) =
      conditions.zipIdx.map fun x =>
        x.1.readBack (decide (x.2 = conditions.length - 1)) := by
  set last : ℕ → Bool := fun i => decide (i = conditions.length - 1) with hlast
  set group : OrderCondition F × ℕ → List (ℕ × String) := fun x =>
    (conditionTags.zip (conditionStrings R (last x.2) x.1)).map readOf with hgroup
  have hsep : ∀ f ∈ kind :: (front ++ pushConditions R conditions ignoreRth includeOvernight
      cancelOrder ++ back), '\x01' ∉ f.2.toList := by
    rw [pushConditions_eq]
    refine List.forall_mem_cons.2 ⟨(hfront kind List.mem_cons_self).2, ?_⟩
    refine List.forall_mem_append.2 ⟨List.forall_mem_append.2 ⟨fun f hf =>
      (hfront f (List.mem_cons_of_mem _ hf)).2, List.forall_mem_append.2 ⟨fun f hf =>
        (noCondition_head conditions _ _ _ f hf).2, separator_not_mem_groups R h⟩⟩, fun f hf =>
          (hback f hf).2⟩
  have hpushed : (pushConditions R conditions ignoreRth includeOvernight cancelOrder).map readOf =
      (conditionHead conditions ignoreRth includeOvernight cancelOrder).map readOf ++
        (conditions.zipIdx.map group).flatten := by
    rw [pushConditions_eq, List.map_append, List.map_flatten, conditionGroups, List.map_map]
    rfl
  obtain ⟨len, sum, hsplit⟩ := splitFields_fixBuild hsep seq
  set header : List (ℕ × String) :=
    [(8, "FIX.4.1"), (9, len), readOf kind, (34, digitText 6 seq.toNat)] ++ front.map readOf ++
      (conditionHead conditions ignoreRth includeOvernight cancelOrder).map readOf with hheader
  set tail : List (ℕ × String) := back.map readOf ++ [(10, sum)] with htail
  have hfields : splitFields (fixBuild (kind :: (front ++
      pushConditions R conditions ignoreRth includeOvernight cancelOrder ++ back)) seq) =
      header ++ (conditions.zipIdx.map group).flatten ++ tail := by
    rw [hsplit, List.map_append, List.map_append, hpushed, hheader, htail]
    simp only [List.append_assoc, List.cons_append, List.nil_append]
  have hheadTags : ∀ f ∈ header, f.1 ≠ 6222 := by
    have hkind := tag_not_mem hfront
    rw [List.map_cons, List.forall_mem_cons] at hkind
    refine List.forall_mem_append.2 ⟨List.forall_mem_append.2 ⟨?_, ne_start hkind.2⟩,
      ne_start (tag_not_mem (noCondition_head conditions _ _ _))⟩
    simp only [List.forall_mem_cons]
    exact ⟨by decide, by decide, fun he => hkind.1 (he ▸ by decide), by decide, by simp⟩
  have htailTags : ∀ f ∈ tail, f.1 ∉ conditionTags.map UInt32.toNat := by
    refine List.forall_mem_append.2 ⟨tag_not_mem hback, fun f hf => ?_⟩
    rw [List.mem_singleton.1 hf]
    show (10 : ℕ) ∉ _
    decide
  have hgroups : ∀ xs : List (OrderCondition F × ℕ), ∀ g ∈ xs.map group, GroupOf 6222 g := by
    intro xs g hg
    obtain ⟨x, -, rfl⟩ := List.mem_map.1 hg
    exact groupOf_zip (length_conditionStrings R _ _)
  rw [decodeConditions, fixParseRepeating, hfields]
  rcases List.eq_nil_or_concat conditions.zipIdx with hnil | ⟨xs, x, hx⟩
  · have hnone : distribute 6222 (header ++ tail) = ⟨header ++ tail, []⟩ :=
      foldl_push_header (List.forall_mem_append.2 ⟨hheadTags, ne_start htailTags⟩) []
    rw [hnil, List.map_nil, List.flatten_nil, List.append_nil, hnone]
    rfl
  · have hwritable : ∀ y ∈ xs ++ [x], y.1.Writable R := by
      intro y hy
      rw [← List.concat_eq_append, ← hx] at hy
      exact h y.1 (List.fst_mem_of_mem_zipIdx hy)
    rw [List.concat_eq_append] at hx
    have hdistributed : distribute 6222 (header ++ (conditions.zipIdx.map group).flatten ++ tail) =
        ⟨header, xs.map group ++ [group x ++ tail]⟩ := by
      rw [hx, List.map_append, List.map_singleton]
      exact distribute_groups hheadTags (ne_start htailTags) (by
        rw [← List.map_singleton, ← List.map_append]
        exact hgroups _)
    rw [hdistributed, hx]
    simp only [List.map_append, List.map_singleton, List.filterMap_append, List.map_map]
    congr 1
    · rw [List.filterMap_map, ← List.filterMap_eq_map]
      refine List.filterMap_congr fun y hy => ?_
      have hread := decode_group R (hwritable y (List.mem_append_left _ hy)) (last y.2)
        (insertAll header fun _ => none) (fun f hf => absurd hf List.not_mem_nil)
      rw [List.append_nil] at hread
      exact hread
    · have hread := decode_group R
        (hwritable x (List.mem_append_right _ (List.mem_singleton_self _))) (last x.2) (insertAll header fun _ => none) htailTags
      exact List.filterMap_cons_some hread

end

def wholeTexts : FloatTexts ℤ where
  parse := parseI64
  shown := signed
  priceFromF64 n := Int64.ofInt (n * priceScale)
  asI32 := Int32.ofInt
  asI64 := Int64.ofInt
  visible _ _ hc := range_of_mem_signed hc

def sixConditions : List (OrderCondition ℤ) :=
  [.price 265598 "SMART" 15000000000 true 2 true, .time "20260105-14:30:00" false false,
    .margin (-10) true true, .execution "IBM" "BEST" "STK" true, .volume (-7) "" 250 false false,
    .percentChange 8314 "NYSE" 3 true true]

theorem conditions_read_back_six :
    decodeConditions wholeTexts (fixBuild ((35, "D") :: ([(11, "7")] ++
        pushConditions wholeTexts sixConditions true false true ++ [(204, "0")])) 1) =
      [.price 265598 "SMART" 15000000000 true 0 true, .time "20260105-14:30:00" false false,
        .margin (-10) true true, .execution "IBM" "*" "STK" true, .volume (-7) "" 250 false false,
        .percentChange 8314 "NYSE" 3 true false] := by
  have hfront : NoCondition [(35, "D"), (11, "7")] := by decide
  have hback : NoCondition [(204, "0")] := by decide
  have hwritable : ∀ c ∈ sixConditions, c.Writable wholeTexts := by
    simp only [sixConditions, List.forall_mem_cons]
    refine ⟨⟨by decide, by decide⟩, ?_, ?_, ⟨by decide, by decide, by decide⟩,
      ⟨by decide, by decide⟩, ⟨by decide, by decide⟩, by simp⟩
    · show Tidy _
      decide
    · show (wholeTexts.parse _).map _ = _
      decide
  exact (conditions_read_back wholeTexts hfront hback hwritable true false true 1).trans
    (by decide)

def spelledCondition : String := "x\x016222=3\x016126=>=\x016223=t"

/-- A character outside ASCII reads as a star, and a raw block that spells a condition behind a
separator reads as one, where none was sent. -/
theorem conditions_not_read_back :
    decodeConditions wholeTexts (fixBuild ((35, "D") :: ([] ++
        pushConditions wholeTexts [.time "é" true false] false false false ++ [])) 1) =
      [.time "*" true false] ∧
    decodeConditions wholeTexts (fixBuild ((35, "D") :: ([(95, "23"), (96, spelledCondition)] ++
        pushConditions wholeTexts [] false false false ++ [])) 1) = [.time "t" true false] := by
  decide +kernel

end IbkrDx
