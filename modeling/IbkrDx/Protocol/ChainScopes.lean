import IbkrDx.Protocol.TextFrames

/-!
# The scopes of an option chain reply

`parse_option_chain_response` of `control/contracts`.  A reply holds one record for each underlying;
a record states its keys as they change, and a strike list closes the scope the keys name.  The
expirations stand under whatever keys were in force when they were stated, in front of the strike
list they belong to or behind it.

* **`chain_scopes`** — a reply is read as what its records list.
-/

namespace IbkrDx

open Decimal Texts

/-! ## The reader -/

abbrev tagMsgType : ℕ := 35
abbrev tagSymbol : ℕ := 55
abbrev tagExchange : ℕ := 100
abbrev tagMultiplier : ℕ := 231
abbrev tagSubProtocol : ℕ := 6040
abbrev tagIbTradingClass : ℕ := 6058
abbrev tagUnderlyingConId : ℕ := 6346

/-- The strikes a scope lists, as one delimited value. -/
abbrev tagChainStrikes : ℕ := 6997

abbrev tagChainExpirations : List ℕ := [6775, 6777, 6971]

def expirationBucketMarker : List Char := ['/', 'E', 'X', 'P']

/-- `tag_sequence`: the fields of a message, in their order. -/
def tagSequence (data : Bytes) : List (ℕ × String) := splitFields data

structure OptionChainScope (Price : Type) where
  symbol : String := ""
  exchange : String := ""
  tradingClass : String := ""
  multiplier : String := ""
  expirations : List String := []
  strikes : List Price := []
  underlyingConId : ℤ := 0
  deriving DecidableEq

/-- Exchange, trading class and multiplier. -/
abbrev ScopeKey := String × String × String

def OptionChainScope.key {Price : Type} (s : OptionChainScope Price) : ScopeKey :=
  (s.exchange, s.tradingClass, s.multiplier)

def isExpiration (entry : List Char) : Bool :=
  let bytes := Utf8.encode entry
  decide (bytes.length = 6 ∨ bytes.length = 8) && bytes.all isDigit

/-- An expiration behind those stated before it, where it is not one of them. -/
def pushUnique (out : List String) (entry : List Char) : List String :=
  if String.ofList entry ∈ out then out else out ++ [String.ofList entry]

def beforeBuckets : List Char → List Char
  | [] => []
  | c :: v => if expirationBucketMarker <+: c :: v then [] else c :: beforeBuckets v

/-- The dates of a compound value, or of a plain list where it holds none in that shape. -/
def collectExpirations (value : List Char) (out : List String) : List String :=
  let found := ((beforeBuckets value).splitOn '/').filter isExpiration
  if found ≠ [] ∨ value = [] then found.foldl pushUnique out
  else
    let plain := value.splitOnP fun c => c = '/' || c = ',' || c = ';' || c = ' '
    (plain.filter isExpiration).foldl pushUnique out

def filedUnder (key : ScopeKey) (filed : List (ScopeKey × List String)) : List String :=
  ((filed.find? fun e => e.1 = key).map Prod.snd).getD []

def fileExpirations (key : ScopeKey) (value : List Char) :
    List (ScopeKey × List String) → List (ScopeKey × List String)
  | [] => [(key, collectExpirations value [])]
  | e :: filed =>
      if e.1 = key then (e.1, collectExpirations value e.2) :: filed
      else e :: fileExpirations key value filed

structure ChainWalk (Price : Type) where
  scope : OptionChainScope Price
  expirations : List (ScopeKey × List String)
  out : List (OptionChainScope Price)

variable {Price : Type} (number : List Char → Option Price)

def readStrikes (value : String) : List Price :=
  (value.toList.splitOn ';').filterMap fun s => number (trimBlanks s)

/-- `parse().unwrap_or_default()` of an underlying's id. -/
def readConId (value : String) : ℤ := (parseI64 value.toList).getD 0

def ChainWalk.read (w : ChainWalk Price) (f : ℕ × String) : ChainWalk Price :=
  if f.1 = tagUnderlyingConId then
    { w with scope := { w.scope with underlyingConId := readConId f.2 } }
  else if f.1 = tagExchange then { w with scope := { w.scope with exchange := f.2 } }
  else if f.1 = tagIbTradingClass then { w with scope := { w.scope with tradingClass := f.2 } }
  else if f.1 = tagMultiplier then { w with scope := { w.scope with multiplier := f.2 } }
  else if f.1 = tagChainStrikes then
    { w with out := w.out ++ [{ w.scope with strikes := readStrikes number f.2 }] }
  else if f.1 ∈ tagChainExpirations then
    { w with expirations := fileExpirations w.scope.key f.2.toList w.expirations }
  else w

/-- One record of a chain reply: each scope is given the dates of its own key. -/
def parseChainRecord (symbol : String) (tags : List (ℕ × String)) :
    List (OptionChainScope Price) :=
  let w := tags.foldl (ChainWalk.read number) ⟨{ symbol := symbol }, [], []⟩
  w.out.map fun scope => { scope with expirations := filedUnder scope.key w.expirations }

/-- The records of a reply: the fields from one symbol up to the next. -/
def chainRecords : List (ℕ × String) → List (String × List (ℕ × String))
  | [] => []
  | f :: rest =>
      if f.1 = tagSymbol then
        (f.2, f :: rest.takeWhile fun g => g.1 ≠ tagSymbol) :: chainRecords rest
      else chainRecords rest

def parseOptionChainResponse (data : Bytes) : Option (List (OptionChainScope Price)) := do
  let tags := tagSequence data
  let msgType ← tags.find? fun f => f.1 = tagMsgType
  if msgType.2 ≠ "U" then none
  else
    let subProtocol ← tags.find? fun f => f.1 = tagSubProtocol
    if subProtocol.2 ≠ "139" then none
    else some ((chainRecords tags).flatMap fun r => parseChainRecord number r.1 r.2)

/-! ## What a venue states -/

def IsDate (d : List Char) : Prop :=
  (d.length = 6 ∨ d.length = 8) ∧ ∀ c ∈ d, 48 ≤ c.toNat ∧ c.toNat ≤ 57

instance : DecidablePred IsDate := fun _ => inferInstanceAs (Decidable (_ ∧ _))

/-- An expiration value: dates, and what stands in the buckets behind them. -/
structure ChainDates where
  dates : List (List Char)
  buckets : Option (List Char)
  areDates : ∀ d ∈ dates, IsDate d
  behindDates : dates = [] → buckets = none

def ChainDates.tail (v : ChainDates) : List Char :=
  match v.buckets with
  | none => []
  | some b => expirationBucketMarker ++ b

def ChainDates.value (v : ChainDates) : List Char := ['/'].intercalate v.dates ++ v.tail

inductive ChainField where
  | exchange (v : String)
  | tradingClass (v : String)
  | multiplier (v : String)
  | underlyingConId (v : String)
  | strikes (v : String)
  | expirations (tag : {t // t ∈ tagChainExpirations}) (v : ChainDates)
  | other (tag : {t // t ∉ [tagSymbol, tagExchange, tagIbTradingClass, tagMultiplier,
      tagUnderlyingConId, tagChainStrikes] ++ tagChainExpirations}) (v : String)

namespace ChainField

def read : ChainField → ℕ × String
  | exchange v => (tagExchange, v)
  | tradingClass v => (tagIbTradingClass, v)
  | multiplier v => (tagMultiplier, v)
  | underlyingConId v => (tagUnderlyingConId, v)
  | strikes v => (tagChainStrikes, v)
  | expirations tag v => (tag, String.ofList v.value)
  | other tag v => (tag, v)

def exchange? : ChainField → Option String
  | exchange v => some v
  | _ => none

def tradingClass? : ChainField → Option String
  | tradingClass v => some v
  | _ => none

def multiplier? : ChainField → Option String
  | multiplier v => some v
  | _ => none

def underlyingConId? : ChainField → Option String
  | underlyingConId v => some v
  | _ => none

def dates : ChainField → List (List Char)
  | expirations _ v => v.dates
  | _ => []

end ChainField

def lastStated (pick : ChainField → Option String) (fs : List ChainField) : String :=
  (fs.filterMap pick).getLast?.getD ""

def keyAt (fs : List ChainField) : ScopeKey :=
  (lastStated ChainField.exchange? fs, lastStated ChainField.tradingClass? fs,
    lastStated ChainField.multiplier? fs)

def frontsFrom {α : Type*} (front : List α) : List α → List (List α × α)
  | [] => []
  | a :: l => (front, a) :: frontsFrom (front ++ [a]) l

abbrev fronts {α : Type*} (l : List α) : List (List α × α) := frontsFrom [] l

/-- The dates stated while a key was in force, each once, in order of first statement. -/
def datesUnder (key : ScopeKey) (fs : List ChainField) : List String :=
  ((fronts fs).flatMap fun e =>
    if keyAt e.1 = key then e.2.dates.map String.ofList else []).eraseDups

structure UnderlyingRecord where
  symbol : String
  body : List ChainField

namespace UnderlyingRecord

def fields (r : UnderlyingRecord) : List (ℕ × String) :=
  (tagSymbol, r.symbol) :: r.body.map ChainField.read

def scopeAt (symbol : String) (fs : List ChainField) : OptionChainScope Price :=
  { symbol
    exchange := lastStated ChainField.exchange? fs
    tradingClass := lastStated ChainField.tradingClass? fs
    multiplier := lastStated ChainField.multiplier? fs
    underlyingConId := readConId (lastStated ChainField.underlyingConId? fs) }

/-- What a record lists: one scope for each strike list, under the keys in force there, with the
dates stated under them anywhere in the record. -/
def scopes (r : UnderlyingRecord) : List (OptionChainScope Price) :=
  (fronts r.body).filterMap fun e =>
    match e.2 with
    | .strikes v => some { (scopeAt r.symbol e.1 : OptionChainScope Price) with
        strikes := readStrikes number v
        expirations := datesUnder (keyAt e.1) r.body }
    | _ => none

end UnderlyingRecord

/-- An option chain reply: what stands in front of its records, and the records. -/
structure ChainReply where
  header : List (ℕ × String)
  records : List UnderlyingRecord
  msgType : header.find? (fun f => f.1 = tagMsgType) = some (tagMsgType, "U")
  subProtocol : header.find? (fun f => f.1 = tagSubProtocol) = some (tagSubProtocol, "139")
  noSymbol : ∀ f ∈ header, f.1 ≠ tagSymbol

def ChainReply.fields (r : ChainReply) : List (ℕ × String) :=
  r.header ++ r.records.flatMap UnderlyingRecord.fields

/-! ## Expiration values -/

variable {d : List Char}

lemma IsDate.isExpiration (h : IsDate d) : isExpiration d = true := by
  obtain ⟨hlen, hdigits⟩ := h
  have hnat : ∀ c ∈ d, (UInt8.ofNat c.toNat).toNat = c.toNat := fun c hc => by
    have := hdigits c hc
    rw [UInt8.toNat_ofNat', Nat.mod_eq_of_lt (by omega)]
  have hmap : (d.map fun c => UInt8.ofNat c.toNat).map (fun b => Char.ofNat b.toNat) = d := by
    rw [List.map_map]
    conv_rhs => rw [← List.map_id d]
    refine List.map_congr_left fun c hc => ?_
    rw [Function.comp_apply, hnat c hc, Char.ofNat_toNat, id]
  have hbytes : Utf8.encode d = d.map fun c => UInt8.ofNat c.toNat := by
    conv_lhs => rw [← hmap]
    refine Utf8.encode_ascii fun b hb => ?_
    obtain ⟨c, hc, rfl⟩ := List.mem_map.1 hb
    have := hdigits c hc
    rw [hnat c hc]
    omega
  rw [IbkrDx.isExpiration, hbytes]
  simp only [List.length_map, hlen, decide_true, Bool.true_and, List.all_eq_true]
  intro b hb
  obtain ⟨c, hc, rfl⟩ := List.mem_map.1 hb
  rw [isDigit, decide_eq_true_iff, UInt8.le_iff_toNat_le, UInt8.le_iff_toNat_le, hnat c hc]
  exact hdigits c hc

lemma IsDate.ne_nil (h : IsDate d) : d ≠ [] := by
  rintro rfl
  exact absurd h.1 (by decide)

lemma IsDate.ne_of_mem (h : IsDate d) {c e : Char} (hc : c ∈ d)
    (he : ¬ (48 ≤ e.toNat ∧ e.toNat ≤ 57)) : c ≠ e := by
  rintro rfl
  exact he (h.2 c hc)

lemma beforeBuckets_date (h : ∀ c ∈ d, c ≠ '/') (v : List Char) :
    beforeBuckets (d ++ v) = d ++ beforeBuckets v := by
  induction d with
  | nil => rfl
  | cons c d ih =>
      rw [List.forall_mem_cons] at h
      have hmarker : ¬ expirationBucketMarker <+: c :: (d ++ v) := by
        rw [expirationBucketMarker, List.cons_prefix_cons]
        exact fun hcon => h.1 hcon.1.symm
      rw [List.cons_append, beforeBuckets, if_neg hmarker, ih h.2, List.cons_append]

lemma beforeBuckets_tail (v : ChainDates) : beforeBuckets v.tail = [] := by
  unfold ChainDates.tail
  split
  · rfl
  · exact if_pos (List.prefix_append _ _)

lemma beforeBuckets_slash (h : IsDate d) (v : List Char) :
    beforeBuckets ('/' :: (d ++ v)) = '/' :: beforeBuckets (d ++ v) := by
  obtain ⟨c, d, rfl⟩ := List.exists_cons_of_ne_nil h.ne_nil
  have hc : c ≠ 'E' := h.ne_of_mem List.mem_cons_self (by decide)
  have hmarker : ¬ expirationBucketMarker <+: '/' :: (c :: d ++ v) := by
    rw [expirationBucketMarker, List.cons_prefix_cons, List.cons_append, List.cons_prefix_cons]
    exact fun hcon => hc hcon.2.1.symm
  rw [beforeBuckets, if_neg hmarker]

lemma beforeBuckets_intercalate {ds : List (List Char)} (h : ∀ d ∈ ds, IsDate d)
    {v : List Char} (hv : beforeBuckets v = []) :
    beforeBuckets (['/'].intercalate ds ++ v) = ['/'].intercalate ds := by
  induction ds with
  | nil => simpa using hv
  | cons d ds ih =>
      rw [List.forall_mem_cons] at h
      have hd : ∀ c ∈ d, c ≠ '/' := fun c hc => h.1.ne_of_mem hc (by decide)
      cases ds with
      | nil => rw [List.intercalate_singleton, beforeBuckets_date hd, hv, List.append_nil]
      | cons d' ds =>
          have hfront : ∃ rest, ['/'].intercalate (d' :: ds) = d' ++ rest := by
            cases ds with
            | nil => exact ⟨[], by simp⟩
            | cons d'' ds => exact ⟨_, by rw [List.intercalate_cons_cons, List.append_assoc]⟩
          obtain ⟨rest, hrest⟩ := hfront
          have hrec := ih h.2
          rw [List.intercalate_cons_cons, List.append_assoc, List.append_assoc,
            beforeBuckets_date hd, List.singleton_append]
          rw [hrest, List.append_assoc] at hrec ⊢
          rw [beforeBuckets_slash (h.2 d' List.mem_cons_self), hrec, List.append_assoc,
            List.singleton_append]

lemma beforeBuckets_value (v : ChainDates) :
    beforeBuckets v.value = ['/'].intercalate v.dates :=
  beforeBuckets_intercalate v.areDates (beforeBuckets_tail v)

lemma ChainDates.value_eq_nil {v : ChainDates} (h : v.dates = []) : v.value = [] := by
  rw [ChainDates.value, ChainDates.tail, h, v.behindDates h]
  rfl

/-- **A value adds its dates**, and nothing from its buckets. -/
theorem collectExpirations_value (v : ChainDates) (out : List String) :
    collectExpirations v.value out = v.dates.foldl pushUnique out := by
  by_cases hnil : v.dates = []
  · rw [ChainDates.value_eq_nil hnil, hnil]
    rfl
  · have hsplit : (['/'].intercalate v.dates).splitOn '/' = v.dates :=
      List.splitOn_intercalate '/' (fun d hd hmem =>
        (v.areDates d hd).ne_of_mem hmem (by decide) rfl) hnil
    have hfilter : v.dates.filter isExpiration = v.dates :=
      List.filter_eq_self.2 fun d hd => (v.areDates d hd).isExpiration
    rw [collectExpirations, beforeBuckets_value, hsplit, hfilter]
    exact if_pos (Or.inl hnil)

/-! ## Dates under their keys -/

lemma pushUnique_eraseDups (l : List String) (d : List Char) :
    pushUnique l.eraseDups d = (l ++ [String.ofList d]).eraseDups := by
  rw [pushUnique, List.eraseDups_append]
  simp only [List.mem_eraseDups]
  split
  case isTrue h => simp [List.removeAll, h]
  case isFalse h => simp [List.removeAll, h, List.eraseDups_cons]

lemma foldl_pushUnique (ds : List (List Char)) (l : List String) :
    ds.foldl pushUnique l.eraseDups = (l ++ ds.map String.ofList).eraseDups := by
  induction ds generalizing l with
  | nil => simp
  | cons d ds ih =>
      rw [List.foldl_cons, pushUnique_eraseDups, ih, List.map_cons, List.append_assoc,
        List.singleton_append]

lemma filedUnder_fileExpirations (k key : ScopeKey) (value : List Char)
    (filed : List (ScopeKey × List String)) :
    filedUnder k (fileExpirations key value filed)
      = if key = k then collectExpirations value (filedUnder k filed) else filedUnder k filed := by
  induction filed with
  | nil => by_cases h : key = k <;> simp [filedUnder, fileExpirations, h]
  | cons e filed ih =>
      unfold filedUnder at ih ⊢
      by_cases hkey : e.1 = key
      · subst hkey
        by_cases h : e.1 = k <;> simp [fileExpirations, h]
      · by_cases h : e.1 = k
        · subst h
          simp [fileExpirations, hkey, Ne.symm hkey]
        · simpa [fileExpirations, hkey, h] using ih

/-! ## Fields in front -/

lemma frontsFrom_append {α : Type*} (front l : List α) (a : α) :
    frontsFrom front (l ++ [a]) = frontsFrom front l ++ [(front ++ l, a)] := by
  induction l generalizing front with
  | nil => simp [frontsFrom]
  | cons b l ih => simp [frontsFrom, ih]

variable {fs : List ChainField}

lemma lastStated_append (pick : ChainField → Option String) (fs : List ChainField)
    (f : ChainField) : lastStated pick (fs ++ [f]) = (pick f).getD (lastStated pick fs) := by
  unfold lastStated
  rw [List.filterMap_append]
  cases h : pick f <;> simp [h]

lemma datesUnder_append (key : ScopeKey) (fs : List ChainField) (f : ChainField) :
    datesUnder key (fs ++ [f]) =
      if keyAt fs = key then f.dates.foldl pushUnique (datesUnder key fs)
      else datesUnder key fs := by
  rw [datesUnder, fronts, frontsFrom_append, List.flatMap_append, List.flatMap_singleton,
    List.nil_append]
  split
  · rw [datesUnder, foldl_pushUnique]
  · rw [List.append_nil, datesUnder]

/-! ## One record -/

def listedAt (symbol : String) (e : List ChainField × ChainField) :
    Option (OptionChainScope Price) :=
  match e.2 with
  | .strikes v => some { (UnderlyingRecord.scopeAt symbol e.1 : OptionChainScope Price) with
      strikes := readStrikes number v }
  | _ => none

structure WalkedTo (symbol : String) (fs : List ChainField) (w : ChainWalk Price) : Prop where
  scope : w.scope = UnderlyingRecord.scopeAt symbol fs
  filed : ∀ key, filedUnder key w.expirations = datesUnder key fs
  out : w.out = (fronts fs).filterMap (listedAt number symbol)

variable {number}

lemma key_scopeAt (symbol : String) (fs : List ChainField) :
    (UnderlyingRecord.scopeAt symbol fs : OptionChainScope Price).key = keyAt fs := rfl

variable {w : ChainWalk Price}

lemma read_other {f : ℕ × String}
    (h : f.1 ∉ [tagExchange, tagIbTradingClass, tagMultiplier, tagUnderlyingConId,
      tagChainStrikes] ++ tagChainExpirations) : w.read number f = w := by
  simp only [List.mem_append, List.mem_cons, List.not_mem_nil, or_false, not_or] at h
  simp [ChainWalk.read, h]

lemma scopeAt_append (symbol : String) (fs : List ChainField) (f : ChainField) :
    (UnderlyingRecord.scopeAt symbol (fs ++ [f]) : OptionChainScope Price) =
      { (UnderlyingRecord.scopeAt symbol fs : OptionChainScope Price) with
        exchange := f.exchange?.getD (lastStated ChainField.exchange? fs)
        tradingClass := f.tradingClass?.getD (lastStated ChainField.tradingClass? fs)
        multiplier := f.multiplier?.getD (lastStated ChainField.multiplier? fs)
        underlyingConId :=
          readConId (f.underlyingConId?.getD (lastStated ChainField.underlyingConId? fs)) } := by
  simp only [UnderlyingRecord.scopeAt, lastStated_append]

lemma datesUnder_quiet {f : ChainField} (h : f.dates = []) (key : ScopeKey)
    (fs : List ChainField) : datesUnder key (fs ++ [f]) = datesUnder key fs := by
  rw [datesUnder_append, h, List.foldl_nil, ite_self]

lemma listed_append (symbol : String) (fs : List ChainField) (f : ChainField) :
    (fronts (fs ++ [f])).filterMap (listedAt number symbol)
      = (fronts fs).filterMap (listedAt number symbol)
        ++ (listedAt number symbol (fs, f)).toList := by
  rw [fronts, frontsFrom_append, List.filterMap_append, List.nil_append]
  cases hlisted : listedAt number symbol (fs, f) <;> simp [hlisted]

lemma WalkedTo.restate {symbol : String}
    (h : WalkedTo number symbol fs w) {f : ChainField} (hdates : f.dates = [])
    (hlisted : listedAt number symbol (fs, f) = none) {scope : OptionChainScope Price}
    (hscope : scope = UnderlyingRecord.scopeAt symbol (fs ++ [f])) :
    WalkedTo number symbol (fs ++ [f]) { w with scope := scope } := by
  refine ⟨hscope, fun key => ?_, ?_⟩
  · rw [datesUnder_quiet hdates]
    exact h.filed key
  · rw [listed_append, hlisted, ← h.out]
    exact (List.append_nil _).symm

lemma expirations_apart : ∀ tag ∈ tagChainExpirations, tag ∉ [tagSymbol, tagExchange,
    tagIbTradingClass, tagMultiplier, tagUnderlyingConId, tagChainStrikes] := by
  decide

lemma WalkedTo.read {symbol : String}
    (h : WalkedTo number symbol fs w) (f : ChainField) :
    WalkedTo number symbol (fs ++ [f]) (w.read number f.read) := by
  cases f with
  | exchange v => exact h.restate rfl rfl (by rw [scopeAt_append, h.scope]; rfl)
  | tradingClass v => exact h.restate rfl rfl (by rw [scopeAt_append, h.scope]; rfl)
  | multiplier v => exact h.restate rfl rfl (by rw [scopeAt_append, h.scope]; rfl)
  | underlyingConId v => exact h.restate rfl rfl (by rw [scopeAt_append, h.scope]; rfl)
  | other tag v =>
      have htag : (ChainField.other tag v).read.1 ∉ [tagExchange, tagIbTradingClass,
          tagMultiplier, tagUnderlyingConId, tagChainStrikes] ++ tagChainExpirations := fun hmem =>
        tag.2 (List.mem_cons_of_mem _ hmem)
      rw [read_other htag]
      exact h.restate rfl rfl (h.scope.trans (scopeAt_append symbol fs (.other tag v)).symm)
  | strikes v =>
      refine ⟨h.scope.trans (scopeAt_append symbol fs (.strikes v)).symm, fun key => ?_, ?_⟩
      · rw [datesUnder_quiet rfl]
        exact h.filed key
      · rw [listed_append, ← h.out]
        exact congrArg (fun s => w.out ++ [{ s with strikes := readStrikes number v }]) h.scope
  | expirations tag v =>
      have hread : w.read number (ChainField.expirations tag v).read
          = { w with expirations := fileExpirations w.scope.key v.value w.expirations } := by
        have hapart := expirations_apart tag.1 tag.2
        simp only [List.mem_cons, List.not_mem_nil, or_false, not_or] at hapart
        simp [ChainWalk.read, ChainField.read, hapart, tag.2]
      rw [hread]
      have hscope := h.scope.trans (scopeAt_append symbol fs (.expirations tag v)).symm
      refine ⟨hscope, fun key => ?_, ?_⟩
      · rw [filedUnder_fileExpirations, h.scope, key_scopeAt, datesUnder_append,
          collectExpirations_value, h.filed]
        rfl
      · rw [listed_append, ← h.out]
        exact (List.append_nil _).symm

/-- **A record is read field by field**: behind any of its fields the walk keeps the scope they
state, the dates under each key, and the scopes listed. -/
theorem walkedTo_body (symbol : String) (fs : List ChainField) :
    WalkedTo number symbol fs ((fs.map ChainField.read).foldl (ChainWalk.read number)
      ⟨{ symbol := symbol }, [], []⟩) := by
  induction fs using List.reverseRecOn with
  | nil => exact ⟨rfl, fun _ => rfl, rfl⟩
  | append_singleton fs f ih =>
      rw [List.map_append, List.foldl_append]
      exact ih.read f

/-- **A record's scopes each get their own dates.** -/
theorem parseChainRecord_fields (r : UnderlyingRecord) :
    parseChainRecord number r.symbol r.fields = r.scopes number := by
  have hopen (w : ChainWalk Price) : w.read number (tagSymbol, r.symbol) = w :=
    read_other (by simp)
  have hwalk : WalkedTo number r.symbol r.body _ := walkedTo_body r.symbol r.body
  obtain ⟨-, hfiled, hout⟩ := hwalk
  rw [parseChainRecord, UnderlyingRecord.fields, List.foldl_cons, hopen]
  simp only [hout, hfiled, UnderlyingRecord.scopes, List.map_filterMap]
  refine List.filterMap_congr fun e _ => ?_
  rw [listedAt]
  cases e.2 <;> rfl

/-! ## The reply -/

lemma symbol_not_mem_body {r : UnderlyingRecord} :
    ∀ f ∈ r.body.map ChainField.read, f.1 ≠ tagSymbol := by
  intro f hf
  obtain ⟨g, -, rfl⟩ := List.mem_map.1 hf
  cases g with
  | expirations tag v =>
      exact fun heq => expirations_apart tag.1 tag.2 (List.mem_cons.2 (Or.inl heq))
  | other tag v =>
      exact fun heq => tag.2 (List.mem_cons.2 (Or.inl heq))
  | _ => simp [ChainField.read]

lemma chainRecords_skip {fs rest : List (ℕ × String)} (h : ∀ f ∈ fs, f.1 ≠ tagSymbol) :
    chainRecords (fs ++ rest) = chainRecords rest := by
  induction fs with
  | nil => rfl
  | cons f fs ih =>
      rw [List.forall_mem_cons] at h
      rw [List.cons_append, chainRecords, if_neg h.1, ih h.2]

lemma chainRecords_fields (rs : List UnderlyingRecord) :
    chainRecords (rs.flatMap UnderlyingRecord.fields) = rs.map fun r => (r.symbol, r.fields) := by
  induction rs with
  | nil => rfl
  | cons r rs ih =>
      have hbody : (r.body.map ChainField.read ++ rs.flatMap UnderlyingRecord.fields).takeWhile
          (fun g => g.1 ≠ tagSymbol) = r.body.map ChainField.read := by
        rw [List.takeWhile_append_of_pos fun f hf => by simpa using symbol_not_mem_body f hf]
        cases rs <;> simp [UnderlyingRecord.fields]
      rw [List.flatMap_cons, UnderlyingRecord.fields, List.cons_append, chainRecords, if_pos rfl,
        hbody, chainRecords_skip symbol_not_mem_body, ih]
      rfl

/-- **An option chain reply gives each scope its own dates**: what is read are the scopes of its
records, one for each strike list. -/
theorem chain_scopes (number : List Char → Option Price) (reply : ChainReply) {data : Bytes}
    (h : splitFields data = reply.fields) :
    parseOptionChainResponse number data
      = some (reply.records.flatMap fun r => r.scopes number) := by
  have hfind {p : ℕ × String → Bool} {f : ℕ × String} (hf : reply.header.find? p = some f) :
      reply.fields.find? p = some f := by
    rw [ChainReply.fields, List.find?_append, hf]
    rfl
  have hrecords : chainRecords reply.fields
      = reply.records.map fun r => (r.symbol, r.fields) := by
    rw [ChainReply.fields, chainRecords_skip reply.noSymbol, chainRecords_fields]
  rw [parseOptionChainResponse, tagSequence, h]
  simp only [hfind reply.msgType, hfind reply.subProtocol, hrecords, Option.bind_eq_bind,
    Option.bind_some, ne_eq, not_true_eq_false, if_false, List.flatMap_map,
    parseChainRecord_fields]

/-- Two classes of one venue, the first with dates behind its list and a bucket. -/
def twoClasses : ChainReply where
  header := [(tagMsgType, "U"), (tagSubProtocol, "139")]
  records := [{
    symbol := "SPX"
    body := [
      .underlyingConId "416904",
      .exchange "BEST",
      .tradingClass "SPX",
      .multiplier "100",
      .expirations ⟨6775, by decide⟩
        ⟨["20261015".toList], some "W=20260925".toList, by simp [IsDate], by simp⟩,
      .strikes "5000; 5100;",
      .tradingClass "SPXW",
      .strikes "2600",
      .expirations ⟨6971, by decide⟩ ⟨["202609".toList], none, by simp [IsDate], by simp⟩,
      .tradingClass "SPX",
      .expirations ⟨6777, by decide⟩
        ⟨["20261015".toList, "20311218".toList], none, by simp [IsDate], by simp⟩] }]
  msgType := by decide
  subProtocol := by decide
  noSymbol := by decide

def twoClassesText : Bytes := textFrame (twoClasses.fields.map fun f => (f.1, f.2.toList))

theorem chain_scopes_two_classes : parseOptionChainResponse parseI64 twoClassesText = some [
    { symbol := "SPX", exchange := "BEST", tradingClass := "SPX", multiplier := "100",
      expirations := ["20261015", "20311218"], strikes := [5000, 5100],
      underlyingConId := 416904 },
    { symbol := "SPX", exchange := "BEST", tradingClass := "SPXW", multiplier := "100",
      expirations := ["202609"], strikes := [2600], underlyingConId := 416904 }] := by
  have hread : splitFields twoClassesText = twoClasses.fields := by
    rw [twoClassesText, splitFields_textFrame (by decide), List.map_map]
    conv_rhs => rw [← List.map_id twoClasses.fields]
    refine List.map_congr_left fun f _ => ?_
    simp [TextField.read]
  rw [chain_scopes parseI64 twoClasses hread]
  decide

end IbkrDx
