import IbkrDx.Lib.Decimal
import IbkrDx.Lib.Utf8

/-!
# The parameters of an algorithm

`parse_algo_params` of `client_core/mod.rs`, `build_algo_tags` and the algorithm's part of
`push_order_attrs` of `engine/hot_loop/order_builder/mod.rs`.  Folding a text to lower case and
reading a double are parameters.

* **`parameters_reach_the_venue`** — when they do: a name stated twice does not.
-/

namespace IbkrDx.Algos

variable {F : Type} (lower : String → String) (readF64 : String → Option F) (isFinite : F → Bool)

/-! ## What is stated -/

/-- `TagValue`: one parameter, as the caller states it. -/
structure TagValue where
  tag : String
  value : String
  deriving DecidableEq

def TagValue.pair (tv : TagValue) : String × String := (tv.tag, tv.value)

inductive RiskAversion where
  | getDone
  | aggressive
  | neutral
  | passive
  deriving DecidableEq

def RiskAversion.asStr : RiskAversion → String
  | .getDone => "Get_Done"
  | .aggressive => "Aggressive"
  | .neutral => "Neutral"
  | .passive => "Passive"

inductive AlgoParams where
  | named (strategy : String) (params : List String)
  | vwap (maxPctVol : Option String) (noTakeLiq allowPastEndTime : Option Bool)
      (startTime endTime : Option String)
  | twap (allowPastEndTime : Option Bool) (startTime endTime : Option String)
  | arrivalPx (maxPctVol : Option String) (riskAversion : Option RiskAversion)
      (allowPastEndTime forceCompletion : Option Bool) (startTime endTime : Option String)
  | closePx (maxPctVol : Option String) (riskAversion : Option RiskAversion)
      (forceCompletion : Option Bool) (startTime : Option String)
  | darkIce (allowPastEndTime : Option Bool) (displaySize : String)
      (startTime endTime : Option String)
  | pctVol (pctVol : Option String) (noTakeLiq : Option Bool) (startTime endTime : Option String)
  deriving DecidableEq

/-! ## Reading the caller's list -/

def parseRiskAversion (raw : Option String) : Option RiskAversion :=
  raw.bind fun raw => match lower raw with
    | "neutral" => some .neutral
    | "get_done" | "getdone" => some .getDone
    | "aggressive" => some .aggressive
    | "passive" => some .passive
    | _ => none

def parseAlgoFlag (raw : Option String) : Option Bool :=
  raw.bind fun raw => match lower raw with
    | "0" | "false" => some false
    | "1" | "true" => some true
    | _ => none

inductive Strategy where
  | vwap
  | twap
  | arrivalPx
  | closePx
  | darkIce
  | pctVol
  deriving DecidableEq

/-- The strategy of a folded name, as every match of the source on such a name has it. -/
def strategyOf : String → Option Strategy
  | "vwap" => some .vwap
  | "twap" => some .twap
  | "arrivalpx" | "arrival_price" => some .arrivalPx
  | "closepx" | "close_price" => some .closePx
  | "darkice" | "dark_ice" => some .darkIce
  | "pctvol" | "pct_vol" => some .pctVol
  | _ => none

def algoParamNames : Strategy → List String
  | .vwap => ["maxPctVol", "noTakeLiq", "allowPastEndTime", "startTime", "endTime"]
  | .twap => ["allowPastEndTime", "startTime", "endTime"]
  | .arrivalPx => ["maxPctVol", "riskAversion", "allowPastEndTime", "forceCompletion", "startTime",
      "endTime"]
  | .closePx => ["maxPctVol", "riskAversion", "forceCompletion", "startTime"]
  | .darkIce => ["allowPastEndTime", "displaySize", "startTime", "endTime"]
  | .pctVol => ["pctVol", "noTakeLiq", "startTime", "endTime"]

def flagNames : List String := ["noTakeLiq", "allowPastEndTime", "forceCompletion"]

def outsideTheVocabulary (tv : TagValue) : Bool :=
  if tv.tag = "riskAversion" then (parseRiskAversion lower (some tv.value)).isNone
  else if tv.tag ∈ flagNames then (parseAlgoFlag lower (some tv.value)).isNone
  else false

/-- `as_written`: name then value, in the caller's order. -/
def asWritten (strategy : String) (params : List TagValue) : AlgoParams :=
  .named strategy (params.flatMap fun tv => [tv.tag, tv.value])

/-- `get`: what is stated first under a name. -/
def get (params : List TagValue) (key : String) : Option String :=
  (params.find? (·.tag = key)).map TagValue.value

/-- `get_num`: the text, where it reads as a finite number. -/
def getNum (params : List TagValue) (key : String) : Except String (Option String) :=
  match get params key with
  | none => .ok none
  | some raw => match readF64 raw with
    | none => .error ("Invalid " ++ key ++ " '" ++ raw ++ "': expected a number")
    | some v => if isFinite v then .ok (some raw)
        else .error ("Invalid " ++ key ++ " '" ++ raw ++ "': must be a finite number")

/-- `str::parse::<u32>`. -/
def parseU32 (raw : String) : Option ℕ := Decimal.parse (2 ^ 32) (Utf8.encode raw.toList)

def readFields (params : List TagValue) : Strategy → Except String AlgoParams
  | .vwap => do
      let maxPctVol ← getNum readF64 isFinite params "maxPctVol"
      return .vwap maxPctVol (parseAlgoFlag lower (get params "noTakeLiq"))
        (parseAlgoFlag lower (get params "allowPastEndTime")) (get params "startTime")
        (get params "endTime")
  | .twap => .ok (.twap (parseAlgoFlag lower (get params "allowPastEndTime"))
      (get params "startTime") (get params "endTime"))
  | .arrivalPx => do
      let maxPctVol ← getNum readF64 isFinite params "maxPctVol"
      return .arrivalPx maxPctVol (parseRiskAversion lower (get params "riskAversion"))
        (parseAlgoFlag lower (get params "allowPastEndTime"))
        (parseAlgoFlag lower (get params "forceCompletion")) (get params "startTime")
        (get params "endTime")
  | .closePx => do
      let maxPctVol ← getNum readF64 isFinite params "maxPctVol"
      return .closePx maxPctVol (parseRiskAversion lower (get params "riskAversion"))
        (parseAlgoFlag lower (get params "forceCompletion")) (get params "startTime")
  | .darkIce => match get params "displaySize" with
      | none => .error ("DarkIce needs a displaySize: it is how much of the order the book shows, "
          ++ "and this client will not choose it for you")
      | some raw => match parseU32 raw with
        | none => .error ("Invalid displaySize '" ++ raw ++ "': expected a non-negative integer")
        | some _ => .ok (.darkIce (parseAlgoFlag lower (get params "allowPastEndTime")) raw
            (get params "startTime") (get params "endTime"))
  | .pctVol => do
      let pctVol ← getNum readF64 isFinite params "pctVol"
      return .pctVol pctVol (parseAlgoFlag lower (get params "noTakeLiq")) (get params "startTime")
        (get params "endTime")

def parseAlgoParams (strategy : String) (params : List TagValue) : Except String AlgoParams :=
  match strategyOf (lower strategy) with
  | none => .ok (asWritten strategy params)
  | some known =>
      if params.any fun tv => !(algoParamNames known).contains tv.tag ||
          outsideTheVocabulary lower tv then .ok (asWritten strategy params)
      else readFields lower readF64 isFinite params known

/-! ## Writing the order's message -/

/-- `stated`: name then value for each parameter the caller stated. -/
def stated (pairs : List (String × Option String)) : List String :=
  pairs.flatMap fun p => p.2.toList.flatMap fun v => [p.1, v]

def flag (f : Option Bool) : Option String := f.map fun f => if f then "1" else "0"

def spelled (r : Option RiskAversion) : Option String := r.map RiskAversion.asStr

def buildAlgoTags : AlgoParams → String × List String
  | .named strategy params => (strategy, params)
  | .vwap _ noTakeLiq allowPastEndTime startTime endTime => ("Vwap", stated
      [("noTakeLiq", flag noTakeLiq), ("allowPastEndTime", flag allowPastEndTime),
        ("startTime", startTime), ("endTime", endTime)])
  | .twap allowPastEndTime startTime endTime => ("Twap", stated
      [("allowPastEndTime", flag allowPastEndTime), ("startTime", startTime),
        ("endTime", endTime)])
  | .arrivalPx _ riskAversion allowPastEndTime forceCompletion startTime endTime =>
      ("ArrivalPx", stated
        [("riskAversion", spelled riskAversion), ("allowPastEndTime", flag allowPastEndTime),
          ("forceCompletion", flag forceCompletion), ("startTime", startTime),
          ("endTime", endTime)])
  | .closePx _ riskAversion forceCompletion startTime => ("ClosePx", stated
      [("riskAversion", spelled riskAversion), ("forceCompletion", flag forceCompletion),
        ("startTime", startTime)])
  | .darkIce allowPastEndTime displaySize startTime endTime => ("DarkIce", stated
      [("allowPastEndTime", flag allowPastEndTime), ("displaySize", some displaySize),
        ("startTime", startTime), ("endTime", endTime)])
  | .pctVol pctVol noTakeLiq startTime endTime => ("PctVol", stated
      [("noTakeLiq", flag noTakeLiq), ("pctVol", pctVol), ("startTime", startTime),
        ("endTime", endTime)])

/-- `as_chunks::<2>`, without what is left over. -/
def asChunks : List String → List (String × String)
  | key :: value :: rest => (key, value) :: asChunks rest
  | _ => []

/-- Whether a pair states `maxPctVol`. -/
def isMaxPctVol (p : String × String) : Bool := p.1 = "maxPctVol"

/-- `max_pct_vol`, which has a tag of its own. -/
def maxPctVolOf : AlgoParams → Option String
  | .vwap maxPctVol .. | .arrivalPx maxPctVol .. | .closePx maxPctVol .. => maxPctVol
  | .named strategy params =>
      if strategyOf (lower strategy) ∈ [some .vwap, some .arrivalPx, some .closePx] then
        ((asChunks params).find? isMaxPctVol).map Prod.snd
      else none
  | _ => none

/-- The list without the first pair that states `maxPctVol`. -/
def drainMaxPctVol (paramStrs : List String) : List String :=
  match (asChunks paramStrs).findIdx? isMaxPctVol with
  | some i => paramStrs.take (i * 2) ++ paramStrs.drop (i * 2 + 2)
  | none => paramStrs

abbrev Field := ℕ × String

def generic (algo : AlgoParams) : List String :=
  match maxPctVolOf lower algo with
  | some _ => drainMaxPctVol (buildAlgoTags algo).2
  | none => (buildAlgoTags algo).2

def pushAlgo (algo : AlgoParams) : List Field :=
  (847, (buildAlgoTags algo).1) :: (maxPctVolOf lower algo).toList.map (Prod.mk 849) ++
    (5957, toString ((generic lower algo).length / 2)) ::
      (asChunks (generic lower algo)).flatMap fun p => [(5958, p.1), (5960, p.2)]

def algoTags : List ℕ := [847, 849, 5957, 5958, 5960]

/-- What an order states before its algorithm, on other tags. -/
structure Front where
  fields : List Field
  apart : ∀ f ∈ fields, f.1 ∉ algoTags

/-- `push_order_attrs` for an order with an algorithm: what stands before it, and whether the order
is a preview. -/
def pushOrderAttrs (front : Front) (algo : AlgoParams) (whatIf : Bool) : List Field :=
  front.fields ++ pushAlgo lower algo ++ if whatIf then [(6091, "1")] else []

/-! ## Reading the message -/

def pairsIn : List Field → List (String × String)
  | a :: b :: rest =>
      if a.1 = 5958 ∧ b.1 = 5960 then (a.2, b.2) :: pairsIn rest else pairsIn (b :: rest)
  | _ => []

def on (tag : ℕ) (msg : List Field) : List String := (msg.filter (·.1 = tag)).map Prod.snd

/-- **The parameters a message states**: on the tag of their own, and as pairs. -/
def statedIn (msg : List Field) : List (String × String) :=
  (on 849 msg).map (Prod.mk "maxPctVol") ++ pairsIn msg

/-! ## What reaches the venue -/

def Holds (known : Strategy) (params : List TagValue) : Prop :=
  ∀ tv ∈ params, tv.tag ∈ algoParamNames known ∧ outsideTheVocabulary lower tv = false

instance (known : Strategy) : DecidablePred (Holds lower known) :=
  fun params => inferInstanceAs (Decidable (∀ tv ∈ params, _))

def Held (strategy : String) (params : List TagValue) : Prop :=
  ∃ known ∈ strategyOf (lower strategy), Holds lower known params

def spelling (tv : TagValue) : String :=
  if tv.tag = "riskAversion" then (spelled (parseRiskAversion lower (some tv.value))).getD tv.value
  else if tv.tag ∈ flagNames then (flag (parseAlgoFlag lower (some tv.value))).getD tv.value
  else tv.value

def wired (tv : TagValue) : String × String := (tv.tag, spelling lower tv)

def numericNames : List String := ["maxPctVol", "pctVol"]

def Reads (raw : String) : Prop := ∃ v ∈ readF64 raw, isFinite v = true

/-- A text that is a whole number, of any size: digits, with a plus before them or not. -/
def IsWhole (raw : String) : Prop :=
  ∃ bound, (Decimal.parse bound (Utf8.encode raw.toList)).isSome

/-- A numeric parameter that does not read, or a display size missing or not a whole number. -/
def Unreadable (known : Strategy) (params : List TagValue) : Prop :=
  (∃ tv ∈ params, tv.tag ∈ numericNames ∧ ¬Reads readF64 isFinite tv.value) ∨
    known = .darkIce ∧ ((∀ tv ∈ params, tv.tag ≠ "displaySize") ∨
      ∃ tv ∈ params, tv.tag = "displaySize" ∧ ¬IsWhole tv.value)

/-- **What a caller relies on**: an accepted list is in the message parameter by parameter and the
count is of its pairs, a list the strategy does not hold goes whole, and one it holds is refused
where something does not read. -/
structure Reaches (strategy : String) (params : List TagValue) (front : Front) (whatIf : Bool) :
    Prop where
  each : ∀ algo, parseAlgoParams lower readF64 isFinite strategy params = .ok algo →
    (Held lower strategy params → (statedIn (pushOrderAttrs lower front algo whatIf)).Perm
      (params.map (wired lower))) ∧
    (¬Held lower strategy params → (statedIn (pushOrderAttrs lower front algo whatIf)).Perm
      (params.map TagValue.pair)) ∧
    on 5957 (pushOrderAttrs lower front algo whatIf) =
      [toString (pairsIn (pushOrderAttrs lower front algo whatIf)).length]
  whole : ¬Held lower strategy params → ∃ algo,
    parseAlgoParams lower readF64 isFinite strategy params = .ok algo ∧
    algo = asWritten strategy params ∧
    on 847 (pushOrderAttrs lower front algo whatIf) = [strategy] ∧
    (pairsIn (pushOrderAttrs lower front algo whatIf)).Sublist (params.map TagValue.pair)
  refused : ∀ known ∈ strategyOf (lower strategy), Holds lower known params →
    ((∃ e, parseAlgoParams lower readF64 isFinite strategy params = .error e) ↔
      Unreadable readF64 isFinite known params)

/-- A value the checks turn away, of those first under their names. -/
def TurnedAway (known : Strategy) (params : List TagValue) : Prop :=
  (∃ key ∈ numericNames, ∃ raw ∈ get params key, ¬Reads readF64 isFinite raw) ∨
    known = .darkIce ∧ ∀ raw ∈ get params "displaySize", parseU32 raw = none

/-- Where a list reaches the venue: the strategy does not hold it; or no name is stated twice and
nothing is turned away; or what is turned away is not only a display size of 2^32 or more. -/
def Fit (strategy : String) (params : List TagValue) : Prop :=
  ∀ known ∈ strategyOf (lower strategy), Holds lower known params →
    (¬TurnedAway readF64 isFinite known params ∧ (params.map TagValue.tag).Nodup) ∨
      (TurnedAway readF64 isFinite known params ∧ Unreadable readF64 isFinite known params)

/-! ## Pairs -/

lemma length_div_two : ∀ l : List String, l.length / 2 = (asChunks l).length
  | [] | [_] => by simp [asChunks]
  | _ :: _ :: rest => by
      rw [asChunks, List.length_cons, List.length_cons, List.length_cons, ← length_div_two rest]
      omega

lemma asChunks_flatMap (ps : List (String × String)) :
    asChunks (ps.flatMap fun p => [p.1, p.2]) = ps := by
  induction ps with
  | nil => rfl
  | cons p ps ih => rw [List.flatMap_cons, List.cons_append, List.cons_append, List.nil_append,
      asChunks, ih]

lemma asChunks_stated (pairs : List (String × Option String)) :
    asChunks (stated pairs) = pairs.flatMap fun p => (p.2.map (Prod.mk p.1)).toList := by
  induction pairs with
  | nil => rfl
  | cons p pairs ih =>
      rcases p with ⟨key, _ | value⟩
      · simpa [stated] using ih
      · simpa [stated, asChunks] using ih

lemma asChunks_drain : ∀ (i : ℕ) (l : List String),
    asChunks (l.take (i * 2) ++ l.drop (i * 2 + 2)) = (asChunks l).eraseIdx i
  | 0, [] | 0, [_] | 0, _ :: _ :: _ => by simp [asChunks]
  | i + 1, [] => rfl
  | i + 1, [_] => by simp [asChunks, show (i + 1) * 2 = i * 2 + 1 + 1 by omega]
  | i + 1, a :: b :: rest => by
      rw [show (i + 1) * 2 = i * 2 + 1 + 1 by omega,
        show i * 2 + 1 + 1 + 2 = i * 2 + 2 + 1 + 1 by omega, List.take_succ_cons,
        List.take_succ_cons, List.drop_succ_cons, List.drop_succ_cons, List.cons_append,
        List.cons_append, asChunks, asChunks, List.eraseIdx_cons_succ, asChunks_drain i rest]

lemma asChunks_drainMaxPctVol (l : List String) :
    asChunks (drainMaxPctVol l) = (asChunks l).eraseP isMaxPctVol := by
  rw [drainMaxPctVol, List.eraseP_eq_eraseIdx]
  cases (asChunks l).findIdx? isMaxPctVol with
  | none => rfl
  | some i => exact asChunks_drain i l

/-! ## A message -/

lemma pairsIn_cons {f : Field} (h : f.1 ≠ 5958) (l : List Field) :
    pairsIn (f :: l) = pairsIn l := by
  cases l with
  | nil => rfl
  | cons b rest => rw [pairsIn, if_neg fun hf => h hf.1]

lemma pairsIn_append {fs : List Field} (h : ∀ f ∈ fs, f.1 ≠ 5958) (l : List Field) :
    pairsIn (fs ++ l) = pairsIn l := by
  induction fs with
  | nil => rfl
  | cons f fs ih =>
      rw [List.forall_mem_cons] at h
      rw [List.cons_append, pairsIn_cons h.1, ih h.2]

lemma pairsIn_pairs (ps : List (String × String)) (l : List Field) :
    pairsIn ((ps.flatMap fun p => [(5958, p.1), (5960, p.2)]) ++ l) = ps ++ pairsIn l := by
  induction ps with
  | nil => rfl
  | cons p ps ih =>
      rw [List.flatMap_cons, List.append_assoc, List.cons_append, List.cons_append,
        List.nil_append, pairsIn, if_pos ⟨rfl, rfl⟩, ih, List.cons_append]

@[simp] lemma on_append (tag : ℕ) (a b : List Field) : on tag (a ++ b) = on tag a ++ on tag b := by
  simp [on]

@[simp] lemma on_cons (tag : ℕ) (f : Field) (l : List Field) :
    on tag (f :: l) = (if f.1 = tag then [f.2] else []) ++ on tag l := by
  by_cases h : f.1 = tag
  · simp [on, h]
  · simp [on, h]

lemma on_eq_nil {tag : ℕ} {l : List Field} (h : ∀ f ∈ l, f.1 ≠ tag) : on tag l = [] := by
  rw [on, List.filter_eq_nil_iff.2 fun f hf => by simpa using h f hf, List.map_nil]

lemma on_pairs {tag : ℕ} (hkey : tag ≠ 5958) (hvalue : tag ≠ 5960) (ps : List (String × String)) :
    on tag (ps.flatMap fun p => [((5958, p.1) : Field), (5960, p.2)]) = [] := by
  refine on_eq_nil fun f hf => ?_
  obtain ⟨p, -, hf⟩ := List.mem_flatMap.1 hf
  rcases List.mem_pair.1 hf with rfl | rfl
  · exact hkey.symm
  · exact hvalue.symm

lemma on_preview {tag : ℕ} (h : tag ∈ algoTags) (whatIf : Bool) :
    on tag (if whatIf then [((6091, "1") : Field)] else []) = [] := by
  refine on_eq_nil fun f hf => ?_
  cases whatIf with
  | false => exact absurd hf List.not_mem_nil
  | true =>
      rw [List.mem_singleton.1 hf]
      rintro rfl
      exact absurd h (by decide)

section

variable {lower}
variable (front : Front) (algo : AlgoParams) (whatIf : Bool)

lemma on_front {tag : ℕ} (h : tag ∈ algoTags) : on tag front.fields = [] :=
  on_eq_nil fun f hf heq => front.apart f hf (heq ▸ h)

lemma on_pushOrderAttrs {tag : ℕ} (h : tag ∈ algoTags) :
    on tag (pushOrderAttrs lower front algo whatIf) = on tag (pushAlgo lower algo) := by
  rw [pushOrderAttrs, on_append, on_append, on_front front h, on_preview h, List.nil_append,
    List.append_nil]

lemma on_own :
    on 849 (pushOrderAttrs lower front algo whatIf) = (maxPctVolOf lower algo).toList := by
  rw [on_pushOrderAttrs _ _ _ (by decide), pushAlgo]
  cases maxPctVolOf lower algo with
  | none => simp [on_pairs]
  | some value => simp [on_pairs]

lemma on_count : on 5957 (pushOrderAttrs lower front algo whatIf) =
    [toString (asChunks (generic lower algo)).length] := by
  rw [on_pushOrderAttrs _ _ _ (by decide), pushAlgo, length_div_two]
  cases maxPctVolOf lower algo with
  | none => simp [on_pairs]
  | some value => simp [on_pairs]

lemma on_name : on 847 (pushOrderAttrs lower front algo whatIf) = [(buildAlgoTags algo).1] := by
  rw [on_pushOrderAttrs _ _ _ (by decide), pushAlgo]
  cases maxPctVolOf lower algo with
  | none => simp [on_pairs]
  | some value => simp [on_pairs]

lemma pairsIn_pushOrderAttrs :
    pairsIn (pushOrderAttrs lower front algo whatIf) = asChunks (generic lower algo) := by
  have hpreview : pairsIn (if whatIf then [((6091, "1") : Field)] else []) = [] := by
    cases whatIf <;> rfl
  have hown : ∀ f ∈ (847, (buildAlgoTags algo).1) ::
      (maxPctVolOf lower algo).toList.map (Prod.mk 849), f.1 ≠ 5958 := by
    intro f hf
    rcases List.mem_cons.1 hf with rfl | hf
    · simp
    · obtain ⟨v, -, rfl⟩ := List.mem_map.1 hf
      simp
  rw [pushOrderAttrs, List.append_assoc, pairsIn_append fun f hf heq =>
    front.apart f hf (heq ▸ by decide), pushAlgo, List.append_assoc, pairsIn_append hown,
    List.cons_append, pairsIn_cons (by simp), pairsIn_pairs, hpreview, List.append_nil]

end

/-! ## A list forwarded -/

lemma perm_eraseP {α : Type*} {p : α → Bool} {a : α} : ∀ {l : List α}, l.find? p = some a →
    (a :: l.eraseP p).Perm l
  | b :: l, h => by
      cases hb : p b with
      | true =>
          rw [List.find?_cons_of_pos hb, Option.some.injEq] at h
          rw [List.eraseP_cons_of_pos hb, h]
      | false =>
          rw [List.find?_cons_of_neg (by simp [hb])] at h
          rw [List.eraseP_cons_of_neg (by simp [hb])]
          exact (List.Perm.swap ..).trans ((perm_eraseP h).cons b)

section

variable {lower}
variable (strategy : String) (params : List TagValue)

lemma asChunks_asWritten :
    asChunks (buildAlgoTags (asWritten strategy params)).2 = params.map TagValue.pair := by
  rw [← asChunks_flatMap (params.map TagValue.pair), List.flatMap_map]
  rfl

lemma maxPctVolOf_asWritten : maxPctVolOf lower (asWritten strategy params) = none ∨
    ∃ p, (params.map TagValue.pair).find? isMaxPctVol = some p ∧
      maxPctVolOf lower (asWritten strategy params) = some p.2 := by
  have hchunks := asChunks_asWritten strategy params
  simp only [buildAlgoTags, asWritten] at hchunks
  simp only [maxPctVolOf, asWritten, hchunks]
  split_ifs
  · cases hfind : (params.map TagValue.pair).find? isMaxPctVol with
    | none => exact Or.inl rfl
    | some p => exact Or.inr ⟨p, rfl, rfl⟩
  · exact Or.inl rfl

variable (front : Front) (whatIf : Bool)

/-- **A list forwarded is stated as it was written**, and in its order. -/
theorem forwarded :
    (statedIn (pushOrderAttrs lower front (asWritten strategy params) whatIf)).Perm
        (params.map TagValue.pair) ∧
      (pairsIn (pushOrderAttrs lower front (asWritten strategy params) whatIf)).Sublist
        (params.map TagValue.pair) := by
  have hchunks := asChunks_asWritten strategy params
  rw [statedIn, on_own, pairsIn_pushOrderAttrs, generic]
  rcases @maxPctVolOf_asWritten lower strategy params with hnone | ⟨p, hfind, hsome⟩
  · rw [hnone, hchunks]
    exact ⟨List.Perm.refl _, List.Sublist.refl _⟩
  · have hkey : p.1 = "maxPctVol" := by simpa [isMaxPctVol] using List.find?_some hfind
    rw [hsome]
    dsimp only
    rw [asChunks_drainMaxPctVol, hchunks]
    refine ⟨?_, List.eraseP_sublist⟩
    have hpair : (some p.2).toList.map (Prod.mk "maxPctVol") = [p] := by
      rw [← hkey]
      rfl
    rw [hpair]
    exact perm_eraseP hfind

end

/-! ## The parameters under their names -/

section

variable {lower}
variable {params : List TagValue} {keys : List String}

lemma find_eq_some (hnodup : (params.map TagValue.tag).Nodup) {tv : TagValue} {key : String} :
    params.find? (·.tag = key) = some tv ↔ tv ∈ params ∧ tv.tag = key := by
  constructor
  · exact fun h => ⟨List.mem_of_find?_eq_some h, by simpa using List.find?_some h⟩
  · rintro ⟨hmem, rfl⟩
    cases h : params.find? (·.tag = tv.tag) with
    | none => exact absurd (by simp) (List.find?_eq_none.1 h tv hmem)
    | some tv' =>
        have htag : tv'.tag = tv.tag := by simpa using List.find?_some h
        rw [List.inj_on_of_nodup_map hnodup (List.mem_of_find?_eq_some h) hmem htag]

def byName (keys : List String) (params : List TagValue) : List TagValue :=
  keys.filterMap fun key => params.find? (·.tag = key)

lemma nodup_tags_byName (hkeys : keys.Nodup) : ((byName keys params).map TagValue.tag).Nodup := by
  induction keys with
  | nil => exact List.nodup_nil
  | cons key keys ih =>
      rw [List.nodup_cons] at hkeys
      rw [byName, List.filterMap_cons]
      cases h : params.find? (·.tag = key) with
      | none => exact ih hkeys.2
      | some tv =>
          have htag : tv.tag = key := by simpa using List.find?_some h
          refine List.nodup_cons.2 ⟨fun hmem => hkeys.1 ?_, ih hkeys.2⟩
          obtain ⟨tv', htv', heq⟩ := List.mem_map.1 hmem
          obtain ⟨key', hkey', hfind⟩ := List.mem_filterMap.1 htv'
          have htag' : tv'.tag = key' := by simpa using List.find?_some hfind
          rwa [← htag, ← heq, htag']

/-- **The parameters under their names are all of them** where no name is stated twice, and never
where one is. -/
theorem perm_byName (hkeys : keys.Nodup) (hsub : ∀ tv ∈ params, tv.tag ∈ keys) :
    ((byName keys params).map (wired lower)).Perm (params.map (wired lower)) ↔
      (params.map TagValue.tag).Nodup := by
  have htags : ∀ l : List TagValue, (l.map (wired lower)).map Prod.fst = l.map TagValue.tag :=
    fun l => by rw [List.map_map]; rfl
  have hbyName : ((byName keys params).map TagValue.tag).Nodup := nodup_tags_byName hkeys
  constructor
  · intro hperm
    have hfst := hperm.map Prod.fst
    rw [htags, htags] at hfst
    exact hfst.nodup_iff.1 hbyName
  · intro hnodup
    refine List.Perm.map _ ((List.perm_ext_iff_of_nodup (hbyName.of_map _) (hnodup.of_map _)).2
      fun tv => ?_)
    rw [byName, List.mem_filterMap]
    constructor
    · rintro ⟨key, -, hfind⟩
      exact List.mem_of_find?_eq_some hfind
    · exact fun hmem => ⟨tv.tag, hsub tv hmem, (find_eq_some hnodup).2 ⟨hmem, rfl⟩⟩

end

/-! ## A list held -/

section

variable {lower} {readF64} {isFinite}
variable {params : List TagValue} {known : Strategy}

lemma toList_under {α : Type} (key : String) (o : Option α) :
    o.toList.map (Prod.mk key) = (o.map (Prod.mk key)).toList := by
  cases o <;> rfl

lemma byName_cons (key : String) (keys : List String) :
    (byName (key :: keys) params).map (wired lower) =
      ((params.find? (·.tag = key)).map (wired lower)).toList ++
        (byName keys params).map (wired lower) := by
  rw [byName, List.filterMap_cons]
  cases params.find? (·.tag = key) with
  | none => rfl
  | some tv => rfl

variable {key : String}

lemma flag_get (hheld : Holds lower known params) (hkey : key ∈ flagNames) :
    (flag (parseAlgoFlag lower (get params key))).map (Prod.mk key) =
      (params.find? (·.tag = key)).map (wired lower) := by
  rw [get]
  cases h : params.find? (·.tag = key) with
  | none => rfl
  | some tv =>
      have htag : tv.tag = key := by simpa using List.find?_some h
      have hne : tv.tag ≠ "riskAversion" := by
        rintro hrisk
        rw [← htag, hrisk] at hkey
        exact absurd hkey (by decide)
      have hvocabulary := (hheld tv (List.mem_of_find?_eq_some h)).2
      rw [outsideTheVocabulary, if_neg hne, if_pos (htag ▸ hkey)] at hvocabulary
      obtain ⟨b, hb⟩ := Option.ne_none_iff_exists'.1 (Option.isNone_eq_false_iff.1 hvocabulary |>
        Option.isSome_iff_ne_none.1)
      rw [Option.map_some, Option.map_some, wired, spelling, if_neg hne, if_pos (htag ▸ hkey), hb,
        htag]
      rfl

lemma spelled_get (hheld : Holds lower known params) :
    (spelled (parseRiskAversion lower (get params "riskAversion"))).map (Prod.mk "riskAversion") =
      (params.find? (·.tag = "riskAversion")).map (wired lower) := by
  rw [get]
  cases h : params.find? (·.tag = "riskAversion") with
  | none => rfl
  | some tv =>
      have htag : tv.tag = "riskAversion" := by simpa using List.find?_some h
      have hvocabulary := (hheld tv (List.mem_of_find?_eq_some h)).2
      rw [outsideTheVocabulary, if_pos htag] at hvocabulary
      obtain ⟨r, hr⟩ := Option.ne_none_iff_exists'.1 (Option.isNone_eq_false_iff.1 hvocabulary |>
        Option.isSome_iff_ne_none.1)
      rw [Option.map_some, Option.map_some, wired, spelling, if_pos htag, hr, htag]
      rfl

lemma plain_get (hflag : key ∉ flagNames) (hrisk : key ≠ "riskAversion") :
    (get params key).map (Prod.mk key) = (params.find? (·.tag = key)).map (wired lower) := by
  rw [get]
  cases h : params.find? (·.tag = key) with
  | none => rfl
  | some tv =>
      have htag : tv.tag = key := by simpa using List.find?_some h
      rw [Option.map_some, Option.map_some, Option.map_some, wired, spelling,
        if_neg (htag ▸ hrisk), if_neg (htag ▸ hflag), htag]

lemma statedIn_fields {algo : AlgoParams} {pairs : List (String × Option String)}
    (halgo : (buildAlgoTags algo).2 = stated pairs) (hkeys : "maxPctVol" ∉ pairs.map Prod.fst)
    (front : Front) (whatIf : Bool) :
    statedIn (pushOrderAttrs lower front algo whatIf) =
      ((maxPctVolOf lower algo).map (Prod.mk "maxPctVol")).toList ++
        pairs.flatMap fun p => (p.2.map (Prod.mk p.1)).toList := by
  have hnone : ∀ p ∈ asChunks (stated pairs), ¬isMaxPctVol p = true := by
    intro p hp hmax
    rw [asChunks_stated, List.mem_flatMap] at hp
    obtain ⟨q, hq, hp⟩ := hp
    obtain ⟨value, -, rfl⟩ := Option.map_eq_some_iff.1 (Option.mem_toList.1 hp)
    exact hkeys (List.mem_map.2 ⟨q, hq, by simpa [isMaxPctVol] using hmax⟩)
  have hgeneric : asChunks (generic lower algo) = asChunks (stated pairs) := by
    rw [generic, halgo]
    cases maxPctVolOf lower algo with
    | none => rfl
    | some value =>
        dsimp only
        rw [asChunks_drainMaxPctVol, List.eraseP_of_forall_not hnone]
  rw [statedIn, on_own, pairsIn_pushOrderAttrs, hgeneric, asChunks_stated, toList_under]

lemma getNum_ok (h : ∀ raw ∈ get params key, Reads readF64 isFinite raw) :
    getNum readF64 isFinite params key = .ok (get params key) := by
  rw [getNum]
  cases hget : get params key with
  | none => rfl
  | some raw =>
      obtain ⟨v, hv, hfinite⟩ := h raw hget
      simp [Option.mem_def.1 hv, hfinite]

lemma getNum_error {raw : String} (hget : get params key = some raw)
    (h : ¬Reads readF64 isFinite raw) : ∃ e, getNum readF64 isFinite params key = .error e := by
  rw [getNum, hget]
  dsimp only
  cases hread : readF64 raw with
  | none => exact ⟨_, rfl⟩
  | some v =>
      have hfinite : ¬isFinite v = true := fun hf => h ⟨v, hread, hf⟩
      exact ⟨_, if_neg hfinite⟩

def writtenNames : Strategy → List String
  | .pctVol => ["noTakeLiq", "pctVol", "startTime", "endTime"]
  | known => algoParamNames known

lemma nodup_writtenNames (known : Strategy) : (writtenNames known).Nodup := by
  cases known <;> decide

lemma mem_writtenNames : key ∈ writtenNames known ↔ key ∈ algoParamNames known := by
  cases known with
  | pctVol => simp only [writtenNames, algoParamNames, List.mem_cons]; tauto
  | _ => rfl

/-- **The fields of a strategy state what is stated under its names**, where nothing is turned
away. -/
theorem readFields_ok (hheld : Holds lower known params)
    (h : ¬TurnedAway readF64 isFinite known params) :
    ∃ algo, readFields lower readF64 isFinite params known = .ok algo ∧
      ∀ front whatIf, statedIn (pushOrderAttrs lower front algo whatIf) =
        (byName (writtenNames known) params).map (wired lower) := by
  have hnum : ∀ key ∈ numericNames, getNum readF64 isFinite params key = .ok (get params key) := by
    intro key hkey
    refine getNum_ok fun raw hraw => ?_
    by_contra hreads
    exact h (Or.inl ⟨key, hkey, raw, hraw, hreads⟩)
  have hmax := hnum "maxPctVol" (by decide)
  have hpct := hnum "pctVol" (by decide)
  have hplain (key : String) (hkey : key ∉ flagNames) (hrisk : key ≠ "riskAversion") :=
    @plain_get lower params key hkey hrisk
  -- Every field, as its parameter is stated.
  have hall := And.intro (spelled_get hheld) (And.intro
    (flag_get hheld (by decide : "noTakeLiq" ∈ flagNames)) (And.intro
    (flag_get hheld (by decide : "allowPastEndTime" ∈ flagNames))
    (flag_get hheld (by decide : "forceCompletion" ∈ flagNames))))
  have htexts := And.intro (hplain "maxPctVol" (by decide) (by decide)) (And.intro
    (hplain "pctVol" (by decide) (by decide)) (And.intro
    (hplain "startTime" (by decide) (by decide)) (hplain "endTime" (by decide) (by decide))))
  have hlast : (byName [] params).map (wired lower) = [] := rfl
  have hstates {algo : AlgoParams} {pairs : List (String × Option String)}
      (halgo : (buildAlgoTags algo).2 = stated pairs) (hkeys : "maxPctVol" ∉ pairs.map Prod.fst)
      (hsame : ((maxPctVolOf lower algo).map (Prod.mk "maxPctVol")).toList ++
        pairs.flatMap (fun p => (p.2.map (Prod.mk p.1)).toList) =
          (byName (writtenNames known) params).map (wired lower)) (front : Front) (whatIf : Bool) :=
    (statedIn_fields halgo hkeys front whatIf).trans hsame
  cases known with
  | vwap | arrivalPx | closePx =>
      refine ⟨_, by simp only [readFields, hmax]; rfl, hstates rfl (by simp) ?_⟩
      simp only [maxPctVolOf, List.flatMap_cons, List.flatMap_nil, writtenNames, algoParamNames,
        byName_cons, hlast, hall, htexts]
  | twap =>
      refine ⟨_, rfl, hstates rfl (by simp) ?_⟩
      simp only [maxPctVolOf, List.flatMap_cons, List.flatMap_nil, writtenNames, algoParamNames,
        byName_cons, hlast, hall, htexts, Option.map_none, Option.toList_none, List.nil_append]
  | darkIce =>
      cases hget : get params "displaySize" with
      | none => exact absurd (Or.inr ⟨rfl, fun raw hraw => nomatch hget.symm.trans hraw⟩) h
      | some raw =>
          cases hparse : parseU32 raw with
          | none =>
              refine absurd (Or.inr ⟨rfl, fun raw' hraw => ?_⟩) h
              rw [← Option.some.inj (hget.symm.trans hraw), hparse]
          | some n =>
              refine ⟨_, by simp only [readFields, hget, hparse]; rfl, hstates rfl (by simp) ?_⟩
              have hsize := hplain "displaySize" (by decide) (by decide)
              rw [hget] at hsize
              simp only [maxPctVolOf, List.flatMap_cons, List.flatMap_nil, writtenNames,
                algoParamNames, byName_cons, hlast, hall, htexts, hsize, Option.map_none,
                Option.toList_none, List.nil_append]
  | pctVol =>
      refine ⟨_, by simp only [readFields, hpct]; rfl, hstates rfl (by simp) ?_⟩
      simp only [maxPctVolOf, List.flatMap_cons, List.flatMap_nil, writtenNames, byName_cons, hlast,
        hall, htexts, Option.map_none, Option.toList_none, List.nil_append]

lemma mem_names_of_get (hheld : Holds lower known params) {raw : String}
    (hget : get params key = some raw) : key ∈ algoParamNames known := by
  obtain ⟨tv, hfind, -⟩ := Option.map_eq_some_iff.1 hget
  have htag : tv.tag = key := by simpa using List.find?_some hfind
  exact htag ▸ (hheld tv (List.mem_of_find?_eq_some hfind)).1

theorem readFields_error (hheld : Holds lower known params)
    (h : TurnedAway readF64 isFinite known params) :
    ∃ e, readFields lower readF64 isFinite params known = .error e := by
  rcases h with ⟨key, hkey, raw, hraw, hreads⟩ | ⟨rfl, hsize⟩
  · obtain ⟨e, he⟩ := getNum_error hraw hreads
    have hname := mem_names_of_get hheld hraw
    rcases List.mem_pair.1 hkey with rfl | rfl
    · cases known with
      | vwap | arrivalPx | closePx => exact ⟨e, by simp only [readFields, he]; rfl⟩
      | twap | darkIce | pctVol => exact absurd hname (by decide)
    · cases known with
      | pctVol => exact ⟨e, by simp only [readFields, he]; rfl⟩
      | vwap | arrivalPx | closePx | twap | darkIce => exact absurd hname (by decide)
  · cases hget : get params "displaySize" with
    | none => exact ⟨_, by simp only [readFields, hget]; rfl⟩
    | some raw => exact ⟨_, by simp only [readFields, hget, hsize raw hget]; rfl⟩

/-! ## Refusals -/

lemma not_unreadable (hnodup : (params.map TagValue.tag).Nodup)
    (h : ¬TurnedAway readF64 isFinite known params) :
    ¬Unreadable readF64 isFinite known params := by
  have hget : ∀ tv ∈ params, get params tv.tag = some tv.value := fun tv htv => by
    rw [get, (find_eq_some hnodup).2 ⟨htv, rfl⟩, Option.map_some]
  rintro (⟨tv, htv, hnumeric, hreads⟩ | ⟨rfl, hmissing | ⟨tv, htv, htag, hwhole⟩⟩)
  · exact h (Or.inl ⟨tv.tag, hnumeric, tv.value, hget tv htv, hreads⟩)
  · refine h (Or.inr ⟨rfl, fun raw hraw => ?_⟩)
    obtain ⟨tv, hfind, -⟩ := Option.map_eq_some_iff.1 (Option.mem_def.1 hraw)
    exact absurd (by simpa using List.find?_some hfind)
      (hmissing tv (List.mem_of_find?_eq_some hfind))
  · refine h (Or.inr ⟨rfl, fun raw hraw => ?_⟩)
    have hvalue := hget tv htv
    rw [htag, Option.mem_def.1 hraw, Option.some.injEq] at hvalue
    rw [hvalue]
    cases hparse : parseU32 tv.value with
    | none => rfl
    | some n => exact absurd ⟨2 ^ 32, Option.isSome_iff_exists.2 ⟨n, hparse⟩⟩ hwhole

variable {strategy : String}

lemma parseAlgoParams_held (hknown : strategyOf (lower strategy) = some known)
    (hheld : Holds lower known params) :
    parseAlgoParams lower readF64 isFinite strategy params =
      readFields lower readF64 isFinite params known := by
  have hany : (params.any fun tv => !(algoParamNames known).contains tv.tag ||
      outsideTheVocabulary lower tv) = false := by
    rw [List.any_eq_false]
    intro tv htv
    simp [(hheld tv htv).1, (hheld tv htv).2]
  rw [parseAlgoParams, hknown]
  dsimp only
  rw [hany, if_neg Bool.false_ne_true]

lemma parseAlgoParams_not_held (h : ¬Held lower strategy params) :
    parseAlgoParams lower readF64 isFinite strategy params = .ok (asWritten strategy params) := by
  rw [parseAlgoParams]
  cases hknown : strategyOf (lower strategy) with
  | none => rfl
  | some known =>
      refine if_pos ?_
      by_contra hany
      refine h ⟨known, hknown, fun tv htv => ?_⟩
      have hneither := List.any_eq_false.1 (Bool.eq_false_iff.2 hany) tv htv
      simpa using hneither

end

/-- **A caller's parameters reach the venue just where the list is fit**: where the strategy holds
it, no name is stated twice. -/
theorem parameters_reach_the_venue (strategy : String) (params : List TagValue) (front : Front)
    (whatIf : Bool) :
    Reaches lower readF64 isFinite strategy params front whatIf ↔
      Fit lower readF64 isFinite strategy params := by
  have hcount : ∀ algo, on 5957 (pushOrderAttrs lower front algo whatIf) =
      [toString (pairsIn (pushOrderAttrs lower front algo whatIf)).length] := fun algo => by
    rw [on_count, pairsIn_pushOrderAttrs]
  by_cases hnot : Held lower strategy params
  swap
  · -- Forwarded whole: nothing is read, so nothing is refused.
    have hparse : parseAlgoParams lower readF64 isFinite strategy params = _ :=
      parseAlgoParams_not_held hnot
    obtain ⟨hperm, hsub⟩ := @forwarded lower strategy params front whatIf
    refine ⟨fun _ known hknown hheld => absurd ⟨known, hknown, hheld⟩ hnot, fun _ => ⟨?_, ?_, ?_⟩⟩
    · intro algo halgo
      obtain rfl : asWritten strategy params = algo := Except.ok.inj (hparse.symm.trans halgo)
      exact ⟨fun h => absurd h hnot, fun _ => hperm, hcount _⟩
    · exact fun _ => ⟨_, hparse, rfl, on_name front _ whatIf, hsub⟩
    · exact fun known hknown hheld => absurd ⟨known, hknown, hheld⟩ hnot
  obtain ⟨known, hknown, hheld⟩ := hnot
  have hnot : Held lower strategy params := ⟨known, hknown, hheld⟩
  have honly : ∀ known' ∈ strategyOf (lower strategy), known' = known := fun known' hknown' =>
    Option.some.inj (hknown'.symm.trans hknown)
  have hparse : parseAlgoParams lower readF64 isFinite strategy params = _ :=
    parseAlgoParams_held hknown hheld
  by_cases haway : TurnedAway readF64 isFinite known params
  · obtain ⟨e, he⟩ := readFields_error hheld haway
    rw [← hparse] at he
    constructor
    · rintro hreaches known' hknown' -
      rw [honly known' hknown']
      exact Or.inr ⟨haway, (hreaches.refused known hknown hheld).1 ⟨e, he⟩⟩
    · intro hfit
      have hunreadable : Unreadable readF64 isFinite known params :=
        (hfit known hknown hheld).elim (fun h => absurd haway h.1) fun h => h.2
      refine ⟨fun algo halgo => (nomatch he.symm.trans halgo), fun h => absurd hnot h, ?_⟩
      rintro known' hknown' -
      rw [honly known' hknown']
      exact ⟨fun _ => hunreadable, fun _ => ⟨e, he⟩⟩
  · obtain ⟨algo, halgo, hstated⟩ := readFields_ok hheld haway
    rw [← hparse] at halgo
    have hperm := @perm_byName lower params _ (nodup_writtenNames known)
      fun tv htv => mem_writtenNames.2 (hheld tv htv).1
    constructor
    · rintro hreaches known' hknown' -
      rw [honly known' hknown']
      have heach := (hreaches.each algo halgo).1 hnot
      rw [hstated] at heach
      exact Or.inl ⟨haway, hperm.1 heach⟩
    · intro hfit
      have hnodup : (params.map TagValue.tag).Nodup :=
        (hfit known hknown hheld).elim (fun h => h.2) fun h => absurd h.1 haway
      refine ⟨fun algo' halgo' => ?_, fun h => absurd hnot h, ?_⟩
      · obtain rfl : algo = algo' := Except.ok.inj (halgo.symm.trans halgo')
        refine ⟨fun _ => ?_, fun h => absurd hnot h, hcount _⟩
        rw [hstated]
        exact hperm.2 hnodup
      · rintro known' hknown' -
        rw [honly known' hknown']
        exact ⟨fun ⟨e, he⟩ => (nomatch he.symm.trans halgo),
          fun h => absurd h (not_unreadable hnodup haway)⟩

def statedTwice : List TagValue := [⟨"allowPastEndTime", "1"⟩, ⟨"allowPastEndTime", "0"⟩]

/-- **A flag stated twice goes out once**: the message of a `twap` states the first and drops the
second, though the list is accepted. -/
theorem stated_twice_goes_once :
    ¬∀ (front : Front) (whatIf : Bool),
      Reaches (fun s => s) (fun _ => (none : Option ℕ)) (fun _ => true) "twap" statedTwice front
        whatIf := by
  intro h
  have hheld : Held (fun s => s) "twap" statedTwice := ⟨.twap, rfl, by decide⟩
  have hperm := (((h ⟨[], by simp⟩ false).each
    (.twap (some true) none none) (by decide)).1 hheld).length_eq
  exact absurd hperm (by decide)

end IbkrDx.Algos
