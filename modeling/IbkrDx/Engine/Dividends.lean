import Mathlib.Data.Rat.Floor
import IbkrDx.Engine.IdHistory

/-!
# Taking dividends off a series

`fold_dividends` of `control/adjustments.rs`: each dividend is restated on the scale of the actions
listed behind it, is carried by the first bar of its day, and is taken off the bar in front of that
one; every bar before is multiplied by what that took off the close.

* **`dividends_folded`** — the bars are adjusted backward, each by its own amount and by the ratio
  of every later one.

Prices are exact.
-/

namespace IbkrDx

/-! ## What is read -/

inductive FloatText where
  | number (v : ℚ)
  | infinite (negative : Bool)
  | notANumber
  deriving DecidableEq

structure SeriesReading where
  parse : String → Option FloatText
  datetimeToUnix : String → Option ℤ
  dayNumber : String → Option ℤ
  barDateAsAsked : String → String → String
  clockNamed : String → Bool

structure StatedAction where
  kind : Option AdjustmentKind
  date : String
  value : String
  deriving DecidableEq

structure PricedBar where
  time : String
  openPrice : ℚ
  high : ℚ
  low : ℚ
  close : ℚ
  volume : ℤ
  wap : ℚ
  count : ℤ
  ends : String
  deriving DecidableEq

def PricedBar.mapPrices (b : PricedBar) (f : ℚ → ℚ) : PricedBar :=
  { b with
    openPrice := f b.openPrice, high := f b.high, low := f b.low, close := f b.close, wap := f b.wap }

namespace SeriesReading

variable (r : SeriesReading)

/-- Whether a stamp already states the clock it is written on: its last word names one. -/
def alreadyOnANamedClock (barDate : String) : Bool :=
  let last := (barDate.toList.reverse.takeWhile fun c =>
    c ≠ ' ' ∧ c ≠ '\t' ∧ c ≠ '\n' ∧ c ≠ '\x0c' ∧ c ≠ '\r').reverse
  last ≠ [] ∧ ¬ last.all (fun c => c.isDigit || c == ':') ∧ r.clockNamed (String.ofList last)

def isDay (day : List Char) : Bool := day.length = 8 ∧ day.all Char.isDigit

def dayOf (zone barDate : String) : Option String :=
  let day := barDate.toList.take 8
  if ¬ isDay day then none
  else if barDate.toList[8]?.any Char.isDigit then none
  else if r.datetimeToUnix (String.ofList (day ++ "-00:00:00".toList)) = none then none
  else
    let there := (r.barDateAsAsked barDate zone).toList.take 8
    if barDate.toList[8]?.isSome ∧ zone ≠ "" ∧ ¬ r.alreadyOnANamedClock barDate ∧ isDay there then
      some (String.ofList there)
    else some (String.ofList day)

def moment (stamp : String) : Option ℤ :=
  match r.datetimeToUnix stamp with
  | some t => some t
  | none => (r.dayNumber stamp).map (· * 86400)

def endOf (b : PricedBar) : Option ℤ :=
  match r.moment b.ends with
  | some t => some t
  | none => r.moment b.time

/-! ## The amounts -/

def floatMax : ℚ := 2 ^ 1024 - 2 ^ 971

/-- A whole count as sixty-four bits hold it, the nearest where they do not. -/
def saturated (n : ℤ) : ℤ := max (-2 ^ 63) (min n (2 ^ 63 - 1))

/-- A value's count of ten-thousandths, rounded half up, on the scale of what is listed behind
it. -/
def countOf (v after : ℚ) : ℤ := saturated ⌊v * after * 10 ^ 4 + 1 / 2⌋

def restateAmount (value : String) (after : ℚ) : ℚ :=
  match r.parse value with
  | none => countOf floatMax after / 10 ^ 4
  | some (.number v) => countOf v after / 10 ^ 4
  | some (.infinite negative) =>
      (if (0 < after) = (negative = false) then 2 ^ 63 - 1 else -2 ^ 63) / 10 ^ 4
  | some .notANumber => 0

def finite (value : String) : Option ℚ :=
  match r.parse value with
  | some (.number v) => some v
  | _ => none

/-- What an action multiplies the dividends listed in front of it by. -/
def factor (a : StatedAction) : ℚ :=
  match a.kind, r.finite a.value with
  | some .split, some v => if 0 < v then 1 / v else 1
  | some .rightsOffer, some v => if 0 < v then 1 / v else 1
  | some .spinOff, some v => if v ≠ 0 then v else 1
  | _, _ => 1

/-- One action, the last listed first: the scale so far, and the dividends restated. -/
def restateStep (a : StatedAction) (s : ℚ × List (String × ℚ)) : ℚ × List (String × ℚ) :=
  if a.kind = some .cashDividend then (s.1, s.2 ++ [(a.date, r.restateAmount a.value s.1)])
  else (s.1 * r.factor a, s.2)

def restated (actions : List StatedAction) : List (String × ℚ) :=
  (actions.foldr r.restateStep (1, [])).2

def firstOfDay (zone : String) (bars : List PricedBar) (day : String) : Option ℕ :=
  bars.findIdx? fun b => r.dayOf zone b.time = some day

structure Carried where
  counted : Finset (String × ℚ) := ∅
  amounts : ℕ → ℚ := fun _ => 0

/-- One dividend: counted once with its day and its amount. -/
def carryStep (zone : String) (bars : List PricedBar) (c : Carried) (d : String × ℚ) : Carried :=
  match r.firstOfDay zone bars d.1 with
  | none => c
  | some i =>
      if d.2 ≠ 0 ∧ d ∉ c.counted then
        ⟨insert d c.counted, Function.update c.amounts i (c.amounts i + d.2)⟩
      else c

def carried (zone : String) (bars : List PricedBar) (dividends : List (String × ℚ)) : ℕ → ℚ :=
  (dividends.foldl (r.carryStep zone bars) {}).amounts

/-! ## The series -/

def barBefore (bars : List PricedBar) (i : ℕ) : Option ℕ :=
  (List.range i).reverse.find? fun j =>
    match bars[j]?.bind r.endOf, bars[i]?.bind fun b => r.moment b.time with
    | some e, some s => decide (e < s)
    | _, _ => true

/-- An amount taken off a bar, and every bar before it multiplied by what that took off its
close. -/
def takeOff (bars : List PricedBar) (i : ℕ) (amount : ℚ) : List PricedBar :=
  match bars[i]? with
  | none => bars
  | some b =>
      bars.mapIdx fun j c =>
        if j < i then c.mapPrices (· * ((b.close - amount) / b.close))
        else if j = i then c.mapPrices (· - amount) else c

def foldStep (amounts : ℕ → ℚ) (bars : List PricedBar) (i : ℕ) : List PricedBar :=
  if amounts i = 0 then bars
  else
    match r.barBefore bars i with
    | none => bars
    | some j => takeOff bars j (amounts i)

end SeriesReading

open SeriesReading

/-- Take a contract's cash dividends off the bars before each, oldest first. -/
def foldDividends (r : SeriesReading) (zone : String) (bars : List PricedBar)
    (actions : List StatedAction) : List PricedBar :=
  (List.range bars.length).foldl (r.foldStep (r.carried zone bars (r.restated actions))) bars

/-! ## What is taken off -/

/-- What is taken off a bar: the distinct amounts of the dividends whose day's first bar is the one
behind it. -/
def takenOff (r : SeriesReading) (zone : String) (bars : List PricedBar)
    (actions : List StatedAction) (k : ℕ) : ℚ :=
  ∑ d ∈ (r.restated actions).toFinset with r.firstOfDay zone bars d.1 = some (k + 1), d.2

def BarsInOrder (r : SeriesReading) (bars : List PricedBar) : Prop :=
  ∀ i, i + 1 < bars.length → ∃ e s, bars[i]?.bind r.endOf = some e ∧
    (bars[i + 1]?.bind fun b => r.moment b.time) = some s ∧ e < s

def closeAt (bars : List PricedBar) (k : ℕ) : ℚ := (bars[k]?.map PricedBar.close).getD 1

namespace SeriesReading

variable (r : SeriesReading) (zone : String) (bars : List PricedBar)

lemma carry_foldl (dividends : List (String × ℚ)) (c : Carried)
    (hc : ∀ i, c.amounts i = ∑ d ∈ c.counted with r.firstOfDay zone bars d.1 = some i, d.2) :
    (∀ i, (dividends.foldl (r.carryStep zone bars) c).amounts i =
      ∑ d ∈ (dividends.foldl (r.carryStep zone bars) c).counted with
        r.firstOfDay zone bars d.1 = some i, d.2) ∧
    ∀ d, d ∈ (dividends.foldl (r.carryStep zone bars) c).counted ↔
      d ∈ c.counted ∨ d ∈ dividends ∧ d.2 ≠ 0 ∧ r.firstOfDay zone bars d.1 ≠ none := by
  induction dividends generalizing c with
  | nil => exact ⟨hc, fun d => by simp⟩
  | cons x dividends ih =>
      rw [List.foldl_cons]
      cases hfirst : r.firstOfDay zone bars x.1 with
      | none =>
          have hstep : r.carryStep zone bars c x = c := by rw [carryStep, hfirst]
          rw [hstep]
          refine ⟨(ih c hc).1, fun d => ((ih c hc).2 d).trans ?_⟩
          rw [List.mem_cons]
          refine or_congr_right ⟨fun h => ⟨Or.inr h.1, h.2⟩, fun h => ⟨?_, h.2⟩⟩
          rcases h.1 with rfl | hmem
          · exact absurd hfirst h.2.2
          · exact hmem
      | some i =>
          by_cases hnew : x.2 ≠ 0 ∧ x ∉ c.counted
          · have hstep : r.carryStep zone bars c x = ⟨insert x c.counted,
                Function.update c.amounts i (c.amounts i + x.2)⟩ := by
              rw [carryStep, hfirst]
              exact if_pos hnew
            rw [hstep]
            have hsum : ∀ j, (Function.update c.amounts i (c.amounts i + x.2)) j =
                ∑ d ∈ insert x c.counted with r.firstOfDay zone bars d.1 = some j, d.2 := by
              intro j
              rw [Finset.filter_insert, hfirst]
              rcases eq_or_ne j i with rfl | hne
              · rw [Function.update_self, if_pos rfl, Finset.sum_insert, hc, add_comm]
                exact fun hmem => hnew.2 (Finset.mem_of_mem_filter x hmem)
              · rw [Function.update_of_ne hne, if_neg fun h => hne (Option.some.inj h).symm, hc]
            obtain ⟨hamounts, hcounted⟩ := ih ⟨_, _⟩ hsum
            refine ⟨hamounts, fun d => (hcounted d).trans ?_⟩
            rw [Finset.mem_insert, List.mem_cons]
            constructor
            · rintro ((rfl | hmem) | hmem)
              · exact Or.inr ⟨Or.inl rfl, hnew.1, by rw [hfirst]; exact Option.some_ne_none i⟩
              · exact Or.inl hmem
              · exact Or.inr ⟨Or.inr hmem.1, hmem.2⟩
            · rintro (hmem | ⟨rfl | hmem, hd⟩)
              · exact Or.inl (Or.inr hmem)
              · exact Or.inl (Or.inl rfl)
              · exact Or.inr ⟨hmem, hd⟩
          · have hstep : r.carryStep zone bars c x = c := by
              rw [carryStep, hfirst]
              exact if_neg hnew
            rw [hstep]
            refine ⟨(ih c hc).1, fun d => ((ih c hc).2 d).trans ?_⟩
            rw [List.mem_cons]
            constructor
            · rintro (hmem | hmem)
              · exact Or.inl hmem
              · exact Or.inr ⟨Or.inr hmem.1, hmem.2⟩
            · rintro (hmem | ⟨rfl | hmem, hd⟩)
              · exact Or.inl hmem
              · exact Or.inl (by_contra fun hno => hnew ⟨hd.1, hno⟩)
              · exact Or.inr ⟨hmem, hd⟩

lemma carried_eq (dividends : List (String × ℚ)) (i : ℕ) :
    r.carried zone bars dividends i =
      ∑ d ∈ dividends.toFinset with r.firstOfDay zone bars d.1 = some i, d.2 := by
  obtain ⟨hamounts, hcounted⟩ := r.carry_foldl zone bars dividends {} fun i => by simp
  rw [carried, hamounts]
  refine Finset.sum_subset_zero_on_sdiff (fun d hd => ?_) (fun d hd => ?_) fun _ _ => rfl
  · obtain ⟨hmem, hfirst⟩ := Finset.mem_filter.1 hd
    rcases (hcounted d).1 hmem with h | h
    · exact absurd h (Finset.notMem_empty d)
    · exact Finset.mem_filter.2 ⟨List.mem_toFinset.2 h.1, hfirst⟩
  · obtain ⟨hmem, hno⟩ := Finset.mem_sdiff.1 hd
    obtain ⟨hmem, hfirst⟩ := Finset.mem_filter.1 hmem
    by_contra hne
    refine hno (Finset.mem_filter.2 ⟨(hcounted d).2 (Or.inr ⟨List.mem_toFinset.1 hmem, hne, ?_⟩),
      hfirst⟩)
    rw [hfirst]
    exact Option.some_ne_none i

/-! ## The series, bar by bar -/

variable {zone bars}

/-- The bars as they stand when those below `t` have been walked. -/
def adjustedTo (bars : List PricedBar) (D : ℕ → ℚ) (t : ℕ) : List PricedBar :=
  bars.mapIdx fun k b =>
    if k + 1 < t then
      b.mapPrices fun p => (p - D k) *
        ∏ m ∈ Finset.Ico (k + 1) (t - 1), (closeAt bars m - D m) / closeAt bars m
    else b

@[simp]
lemma mapPrices_mapPrices (b : PricedBar) (f g : ℚ → ℚ) :
    (b.mapPrices f).mapPrices g = b.mapPrices (g ∘ f) := rfl

lemma mapPrices_id {b : PricedBar} {f : ℚ → ℚ} (h : ∀ p, f p = p) : b.mapPrices f = b := by
  simp only [PricedBar.mapPrices, h]

lemma map_of_same {α : Type} {o : Option α} {f : α → α} (h : ∀ a, f a = a) : o.map f = o := by
  rcases o with _ | a
  · rfl
  · exact congrArg some (h a)

lemma getElem?_adjustedTo (D : ℕ → ℚ) (t k : ℕ) :
    (adjustedTo bars D t)[k]? = bars[k]?.map fun b => if k + 1 < t then
      b.mapPrices fun p => (p - D k) *
        ∏ m ∈ Finset.Ico (k + 1) (t - 1), (closeAt bars m - D m) / closeAt bars m
    else b := List.getElem?_mapIdx

lemma barBefore_succ (hordered : BarsInOrder r bars) {D : ℕ → ℚ} {t s : ℕ}
    (hs : s + 1 < bars.length) : r.barBefore (adjustedTo bars D t) (s + 1) = some s := by
  obtain ⟨e, st, hend, hstart, hlt⟩ := hordered s hs
  have hend' : (adjustedTo bars D t)[s]?.bind r.endOf = some e := by
    rw [getElem?_adjustedTo, Option.bind_map, ← hend]
    refine congrArg _ (funext fun b => ?_)
    rw [Function.comp_apply]
    split_ifs <;> rfl
  have hstart' : ((adjustedTo bars D t)[s + 1]?.bind fun b => r.moment b.time) = some st := by
    rw [getElem?_adjustedTo, Option.bind_map, ← hstart]
    refine congrArg _ (funext fun b => ?_)
    rw [Function.comp_apply]
    split_ifs <;> rfl
  rw [barBefore, List.range_succ, List.reverse_append, List.reverse_singleton,
    List.singleton_append, List.find?_cons_of_pos]
  simp only [hend', hstart', decide_eq_true hlt]

lemma foldStep_adjustedTo (hordered : BarsInOrder r bars) (hclose : ∀ b ∈ bars, b.close ≠ 0)
    (amounts : ℕ → ℚ) {t : ℕ} (ht : t < bars.length) :
    r.foldStep amounts (adjustedTo bars (fun k => amounts (k + 1)) t) t =
      adjustedTo bars (fun k => amounts (k + 1)) (t + 1) := by
  rcases t with _ | s
  · -- nothing stands in front of the first bar
    have hsame : r.foldStep amounts (adjustedTo bars (fun k => amounts (k + 1)) 0) 0 =
        adjustedTo bars (fun k => amounts (k + 1)) 0 := by
      rw [foldStep]
      split_ifs
      · rfl
      · rfl
    rw [hsame]
    refine List.ext_getElem? fun k => ?_
    rw [getElem?_adjustedTo, getElem?_adjustedTo]
    refine congrArg (fun f => Option.map f bars[k]?) (funext fun b => ?_)
    rw [if_neg (by omega), if_neg (by omega)]
  · have hat : bars[s]? = some bars[s] := List.getElem?_eq_getElem (by omega)
    have hcloseAt : closeAt bars s = bars[s].close := by rw [closeAt, hat]; rfl
    have hne : closeAt bars s ≠ 0 := by
      rw [hcloseAt]
      exact hclose _ (List.getElem_mem _)
    -- what the step makes of each bar
    have hstep : r.foldStep amounts (adjustedTo bars (fun k => amounts (k + 1)) (s + 1)) (s + 1) =
        (adjustedTo bars (fun k => amounts (k + 1)) (s + 1)).mapIdx fun j c =>
          if j < s then c.mapPrices (· * ((closeAt bars s - amounts (s + 1)) / closeAt bars s))
          else if j = s then c.mapPrices (· - amounts (s + 1)) else c := by
      rw [foldStep]
      split_ifs with hzero
      · rw [hzero, sub_zero, div_self hne]
        refine (List.ext_getElem? fun k => ?_).symm
        rw [List.getElem?_mapIdx]
        refine map_of_same fun c => ?_
        split_ifs
        · exact mapPrices_id fun p => mul_one p
        · exact mapPrices_id fun p => sub_zero p
        · rfl
      · rw [r.barBefore_succ hordered ht]
        dsimp only
        have hthere : (adjustedTo bars (fun k => amounts (k + 1)) (s + 1))[s]? = some bars[s] := by
          rw [getElem?_adjustedTo, hat, Option.map_some, if_neg (Nat.lt_irrefl _)]
        rw [takeOff, hthere, hcloseAt]
    rw [hstep]
    refine List.ext_getElem? fun k => ?_
    rw [List.getElem?_mapIdx, getElem?_adjustedTo, getElem?_adjustedTo, Option.map_map]
    refine congrArg (fun f => Option.map f bars[k]?) (funext fun b => ?_)
    rw [Function.comp_apply]
    rcases Nat.lt_trichotomy k s with hlt | rfl | hgt
    · rw [if_pos hlt, if_pos (by omega), if_pos (by omega), mapPrices_mapPrices]
      refine congrArg _ (funext fun p => ?_)
      rw [Function.comp_apply, mul_assoc, Nat.add_sub_cancel, Nat.add_sub_cancel,
        Finset.prod_Ico_succ_top (by omega)]
    · rw [if_neg (Nat.lt_irrefl _), if_pos rfl, if_neg (Nat.lt_irrefl _),
        if_pos (Nat.lt_succ_self _)]
      refine congrArg _ (funext fun p => ?_)
      rw [Nat.add_sub_cancel, Finset.Ico_self, Finset.prod_empty, mul_one]
    · rw [if_neg (by omega), if_neg (by omega), if_neg (by omega), if_neg (by omega)]

lemma foldl_foldStep (hordered : BarsInOrder r bars) (hclose : ∀ b ∈ bars, b.close ≠ 0)
    (amounts : ℕ → ℚ) {t : ℕ} (ht : t ≤ bars.length) :
    (List.range t).foldl (r.foldStep amounts) bars =
      adjustedTo bars (fun k => amounts (k + 1)) t := by
  induction t with
  | zero =>
      refine List.ext_getElem? fun k => ?_
      rw [getElem?_adjustedTo]
      refine (map_of_same fun b => ?_).symm
      rw [if_neg (by omega)]
  | succ t ih =>
      rw [List.range_succ, List.foldl_append, ih (by omega), List.foldl_cons, List.foldl_nil]
      exact r.foldStep_adjustedTo hordered hclose amounts (by omega)

lemma takenOff_last (zone : String) (bars : List PricedBar) (actions : List StatedAction) {n : ℕ}
    (h : bars.length ≤ n) : takenOff r zone bars actions (n - 1) = 0 := by
  refine Finset.sum_eq_zero fun d hd => ?_
  have hfirst := (Finset.mem_filter.1 hd).2
  have hlt := (List.findIdx?_eq_some_iff_getElem.1 hfirst).1
  omega

lemma closeAt_ne_zero (hclose : ∀ b ∈ bars, b.close ≠ 0) (k : ℕ) : closeAt bars k ≠ 0 := by
  unfold closeAt
  cases hat : bars[k]? with
  | none => exact one_ne_zero
  | some b => exact hclose b (List.mem_of_getElem? hat)

/-! ## The rows of one place -/

def Restates (a : StatedAction) : Prop :=
  a.kind = some .split ∨ a.kind = some .rightsOffer ∨ a.kind = some .spinOff

lemma factor_of_not_restates {a : StatedAction} (h : ¬ Restates a) : r.factor a = 1 := by
  unfold factor Restates at *
  split <;> simp_all

def AlikeSoFar (s s' : ℚ × List (String × ℚ)) : Prop := s.1 = s'.1 ∧ ∀ d, d ∈ s.2 ↔ d ∈ s'.2

lemma AlikeSoFar.foldr {s s' : ℚ × List (String × ℚ)} (h : AlikeSoFar s s')
    (a : List StatedAction) :
    AlikeSoFar (a.foldr r.restateStep s) (a.foldr r.restateStep s') := by
  induction a with
  | nil => exact h
  | cons x a ih =>
      rw [List.foldr_cons, List.foldr_cons, restateStep, restateStep]
      split_ifs
      · refine ⟨ih.1, fun d => ?_⟩
        rw [List.mem_append, List.mem_append, ih.1, ih.2]
      · exact ⟨congrArg (· * r.factor x) ih.1, ih.2⟩

lemma foldr_of_not_restates {b : List StatedAction} (hb : ∀ x ∈ b, ¬ Restates x)
    (s : ℚ × List (String × ℚ)) :
    (b.foldr r.restateStep s).1 = s.1 ∧ ∀ d, d ∈ (b.foldr r.restateStep s).2 ↔
      d ∈ s.2 ∨ ∃ x ∈ b, x.kind = some .cashDividend ∧ d = (x.date, r.restateAmount x.value s.1) := by
  induction b with
  | nil => exact ⟨rfl, fun d => by simp⟩
  | cons x b ih =>
      obtain ⟨hx, hb⟩ := List.forall_mem_cons.1 hb
      obtain ⟨hscale, hmem⟩ := ih hb
      rw [List.foldr_cons, restateStep]
      split_ifs with hkind
      · refine ⟨hscale, fun d => ?_⟩
        rw [List.mem_append, List.mem_singleton, hmem, hscale, List.exists_mem_cons_iff]
        simp only [hkind, true_and]
        exact or_assoc.trans (or_congr_right or_comm)
      · rw [r.factor_of_not_restates hx, mul_one]
        refine ⟨hscale, fun d => (hmem d).trans ?_⟩
        rw [List.exists_mem_cons_iff]
        tauto

lemma foldr_of_no_dividend {b : List StatedAction} (hb : ∀ x ∈ b, x.kind ≠ some .cashDividend)
    (s : ℚ × List (String × ℚ)) :
    b.foldr r.restateStep s = (s.1 * (b.map r.factor).prod, s.2) := by
  induction b with
  | nil => simp
  | cons x b ih =>
      obtain ⟨hx, hb⟩ := List.forall_mem_cons.1 hb
      rw [List.foldr_cons, ih hb, restateStep, if_neg hx, List.map_cons, List.prod_cons]
      refine Prod.ext ?_ rfl
      dsimp only
      ring

lemma restated_perm {b b' : List StatedAction} (hperm : b.Perm b')
    (hb : (∀ x ∈ b, ¬ Restates x) ∨ ∀ x ∈ b, x.kind ≠ some .cashDividend)
    (a c : List StatedAction) (d : String × ℚ) :
    d ∈ r.restated (a ++ b ++ c) ↔ d ∈ r.restated (a ++ b' ++ c) := by
  have halike : AlikeSoFar (b.foldr r.restateStep (c.foldr r.restateStep (1, [])))
      (b'.foldr r.restateStep (c.foldr r.restateStep (1, []))) := by
    rcases hb with hb | hb
    · obtain ⟨hscale, hmem⟩ := r.foldr_of_not_restates hb (c.foldr r.restateStep (1, []))
      obtain ⟨hscale', hmem'⟩ := r.foldr_of_not_restates
        (fun x hx => hb x (hperm.mem_iff.2 hx)) (c.foldr r.restateStep (1, []))
      refine ⟨hscale.trans hscale'.symm, fun d => (hmem d).trans (Iff.trans ?_ (hmem' d).symm)⟩
      simp only [hperm.mem_iff]
    · rw [r.foldr_of_no_dividend hb, r.foldr_of_no_dividend fun x hx => hb x (hperm.mem_iff.2 hx),
        (hperm.map r.factor).prod_eq]
      exact ⟨rfl, fun _ => Iff.rfl⟩
  rw [restated, restated, List.foldr_append, List.foldr_append, List.foldr_append,
    List.foldr_append]
  exact (halike.foldr r a).2 d

end SeriesReading

/-- **Bars are adjusted backward**: each by what is taken off it, and by the ratio each later bar's
close leaves.  Rows listed next to each other may stand in any order, where none of them restates
a dividend or none of them is one. -/
theorem dividends_folded (r : SeriesReading) (zone : String) (bars : List PricedBar)
    (actions : List StatedAction) (hordered : BarsInOrder r bars)
    (hclose : ∀ b ∈ bars, b.close ≠ 0) :
    foldDividends r zone bars actions = bars.mapIdx (fun k b => b.mapPrices fun p =>
        (p - takenOff r zone bars actions k) *
          ∏ m ∈ Finset.Ico (k + 1) bars.length,
            (closeAt bars m - takenOff r zone bars actions m) / closeAt bars m) ∧
      ∀ a b b' c : List StatedAction, b.Perm b' →
        ((∀ x ∈ b, ¬ Restates x) ∨ ∀ x ∈ b, x.kind ≠ some .cashDividend) →
          foldDividends r zone bars (a ++ b ++ c) = foldDividends r zone bars (a ++ b' ++ c) := by
  refine ⟨?_, fun a b b' c hperm hb => ?_⟩
  · rw [foldDividends, r.foldl_foldStep hordered hclose _ (Nat.le_refl _)]
    have htaken : (fun k => r.carried zone bars (r.restated actions) (k + 1)) =
        takenOff r zone bars actions := funext fun k => r.carried_eq zone bars _ (k + 1)
    rw [htaken]
    refine List.ext_getElem? fun k => ?_
    rw [getElem?_adjustedTo, List.getElem?_mapIdx]
    refine Option.map_congr fun b hb => ?_
    have hk := (List.getElem?_eq_some_iff.1 hb).1
    split_ifs with hlast
    · -- the last bar has nothing taken off it
      have hnone := r.takenOff_last zone bars actions (Nat.le_refl bars.length)
      have htop : closeAt bars (bars.length - 1) ≠ 0 := closeAt_ne_zero hclose _
      refine congrArg _ (funext fun p => congrArg _ ?_)
      obtain ⟨n, hn⟩ : ∃ n, bars.length = n + 1 := ⟨bars.length - 1, by omega⟩
      rw [hn, Nat.add_sub_cancel] at hnone htop ⊢
      rw [Finset.prod_Ico_succ_top (by omega), hnone, sub_zero, div_self htop, mul_one]
    · obtain rfl : k = bars.length - 1 := by omega
      refine (mapPrices_id fun p => ?_).symm
      rw [r.takenOff_last zone bars actions (Nat.le_refl _), sub_zero, Finset.Ico_eq_empty (by omega),
        Finset.prod_empty, mul_one]
  · have hamounts : r.carried zone bars (r.restated (a ++ b ++ c)) =
        r.carried zone bars (r.restated (a ++ b' ++ c)) := by
      funext i
      rw [r.carried_eq, r.carried_eq]
      have hset : (r.restated (a ++ b ++ c)).toFinset = (r.restated (a ++ b' ++ c)).toFinset := by
        ext d
        rw [List.mem_toFinset, List.mem_toFinset]
        exact r.restated_perm hperm hb a c d
      rw [hset]
    rw [foldDividends, foldDividends, hamounts]

def seriesReading : SeriesReading where
  parse := fun t => if t = "1" then some (.number 1) else if t = "2" then some (.number 2) else none
  datetimeToUnix := fun t =>
    if t = "20240102-00:00:00" then some 1704153600
    else if t = "20240103-00:00:00" then some 1704240000 else none
  dayNumber := fun t =>
    if t = "20240102" then some 19724 else if t = "20240103" then some 19725 else none
  barDateAsAsked := fun t _ => t
  clockNamed := fun _ => false

def seriesBars : List PricedBar :=
  [⟨"20240102", 10, 12, 8, 10, 500, 10, 40, "20240102"⟩,
    ⟨"20240103", 20, 20, 20, 20, 300, 20, 9, "20240103"⟩]

theorem dividends_folded_two :
    foldDividends seriesReading "" seriesBars [⟨some .cashDividend, "20240103", "1"⟩] =
      seriesBars.mapIdx fun k b => b.mapPrices fun p =>
        (p - takenOff seriesReading "" seriesBars [⟨some .cashDividend, "20240103", "1"⟩] k) *
          ∏ m ∈ Finset.Ico (k + 1) 2, (closeAt seriesBars m -
            takenOff seriesReading "" seriesBars [⟨some .cashDividend, "20240103", "1"⟩] m) /
              closeAt seriesBars m := by
  refine (dividends_folded seriesReading "" seriesBars _ ?_ ?_).1
  · rintro (_ | i) hi
    · exact ⟨1704153600, 1704240000, by decide, by decide, by decide⟩
    · exact absurd hi (by simp [seriesBars])
  · decide

/-- **A dividend and a split of one day do not commute**: only the split listed behind restates
it. -/
theorem dividend_and_split_in_turn :
    foldDividends seriesReading "" seriesBars
        [⟨some .cashDividend, "20240103", "1"⟩, ⟨some .split, "20240103", "2"⟩] ≠
      foldDividends seriesReading "" seriesBars
        [⟨some .split, "20240103", "2"⟩, ⟨some .cashDividend, "20240103", "1"⟩] := by
  decide +kernel

end IbkrDx
