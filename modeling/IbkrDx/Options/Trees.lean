import Mathlib.Algebra.Order.Archimedean.Basic
import Mathlib.Data.List.Iterate
import Mathlib.Tactic.Positivity

/-!
# The option trees

The fixed-step lognormal and arithmetic trees of `options/tree.rs`, in exact arithmetic.

* **`lognormal_bounds`** — the bounds change nothing for a call, nor for a put none of whose skipped
  nodes is worth exercising.
* **`arithmetic_stops`** — stopping changes nothing.

Numbers are of an ordered field, and `exp` and `sqrt` any functions; what is not a number is `none`.
An array is a list, walked from the end its loop starts at.
-/

namespace IbkrDx

structure Dividend (K : Type) where
  millisToExDate : ℤ
  daysToEndOfExDate : ℤ
  amount : K

structure OptionInputs (K : Type) where
  isCall : Bool
  american : Bool
  spot : K
  strike : K
  years : K
  rate : K
  yieldRate : K
  volatility : K
  quanto : Bool
  dividends : List (Dividend K)
  taxAdjustment : Option K
  indexDividends : Bool
  forward : Option K

def lognormalSteps : ℕ := 100

def arithmeticSteps : ℕ := 60

variable {K : Type} [Field K] [LinearOrder K]

/-! ## What is owed -/

def OptionInputs.effectiveYield (input : OptionInputs K) : K :=
  if input.quanto then 2 * input.rate - input.yieldRate - input.volatility * input.volatility
  else input.yieldRate

def OptionInputs.arithmeticForward (input : OptionInputs K) : K :=
  input.forward.getD input.spot

def integerYears [FloorRing K] (years : K) : K := ⌈years * 365⌉ / 365

def owe (years amount dt growth : K) : K → K → K → List K → List K × K
  | _, _, maximum, [] => ([], maximum)
  | time, discount, maximum, value :: values =>
      if years < time then (value :: values, maximum)
      else
        let value := value + amount * discount
        let rest := owe years amount dt growth (time + dt) (discount * growth)
          (if maximum < value then value else maximum) values
        (value :: rest.1, rest.2)

/-- What is owed at each level so far, the amount the last dividend reached, and the most owed. -/
structure Owing (K : Type) where
  values : List K
  previous : K
  maximum : K

def Owing.add [FloorRing K] (exp : K → K) (input : OptionInputs K) (o : Owing K)
    (dividend : Dividend K) : Owing K :=
  let dt := input.years / lognormalSteps
  let growth := exp ((input.rate - input.effectiveYield) * dt)
  let fraction : K := dividend.millisToExDate / 31536000000
  if input.years < fraction ∨ dividend.daysToEndOfExDate ≤ 0 then o
  else
    let cumulative := dividend.amount * input.taxAdjustment.getD 1
    let amount := if input.indexDividends then cumulative - o.previous else cumulative
    let years := integerYears fraction
    let owed := owe years amount dt growth 0 (exp (-input.rate * years)) o.maximum o.values
    ⟨owed.1, if input.indexDividends then cumulative else o.previous, owed.2⟩

/-- What is owed at every level, the last included, and the most owed. -/
def dividendsOwed [FloorRing K] (exp : K → K) (input : OptionInputs K) : List K × K :=
  let o := input.dividends.foldl (Owing.add exp input) ⟨List.replicate lognormalSteps 0, 0, 0⟩
  (o.values ++ [0], o.maximum)

/-! ## The position of the strike -/

def searchStrike (nodes : List K) (strike : K) : ℕ → ℤ → ℤ → ℕ
  | 0, low, _ => low.toNat
  | rounds + 1, low, high =>
      if low ≤ high then
        let middle := ((low + high) / 2).toNat
        let node := nodes.getD middle 0
        if node < strike then searchStrike nodes strike rounds (middle + 1) high
        else if strike < node then searchStrike nodes strike rounds low (middle - 1)
        else middle
      else low.toNat

def strikePosition (nodes : List K) (strike : K) : ℕ :=
  searchStrike nodes strike (nodes.length + 1) 0 (nodes.length - 1)

/-! ## The lognormal tree -/

/-- How a level goes over the nodes: what the node keeps and what the next one gives, the discount,
and, where it checks for exercise, how the node moves and what exercising at it is worth. -/
structure Sweep (K : Type) where
  here : K
  next : K
  discount : K
  check : Bool
  factor : K
  exercise : K → K

/-- Go over so many nodes, from the one the loop starts at. -/
def Sweep.run (w : Sweep K) : ℕ → List K → List K → List K × List K
  | n + 1, node :: nodes, price :: next :: prices =>
      let value := (w.here * price + w.next * next) * w.discount
      let rest := w.run n nodes (next :: prices)
      if w.check then
        let node := node * w.factor
        let exercise := w.exercise node
        (node :: rest.1, (if value < exercise then exercise else value) :: rest.2)
      else (node :: rest.1, value :: rest.2)
  | _, nodes, prices => (nodes, prices)

/-- What a tree returns, `none` where it is not a number. -/
structure TreeValues (K : Type) where
  price : Option K
  delta : Option K
  gamma : Option K
  theta : Option K

structure TreeState (K : Type) where
  nodes : List K
  prices : List K
  middlePrice : Option K
  result : TreeValues K

def clampDelta (value : K) : K :=
  max (-(999999999999999 / 1000000000000000)) (min (999999999999999 / 1000000000000000) value)

structure TreeLattice (K : Type) where
  dt : K
  up : K
  down : K
  probability : K
  discount : K
  base : K

section

variable (exp sqrt : K → K) (input : OptionInputs K) (volatility : K) (owed : List K)

def lattice : TreeLattice K :=
  let dt := input.years / lognormalSteps
  let up := exp (volatility * sqrt dt)
  let down := 1 / up
  let growth := exp ((input.rate - input.effectiveYield) * dt)
  let probability := (growth - down) / (up - down)
  let discount := exp (-input.rate * dt)
  let base := input.spot - owed.getD 0 0
  if 1 < probability then ⟨dt, growth, 1 / growth, 1, discount, base⟩
  else ⟨dt, up, down, probability, discount, base⟩

def TreeLattice.nodes (t : TreeLattice K) : List K :=
  (List.iterate (· / (t.up * t.up)) (t.base / (t.up * t.up)) (lognormalSteps / 2)).reverse ++
    t.base :: List.iterate (· * (t.up * t.up)) (t.base * (t.up * t.up)) (lognormalSteps / 2)

/-- From the end the loops start at: a put's from the lowest node, a call's from the highest. -/
def OptionInputs.walked {α : Type} (input : OptionInputs K) (l : List α) : List α :=
  if input.isCall then l.reverse else l

def OptionInputs.worth (input : OptionInputs K) (owed : List K) (level : ℕ) (node : K) : K :=
  if input.isCall then node - (input.strike - owed.getD level 0)
  else input.strike - owed.getD level 0 - node

/-- How a level goes over the nodes.  A call is checked for exercise only with dividends due. -/
def levelSweep (t : TreeLattice K) (maximum : K) (level : ℕ) : Sweep K where
  here := if input.isCall then t.probability else 1 - t.probability
  next := if input.isCall then 1 - t.probability else t.probability
  discount := t.discount
  check := if input.isCall then decide (0 < maximum) else true
  factor := if input.isCall then t.down else t.up
  exercise := input.worth owed (level - 1)

def treeLevel (t : TreeLattice K) (maximum : K) (level count : ℕ) (s : TreeState K) : TreeState K :=
  let swept := (levelSweep input owed t maximum level).run count s.nodes s.prices
  let price (n : ℕ) := swept.2.getD n 0
  let (low, mid, high) := if input.isCall then (price 2, price 1, price 0)
    else (price 0, price 1, price 2)
  let squareUp := t.up * t.up
  let squareDown := t.down * t.down
  let upperSlope := 1 / (t.base * (squareUp - 1))
  let lowerSlope := 1 / (t.base * (1 - squareDown))
  let width := 1 / 2 * t.base * (squareUp - squareDown)
  let (bottom, top) := if input.isCall then (price 1, price 0) else (price 0, price 1)
  { nodes := swept.1
    prices := swept.2
    middlePrice := if level = 3 then some mid else s.middlePrice
    result := { s.result with
      gamma := if level = 3 then
          some (((high - mid) * upperSlope - (mid - low) * lowerSlope) / width)
        else s.result.gamma
      delta := if level = 2 then some (clampDelta ((top - bottom) / (t.base * (t.up - t.down))))
        else s.result.delta } }

def treeLevels (t : TreeLattice K) (maximum : K) (count : ℕ → ℕ) : ℕ → TreeState K → TreeState K
  | 0, s => s
  | level + 1, s =>
      treeLevels t maximum count level
        (treeLevel input owed t maximum (level + 1) (count (level + 1)) s)

def treeStart (t : TreeLattice K) (result : TreeValues K) : TreeState K where
  nodes := input.walked t.nodes
  prices := (input.walked t.nodes).map fun node =>
    let exercise := input.worth owed lognormalSteps node
    if 0 < exercise then exercise else 0
  middlePrice := none
  result := result

def lognormalOver (count : ℕ → ℕ) (maximum : K) (result : TreeValues K) : TreeValues K :=
  let t := lattice exp sqrt input volatility owed
  let s := treeLevels input owed t maximum count lognormalSteps (treeStart input owed t result)
  let price := s.prices.getD 0 0
  { s.result with
    price := some price
    theta := s.middlePrice.map fun middle => (middle - price) / (2 * t.dt * 365) }

def boundAt (maximum : K) : ℕ :=
  strikePosition (lattice exp sqrt input volatility owed).nodes
    (if input.isCall then input.strike - maximum else input.strike)

def callLower (level position : ℕ) : ℤ := max ((lognormalSteps : ℤ) - level) (position - 1)

/-- How many nodes a level goes over: those from the top down to the bound, or from the bottom up to
it. -/
def boundedCount (position level : ℕ) : ℕ :=
  if input.isCall then (lognormalSteps - callLower level position).toNat
  else min level (position + 1)

def lognormalRun (maximum : K) (result : TreeValues K) : TreeValues K :=
  lognormalOver exp sqrt input volatility owed
    (boundedCount input (boundAt exp sqrt input volatility owed maximum)) maximum result

def lognormalWhole (maximum : K) (result : TreeValues K) : TreeValues K :=
  lognormalOver exp sqrt input volatility owed id maximum result

end

/-! ## What a level does -/

namespace Sweep

variable (w : Sweep K)

def move (node : K) : K := if w.check then node * w.factor else node

lemma length_run : ∀ (n : ℕ) (nodes prices : List K),
    (w.run n nodes prices).2.length = prices.length
  | 0, _, _ => rfl
  | n + 1, [], prices => rfl
  | n + 1, _ :: _, [] => rfl
  | n + 1, _ :: _, [_] => rfl
  | n + 1, node :: nodes, price :: next :: prices => by
      have ih := length_run n nodes (next :: prices)
      unfold run
      dsimp only
      split_ifs <;> simp [ih]

lemma run_nodes : ∀ (n : ℕ) (nodes prices : List K), n ≤ nodes.length → n < prices.length →
    (w.run n nodes prices).1 = (nodes.take n).map w.move ++ nodes.drop n
  | 0, _, _, _, _ => rfl
  | n + 1, [], _, h, _ => absurd h (by simp)
  | n + 1, _ :: _, [], _, h => absurd h (by simp)
  | n + 1, _ :: _, [_], _, h => absurd h (by simp)
  | n + 1, node :: nodes, price :: next :: prices, h, h' => by
      have ih := run_nodes n nodes (next :: prices) (Nat.le_of_succ_le_succ h)
        (Nat.lt_of_succ_lt_succ h')
      unfold run
      dsimp only
      rw [ih]
      unfold move
      split_ifs <;> rfl

lemma run_congr : ∀ (n : ℕ) (nodes nodes' prices : List K), nodes.take n = nodes'.take n →
    (w.run n nodes prices).2 = (w.run n nodes' prices).2
  | 0, _, _, _, _ => rfl
  | n + 1, [], [], _, _ => rfl
  | n + 1, [], _ :: _, _, h => by simp at h
  | n + 1, _ :: _, [], _, h => by simp at h
  | n + 1, _ :: _, _ :: _, [], _ => rfl
  | n + 1, _ :: _, _ :: _, [_], _ => rfl
  | n + 1, node :: nodes, node' :: nodes', price :: next :: prices, h => by
      obtain ⟨hnode, hrest⟩ := List.cons.inj h
      subst hnode
      have ih := run_congr n nodes nodes' (next :: prices) hrest
      unfold run
      dsimp only
      rw [ih]
      split_ifs <;> rfl

lemma run_drop : ∀ (n : ℕ) (nodes prices : List K),
    (w.run n nodes prices).2.drop n = prices.drop n
  | 0, _, _ => rfl
  | n + 1, [], _ => rfl
  | n + 1, _ :: _, [] => rfl
  | n + 1, _ :: _, [_] => rfl
  | n + 1, node :: nodes, price :: next :: prices => by
      have ih := run_drop n nodes (next :: prices)
      unfold run
      dsimp only
      split_ifs <;> exact ih

lemma run_of_idle : ∀ (n : ℕ) (nodes prices : List K), (∀ p ∈ prices, p = 0) →
    (w.check = true → ∀ x ∈ nodes.take n, w.exercise (x * w.factor) ≤ 0) →
      (w.run n nodes prices).2 = prices
  | 0, _, _, _, _ => rfl
  | n + 1, [], _, _, _ => rfl
  | n + 1, _ :: _, [], _, _ => rfl
  | n + 1, _ :: _, [_], _, _ => rfl
  | n + 1, node :: nodes, price :: next :: prices, hzero, hidle => by
      have ih := run_of_idle n nodes (next :: prices)
        (fun p hp => hzero p (List.mem_cons_of_mem _ hp))
        (fun hc x hx => hidle hc x (List.mem_cons_of_mem _ hx))
      obtain rfl := hzero price List.mem_cons_self
      obtain rfl := hzero next (List.mem_cons_of_mem _ List.mem_cons_self)
      unfold run
      dsimp only
      rw [ih, mul_zero, mul_zero, add_zero, zero_mul]
      split_ifs with hcheck hlt
      · exact absurd hlt (not_lt.2 (hidle hcheck node List.mem_cons_self))
      · rfl
      · rfl

/-- **A level may stop where nothing behind is worth anything** and no node is worth exercising. -/
theorem run_skip : ∀ (c n : ℕ) (nodes prices : List K), c ≤ n → (∀ p ∈ prices.drop c, p = 0) →
    (w.check = true → ∀ x ∈ (nodes.take n).drop c, w.exercise (x * w.factor) ≤ 0) →
      (w.run n nodes prices).2 = (w.run c nodes prices).2
  | 0, n, nodes, prices, _, hzero, hidle => w.run_of_idle n nodes prices hzero hidle
  | c + 1, 0, _, _, h, _, _ => absurd h (by simp)
  | c + 1, n + 1, [], _, _, _, _ => rfl
  | c + 1, n + 1, _ :: _, [], _, _, _ => rfl
  | c + 1, n + 1, _ :: _, [_], _, _, _ => rfl
  | c + 1, n + 1, node :: nodes, price :: next :: prices, h, hzero, hidle => by
      have ih := run_skip c n nodes (next :: prices) (Nat.le_of_succ_le_succ h) hzero hidle
      unfold run
      dsimp only
      rw [ih]
      split_ifs <;> rfl

end Sweep

/-! ## The bounds of the lognormal tree -/

section

variable {input : OptionInputs K} {owed : List K} {t : TreeLattice K} {maximum : K} {c : ℕ}

def treeMoved (input : OptionInputs K) (owed : List K) (t : TreeLattice K) (maximum : K) (n : ℕ)
    (node : K) : K :=
  if (levelSweep input owed t maximum 1).check then
    node * (levelSweep input owed t maximum 1).factor ^ n
  else node

/-- **The two recursions before a level**: their prices are the same, the nodes behind the bound are
worth nothing, and those in front of it stand alike. -/
structure Near (input : OptionInputs K) (owed : List K) (t : TreeLattice K) (maximum : K)
    (c level : ℕ) (s s' : TreeState K) : Prop where
  prices : s.prices = s'.prices
  middle : s.middlePrice = s'.middlePrice
  result : s.result = s'.result
  length_prices : s'.prices.length = lognormalSteps + 1
  length_nodes : s.nodes.length = lognormalSteps + 1
  length_nodes' : s'.nodes.length = lognormalSteps + 1
  nodes : s.nodes.take c = s'.nodes.take c
  zero : ∀ p ∈ s'.prices.drop c, p = 0
  moved : s'.nodes.take (level + 1) = ((input.walked t.nodes).take (level + 1)).map
    (treeMoved input owed t maximum (lognormalSteps - level))

/-- No node behind the bound is worth exercising, at any level. -/
def TreeIdle (input : OptionInputs K) (owed : List K) (t : TreeLattice K) (maximum : K) (c : ℕ) :
    Prop :=
  ∀ level < lognormalSteps, (levelSweep input owed t maximum 1).check = true →
    ∀ x ∈ ((input.walked t.nodes).take (level + 1)).drop c, input.worth owed level
      (x * (levelSweep input owed t maximum 1).factor ^ (lognormalSteps - level)) ≤ 0

lemma take_run_nodes (w : Sweep K) {n c : ℕ} {nodes nodes' prices prices' : List K}
    (hn : n ≤ nodes.length) (hn' : n ≤ nodes'.length) (hp : n < prices.length)
    (hp' : n < prices'.length) (h : nodes.take c = nodes'.take c) :
    (w.run n nodes prices).1.take c = (w.run n nodes' prices').1.take c := by
  rw [w.run_nodes n nodes prices hn hp, w.run_nodes n nodes' prices' hn' hp']
  have hmin : (nodes.take n).take c = (nodes'.take n).take c := by
    rw [List.take_take, List.take_take, Nat.min_comm, ← List.take_take, h, List.take_take]
  have hlen : ((nodes.take n).map w.move).length = ((nodes'.take n).map w.move).length := by
    rw [List.length_map, List.length_map, List.length_take, List.length_take]
    omega
  have hdrop : (nodes.drop n).take (c - n) = (nodes'.drop n).take (c - n) := by
    rw [List.take_drop, List.take_drop, ← List.take_drop, ← List.take_drop]
    by_cases hcn : c ≤ n
    · rw [Nat.sub_eq_zero_of_le hcn, List.take_zero, List.take_zero]
    · have hc : nodes.take (n + (c - n)) = nodes'.take (n + (c - n)) := by
        rw [Nat.add_sub_cancel' (not_le.1 hcn).le]
        exact h
      rw [List.take_drop, List.take_drop, hc]
  rw [List.take_append, List.take_append, ← List.map_take, ← List.map_take, hmin, List.length_map,
    List.length_map, List.length_take, List.length_take, Nat.min_eq_left hn, Nat.min_eq_left hn',
    hdrop]

/-- **A level keeps the two recursions near.** -/
theorem Near.step {level : ℕ} {s s' : TreeState K}
    (h : Near input owed t maximum c (level + 1) s s') (hlevel : level < lognormalSteps)
    (hidle : TreeIdle input owed t maximum c) :
    Near input owed t maximum c level
      (treeLevel input owed t maximum (level + 1) (min (level + 1) c) s)
      (treeLevel input owed t maximum (level + 1) (level + 1) s') := by
  set w := levelSweep input owed t maximum (level + 1) with hw
  have hcheck : w.check = (levelSweep input owed t maximum 1).check := rfl
  have hfactor : w.factor = (levelSweep input owed t maximum 1).factor := rfl
  have hexercise : w.exercise = input.worth owed level := rfl
  have hlen := h.length_prices
  have hlen' := h.length_nodes
  have hlen'' := h.length_nodes'
  have hprices : (w.run (min (level + 1) c) s.nodes s.prices).2 =
      (w.run (level + 1) s'.nodes s'.prices).2 := by
    have htake : s.nodes.take (min (level + 1) c) = s'.nodes.take (min (level + 1) c) := by
      rw [← List.take_take, h.nodes, List.take_take]
    rw [h.prices, w.run_congr _ _ _ _ htake]
    by_cases hc : level + 1 ≤ c
    · rw [Nat.min_eq_left hc]
    · rw [Nat.min_eq_right (not_le.1 hc).le]
      refine (w.run_skip c (level + 1) s'.nodes s'.prices (not_le.1 hc).le h.zero ?_).symm
      intro hon x hx
      have hmem : x ∈ (s'.nodes.take (level + 1 + 1)).drop c := by
        have hsub : (s'.nodes.take (level + 1)).drop c <+: (s'.nodes.take (level + 1 + 1)).drop c :=
          (List.take_prefix_take_left (Nat.le_succ _)).drop _
        exact hsub.subset hx
      rw [h.moved] at hmem
      have hx' : x ∈ (((input.walked t.nodes).take (level + 1)).map (treeMoved
          input owed t maximum (lognormalSteps - (level + 1)))).drop c := by
        have htwice : s'.nodes.take (level + 1) = ((input.walked t.nodes).take (level + 1)).map
            (treeMoved input owed t maximum (lognormalSteps - (level + 1))) := by
          have hcut := congrArg (List.take (level + 1)) h.moved
          rwa [List.take_take, Nat.min_eq_left (Nat.le_succ _), ← List.map_take, List.take_take,
            Nat.min_eq_left (Nat.le_succ _)] at hcut
        rwa [← htwice]
      rw [← List.map_drop] at hx'
      obtain ⟨y, hy, rfl⟩ := List.mem_map.1 hx'
      have hworth := hidle level hlevel (hcheck ▸ hon) y hy
      have hpow : lognormalSteps - level = lognormalSteps - (level + 1) + 1 := by omega
      rw [hpow, pow_succ, ← mul_assoc] at hworth
      unfold treeMoved
      rw [if_pos (hcheck ▸ hon), hexercise, hfactor]
      exact hworth
  have hfull : level + 1 < s'.prices.length := by omega
  refine ⟨hprices, ?_, ?_, ?_, ?_, ?_, ?_, ?_, ?_⟩
  · unfold treeLevel
    dsimp only
    rw [← hw, hprices, h.middle]
  · unfold treeLevel
    dsimp only
    rw [← hw, hprices, h.result]
  · exact (w.length_run _ _ _).trans hlen
  · change (w.run _ s.nodes s.prices).1.length = _
    rw [w.run_nodes _ _ _ (by omega) (by rw [h.prices]; omega), List.length_append, List.length_map,
      List.length_take, List.length_drop]
    omega
  · change (w.run _ s'.nodes s'.prices).1.length = _
    rw [w.run_nodes _ _ _ (by omega) hfull, List.length_append, List.length_map,
      List.length_take, List.length_drop]
    omega
  · change (w.run _ s.nodes s.prices).1.take c = (w.run _ s'.nodes s'.prices).1.take c
    by_cases hc : level + 1 ≤ c
    · rw [Nat.min_eq_left hc]
      exact take_run_nodes w (by omega) (by omega) (by rw [h.prices]; omega) hfull h.nodes
    · rw [Nat.min_eq_right (not_le.1 hc).le,
        w.run_nodes _ _ _ (by omega) (by rw [h.prices]; omega),
        w.run_nodes _ _ _ (by omega) hfull]
      have hleft : ((s.nodes.take c).map w.move).length = c := by
        rw [List.length_map, List.length_take]
        omega
      have hright : c ≤ ((s'.nodes.take (level + 1)).map w.move).length := by
        rw [List.length_map, List.length_take]
        omega
      rw [List.take_left' hleft, List.take_append_of_le_length hright, ← List.map_take,
        List.take_take, Nat.min_eq_left (not_le.1 hc).le, h.nodes]
  · intro p hp
    change p ∈ (w.run (level + 1) s'.nodes s'.prices).2.drop c at hp
    rw [← hprices] at hp
    have hzero := h.zero
    have hdrop := w.run_drop (min (level + 1) c) s.nodes s.prices
    have hp' : p ∈ ((w.run (min (level + 1) c) s.nodes s.prices).2.drop (min (level + 1) c)).drop
        (c - min (level + 1) c) := by
      rw [List.drop_drop, Nat.add_sub_cancel' (Nat.min_le_right _ _)]
      exact hp
    rw [hdrop, List.drop_drop, Nat.add_sub_cancel' (Nat.min_le_right _ _), h.prices] at hp'
    exact hzero p hp'
  · change (w.run _ s'.nodes s'.prices).1.take (level + 1) = _
    have hleft : ((s'.nodes.take (level + 1)).map w.move).length = level + 1 := by
      rw [List.length_map, List.length_take]
      omega
    have htwice := congrArg (List.take (level + 1)) h.moved
    rw [List.take_take, Nat.min_eq_left (Nat.le_succ _), ← List.map_take, List.take_take,
      Nat.min_eq_left (Nat.le_succ _)] at htwice
    rw [w.run_nodes _ _ _ (by omega) hfull, List.take_left' hleft, htwice, List.map_map]
    refine List.map_congr_left fun x _ => ?_
    have hpow : lognormalSteps - level = lognormalSteps - (level + 1) + 1 := by omega
    unfold Sweep.move treeMoved
    rw [hcheck, hpow, Function.comp_apply]
    split_ifs
    · rw [pow_succ, mul_assoc]
      rfl
    · rfl

lemma near_levels (hidle : TreeIdle input owed t maximum c) {count : ℕ → ℕ}
    (hcount : ∀ level ≤ lognormalSteps, count level = min level c) :
    ∀ (level : ℕ) {s s' : TreeState K}, level ≤ lognormalSteps →
      Near input owed t maximum c level s s' →
        Near input owed t maximum c 0 (treeLevels input owed t maximum count level s)
          (treeLevels input owed t maximum id level s')
  | 0, _, _, _, h => h
  | level + 1, s, s', hle, h => by
      have hstep := h.step (Nat.lt_of_succ_le hle) hidle
      rw [← hcount (level + 1) hle] at hstep
      exact near_levels hidle hcount level (Nat.le_of_succ_le hle) hstep

end

/-! ## What is owed is at most the most owed -/

section

variable {years amount dt growth : K}

lemma length_owe : ∀ (time discount maximum : K) (values : List K),
    (owe years amount dt growth time discount maximum values).1.length = values.length
  | _, _, _, [] => rfl
  | time, discount, maximum, value :: values => by
      unfold owe
      dsimp only
      split_ifs
      · rfl
      · exact congrArg (· + 1) (length_owe _ _ _ values)
      · exact congrArg (· + 1) (length_owe _ _ _ values)

lemma owe_le : ∀ (time discount maximum : K) (values : List K), (∀ v ∈ values, v ≤ maximum) →
    maximum ≤ (owe years amount dt growth time discount maximum values).2 ∧
      ∀ v ∈ (owe years amount dt growth time discount maximum values).1,
        v ≤ (owe years amount dt growth time discount maximum values).2
  | _, _, _, [], _ => ⟨le_rfl, fun _ h => absurd h List.not_mem_nil⟩
  | time, discount, maximum, value :: values, h => by
      rw [owe]
      by_cases hdue : years < time
      · rw [if_pos hdue]
        exact ⟨le_rfl, h⟩
      · rw [if_neg hdue]
        dsimp only
        have hrest := fun v hv => h v (List.mem_cons_of_mem _ hv)
        have hmax : maximum ≤ (if maximum < value + amount * discount then value + amount * discount
            else maximum) := by
          split_ifs with hlt
          · exact hlt.le
          · exact le_rfl
        have hvalue : value + amount * discount ≤ (if maximum < value + amount * discount
            then value + amount * discount else maximum) := by
          split_ifs with hlt
          · exact le_rfl
          · exact not_lt.1 hlt
        obtain ⟨hle, hall⟩ := owe_le (time + dt) (discount * growth) _ values
          fun v hv => (hrest v hv).trans hmax
        refine ⟨hmax.trans hle, fun v hv => ?_⟩
        rcases List.mem_cons.1 hv with rfl | hv
        · exact hvalue.trans hle
        · exact hall v hv

end

/-- **No level owes more than the most owed**, which is not below nought. -/
structure Owing.Lawful (o : Owing K) : Prop where
  length : o.values.length = lognormalSteps
  nonneg : 0 ≤ o.maximum
  le : ∀ v ∈ o.values, v ≤ o.maximum

section

variable [FloorRing K] (exp sqrt : K → K) (input : OptionInputs K) (volatility : K)

lemma Owing.Lawful.add {o : Owing K} (h : o.Lawful) (dividend : Dividend K) :
    (o.add exp input dividend).Lawful := by
  unfold Owing.add
  dsimp only
  split_ifs
  · exact h
  · exact ⟨(length_owe _ _ _ _).trans h.length, h.nonneg.trans (owe_le _ _ _ _ h.le).1,
      (owe_le _ _ _ _ h.le).2⟩
  · exact ⟨(length_owe _ _ _ _).trans h.length, h.nonneg.trans (owe_le _ _ _ _ h.le).1,
      (owe_le _ _ _ _ h.le).2⟩

lemma lawful_owing : ∀ {o : Owing K} (dividends : List (Dividend K)), o.Lawful →
    (dividends.foldl (Owing.add exp input) o).Lawful
  | _, [], h => h
  | _, dividend :: dividends, h => lawful_owing dividends (h.add exp input dividend)

lemma lawful_schedule : (input.dividends.foldl (Owing.add exp input)
    ⟨List.replicate lognormalSteps 0, 0, 0⟩).Lawful :=
  lawful_owing exp input input.dividends
    ⟨List.length_replicate, le_rfl, fun _ h => (List.eq_of_mem_replicate h).le⟩

lemma owed_le (level : ℕ) :
    (dividendsOwed exp input).1.getD level 0 ≤ (dividendsOwed exp input).2 := by
  have h := lawful_schedule exp input
  unfold dividendsOwed
  dsimp only
  rw [List.getD_eq_getElem?_getD]
  cases hget : ((input.dividends.foldl (Owing.add exp input)
      ⟨List.replicate lognormalSteps 0, 0, 0⟩).values ++ [0])[level]? with
  | none => exact h.nonneg
  | some v =>
      rcases List.mem_append.1 (List.mem_of_getElem? hget) with hv | hv
      · exact h.le v hv
      · rw [List.mem_singleton.1 hv]
        exact h.nonneg

lemma owed_last : (dividendsOwed exp input).1.getD lognormalSteps 0 = 0 := by
  have h := (lawful_schedule exp input).length
  unfold dividendsOwed
  dsimp only
  rw [List.getD_eq_getElem?_getD, List.getElem?_append_right h.le, h, Nat.sub_self]
  rfl

end

/-! ## The nodes and the strike among them -/

omit [LinearOrder K] in
lemma TreeLattice.length_nodes (t : TreeLattice K) : t.nodes.length = lognormalSteps + 1 := by
  unfold TreeLattice.nodes
  rw [List.length_append, List.length_reverse, List.length_cons, List.length_iterate,
    List.length_iterate]
  rfl

section

variable [IsStrictOrderedRing K]

lemma mem_iterate_mul {a r x : K} (ha : 0 < a) (hr : 1 < r) : ∀ {n : ℕ} {b : K}, a ≤ b →
    x ∈ List.iterate (· * r) b n → a ≤ x
  | 0, _, _, h => absurd h List.not_mem_nil
  | n + 1, b, hb, h => by
      rcases List.mem_cons.1 h with rfl | h
      · exact hb
      · exact mem_iterate_mul ha hr (hb.trans (le_mul_of_one_le_right (ha.le.trans hb) hr.le)) h

lemma pairwise_iterate_mul {r : K} (hr : 1 < r) : ∀ (n : ℕ) {a : K}, 0 < a →
    (List.iterate (· * r) a n).Pairwise (· < ·)
  | 0, _, _ => List.Pairwise.nil
  | n + 1, a, ha => by
      have hstep : a < a * r := lt_mul_of_one_lt_right ha hr
      refine List.Pairwise.cons (fun x hx => ?_) (pairwise_iterate_mul hr n (ha.trans hstep))
      exact hstep.trans_le (mem_iterate_mul (ha.trans hstep) hr le_rfl hx)

lemma mem_iterate_div {a r x : K} (hr : 1 < r) : ∀ {n : ℕ} {b : K}, 0 < b → b ≤ a →
    x ∈ List.iterate (· / r) b n → 0 < x ∧ x ≤ a
  | 0, _, _, _, h => absurd h List.not_mem_nil
  | n + 1, b, hpos, hb, h => by
      rcases List.mem_cons.1 h with rfl | h
      · exact ⟨hpos, hb⟩
      · exact mem_iterate_div hr (div_pos hpos (zero_lt_one.trans hr))
          ((div_le_self hpos.le hr.le).trans hb) h

lemma pairwise_iterate_div {r : K} (hr : 1 < r) : ∀ (n : ℕ) {a : K}, 0 < a →
    (List.iterate (· / r) a n).Pairwise (fun x y => y < x)
  | 0, _, _ => List.Pairwise.nil
  | n + 1, a, ha => by
      have hstep : a / r < a := div_lt_self ha hr
      refine List.Pairwise.cons (fun x hx => ?_)
        (pairwise_iterate_div hr n (div_pos ha (zero_lt_one.trans hr)))
      exact (mem_iterate_div hr (div_pos ha (zero_lt_one.trans hr)) le_rfl hx).2.trans_lt hstep

/-- A tree whose nodes are above nought and rise. -/
structure TreeLattice.Lawful (t : TreeLattice K) : Prop where
  up : 1 < t.up
  down : t.down = 1 / t.up
  base : 0 < t.base

namespace TreeLattice.Lawful

variable {t : TreeLattice K}

lemma square (h : t.Lawful) : 1 < t.up * t.up := one_lt_mul h.up.le h.up

lemma down_pos (h : t.Lawful) : 0 < t.down := by
  rw [h.down]
  exact div_pos zero_lt_one (zero_lt_one.trans h.up)

lemma down_le (h : t.Lawful) : t.down ≤ 1 := by
  rw [h.down]
  exact (div_le_one (zero_lt_one.trans h.up)).2 h.up.le

lemma pairwise_nodes (h : t.Lawful) : t.nodes.Pairwise (· < ·) := by
  have hr := h.square
  have hbelow := div_pos h.base (zero_lt_one.trans hr)
  have habove : t.base < t.base * (t.up * t.up) := lt_mul_of_one_lt_right h.base hr
  refine List.pairwise_append.2 ⟨?_, List.Pairwise.cons ?_ ?_, ?_⟩
  · rw [List.pairwise_reverse]
    exact pairwise_iterate_div hr _ hbelow
  · exact fun x hx => habove.trans_le (mem_iterate_mul (h.base.trans habove) hr le_rfl hx)
  · exact pairwise_iterate_mul hr _ (h.base.trans habove)
  · intro x hx y hy
    have hx' := (mem_iterate_div hr hbelow le_rfl (List.mem_reverse.1 hx)).2
    have hlt : x < t.base := hx'.trans_lt (div_lt_self h.base hr)
    rcases List.mem_cons.1 hy with rfl | hy
    · exact hlt
    · exact hlt.trans (habove.trans_le (mem_iterate_mul (h.base.trans habove) hr le_rfl hy))

lemma nodes_pos (h : t.Lawful) {x : K} (hx : x ∈ t.nodes) : 0 < x := by
  have hr := h.square
  have habove : t.base < t.base * (t.up * t.up) := lt_mul_of_one_lt_right h.base hr
  rcases List.mem_append.1 hx with hx | hx
  · exact (mem_iterate_div hr (div_pos h.base (zero_lt_one.trans hr)) le_rfl
      (List.mem_reverse.1 hx)).1
  · rcases List.mem_cons.1 hx with rfl | hx
    · exact h.base
    · exact h.base.trans (habove.trans_le (mem_iterate_mul (h.base.trans habove) hr le_rfl hx))

end TreeLattice.Lawful

omit [IsStrictOrderedRing K] in
/-- **The search finds where the strike stands**: the nodes in front are below it, and no other. -/
lemma searchStrike_spec {nodes : List K} (hrise : nodes.Pairwise (· < ·)) (strike : K) :
    ∀ (rounds : ℕ) (low high : ℤ), 0 ≤ low → low ≤ high + 1 → high < nodes.length →
      high + 1 - low < rounds →
      (∀ x ∈ nodes.take low.toNat, x < strike) → (∀ x ∈ nodes.drop (high + 1).toNat, strike < x) →
        searchStrike nodes strike rounds low high ≤ nodes.length ∧
        (∀ x ∈ nodes.take (searchStrike nodes strike rounds low high), x < strike) ∧
        ∀ x ∈ nodes.drop (searchStrike nodes strike rounds low high), strike ≤ x
  | 0, low, high, _, _, _, hrounds, _, _ => by omega
  | rounds + 1, low, high, hlow, hle, hhigh, hrounds, hbelow, habove => by
      have hsorted := List.pairwise_iff_getElem.1 hrise
      unfold searchStrike
      dsimp only
      by_cases hmore : low ≤ high
      · rw [if_pos hmore]
        obtain ⟨m, hm, hm', hm''⟩ : ∃ m : ℕ, ((low + high) / 2).toNat = m ∧ low ≤ m ∧ m ≤ high :=
          ⟨_, rfl, by omega, by omega⟩
        have hlen : m < nodes.length := by omega
        rw [hm, List.getD_eq_getElem?_getD, List.getElem?_eq_getElem hlen, Option.getD_some]
        -- what stands in front of the middle is below it, what stands behind above
        have hfront : ∀ x ∈ nodes.take m, x < nodes[m] := by
          intro x hx
          obtain ⟨i, hi, rfl⟩ := List.mem_take_iff_getElem.1 hx
          exact hsorted i m _ _ (by omega)
        have hback : ∀ x ∈ nodes.drop (m + 1), nodes[m] < x := by
          intro x hx
          obtain ⟨i, hi, rfl⟩ := List.mem_drop_iff_getElem.1 hx
          exact hsorted m _ _ _ (by omega)
        split_ifs with hlt hgt
        · refine searchStrike_spec hrise strike rounds (m + 1) high (by omega) (by omega) hhigh
            (by omega) ?_ habove
          have hcut : ((m : ℤ) + 1).toNat = m + 1 := by omega
          rw [hcut, List.take_succ_eq_append_getElem hlen]
          intro x hx
          rcases List.mem_append.1 hx with hx | hx
          · exact (hfront x hx).trans hlt
          · rw [List.mem_singleton.1 hx]
            exact hlt
        · refine searchStrike_spec hrise strike rounds low (m - 1) hlow (by omega) (by omega)
            (by omega) hbelow ?_
          have hcut : ((m : ℤ) - 1 + 1).toNat = m := by omega
          rw [hcut, List.drop_eq_getElem_cons hlen]
          intro x hx
          rcases List.mem_cons.1 hx with rfl | hx
          · exact hgt
          · exact hgt.trans (hback x hx)
        · have heq : nodes[m] = strike := le_antisymm (not_lt.1 hgt) (not_lt.1 hlt)
          refine ⟨hlen.le, fun x hx => (hfront x hx).trans_eq heq, fun x hx => ?_⟩
          rw [List.drop_eq_getElem_cons hlen] at hx
          rcases List.mem_cons.1 hx with rfl | hx
          · exact heq.ge
          · exact heq.ge.trans (hback x hx).le
      · rw [if_neg hmore]
        have hcut : (high + 1).toNat = low.toNat := by omega
        rw [hcut] at habove
        exact ⟨by omega, hbelow, fun x hx => (habove x hx).le⟩

omit [IsStrictOrderedRing K] in
theorem strikePosition_spec {nodes : List K} (hrise : nodes.Pairwise (· < ·)) (strike : K) :
    strikePosition nodes strike ≤ nodes.length ∧
      (∀ x ∈ nodes.take (strikePosition nodes strike), x < strike) ∧
      ∀ x ∈ nodes.drop (strikePosition nodes strike), strike ≤ x := by
  refine searchStrike_spec hrise strike (nodes.length + 1) 0 (nodes.length - 1) le_rfl (by omega)
    (by omega) (by omega) (fun x hx => absurd hx (by simp)) ?_
  have hcut : ((nodes.length : ℤ) - 1 + 1).toNat = nodes.length := by omega
  rw [hcut, List.drop_length]
  exact fun x hx => absurd hx List.not_mem_nil

end

/-! ## The lognormal tree is that of every node -/

omit [LinearOrder K] in
lemma length_walked (input : OptionInputs K) (t : TreeLattice K) :
    (input.walked t.nodes).length = lognormalSteps + 1 := by
  unfold OptionInputs.walked
  split_ifs
  · rw [List.length_reverse, t.length_nodes]
  · exact t.length_nodes

/-- How many nodes can be worth anything, from the end the loops start at. -/
def walkReach (input : OptionInputs K) (position : ℕ) : ℕ :=
  if input.isCall then lognormalSteps + 1 - position else position + 1

omit [Field K] [LinearOrder K] in
/-- **What a level goes over.** -/
lemma boundedCount_eq (input : OptionInputs K) {position : ℕ}
    (hposition : position ≤ lognormalSteps + 1) (level : ℕ) :
    boundedCount input position level = min level (walkReach input position) := by
  unfold boundedCount walkReach callLower
  split_ifs
  · omega
  · rfl

omit [Field K] [LinearOrder K] in
/-- **No loop leaves its arrays**, wherever the search ends. -/
theorem bounds_inside (input : OptionInputs K) {position level : ℕ}
    (hposition : position ≤ lognormalSteps + 1) (hlevel : level ≤ lognormalSteps) :
    (∀ i : ℕ, i < min level (position + 1) → i + 1 < lognormalSteps + 1) ∧
      (∀ i : ℤ, callLower level position + 1 ≤ i → i ≤ lognormalSteps →
        0 ≤ i - 1 ∧ i < lognormalSteps + 1) ∧
          boundedCount input position level < lognormalSteps + 1 := by
  refine ⟨fun i hi => by omega, fun i hi hle => ?_, ?_⟩
  · unfold callLower at hi
    omega
  · rw [boundedCount_eq input hposition]
    omega

/-- The nodes a put's loops never walkReach are not worth exercising, at any level. -/
def SkippedIdle [FloorRing K] (exp sqrt : K → K) (input : OptionInputs K) (volatility : K) : Prop :=
  let owed := (dividendsOwed exp input).1
  let t := lattice exp sqrt input volatility owed
  let position := strikePosition t.nodes input.strike
  ∀ level < lognormalSteps, ∀ x ∈ (t.nodes.take (level + 1)).drop (position + 1),
    input.strike - owed.getD level 0 ≤ x * t.up ^ (lognormalSteps - level)

section

variable [IsStrictOrderedRing K] [FloorRing K] {exp sqrt : K → K} {input : OptionInputs K}
  {volatility : K}

lemma lawful_lattice {owed : List K} (hbase : 0 < input.spot - owed.getD 0 0)
    (hup : 1 < exp (volatility * sqrt (input.years / lognormalSteps))) :
    (lattice exp sqrt input volatility owed).Lawful := by
  unfold lattice
  dsimp only
  have hpos := zero_lt_one.trans hup
  have hdown : 1 / exp (volatility * sqrt (input.years / lognormalSteps)) <
      exp (volatility * sqrt (input.years / lognormalSteps)) :=
    ((div_le_one hpos).2 hup.le).trans_lt hup
  split_ifs with hmore
  · rw [lt_div_iff₀ (sub_pos.2 hdown), one_mul, sub_lt_sub_iff_right] at hmore
    exact ⟨hup.trans hmore, rfl, hbase⟩
  · exact ⟨hup, rfl, hbase⟩

omit [FloorRing K] in
/-- What is behind the bound is worth nothing at the last level. -/
lemma start_zero {t : TreeLattice K} (ht : t.Lawful) {maximum : K} (hmaximum : 0 ≤ maximum)
    {owed : List K} (howed : owed.getD lognormalSteps 0 = 0) {position : ℕ}
    (hposition : position = strikePosition t.nodes
      (if input.isCall then input.strike - maximum else input.strike)) (result : TreeValues K) :
    ∀ p ∈ (treeStart input owed t result).prices.drop (walkReach input position), p = 0 := by
  obtain ⟨hlen, hbelow, habove⟩ := strikePosition_spec ht.pairwise_nodes
    (if input.isCall then input.strike - maximum else input.strike)
  rw [← hposition] at hlen hbelow habove
  intro p hp
  unfold treeStart at hp
  dsimp only at hp
  rw [← List.map_drop] at hp
  obtain ⟨x, hx, rfl⟩ := List.mem_map.1 hp
  refine if_neg (not_lt.2 ?_)
  unfold OptionInputs.worth
  rw [howed, sub_zero]
  unfold walkReach OptionInputs.walked at hx
  cases hcall : input.isCall with
  | true =>
      rw [hcall, if_pos rfl, if_pos rfl, List.drop_reverse, t.length_nodes] at hx
      rw [t.length_nodes] at hlen
      rw [Nat.sub_sub_self hlen] at hx
      have hlt := hbelow x (List.mem_reverse.1 hx)
      rw [hcall, if_pos rfl] at hlt
      rw [if_pos rfl]
      linarith
  | false =>
      rw [hcall, if_neg Bool.false_ne_true, if_neg Bool.false_ne_true, ← List.drop_drop] at hx
      have hle := habove x ((List.drop_sublist _ _).subset (by
        rwa [List.drop_drop, Nat.add_comm, ← List.drop_drop] at hx))
      rw [hcall, if_neg Bool.false_ne_true] at hle
      rw [if_neg Bool.false_ne_true]
      linarith

lemma idle_skipped (hbase : 0 < input.spot - (dividendsOwed exp input).1.getD 0 0)
    (hup : 1 < exp (volatility * sqrt (input.years / lognormalSteps)))
    (hput : input.isCall = false → SkippedIdle exp sqrt input volatility) :
    TreeIdle input (dividendsOwed exp input).1
      (lattice exp sqrt input volatility (dividendsOwed exp input).1) (dividendsOwed exp input).2
      (walkReach input (boundAt exp sqrt input volatility (dividendsOwed exp input).1
        (dividendsOwed exp input).2)) := by
  have ht := lawful_lattice hbase hup
  intro level hlevel hcheck x hx
  unfold walkReach boundAt at hx
  unfold OptionInputs.worth levelSweep
  dsimp only
  cases hcall : input.isCall with
  | true =>
      rw [hcall, if_pos rfl, if_pos rfl] at hx
      rw [if_pos rfl, if_pos rfl]
      generalize hnodes : lattice exp sqrt input volatility (dividendsOwed exp input).1 = t at *
      obtain ⟨hlen, hbelow, -⟩ := strikePosition_spec ht.pairwise_nodes
        (input.strike - (dividendsOwed exp input).2)
      rw [t.length_nodes] at hlen
      have hmem : x ∈ (t.nodes.reverse).drop (lognormalSteps + 1 - strikePosition t.nodes
          (input.strike - (dividendsOwed exp input).2)) := by
        have hwalked : input.walked t.nodes = t.nodes.reverse := if_pos hcall
        rw [hwalked] at hx
        exact ((List.take_prefix _ _).drop _).subset hx
      rw [List.drop_reverse, t.length_nodes, Nat.sub_sub_self hlen] at hmem
      have hlt := hbelow x (List.mem_reverse.1 hmem)
      have hpos := ht.nodes_pos (List.mem_of_mem_take (List.mem_reverse.1 hmem))
      have howed := owed_le exp input level
      have hdown : x * t.down ^ (lognormalSteps - level) ≤ x :=
        mul_le_of_le_one_right hpos.le (pow_le_one₀ ht.down_pos.le ht.down_le)
      linarith
  | false =>
      rw [hcall, if_neg Bool.false_ne_true, if_neg Bool.false_ne_true] at hx
      rw [if_neg Bool.false_ne_true, if_neg Bool.false_ne_true]
      have hwalked : input.walked (lattice exp sqrt input volatility
          (dividendsOwed exp input).1).nodes =
            (lattice exp sqrt input volatility (dividendsOwed exp input).1).nodes :=
        if_neg (by rw [hcall]; exact Bool.false_ne_true)
      rw [hwalked] at hx
      exact sub_nonpos.2 (hput hcall level hlevel x hx)

/-- **The bounds of the lognormal tree change nothing** where no skipped node is worth
exercising. -/
theorem lognormal_bounds (hbase : 0 < input.spot - (dividendsOwed exp input).1.getD 0 0)
    (hup : 1 < exp (volatility * sqrt (input.years / lognormalSteps)))
    (hput : input.isCall = false → SkippedIdle exp sqrt input volatility) (result : TreeValues K) :
    lognormalRun exp sqrt input volatility (dividendsOwed exp input).1 (dividendsOwed exp input).2
        result =
      lognormalWhole exp sqrt input volatility (dividendsOwed exp input).1
        (dividendsOwed exp input).2 result := by
  have ht := lawful_lattice hbase hup
  have hidle := idle_skipped hbase hup hput
  have hmaximum : 0 ≤ (dividendsOwed exp input).2 := (lawful_schedule exp input).nonneg
  have hlast := owed_last exp input
  unfold lognormalRun lognormalWhole lognormalOver
  dsimp only
  generalize (dividendsOwed exp input).1 = owed at *
  generalize (dividendsOwed exp input).2 = maximum at *
  have hposition : boundAt exp sqrt input volatility owed maximum ≤ lognormalSteps + 1 := by
    rw [← (lattice exp sqrt input volatility owed).length_nodes]
    exact (strikePosition_spec ht.pairwise_nodes _).1
  have hstart : Near input owed (lattice exp sqrt input volatility owed) maximum
      (walkReach input (boundAt exp sqrt input volatility owed maximum)) lognormalSteps
      (treeStart input owed (lattice exp sqrt input volatility owed) result)
      (treeStart input owed (lattice exp sqrt input volatility owed) result) := by
    refine ⟨rfl, rfl, rfl, (List.length_map _).trans (length_walked _ _), length_walked _ _,
      length_walked _ _, rfl, start_zero ht hmaximum hlast rfl result, ?_⟩
    have hsame : treeMoved input owed (lattice exp sqrt input volatility owed) maximum
        (lognormalSteps - lognormalSteps) = id := by
      funext x
      unfold treeMoved
      rw [Nat.sub_self, pow_zero, mul_one, ite_self]
      rfl
    rw [hsame, List.map_id]
    rfl
  have hnear := near_levels hidle (fun level _ => boundedCount_eq input hposition level)
    lognormalSteps le_rfl hstart
  rw [hnear.prices, hnear.middle, hnear.result]

end

/-! ## The arithmetic tree -/

/-- A payoff, from its end on, as long as exercising is worth more than nought. -/
def fillPayoff (twice : K) : K → List K → List K
  | _, [] => []
  | exercise, price :: prices =>
      if exercise ≤ 0 then price :: prices
      else exercise :: fillPayoff twice (exercise - twice) prices

/-- A level's prices raised to what exercising is worth, as long as it is worth more. -/
def raise (twice : K) : K → List K → List K
  | _, [] => []
  | exercise, price :: prices =>
      if exercise ≤ price then price :: prices
      else exercise :: raise twice (exercise - twice) prices

def fillAll (twice : K) : K → List K → List K
  | _, [] => []
  | exercise, price :: prices =>
      (if exercise ≤ 0 then price else exercise) :: fillAll twice (exercise - twice) prices

def raiseAll (twice : K) : K → List K → List K
  | _, [] => []
  | exercise, price :: prices =>
      (if exercise ≤ price then price else exercise) :: raiseAll twice (exercise - twice) prices

/-- Each of so many prices becomes its discounted mean with the next. -/
def average (weight : K) : ℕ → List K → List K
  | n + 1, price :: next :: prices => (next + price) * weight :: average weight n (next :: prices)
  | _, prices => prices

section

variable (input : OptionInputs K) (step discount : K)

/-- What exercising is worth at the end a loop over so many prices starts at: a call's highest node
and a put's lowest. -/
def farWorth (size : ℕ) : K :=
  if input.isCall then input.arithmeticForward + ((size : K) - 1) * step - input.strike
  else input.strike - (input.arithmeticForward + (1 - (size : K)) * step)

/-- A change of so many first prices, from the end its loop starts at. -/
def OptionInputs.onFront (change : List K → List K) (size : ℕ) (prices : List K) : List K :=
  input.walked (change (input.walked (prices.take size))) ++ prices.drop size

def arithmeticLevel (raising : K → K → List K → List K) (size : ℕ) (prices : List K) : List K :=
  let prices := average (1 / 2 * discount) size prices
  if input.american then
    input.onFront (raising (2 * step) (farWorth input step size)) size prices
  else prices

def arithmeticLevels (raising : K → K → List K → List K) : ℕ → List K → List K
  | 0, prices => prices
  | level + 1, prices =>
      arithmeticLevels raising level
        (arithmeticLevel input step discount raising (level + 3) prices)

def arithmeticWith (filling raising : K → K → List K → List K) : List K :=
  let size := arithmeticSteps + 3
  arithmeticLevels input step discount raising arithmeticSteps
    (input.onFront (filling (2 * step) (farWorth input step size)) size (List.replicate size 0))

def arithmeticRun : List K := arithmeticWith input step discount fillPayoff raise

/-- The same recursion with every node of every level checked, payoffs included. -/
def arithmeticWhole : List K := arithmeticWith input step discount fillAll raiseAll

end

/-! ## Stopping changes nothing -/

/-- Prices that fall by no more than exercising does from node to node. -/
def Slope (twice : K) : List K → Prop
  | p :: q :: l => p - q ≤ twice ∧ Slope twice (q :: l)
  | _ => True

/-- Prices no less than exercising is worth, and none below nought. -/
def Above (twice : K) : K → List K → Prop
  | _, [] => True
  | exercise, p :: l => exercise ≤ p ∧ 0 ≤ p ∧ Above twice (exercise - twice) l

def means (weight : K) : List K → List K
  | p :: q :: l => (q + p) * weight :: means weight (q :: l)
  | _ => []

section

variable [IsStrictOrderedRing K] {twice step weight discount : K}

lemma raiseAll_of_slope : ∀ {l : List K} {e p : K}, Slope twice (p :: l) → e ≤ p →
    raiseAll twice (e - twice) l = l
  | [], _, _, _, _ => rfl
  | q :: l, e, p, h, he => by
      have hq : e - twice ≤ q := by linarith [h.1]
      rw [raiseAll, if_pos hq, raiseAll_of_slope h.2 hq]

lemma raise_of_slope : ∀ {l : List K} {e : K}, Slope twice l → raise twice e l = raiseAll twice e l
  | [], _, _ => rfl
  | p :: l, e, h => by
      rw [raise, raiseAll]
      split_ifs with he
      · rw [raiseAll_of_slope h he]
      · have htail : Slope twice l := by
          cases l with
          | nil => trivial
          | cons q l => exact h.2
        rw [raise_of_slope htail]

lemma slope_raiseAll (htwice : 0 ≤ twice) : ∀ {l : List K} {e : K}, Slope twice l →
    Slope twice (raiseAll twice e l)
  | [], _, _ => trivial
  | [p], _, _ => trivial
  | p :: q :: l, e, h => by
      have ih := slope_raiseAll htwice (e := e - twice) h.2
      rw [raiseAll] at ih ⊢
      rw [raiseAll]
      refine ⟨?_, ih⟩
      have hpq := h.1
      split_ifs <;> linarith

lemma slope_means (htwice : 0 ≤ twice) (hpos : 0 < discount) (hle : discount ≤ 1) :
    ∀ {l : List K}, Slope twice l → Slope twice (means (1 / 2 * discount) l)
  | [], _ => trivial
  | [_], _ => trivial
  | [_, _], _ => trivial
  | p :: q :: r :: l, h => by
      refine ⟨?_, slope_means htwice hpos hle h.2⟩
      have hsum : p - q + (q - r) ≤ twice + twice := add_le_add h.1 h.2.1
      calc (q + p) * (1 / 2 * discount) - (r + q) * (1 / 2 * discount)
          = (p - q + (q - r)) * (1 / 2 * discount) := by ring
        _ ≤ (twice + twice) * (1 / 2 * discount) :=
          mul_le_mul_of_nonneg_right hsum (by positivity)
        _ = twice * discount := by ring
        _ ≤ twice := mul_le_of_le_one_right htwice hle

omit [IsStrictOrderedRing K] in
lemma raise_of_above : ∀ {l : List K} {e : K}, Above twice e l → raise twice e l = l
  | [], _, _ => rfl
  | p :: l, e, h => by rw [raise, if_pos h.1]

omit [IsStrictOrderedRing K] in
lemma raiseAll_of_above : ∀ {l : List K} {e : K}, Above twice e l → raiseAll twice e l = l
  | [], _, _ => rfl
  | p :: l, e, h => by rw [raiseAll, if_pos h.1, raiseAll_of_above h.2.2]

lemma above_means (hdiscount : 1 ≤ discount) : ∀ {l : List K} {e : K}, Above (2 * step) e l →
    Above (2 * step) (e - step) (means (1 / 2 * discount) l)
  | [], _, _ => trivial
  | [_], _, _ => trivial
  | p :: q :: l, e, h => by
      have ih := above_means hdiscount h.2.2
      have hnonneg : 0 ≤ (q + p) * (1 / 2) := by
        have hp := h.2.1
        have hq := h.2.2.2.1
        linarith
      have hmean : (q + p) * (1 / 2) ≤ (q + p) * (1 / 2 * discount) := by
        rw [← mul_assoc]
        exact le_mul_of_one_le_right hnonneg hdiscount
      refine ⟨?_, hnonneg.trans hmean, ?_⟩
      · have hp := h.1
        have hq := h.2.2.1
        linarith
      · rw [sub_right_comm]
        exact ih

/-- What the prices of a level keep: where the discount is at most one they fall slowly, and where
it is at least one they are above what exercising is worth. -/
def Fit (step discount e : K) (l : List K) : Prop :=
  discount ≤ 1 ∧ Slope (2 * step) l ∨ 1 ≤ discount ∧ Above (2 * step) e l

variable {e : K} {l : List K}

lemma Fit.raise (h : Fit step discount e l) : raise (2 * step) e l = raiseAll (2 * step) e l := by
  rcases h with ⟨-, h⟩ | ⟨-, h⟩
  · exact raise_of_slope h
  · rw [raise_of_above h, raiseAll_of_above h]

lemma Fit.raised (hstep : 0 < step) (h : Fit step discount e l) :
    Fit step discount e (raiseAll (2 * step) e l) := by
  rcases h with ⟨hle, h⟩ | ⟨hle, h⟩
  · exact Or.inl ⟨hle, slope_raiseAll (by positivity) h⟩
  · exact Or.inr ⟨hle, (raiseAll_of_above h).symm ▸ h⟩

lemma Fit.means (hstep : 0 < step) (hpos : 0 < discount) (h : Fit step discount e l) :
    Fit step discount (e - step) (means (1 / 2 * discount) l) := by
  rcases h with ⟨hle, h⟩ | ⟨hle, h⟩
  · exact Or.inl ⟨hle, slope_means (by positivity) hpos hle h⟩
  · exact Or.inr ⟨hle, above_means hle h⟩

/-! ### Payoffs -/

lemma fillAll_of_le (htwice : 0 ≤ twice) : ∀ {l : List K} {e : K}, e ≤ 0 → fillAll twice e l = l
  | [], _, _ => rfl
  | p :: l, e, he => by
      rw [fillAll, if_pos he, fillAll_of_le htwice (by linarith)]

lemma fillPayoff_eq (htwice : 0 ≤ twice) : ∀ (l : List K) (e : K),
    fillPayoff twice e l = fillAll twice e l
  | [], _ => rfl
  | p :: l, e => by
      rw [fillPayoff, fillAll]
      split_ifs with he
      · rw [fillAll_of_le htwice (by linarith)]
      · rw [fillPayoff_eq htwice l]

omit [IsStrictOrderedRing K] in
lemma fillAll_zeros : ∀ (n : ℕ) (e : K),
    fillAll twice e (List.replicate n 0) = raiseAll twice e (List.replicate n 0)
  | 0, _ => rfl
  | n + 1, e => by
      rw [List.replicate_succ, fillAll, raiseAll, fillAll_zeros n]

omit [IsStrictOrderedRing K] in
lemma slope_zeros (htwice : 0 ≤ twice) : ∀ n : ℕ, Slope twice (List.replicate n 0)
  | 0 => trivial
  | 1 => trivial
  | n + 2 => ⟨by rw [sub_zero]; exact htwice, slope_zeros htwice (n + 1)⟩

omit [IsStrictOrderedRing K] in
lemma above_zeros : ∀ (n : ℕ) (e : K), Above twice e (raiseAll twice e (List.replicate n 0))
  | 0, _ => trivial
  | n + 1, e => by
      rw [List.replicate_succ, raiseAll]
      refine ⟨?_, ?_, above_zeros n _⟩
      · split_ifs with he
        · exact he
        · exact le_rfl
      · split_ifs with he
        · exact le_rfl
        · exact (not_le.1 he).le

lemma fit_payoff (hstep : 0 < step) (n : ℕ) (e : K) :
    Fit step discount e (fillAll (2 * step) e (List.replicate n 0)) := by
  rw [fillAll_zeros]
  rcases le_total discount 1 with hle | hle
  · exact Or.inl ⟨hle, slope_raiseAll (by positivity) (slope_zeros (by positivity) n)⟩
  · exact Or.inr ⟨hle, above_zeros n e⟩

/-! ### Levels -/

omit [LinearOrder K] [IsStrictOrderedRing K] in
lemma average_eq : ∀ {n : ℕ} {prices : List K}, n < prices.length →
    average weight n prices = means weight (prices.take (n + 1)) ++ prices.drop n
  | 0, [], h => absurd h (by simp)
  | 0, _ :: _, _ => rfl
  | n + 1, [], h => absurd h (by simp)
  | n + 1, [_], h => absurd h (by simp)
  | n + 1, price :: next :: prices, h => by
      rw [average, average_eq (Nat.lt_of_succ_lt_succ h)]
      rfl

omit [LinearOrder K] [IsStrictOrderedRing K] in
lemma length_means : ∀ l : List K, (means weight l).length = l.length - 1
  | [] => rfl
  | [_] => rfl
  | _ :: q :: l => congrArg (· + 1) (length_means (q :: l))

omit [LinearOrder K] [IsStrictOrderedRing K] in
lemma means_snoc : ∀ (l : List K) (q p : K),
    means weight (l ++ [q, p]) = means weight (l ++ [q]) ++ [(p + q) * weight]
  | [], _, _ => rfl
  | [_], _, _ => rfl
  | a :: b :: l, q, p => congrArg (((b + a) * weight) :: ·) (means_snoc (b :: l) q p)

omit [LinearOrder K] [IsStrictOrderedRing K] in
lemma means_reverse : ∀ l : List K, means weight l.reverse = (means weight l).reverse
  | [] => rfl
  | [_] => rfl
  | p :: q :: l => by
      have ih := means_reverse (q :: l)
      rw [List.reverse_cons] at ih
      rw [List.reverse_cons, List.reverse_cons, List.append_assoc, List.singleton_append,
        means_snoc, ih, means, List.reverse_cons, add_comm]

omit [LinearOrder K] [IsStrictOrderedRing K] in
lemma means_walked (input : OptionInputs K) (l : List K) :
    means weight (input.walked l) = input.walked (means weight l) := by
  unfold OptionInputs.walked
  split_ifs
  · exact means_reverse l
  · rfl

omit [Field K] [LinearOrder K] [IsStrictOrderedRing K] in
lemma walked_walked (input : OptionInputs K) {α : Type} (l : List α) :
    input.walked (input.walked l) = l := by
  unfold OptionInputs.walked
  split_ifs
  · exact List.reverse_reverse l
  · rfl

omit [Field K] [LinearOrder K] [IsStrictOrderedRing K] in
lemma length_walk (input : OptionInputs K) {α : Type} (l : List α) :
    (input.walked l).length = l.length := by
  unfold OptionInputs.walked
  split_ifs
  · exact List.length_reverse
  · rfl

omit [IsStrictOrderedRing K] in
lemma length_raiseAll : ∀ (l : List K) (e : K), (raiseAll twice e l).length = l.length
  | [], _ => rfl
  | _ :: l, _ => congrArg (· + 1) (length_raiseAll l _)

omit [IsStrictOrderedRing K] in
lemma length_fillAll : ∀ (l : List K) (e : K), (fillAll twice e l).length = l.length
  | [], _ => rfl
  | _ :: l, _ => congrArg (· + 1) (length_fillAll l _)

omit [LinearOrder K] [IsStrictOrderedRing K] in
lemma farWorth_pred (input : OptionInputs K) (size : ℕ) :
    farWorth input step (size + 1) - step = farWorth input step size := by
  unfold farWorth
  split_ifs <;> push_cast <;> ring

variable {input : OptionInputs K}

lemma level_fit (hstep : 0 < step) (hpos : 0 < discount) (hamerican : input.american = true)
    {size : ℕ} {prices : List K} (hsize : size < prices.length)
    (h : Fit step discount (farWorth input step (size + 1))
      (input.walked (prices.take (size + 1)))) :
    arithmeticLevel input step discount raise size prices =
        arithmeticLevel input step discount raiseAll size prices ∧
      (arithmeticLevel input step discount raiseAll size prices).length = prices.length ∧
      Fit step discount (farWorth input step size)
        (input.walked ((arithmeticLevel input step discount raiseAll size prices).take size)) := by
  have hmeans := h.means hstep hpos
  rw [farWorth_pred, means_walked] at hmeans
  have hlen : (means (1 / 2 * discount) (prices.take (size + 1))).length = size := by
    rw [length_means, List.length_take]
    omega
  have htake : (average (1 / 2 * discount) size prices).take size =
      means (1 / 2 * discount) (prices.take (size + 1)) := by
    rw [average_eq hsize, List.take_left' hlen]
  have hdrop : (average (1 / 2 * discount) size prices).drop size = prices.drop size := by
    rw [average_eq hsize, List.drop_left' hlen]
  have hfront : ∀ raising : K → K → List K → List K,
      arithmeticLevel input step discount raising size prices =
        input.walked (raising (2 * step) (farWorth input step size)
          (input.walked (means (1 / 2 * discount) (prices.take (size + 1))))) ++
            prices.drop size := by
    intro raising
    unfold arithmeticLevel OptionInputs.onFront
    dsimp only
    rw [if_pos hamerican, htake, hdrop]
  have hlength : (input.walked (raiseAll (2 * step) (farWorth input step size)
      (input.walked (means (1 / 2 * discount) (prices.take (size + 1)))))).length = size := by
    rw [length_walk, length_raiseAll, length_walk, hlen]
  rw [hfront, hfront, hmeans.raise]
  refine ⟨rfl, ?_, ?_⟩
  · rw [List.length_append, hlength, List.length_drop]
    omega
  · rw [List.take_left' hlength, walked_walked]
    exact hmeans.raised hstep

lemma levels_fit (hstep : 0 < step) (hpos : 0 < discount) (hamerican : input.american = true) :
    ∀ (level : ℕ) {prices : List K}, level + 3 ≤ prices.length →
      Fit step discount (farWorth input step (level + 3)) (input.walked (prices.take (level + 3))) →
        arithmeticLevels input step discount raise level prices =
          arithmeticLevels input step discount raiseAll level prices
  | 0, _, _, _ => rfl
  | level + 1, prices, hlen, h => by
      obtain ⟨heq, hlen', hfit⟩ := level_fit hstep hpos hamerican
        (show level + 3 < prices.length by omega) h
      rw [arithmeticLevels, arithmeticLevels, heq]
      exact levels_fit hstep hpos hamerican level (by omega) hfit

/-- **Stopping at the first node not worth exercising changes nothing.** -/
theorem arithmetic_stops (hstep : 0 < step) (hpos : 0 < discount) :
    arithmeticRun input step discount = arithmeticWhole input step discount := by
  unfold arithmeticRun arithmeticWhole arithmeticWith
  dsimp only
  have hpayoff : input.onFront (fillPayoff (2 * step) (farWorth input step (arithmeticSteps + 3)))
      (arithmeticSteps + 3) (List.replicate (arithmeticSteps + 3) 0) =
        input.onFront (fillAll (2 * step) (farWorth input step (arithmeticSteps + 3)))
          (arithmeticSteps + 3) (List.replicate (arithmeticSteps + 3) 0) := by
    unfold OptionInputs.onFront
    rw [fillPayoff_eq (by positivity)]
  rw [hpayoff]
  by_cases hamerican : input.american = true
  · have hzeros : input.walked (List.replicate (arithmeticSteps + 3) (0 : K)) =
        List.replicate (arithmeticSteps + 3) 0 := by
      unfold OptionInputs.walked
      rw [List.reverse_replicate, ite_self]
    have hfront : input.onFront (fillAll (2 * step) (farWorth input step (arithmeticSteps + 3)))
        (arithmeticSteps + 3) (List.replicate (arithmeticSteps + 3) 0) =
          input.walked (fillAll (2 * step) (farWorth input step (arithmeticSteps + 3))
            (List.replicate (arithmeticSteps + 3) 0)) := by
      unfold OptionInputs.onFront
      rw [List.take_of_length_le List.length_replicate.le,
        List.drop_eq_nil_of_le List.length_replicate.le, List.append_nil, hzeros]
    have hlen : (input.walked (fillAll (2 * step) (farWorth input step (arithmeticSteps + 3))
        (List.replicate (arithmeticSteps + 3) 0))).length = arithmeticSteps + 3 := by
      rw [length_walk, length_fillAll, List.length_replicate]
    rw [hfront]
    refine levels_fit hstep hpos hamerican arithmeticSteps hlen.ge ?_
    rw [List.take_of_length_le hlen.le, walked_walked]
    exact fit_payoff hstep _ _
  · -- no level of a European option is raised
    have hlevel : ∀ size prices, arithmeticLevel input step discount raise size prices =
        arithmeticLevel input step discount raiseAll size prices := by
      intro size prices
      unfold arithmeticLevel
      dsimp only
      rw [if_neg hamerican, if_neg hamerican]
    have hlevels : ∀ level prices, arithmeticLevels input step discount raise level prices =
        arithmeticLevels input step discount raiseAll level prices := by
      intro level
      induction level with
      | zero => exact fun _ => rfl
      | succ level ih =>
          intro prices
          rw [arithmeticLevels, arithmeticLevels, hlevel, ih]
    exact hlevels _ _

end

/-! ## The shortcuts -/

section

variable [IsStrictOrderedRing K] [FloorRing K]

lemma skippedIdle_of_nonneg {exp sqrt : K → K} {input : OptionInputs K} {volatility : K}
    (hbase : 0 < input.spot - (dividendsOwed exp input).1.getD 0 0)
    (hup : 1 < exp (volatility * sqrt (input.years / lognormalSteps)))
    (hnonneg : ∀ level, 0 ≤ (dividendsOwed exp input).1.getD level 0) :
    SkippedIdle exp sqrt input volatility := by
  have ht := lawful_lattice hbase hup
  intro level _ x hx
  obtain ⟨-, -, habove⟩ := strikePosition_spec ht.pairwise_nodes input.strike
  have hmem : x ∈ (lattice exp sqrt input volatility (dividendsOwed exp input).1).nodes.drop
      (strikePosition (lattice exp sqrt input volatility (dividendsOwed exp input).1).nodes
        input.strike + 1) := ((List.take_prefix _ _).drop _).subset hx
  have hle := habove x ((List.drop_sublist_drop_left _ (Nat.le_succ _)).subset hmem)
  have hpos := ht.nodes_pos (List.mem_of_mem_drop hmem)
  have hmoved : x ≤ x * (lattice exp sqrt input volatility (dividendsOwed exp input).1).up ^
      (lognormalSteps - level) := le_mul_of_one_le_right hpos.le (one_le_pow₀ ht.up.le)
  have howed := hnonneg level
  linarith

/-- **The shortcuts of the trees change no value** of a call, nor of a put none of whose skipped
nodes is worth exercising, as none is where nothing owed is below nought; the arithmetic tree's
change none; and no loop of either tree leaves its arrays. -/
theorem shortcuts_change_nothing (exp sqrt : K → K) (input : OptionInputs K) :
    (∀ (volatility : K) (result : TreeValues K),
      0 < input.spot - (dividendsOwed exp input).1.getD 0 0 →
      1 < exp (volatility * sqrt (input.years / lognormalSteps)) →
        (input.isCall = true ∨ SkippedIdle exp sqrt input volatility →
          lognormalRun exp sqrt input volatility (dividendsOwed exp input).1
              (dividendsOwed exp input).2 result =
            lognormalWhole exp sqrt input volatility (dividendsOwed exp input).1
              (dividendsOwed exp input).2 result) ∧
        ((∀ level, 0 ≤ (dividendsOwed exp input).1.getD level 0) →
          SkippedIdle exp sqrt input volatility)) ∧
    (∀ step discount : K, 0 < step → 0 < discount →
      arithmeticRun input step discount = arithmeticWhole input step discount) ∧
    (∀ position level : ℕ, position ≤ lognormalSteps + 1 → level ≤ lognormalSteps →
      (∀ i : ℕ, i < min level (position + 1) → i + 1 < lognormalSteps + 1) ∧
        ∀ i : ℤ, callLower level position + 1 ≤ i → i ≤ lognormalSteps →
          0 ≤ i - 1 ∧ i < lognormalSteps + 1) ∧
    (∀ nodes : List K, nodes.Pairwise (· < ·) →
      ∀ strike, strikePosition nodes strike ≤ nodes.length) ∧
    ∀ level i : ℕ, level < arithmeticSteps → i < level + 3 → i + 1 < arithmeticSteps + 3 := by
  refine ⟨fun volatility result hbase hup => ⟨fun h => ?_, skippedIdle_of_nonneg hbase hup⟩,
    fun step discount hstep hpos => arithmetic_stops hstep hpos,
    fun position level hposition hlevel => ?_,
    fun nodes hrise strike => (strikePosition_spec hrise strike).1,
    fun level i hlevel hi => by omega⟩
  · refine lognormal_bounds hbase hup (fun hput => ?_) result
    rcases h with hcall | hidle
    · rw [hput] at hcall
      cases hcall
    · exact hidle
  · obtain ⟨hput, hcall, -⟩ := bounds_inside input hposition hlevel
    exact ⟨hput, hcall⟩

end

/-- An exponential that is one up to nought and a hundredth more above it. -/
def stepExp (x : ℚ) : ℚ := if x ≤ 0 then 1 else 101 / 100

/-- A put on an index at 100, its cumulative dividends falling from 80 to nought. -/
def fallingPut : OptionInputs ℚ where
  isCall := false
  american := true
  spot := 100
  strike := 30
  years := 1
  rate := 0
  yieldRate := -1
  volatility := 1
  quanto := false
  dividends := [⟨43200000, 1, 80⟩, ⟨1576800000, 19, 0⟩]
  taxAdjustment := none
  indexDividends := true
  forward := none

theorem shortcuts_of_call :
    lognormalRun stepExp id { fallingPut with isCall := true } 1
        (dividendsOwed stepExp { fallingPut with isCall := true }).1
        (dividendsOwed stepExp { fallingPut with isCall := true }).2 ⟨none, none, none, none⟩ =
      lognormalWhole stepExp id { fallingPut with isCall := true } 1
        (dividendsOwed stepExp { fallingPut with isCall := true }).1
        (dividendsOwed stepExp { fallingPut with isCall := true }).2 ⟨none, none, none, none⟩ :=
  (((shortcuts_change_nothing stepExp id { fallingPut with isCall := true }).1 1
    ⟨none, none, none, none⟩ (by decide +kernel) (by decide +kernel)).1 (Or.inl rfl))

section

variable {K : Type} [Field K] [LinearOrder K] {input : OptionInputs K} {owed : List K}
  {t : TreeLattice K} {maximum : K}

lemma Sweep.le_run (w : Sweep K) (hhere : w.here = 0) (hnext : w.next = 1) (hfull : w.discount = 1)
    (hcheck : w.check = true) : ∀ (n i : ℕ) (nodes prices : List K), i < n → n ≤ nodes.length →
      n < prices.length → prices.getD (i + 1) 0 ≤ (w.run n nodes prices).2.getD i 0 ∧
        w.exercise (nodes.getD i 0 * w.factor) ≤ (w.run n nodes prices).2.getD i 0
  | n + 1, i, node :: nodes, price :: next :: prices, hi, hnodes, hprices => by
      rw [run, if_pos hcheck]
      cases i with
      | zero =>
          have hvalue : (w.here * price + w.next * next) * w.discount = next := by
            rw [hhere, hnext, hfull, zero_mul, zero_add, one_mul, mul_one]
          simp only [hvalue, List.getD_cons_succ, List.getD_cons_zero]
          split_ifs with h
          · exact ⟨h.le, le_rfl⟩
          · exact ⟨le_rfl, not_lt.1 h⟩
      | succ i =>
          exact le_run w hhere hnext hfull hcheck n i nodes (next :: prices)
            (Nat.lt_of_succ_lt_succ hi) (Nat.le_of_succ_le_succ hnodes)
            (Nat.lt_of_succ_lt_succ hprices)

variable (hput : input.isCall = false) (hone : t.probability = 1) (hfull : t.discount = 1)

include hput hone hfull

lemma le_treeLevel {n i : ℕ} (s : TreeState K) (hi : i < n) (hnodes : n ≤ s.nodes.length)
    (hprices : n < s.prices.length) :
    s.prices.getD (i + 1) 0 ≤ (treeLevel input owed t maximum n n s).prices.getD i 0 ∧
      input.worth owed (n - 1) (s.nodes.getD i 0 * t.up) ≤
        (treeLevel input owed t maximum n n s).prices.getD i 0 := by
  have hrun := (levelSweep input owed t maximum n).le_run (by simp [levelSweep, hput, hone])
    (by simp [levelSweep, hput, hone]) hfull (by simp [levelSweep, hput]) n i s.nodes s.prices hi
    hnodes hprices
  simpa [treeLevel, levelSweep, hput] using hrun

omit hone hfull in
lemma treeLevel_nodes {n : ℕ} (s : TreeState K) (hnodes : n ≤ s.nodes.length)
    (hprices : n < s.prices.length) : (treeLevel input owed t maximum n n s).nodes =
      (s.nodes.take n).map (· * t.up) ++ s.nodes.drop n := by
  have hmove : (levelSweep input owed t maximum n).move = (· * t.up) := by
    funext node
    simp [Sweep.move, levelSweep, hput]
  rw [treeLevel, Sweep.run_nodes _ _ _ _ hnodes hprices, hmove]

omit hone hfull in
lemma length_treeLevel {n : ℕ} (s : TreeState K) (hnodes : n ≤ s.nodes.length)
    (hprices : n < s.prices.length) :
    (treeLevel input owed t maximum n n s).nodes.length = s.nodes.length ∧
      (treeLevel input owed t maximum n n s).prices.length = s.prices.length := by
  refine ⟨?_, Sweep.length_run _ _ _ _⟩
  rw [treeLevel_nodes hput s hnodes hprices, List.length_append, List.length_map, List.length_take,
    List.length_drop]
  omega

lemma le_root : ∀ (k : ℕ) (s : TreeState K), k ≤ s.nodes.length → k < s.prices.length →
    s.prices.getD k 0 ≤ (treeLevels input owed t maximum id k s).prices.getD 0 0
  | 0, _, _, _ => le_rfl
  | k + 1, s, hnodes, hprices => by
      obtain ⟨hn, hp⟩ := @length_treeLevel K _ _ input owed t maximum hput _ s hnodes hprices
      exact (le_treeLevel hput hone hfull s k.lt_succ_self hnodes hprices).1.trans
        (le_root k _ ((Nat.le_of_succ_le hnodes).trans hn.ge)
          ((Nat.lt_of_succ_lt hprices).trans_le hp.ge))

lemma worth_le_root {j : ℕ} : ∀ (d : ℕ) (s : TreeState K), j + 1 + d ≤ s.nodes.length →
    j + 1 + d < s.prices.length → input.worth owed j (s.nodes.getD j 0 * t.up ^ (d + 1)) ≤
      (treeLevels input owed t maximum id (j + 1 + d) s).prices.getD 0 0
  | 0, s, hnodes, hprices => by
      obtain ⟨hn, hp⟩ := @length_treeLevel K _ _ input owed t maximum hput _ s hnodes hprices
      rw [zero_add, pow_one]
      exact (le_treeLevel hput hone hfull s j.lt_succ_self hnodes hprices).2.trans
        (le_root hput hone hfull j _ ((Nat.le_of_succ_le hnodes).trans hn.ge)
          ((Nat.lt_of_succ_lt hprices).trans_le hp.ge))
  | d + 1, s, hnodes, hprices => by
      obtain ⟨hn, hp⟩ := @length_treeLevel K _ _ input owed t maximum hput _ s hnodes hprices
      have hnode : (treeLevel input owed t maximum (j + 1 + (d + 1)) (j + 1 + (d + 1)) s).nodes.getD
          j 0 = s.nodes.getD j 0 * t.up := by
        have hj : j < s.nodes.length := by omega
        have hleft : j < ((s.nodes.take (j + 1 + (d + 1))).map (· * t.up)).length := by
          rw [List.length_map, List.length_take]
          omega
        rw [treeLevel_nodes hput s hnodes hprices, List.getD_eq_getElem?_getD,
          List.getElem?_append_left hleft]
        simp [List.getD_eq_getElem?_getD, hj, show j < j + 1 + (d + 1) by omega]
      have ih := worth_le_root d
        (treeLevel input owed t maximum (j + 1 + (d + 1)) (j + 1 + (d + 1)) s)
        ((Nat.le_of_succ_le hnodes).trans hn.ge) ((Nat.lt_of_succ_lt hprices).trans_le hp.ge)
      rw [hnode, mul_assoc, ← pow_succ'] at ih
      exact ih

end

/-- **A put whose dividends fall skips a node worth exercising.** -/
theorem falling_put_undervalued :
    0 < fallingPut.spot - (dividendsOwed stepExp fallingPut).1.getD 0 0 ∧
      1 < stepExp (1 * id (fallingPut.years / lognormalSteps)) ∧
    (lognormalRun stepExp id fallingPut 1 (dividendsOwed stepExp fallingPut).1
        (dividendsOwed stepExp fallingPut).2 ⟨none, none, none, none⟩).price = some 0 ∧
      (lognormalWhole stepExp id fallingPut 1 (dividendsOwed stepExp fallingPut).1
        (dividendsOwed stepExp fallingPut).2 ⟨none, none, none, none⟩).price ≠ some 0 := by
  refine ⟨by decide +kernel, by decide +kernel, by decide +kernel, fun hzero => ?_⟩
  -- Exercising at the upper node after one step is worth something, and the root no less.
  have hroot := @worth_le_root ℚ _ _ fallingPut (dividendsOwed stepExp fallingPut).1
    (lattice stepExp id fallingPut 1 (dividendsOwed stepExp fallingPut).1)
    (dividendsOwed stepExp fallingPut).2 rfl (by decide +kernel) (by decide +kernel) 1 98
    (treeStart fallingPut (dividendsOwed stepExp fallingPut).1
      (lattice stepExp id fallingPut 1 (dividendsOwed stepExp fallingPut).1)
      ⟨none, none, none, none⟩) (by decide +kernel) (by decide +kernel)
  exact absurd (hroot.trans_eq (Option.some.inj hzero)) (by decide +kernel)

end IbkrDx
