import IbkrDx.Lib.Calendar
import IbkrDx.Lib.Runs

/-!
# The bar kept up to date

A request kept up to date hears the bar still forming, which goes on from the newest bar of its
history and is folded from the five-second bars of its stream, `FormingBar` of
`engine/hot_loop/hmds/mod.rs`.

* **`kept_up_to_date`** — what is pushed is the fold of the five-second bars over the newest bar of
  the history, however they arrive.

Prices, volumes and averages are exact, and a moment has no last.
-/

namespace IbkrDx

/-! ## Where bars open -/

def daySeconds : ℕ := 86400

/-- Where the bar a moment falls in opened, for bars of so many seconds. -/
def opening (seconds t : ℕ) : ℕ :=
  if seconds = 604800 then (t / daySeconds - (t / daySeconds + 3) % 7) * daySeconds
  else if seconds = 2592000 then
    (Calendar.number (Calendar.dateOf (t / daySeconds)).year
      (Calendar.dateOf (t / daySeconds)).month 1).toNat * daySeconds
  else t - t % seconds

def monthFirst (n : ℤ) : ℤ :=
  Calendar.number (Calendar.dateOf n).year (Calendar.dateOf n).month 1

lemma monthFirst_le (n : ℤ) : monthFirst n ≤ n :=
  (Calendar.dateOf n).first_le_number.trans_eq (Calendar.number_dateOf n)

lemma monthFirst_mono {n m : ℤ} (h : n ≤ m) : monthFirst n ≤ monthFirst m := by
  have hn := (Calendar.dateOf n).month_mem
  have hm := (Calendar.dateOf m).month_mem
  have hkey : (Calendar.dateOf n).key ≤ (Calendar.dateOf m).key := by
    by_contra hlt
    have hnumber := Calendar.Date.number_lt (not_le.1 hlt)
    rw [Calendar.number_dateOf, Calendar.number_dateOf] at hnumber
    omega
  have hn' := (Calendar.dateOf n).day_le
  have hm' := (Calendar.dateOf m).day_le
  have hdn := (Calendar.dateOf n).day_mem.1
  have hdm := (Calendar.dateOf m).day_mem.1
  unfold Calendar.Date.key at hkey
  unfold monthFirst
  rcases lt_trichotomy (Calendar.dateOf n).year (Calendar.dateOf m).year with hy | hy | hy
  · calc Calendar.number (Calendar.dateOf n).year (Calendar.dateOf n).month 1
        ≤ Calendar.number (Calendar.dateOf n).year 12 1 :=
          Calendar.number_first_le hn.1 hn.2 le_rfl
      _ ≤ Calendar.number ((Calendar.dateOf n).year + 1) 1 1 :=
          (Calendar.number_lt_year (by unfold Calendar.daysInMonth; split_ifs <;> omega)).le
      _ ≤ Calendar.number (Calendar.dateOf m).year 1 1 := Calendar.number_year_le hy
      _ ≤ Calendar.number (Calendar.dateOf m).year (Calendar.dateOf m).month 1 :=
          Calendar.number_first_le le_rfl hm.1 hm.2
  · rw [hy] at hkey ⊢
    exact Calendar.number_first_le hn.1 (by omega) hm.2
  · omega

lemma monthFirst_monthFirst (n : ℤ) : monthFirst (monthFirst n) = monthFirst n := by
  have hlast : 1 ≤ Calendar.daysInMonth (Calendar.dateOf n).year (Calendar.dateOf n).month := by
    unfold Calendar.daysInMonth
    split_ifs <;> omega
  let first : Calendar.Date := ⟨(Calendar.dateOf n).year, (Calendar.dateOf n).month, 1,
    (Calendar.dateOf n).month_mem, le_rfl, hlast⟩
  have hsame : Calendar.dateOf (monthFirst n) = first :=
    Calendar.Date.number_inj (Calendar.number_dateOf (monthFirst n))
  rw [monthFirst, hsame]
  rfl

lemma zero_le_monthFirst {n : ℤ} (h : 0 ≤ n) : 0 ≤ monthFirst n := by
  have hzero : monthFirst 0 = 0 := by decide
  rw [← hzero]
  exact monthFirst_mono h

/-- **The bars of a size part the moments**: a bar opens no later than what falls in it, later ones
later, and what opens it falls in it. -/
structure Periods (seconds : ℕ) : Prop where
  le : ∀ t, opening seconds t ≤ t
  mono : ∀ t u, t ≤ u → opening seconds t ≤ opening seconds u
  self : ∀ t, opening seconds (opening seconds t) = opening seconds t

lemma opening_week (t : ℕ) :
    opening 604800 t = (t / daySeconds - (t / daySeconds + 3) % 7) * daySeconds := if_pos rfl

lemma opening_month (t : ℕ) :
    opening 2592000 t = (monthFirst (t / daySeconds : ℕ)).toNat * daySeconds := by
  rw [opening, if_neg (by decide), if_pos rfl]
  rfl

lemma opening_clock {seconds : ℕ} (hweek : seconds ≠ 604800) (hmonth : seconds ≠ 2592000) (t : ℕ) :
    opening seconds t = seconds * (t / seconds) := by
  rw [opening, if_neg hweek, if_neg hmonth]
  exact Nat.sub_eq_of_eq_add (Nat.div_add_mod t seconds).symm

lemma div_daySeconds (n : ℕ) : n * daySeconds / daySeconds = n :=
  Nat.mul_div_cancel n (by decide)

lemma periods_week : Periods 604800 where
  le := fun t => by
    rw [opening_week]
    exact (Nat.mul_le_mul_right _ (Nat.sub_le _ _)).trans (Nat.div_mul_le_self t daySeconds)
  mono := fun t u h => by
    rw [opening_week, opening_week]
    have hdiv : t / daySeconds ≤ u / daySeconds := Nat.div_le_div_right h
    exact Nat.mul_le_mul_right _ (by omega)
  self := fun t => by
    rw [opening_week, opening_week, div_daySeconds]
    congr 1
    omega

lemma periods_month : Periods 2592000 where
  le := fun t => by
    rw [opening_month]
    have hle : (monthFirst (t / daySeconds : ℕ)).toNat ≤ t / daySeconds :=
      Int.toNat_le.2 (monthFirst_le _)
    exact (Nat.mul_le_mul_right _ hle).trans (Nat.div_mul_le_self t daySeconds)
  mono := fun t u h => by
    rw [opening_month, opening_month]
    have hdiv : t / daySeconds ≤ u / daySeconds := Nat.div_le_div_right h
    exact Nat.mul_le_mul_right _ (Int.toNat_le_toNat (monthFirst_mono (Int.ofNat_le.2 hdiv)))
  self := fun t => by
    rw [opening_month, opening_month, div_daySeconds,
      Int.toNat_of_nonneg (zero_le_monthFirst (Int.natCast_nonneg _)), monthFirst_monthFirst]

lemma periods_clock {seconds : ℕ} (hweek : seconds ≠ 604800) (hmonth : seconds ≠ 2592000) :
    Periods seconds where
  le := fun t => by
    rw [opening_clock hweek hmonth]
    exact Nat.mul_div_le t seconds
  mono := fun t u h => by
    rw [opening_clock hweek hmonth, opening_clock hweek hmonth]
    exact Nat.mul_le_mul_left _ (Nat.div_le_div_right h)
  self := fun t => by
    rw [opening_clock hweek hmonth, opening_clock hweek hmonth]
    rcases Nat.eq_zero_or_pos seconds with rfl | hpos
    · simp
    · rw [Nat.mul_div_cancel_left _ hpos]

theorem periods (seconds : ℕ) : Periods seconds := by
  by_cases hweek : seconds = 604800
  · exact hweek ▸ periods_week
  · by_cases hmonth : seconds = 2592000
    · exact hmonth ▸ periods_month
    · exact periods_clock hweek hmonth

attribute [irreducible] opening

lemma Periods.lt {seconds : ℕ} (h : Periods seconds) {t u : ℕ}
    (hlt : opening seconds t < opening seconds u) : t < opening seconds u := by
  by_contra hle
  have hopen := h.mono _ _ (not_lt.1 hle)
  rw [h.self] at hopen
  omega

/-! ## The bar still forming -/

structure LiveBar where
  timestamp : ℕ
  openPrice : ℚ
  high : ℚ
  low : ℚ
  close : ℚ
  volume : ℚ
  wap : ℚ
  count : ℤ

structure HistoryBar where
  start : Option ℕ
  finish : Option ℕ
  openPrice : ℚ
  high : ℚ
  low : ℚ
  close : ℚ
  volume : ℚ
  wap : ℚ
  count : ℤ

/-- `i32::saturating_add`. -/
def addCount (a b : ℤ) : ℤ := max (-2 ^ 31) (min (2 ^ 31 - 1) (a + b))

structure FormingBar where
  seconds : ℕ
  openedAt : ℕ := 0
  dailySession : Option (ℕ × ℕ) := none
  closedAt : Option ℕ := none
  bar : LiveBar := ⟨0, 0, 0, 0, 0, 0, 0, 0⟩
  weighted : ℚ := 0
  queued : List LiveBar := []

def HistoryBar.standing (b : HistoryBar) (start : ℕ) : LiveBar :=
  ⟨start, b.openPrice, b.high, b.low, b.close, b.volume, b.wap, b.count⟩

namespace FormingBar

def heldFrom (f : FormingBar) : ℕ :=
  if f.seconds = daySeconds then (f.dailySession.map Prod.fst).getD 0 else f.bar.timestamp

def goOn (f : FormingBar) (b : HistoryBar) : FormingBar :=
  match b.start.filter (f.heldFrom ≤ ·) with
  | none => f
  | some start =>
      if f.seconds = daySeconds then
        match b.finish.filter (start < ·) with
        | none => f
        | some finish =>
            { f with
              openedAt := start
              dailySession := some (start, finish)
              closedAt := some finish
              bar := b.standing start
              weighted := b.wap * b.volume }
      else
        { f with
          openedAt := opening f.seconds start
          bar := b.standing start
          weighted := b.wap * b.volume }

def openWith (f : FormingBar) (openedAt : ℕ) (five : LiveBar) : FormingBar :=
  { f with
    openedAt
    bar := { five with timestamp := openedAt }
    weighted := five.wap * five.volume }

def join (f : FormingBar) (five : LiveBar) : FormingBar :=
  let volume := f.bar.volume + five.volume
  let weighted := f.weighted + five.wap * five.volume
  { f with
    bar := { f.bar with
      high := max f.bar.high five.high
      low := min f.bar.low five.low
      close := five.close
      volume
      count := addCount f.bar.count five.count
      wap := if 0 < volume then weighted / volume else five.wap }
    weighted }

/-- A day's bar from its end on: it opens at midnight, and ends at the next or at the close the
history stated between the two. -/
def rollOver (f : FormingBar) (five : LiveBar) : FormingBar :=
  let opened := five.timestamp - five.timestamp % daySeconds
  { f with
    dailySession := some (opened, ((f.closedAt.filter (opened ≤ ·)).map
      (min · (opened + daySeconds))).getD (opened + daySeconds))
    openedAt := 2 ^ 32 - 1 }

def take (f : FormingBar) (openedAt : ℕ) (five : LiveBar) : FormingBar :=
  if openedAt ≠ f.openedAt then f.openWith openedAt five else f.join five

/-- Fold a five-second bar in.  None is where the bar in hand opened after it. -/
def fold (f : FormingBar) (five : LiveBar) : Option FormingBar :=
  if f.seconds = daySeconds then
    let session := f.dailySession.getD (0, 0)
    if five.timestamp < session.1 then none
    else
      let f := if session.2 ≤ five.timestamp then f.rollOver five else f
      some (f.take ((f.dailySession.map Prod.fst).getD 0) five)
  else if five.timestamp < f.bar.timestamp then none
  else some (f.take (opening f.seconds five.timestamp) five)

def foldAll (f : FormingBar) : List LiveBar → FormingBar × List (LiveBar × Option (ℕ × ℕ))
  | [] => (f, [])
  | five :: fives =>
      match f.fold five with
      | none => f.foldAll fives
      | some f =>
          ((f.foldAll fives).1, (f.bar, f.dailySession) :: (f.foldAll fives).2)

end FormingBar

/-! ## A request kept up to date -/

/-- What reaches a request kept up to date. -/
inductive BarArrival where
  | page (bars : List HistoryBar) (last : Bool)
  | five (bar : LiveBar)

structure KeptUp where
  forming : FormingBar
  held : Bool := true
  pushed : List (LiveBar × Option (ℕ × ℕ)) := []

namespace KeptUp

def step (k : KeptUp) : BarArrival → KeptUp
  | .page bars last =>
      { k with forming := bars.foldl FormingBar.goOn k.forming, held := k.held && !last }
  | .five bar =>
      if k.held then { k with forming := { k.forming with queued := k.forming.queued ++ [bar] } }
      else
        let out := { k.forming with queued := [] }.foldAll (k.forming.queued ++ [bar])
        { k with forming := out.1, pushed := k.pushed ++ out.2 }

def Arrives (k : KeptUp) : BarArrival → Prop
  | .page _ _ => k.held = true
  | .five _ => True

instance (k : KeptUp) (e : BarArrival) : Decidable (k.Arrives e) :=
  match e with
  | .page _ _ => inferInstanceAs (Decidable (k.held = true))
  | .five _ => isTrue trivial

end KeptUp

def historyOf (es : List BarArrival) : List HistoryBar :=
  es.flatMap fun
    | .page bars _ => bars
    | .five _ => []

def fivesOf (es : List BarArrival) : List LiveBar :=
  es.filterMap fun
    | .page _ _ => none
    | .five bar => some bar

/-! ## What a bar sums up -/

/-- **A bar sums up** what it opened with and what has joined it since: its first price, the highest
and the lowest of them, the last price, their volume, their count, and the average their volumes
weigh. -/
structure Sums (bar first : LiveBar) (rest : List LiveBar) : Prop where
  opens : bar.openPrice = first.openPrice
  high : bar.high = rest.foldl (fun h b => max h b.high) first.high
  low : bar.low = rest.foldl (fun l b => min l b.low) first.low
  close : bar.close = ((rest.getLast?).map LiveBar.close).getD first.close
  volume : bar.volume = first.volume + (rest.map LiveBar.volume).sum
  count : bar.count = rest.foldl (fun n b => addCount n b.count) first.count
  alone : rest = [] → bar.wap = first.wap
  wap : rest ≠ [] → 0 < bar.volume →
    bar.wap * bar.volume = first.wap * first.volume + (rest.map fun b => b.wap * b.volume).sum

namespace FormingBar

variable {f g base : FormingBar} {first five : LiveBar} {rest : List LiveBar}

structure Stands (f : FormingBar) (first : LiveBar) (rest : List LiveBar) : Prop where
  sums : Sums f.bar first rest
  weighted : f.weighted = first.wap * first.volume + (rest.map fun b => b.wap * b.volume).sum

lemma stands_openWith (f : FormingBar) (openedAt : ℕ) (five : LiveBar) :
    (f.openWith openedAt five).Stands five [] where
  sums := ⟨rfl, rfl, rfl, rfl, (add_zero _).symm, rfl, fun _ => rfl, fun h => absurd rfl h⟩
  weighted := (add_zero _).symm

lemma Stands.join (h : f.Stands first rest) (five : LiveBar) :
    (f.join five).Stands first (rest ++ [five]) := by
  have hweighted : (f.join five).weighted = first.wap * first.volume +
      ((rest ++ [five]).map fun b => b.wap * b.volume).sum := by
    rw [List.map_append, List.sum_append, ← add_assoc, ← h.weighted]
    simp [FormingBar.join]
  have hvolume : (f.join five).bar.volume =
      first.volume + ((rest ++ [five]).map LiveBar.volume).sum := by
    rw [List.map_append, List.sum_append, ← add_assoc, ← h.sums.volume]
    simp [FormingBar.join]
  refine ⟨⟨h.sums.opens, ?_, ?_, ?_, hvolume, ?_, ?_, ?_⟩, hweighted⟩
  · rw [List.foldl_append, ← h.sums.high]
    rfl
  · rw [List.foldl_append, ← h.sums.low]
    rfl
  · rw [List.getLast?_append, List.getLast?_singleton]
    rfl
  · rw [List.foldl_append, ← h.sums.count]
    rfl
  · exact fun hnil => absurd hnil (by simp)
  · intro _ hpos
    rw [← hweighted]
    have hwap : (f.join five).bar.wap = (f.join five).weighted / (f.join five).bar.volume :=
      if_pos hpos
    rw [hwap, div_mul_cancel₀ _ hpos.ne']

/-! ## Folding one bar -/

lemma filter_snoc_of_pos {α : Type} {q : α → Bool} {l : List α} {a : α} (h : q a = true) :
    (l ++ [a]).filter q = l.filter q ++ [a] := by
  rw [List.filter_append, List.filter_cons_of_pos h, List.filter_nil]

lemma filter_snoc_of_neg {α : Type} {q : α → Bool} {l : List α} {a : α} (h : ¬q a = true) :
    (l ++ [a]).filter q = l.filter q := by
  rw [List.filter_append, List.filter_cons_of_neg h, List.filter_nil, List.append_nil]

def live (base : FormingBar) (p : List LiveBar) : List LiveBar :=
  p.filter (base.bar.timestamp ≤ ·.timestamp)

variable {p : List LiveBar}

lemma live_snoc_of_le (h : base.bar.timestamp ≤ five.timestamp) :
    base.live (p ++ [five]) = base.live p ++ [five] := filter_snoc_of_pos (decide_eq_true h)

lemma live_snoc_of_lt (h : five.timestamp < base.bar.timestamp) :
    base.live (p ++ [five]) = base.live p := filter_snoc_of_neg (by simpa using h)

/-- **Where a bar that is not a day's stands** after some five-second bars. -/
structure Clocked (base : FormingBar) (p : List LiveBar) (f : FormingBar) : Prop where
  seconds : f.seconds = base.seconds
  opened : f.openedAt = opening f.seconds f.bar.timestamp
  after : base.openedAt ≤ f.openedAt
  inside : ∀ b ∈ base.live p, opening f.seconds b.timestamp ≤ f.openedAt
  stands : (f.openedAt = base.openedAt ∧ f.bar.timestamp = base.bar.timestamp ∧
      f.Stands base.bar ((base.live p).filter (opening f.seconds ·.timestamp = f.openedAt))) ∨
    (f.openedAt ≠ base.openedAt ∧ f.bar.timestamp = f.openedAt ∧ ∃ first rest,
      (base.live p).filter (opening f.seconds ·.timestamp = f.openedAt) = first :: rest ∧
        f.Stands first rest)

lemma fold_clock (hday : f.seconds ≠ daySeconds) : f.fold five =
    if five.timestamp < f.bar.timestamp then none
    else some (f.take (opening f.seconds five.timestamp) five) := by
  rw [fold, if_neg hday]

theorem Clocked.fold (h : Clocked base p f) (hday : base.seconds ≠ daySeconds)
    (hasc : ∀ b ∈ p, b.timestamp ≤ five.timestamp) :
    (five.timestamp < base.bar.timestamp ∧ f.fold five = none ∧ Clocked base (p ++ [five]) f) ∨
      (base.bar.timestamp ≤ five.timestamp ∧ ∃ g, f.fold five = some g ∧
        g.openedAt = opening base.seconds five.timestamp ∧ f.bar.timestamp ≤ g.bar.timestamp ∧
          Clocked base (p ++ [five]) g) := by
  have hperiods := periods f.seconds
  rw [fold_clock (h.seconds ▸ hday)]
  -- the bar in hand opened no later than the last five-second bar it holds
  have hhand : five.timestamp < f.bar.timestamp ↔ five.timestamp < base.bar.timestamp := by
    rcases h.stands with ⟨-, hsame, -⟩ | ⟨-, hstamp, first, rest, hgroup, -⟩
    · rw [hsame]
    · have hfirst : first ∈ (base.live p).filter
          (opening f.seconds ·.timestamp = f.openedAt) := hgroup ▸ List.mem_cons_self
      obtain ⟨hlive, hopen⟩ := List.mem_filter.1 hfirst
      obtain ⟨hp, hbase⟩ := List.mem_filter.1 hlive
      have hle := hasc first hp
      have hbase := of_decide_eq_true hbase
      have hopen := of_decide_eq_true hopen
      have hself := hperiods.le first.timestamp
      rw [hstamp, ← hopen]
      omega
  by_cases hold : five.timestamp < base.bar.timestamp
  · refine Or.inl ⟨hold, if_pos (hhand.2 hold), ?_⟩
    have hsame := live_snoc_of_lt (p := p) hold
    exact ⟨h.seconds, h.opened, h.after, hsame ▸ h.inside, hsame ▸ h.stands⟩
  · have hlive := live_snoc_of_le (p := p) (not_lt.1 hold)
    have hnew : f.bar.timestamp ≤ five.timestamp := not_lt.1 fun hlt => hold (hhand.1 hlt)
    have hopens : f.openedAt ≤ opening f.seconds five.timestamp := by
      rw [h.opened]
      exact hperiods.mono _ _ hnew
    refine Or.inr ⟨not_lt.1 hold, _, if_neg (fun hlt => hold (hhand.1 hlt)), ?_⟩
    by_cases hsame : opening f.seconds five.timestamp = f.openedAt
    · have htake : f.take (opening f.seconds five.timestamp) five = f.join five :=
        if_neg (not_not.2 hsame)
      rw [htake]
      have hgroup : (base.live (p ++ [five])).filter
          (opening f.seconds ·.timestamp = f.openedAt) =
            (base.live p).filter (opening f.seconds ·.timestamp = f.openedAt) ++ [five] := by
        rw [hlive]
        exact filter_snoc_of_pos (decide_eq_true hsame)
      refine ⟨by rw [← h.seconds, hsame]; rfl, le_rfl, h.seconds, h.opened, h.after, ?_, ?_⟩
      · intro b hb
        rw [hlive] at hb
        rcases List.mem_append.1 hb with hb | hb
        · exact h.inside b hb
        · rw [List.mem_singleton.1 hb]
          exact hsame.le
      · rcases h.stands with ⟨hbase, hstamp, hstands⟩ | ⟨hbase, hstamp, first, rest, heq, hstands⟩
        · refine Or.inl ⟨hbase, hstamp, ?_⟩
          have hjoined := hstands.join five
          rw [← hgroup] at hjoined
          exact hjoined
        · refine Or.inr ⟨hbase, hstamp, first, rest ++ [five], ?_, hstands.join five⟩
          refine hgroup.trans ?_
          rw [heq]
          rfl
    · have htake : f.take (opening f.seconds five.timestamp) five =
          f.openWith (opening f.seconds five.timestamp) five := if_pos hsame
      rw [htake]
      have hlt : f.openedAt < opening f.seconds five.timestamp :=
        lt_of_le_of_ne hopens (Ne.symm hsame)
      have hlater : f.bar.timestamp < opening f.seconds five.timestamp :=
        hperiods.lt (h.opened ▸ hlt)
      have hgroup : (base.live (p ++ [five])).filter
          (opening f.seconds ·.timestamp = opening f.seconds five.timestamp) = [five] := by
        have hsnoc := filter_snoc_of_pos (l := base.live p) (a := five)
          (q := fun b => opening f.seconds b.timestamp = opening f.seconds five.timestamp)
          (decide_eq_true rfl)
        rw [hlive]
        refine hsnoc.trans ?_
        rw [List.filter_eq_nil_iff.2, List.nil_append]
        intro b hb hopen
        have hle := h.inside b hb
        rw [of_decide_eq_true hopen] at hle
        omega
      have hself : opening f.seconds (opening f.seconds five.timestamp) =
          opening f.seconds five.timestamp := hperiods.self five.timestamp
      refine ⟨by rw [← h.seconds]; rfl, hlater.le, h.seconds, hself.symm,
        h.after.trans hopens, ?_, Or.inr ⟨?_, rfl, five, [], hgroup, stands_openWith _ _ _⟩⟩
      · intro b hb
        rw [hlive] at hb
        rcases List.mem_append.1 hb with hb | hb
        · exact (h.inside b hb).trans hopens
        · rw [List.mem_singleton.1 hb]
          exact le_rfl
      · have hafter := h.after
        change opening f.seconds five.timestamp ≠ base.openedAt
        omega

lemma foldAll_append (p q : List LiveBar) (f : FormingBar) :
    f.foldAll (p ++ q) = ((((f.foldAll p).1).foldAll q).1,
      (f.foldAll p).2 ++ (((f.foldAll p).1).foldAll q).2) := by
  induction p generalizing f with
  | nil => rfl
  | cons five p ih =>
      rw [List.cons_append, foldAll, foldAll]
      cases f.fold five with
      | none => exact ih f
      | some g =>
          dsimp only
          rw [ih g]
          rfl

lemma foldAll_singleton (f : FormingBar) (five : LiveBar) : f.foldAll [five] =
    ((f.fold five).getD f, ((f.fold five).map fun g => (g.bar, g.dailySession)).toList) := by
  rw [foldAll]
  cases f.fold five <;> rfl

/-- A session a five-second bar opened at midnight ends at the next, or at the close the history
stated where that is between the two. -/
def EndsAt (closedAt : Option ℕ) (start finish : ℕ) : Prop :=
  (∀ close ∈ closedAt, start ≤ close → finish = min close (start + daySeconds)) ∧
    ((∀ close ∈ closedAt, close < start) → finish = start + daySeconds)

lemma rollOver_ends (f : FormingBar) (five : LiveBar) : ∃ finish,
    (f.rollOver five).dailySession = some (five.timestamp - five.timestamp % daySeconds, finish) ∧
      EndsAt f.closedAt (five.timestamp - five.timestamp % daySeconds) finish := by
  refine ⟨_, rfl, fun close hclose hle => ?_, fun hbefore => ?_⟩
  · rw [Option.mem_def.1 hclose, Option.filter_some, if_pos (decide_eq_true hle)]
    rfl
  · cases hclosed : f.closedAt with
    | none => rfl
    | some close =>
        have hlt := hbefore close hclosed
        rw [Option.filter_some, if_neg fun hle => absurd (of_decide_eq_true hle) (not_le.2 hlt)]
        rfl

/-- **Where a day's bar stands** after some five-second bars. -/
structure Dated (base : FormingBar) (p : List LiveBar) (f : FormingBar) : Prop where
  seconds : f.seconds = base.seconds
  closed : f.closedAt = base.closedAt
  folded : (base.foldAll p).1 = f
  stands : ∃ start finish, f.dailySession.getD (0, 0) = (start, finish) ∧ f.openedAt = start ∧
    f.bar.timestamp = start ∧
    ((f.dailySession = base.dailySession ∧ base.bar.timestamp = start ∧
        f.Stands base.bar (base.live p) ∧ ∀ b ∈ base.live p, b.timestamp < finish) ∨
      ∃ q first rest, p = q ++ first :: rest ∧ base.bar.timestamp ≤ first.timestamp ∧
        start = first.timestamp - first.timestamp % daySeconds ∧ f.Stands first rest ∧
          (∀ b ∈ rest, b.timestamp < finish) ∧ f.dailySession.isSome ∧
            ((base.foldAll q).1.dailySession.getD (0, 0)).2 ≤ first.timestamp ∧
              EndsAt base.closedAt start finish)

lemma midnight_ne (t : ℕ) : t - t % daySeconds ≠ 2 ^ 32 - 1 := by
  unfold daySeconds
  omega

theorem Dated.fold (h : Dated base p f) (hday : base.seconds = daySeconds)
    (hasc : ∀ b ∈ p, b.timestamp ≤ five.timestamp) :
    (five.timestamp < base.bar.timestamp ∧ f.fold five = none ∧ Dated base (p ++ [five]) f) ∨
      (base.bar.timestamp ≤ five.timestamp ∧
        ∃ g, f.fold five = some g ∧ Dated base (p ++ [five]) g) := by
  obtain ⟨start, finish, hsession, hopened, hstamp, hstands⟩ := h.stands
  have hfold : f.fold five = if five.timestamp < start then none else
      some ((if finish ≤ five.timestamp then f.rollOver five else f).take
        (((if finish ≤ five.timestamp then f.rollOver five else f).dailySession.map
          Prod.fst).getD 0) five) := by
    rw [FormingBar.fold, if_pos (h.seconds.trans hday), hsession]
  have hfolded : (base.foldAll (p ++ [five])).1 = (f.fold five).getD f := by
    rw [foldAll_append, foldAll_singleton, h.folded]
  rw [hfold] at hfolded ⊢
  by_cases hold : five.timestamp < start
  · rw [if_pos hold] at hfolded ⊢
    rcases hstands with ⟨hbase, hbar, hstands, hbefore⟩ | ⟨q, first, rest, rfl, -, hstart, -, -⟩
    · have hlt : five.timestamp < base.bar.timestamp := hbar ▸ hold
      have hsame := live_snoc_of_lt (p := p) hlt
      exact Or.inl ⟨hlt, rfl, h.seconds, h.closed, hfolded, start, finish, hsession, hopened, hstamp,
        Or.inl ⟨hbase, hbar, hsame ▸ hstands, hsame ▸ hbefore⟩⟩
    · have hle := hasc first (List.mem_append_right _ List.mem_cons_self)
      omega
  · rw [if_neg hold, Option.getD_some] at hfolded
    rw [if_neg hold]
    have hlate : base.bar.timestamp ≤ five.timestamp := by
      rcases hstands with ⟨-, hbar, -, -⟩ | ⟨q, first, rest, rfl, hfirst, -, -, -⟩
      · rw [hbar]
        exact not_lt.1 hold
      · exact hfirst.trans (hasc first (List.mem_append_right _ List.mem_cons_self))
    refine Or.inr ⟨hlate, _, rfl, ?_⟩
    by_cases hended : finish ≤ five.timestamp
    · rw [if_pos hended] at hfolded ⊢
      have htake : (f.rollOver five).take
          (((f.rollOver five).dailySession.map Prod.fst).getD 0) five =
            (f.rollOver five).openWith (five.timestamp - five.timestamp % daySeconds) five :=
        if_pos (midnight_ne five.timestamp)
      obtain ⟨finish', hrolled, hends⟩ := f.rollOver_ends five
      rw [htake] at hfolded ⊢
      refine ⟨h.seconds, h.closed, hfolded, _, finish', congrArg (Option.getD · (0, 0)) hrolled, rfl,
        rfl, Or.inr ⟨p, five, [], rfl, hlate, rfl, stands_openWith _ _ _,
          fun _ hb => absurd hb List.not_mem_nil, rfl, ?_, h.closed ▸ hends⟩⟩
      rw [h.folded, hsession]
      exact hended
    · rw [if_neg hended] at hfolded ⊢
      have hfirst : (f.dailySession.map Prod.fst).getD 0 = start := by
        cases hnone : f.dailySession with
        | none =>
            rw [hnone] at hsession
            exact congrArg Prod.fst hsession
        | some session =>
            rw [hnone] at hsession
            exact congrArg Prod.fst hsession
      have htake : f.take ((f.dailySession.map Prod.fst).getD 0) five = f.join five := by
        rw [hfirst, take, if_neg]
        rw [hopened]
        exact not_not.2 rfl
      rw [htake] at hfolded ⊢
      refine ⟨h.seconds, h.closed, hfolded, start, finish, hsession, hopened, hstamp, ?_⟩
      rcases hstands with ⟨hbase, hbar, hstands, hbefore⟩ |
        ⟨q, first, rest, rfl, hafter, hstart, hstands, hbefore, hsome, hpast, hends⟩
      · have hlive := live_snoc_of_le (p := p) hlate
        refine Or.inl ⟨hbase, hbar, hlive ▸ hstands.join five, ?_⟩
        intro b hb
        rw [hlive] at hb
        rcases List.mem_append.1 hb with hb | hb
        · exact hbefore b hb
        · rw [List.mem_singleton.1 hb]
          exact not_le.1 hended
      · refine Or.inr ⟨q, first, rest ++ [five], by simp, hafter, hstart, hstands.join five, ?_,
          hsome, hpast, hends⟩
        intro b hb
        rcases List.mem_append.1 hb with hb | hb
        · exact hbefore b hb
        · rw [List.mem_singleton.1 hb]
          exact not_le.1 hended

/-! ## Folding many -/

def Ascending (p : List LiveBar) : Prop := p.Pairwise fun a b => a.timestamp ≤ b.timestamp

lemma Ascending.of_snoc (h : Ascending (p ++ [five])) :
    Ascending p ∧ ∀ b ∈ p, b.timestamp ≤ five.timestamp := by
  obtain ⟨hp, -, hlast⟩ := List.pairwise_append.1 h
  exact ⟨hp, fun b hb => hlast b hb five (List.mem_singleton.2 rfl)⟩

/-- **A bar that is not a day's stands so after every five-second bar.** -/
theorem clocked_foldAll (hday : base.seconds ≠ daySeconds) (hbase : Clocked base [] base) :
    ∀ {p : List LiveBar}, Ascending p → Clocked base p (base.foldAll p).1 := by
  intro p
  induction p using List.reverseRecOn with
  | nil => exact fun _ => hbase
  | append_singleton p five ih =>
      intro hasc
      obtain ⟨hp, hlast⟩ := hasc.of_snoc
      rw [foldAll_append, foldAll_singleton]
      rcases (ih hp).fold hday hlast with ⟨-, hfold, hsame⟩ | ⟨-, g, hfold, -, -, hg⟩
      · rw [hfold]
        exact hsame
      · rw [hfold]
        exact hg

theorem dated_foldAll (hday : base.seconds = daySeconds) (hbase : Dated base [] base) :
    ∀ {p : List LiveBar}, Ascending p → Dated base p (base.foldAll p).1 := by
  intro p
  induction p using List.reverseRecOn with
  | nil => exact fun _ => hbase
  | append_singleton p five ih =>
      intro hasc
      obtain ⟨hp, hlast⟩ := hasc.of_snoc
      rw [foldAll_append, foldAll_singleton]
      rcases (ih hp).fold hday hlast with ⟨-, hfold, hsame⟩ | ⟨-, g, hfold, hg⟩
      · rw [hfold]
        exact hsame
      · rw [hfold]
        exact hg

/-- A bar of the history that the bar still forming can go on from. -/
def Goes (seconds : ℕ) (b : HistoryBar) (start : ℕ) : Prop :=
  b.start = some start ∧ (seconds = daySeconds → ∃ finish ∈ b.finish, start < finish)

structure At (f : FormingBar) (b : HistoryBar) (start : ℕ) : Prop where
  bar : f.bar = b.standing start
  weighted : f.weighted = b.wap * b.volume
  clock : f.seconds ≠ daySeconds → f.openedAt = opening f.seconds start
  day : f.seconds = daySeconds → f.openedAt = start ∧
    ∃ finish ∈ b.finish, start < finish ∧ f.dailySession = some (start, finish) ∧
      f.closedAt = some finish

lemma At.heldFrom {b : HistoryBar} {start : ℕ} (h : f.At b start) : f.heldFrom = start := by
  unfold FormingBar.heldFrom
  split_ifs with hday
  · obtain ⟨-, finish, -, -, hsession, -⟩ := h.day hday
    rw [hsession]
    rfl
  · rw [h.bar]
    rfl

lemma heldFrom_blank (seconds : ℕ) : FormingBar.heldFrom { seconds } = 0 := by
  unfold heldFrom
  split_ifs <;> rfl

lemma goOn_cases (f : FormingBar) (b : HistoryBar) :
    (f.goOn b).seconds = f.seconds ∧ (f.goOn b).queued = f.queued ∧
      ((∃ start, Goes f.seconds b start ∧ f.heldFrom ≤ start ∧ (f.goOn b).At b start) ∨
        (f.goOn b = f ∧ ∀ start, Goes f.seconds b start → start < f.heldFrom)) := by
  cases hstart : b.start.filter (f.heldFrom ≤ ·) with
  | none =>
      have hsame : f.goOn b = f := by
        unfold goOn
        rw [hstart]
      rw [hsame]
      refine ⟨rfl, rfl, Or.inr ⟨rfl, fun start hgoes => ?_⟩⟩
      rw [hgoes.1, Option.filter_some] at hstart
      split_ifs at hstart with hle
      simpa using hle
  | some start =>
      obtain ⟨hin, hle⟩ := Option.filter_eq_some_iff.1 hstart
      have hle := of_decide_eq_true hle
      by_cases hday : f.seconds = daySeconds
      · cases hfinish : b.finish.filter (start < ·) with
        | none =>
            have hsame : f.goOn b = f := by
              unfold goOn
              rw [hstart]
              dsimp only
              rw [if_pos hday, hfinish]
            rw [hsame]
            refine ⟨rfl, rfl, Or.inr ⟨rfl, fun start' hgoes => ?_⟩⟩
            obtain ⟨hin', hday'⟩ := hgoes
            obtain ⟨finish, hf, hlt⟩ := hday' hday
            rw [hin] at hin'
            cases hin'
            rw [Option.mem_def.1 hf, Option.filter_some, if_pos (decide_eq_true hlt)] at hfinish
            cases hfinish
        | some finish =>
            obtain ⟨hf, hlt⟩ := Option.filter_eq_some_iff.1 hfinish
            have hgo : f.goOn b = { f with
                openedAt := start
                dailySession := some (start, finish)
                closedAt := some finish
                bar := b.standing start
                weighted := b.wap * b.volume } := by
              unfold goOn
              rw [hstart]
              dsimp only
              rw [if_pos hday, hfinish]
            rw [hgo]
            exact ⟨rfl, rfl, Or.inl ⟨start, ⟨hin, fun _ => ⟨finish, hf, of_decide_eq_true hlt⟩⟩,
              hle, rfl, rfl, fun hno => absurd hday hno,
              fun _ => ⟨rfl, finish, hf, of_decide_eq_true hlt, rfl, rfl⟩⟩⟩
      · have hgo : f.goOn b = { f with
            openedAt := opening f.seconds start
            bar := b.standing start
            weighted := b.wap * b.volume } := by
          unfold goOn
          rw [hstart]
          dsimp only
          rw [if_neg hday]
        rw [hgo]
        exact ⟨rfl, rfl, Or.inl ⟨start, ⟨hin, fun hyes => absurd hyes hday⟩, hle, rfl, rfl,
          fun _ => rfl, fun hyes => absurd hyes hday⟩⟩

structure Newest (f : FormingBar) (bars : List HistoryBar) : Prop where
  latest : ∀ b ∈ bars, ∀ start, Goes f.seconds b start → start ≤ f.heldFrom
  own : (f = { seconds := f.seconds } ∧ ∀ b ∈ bars, ∀ start, ¬Goes f.seconds b start) ∨
    ∃ b ∈ bars, ∃ start, Goes f.seconds b start ∧ f.At b start

/-- **The history's newest bar is in hand, in whatever order its pages came.** -/
theorem newest_foldl (seconds : ℕ) (bars : List HistoryBar) :
    (bars.foldl goOn { seconds }).seconds = seconds ∧
      (bars.foldl goOn { seconds }).queued = [] ∧ (bars.foldl goOn { seconds }).Newest bars := by
  induction bars using List.reverseRecOn with
  | nil =>
      exact ⟨rfl, rfl, fun _ h => absurd h List.not_mem_nil,
        Or.inl ⟨rfl, fun _ h => absurd h List.not_mem_nil⟩⟩
  | append_singleton bars b ih =>
      obtain ⟨hseconds, hqueued, hnewest⟩ := ih
      rw [List.foldl_append]
      change ((bars.foldl goOn { seconds }).goOn b).seconds = seconds ∧ _
      obtain ⟨hkeep, hkeep', hcases⟩ := goOn_cases (bars.foldl goOn { seconds }) b
      refine ⟨hkeep.trans hseconds, hkeep'.trans hqueued, ?_⟩
      change ((bars.foldl goOn { seconds }).goOn b).Newest (bars ++ [b])
      rcases hcases with ⟨start, hgoes, hle, hat⟩ | ⟨hsame, hbelow⟩
      · refine ⟨?_, Or.inr ⟨b, List.mem_append_right _ (List.mem_singleton.2 rfl), start, ?_, hat⟩⟩
        · intro b' hb' start' hgoes'
          rw [hat.heldFrom]
          rw [hkeep] at hgoes'
          rcases List.mem_append.1 hb' with hb' | hb'
          · exact (hnewest.latest b' hb' start' hgoes').trans hle
          · rw [List.mem_singleton.1 hb', Goes, hgoes.1] at hgoes'
            exact (Option.some.inj hgoes'.1).ge
        · rw [hkeep]
          exact hgoes
      · rw [hsame]
        refine ⟨?_, ?_⟩
        · intro b' hb' start' hgoes'
          rcases List.mem_append.1 hb' with hb' | hb'
          · exact hnewest.latest b' hb' start' hgoes'
          · rw [List.mem_singleton.1 hb'] at hgoes'
            exact (hbelow start' hgoes').le
        · rcases hnewest.own with ⟨hblank, hnone⟩ | ⟨b', hb', start', hgoes', hat⟩
          · refine Or.inl ⟨hblank, fun b' hb' start' hgoes' => ?_⟩
            rcases List.mem_append.1 hb' with hb' | hb'
            · exact hnone b' hb' start' hgoes'
            · rw [List.mem_singleton.1 hb'] at hgoes'
              have hlt := hbelow start' hgoes'
              rw [hblank, heldFrom_blank] at hlt
              omega
          · exact Or.inr ⟨b', List.mem_append_left _ hb', start', hgoes', hat⟩

/-- The bar in hand is as the history left it: its newest bar's, or none's. -/
structure Ready (f : FormingBar) : Prop where
  weighted : f.weighted = f.bar.wap * f.bar.volume
  clock : f.seconds ≠ daySeconds → f.openedAt = opening f.seconds f.bar.timestamp
  day : f.seconds = daySeconds → f.openedAt = f.bar.timestamp ∧
    (f.dailySession.getD (0, 0)).1 = f.bar.timestamp

lemma At.ready {b : HistoryBar} {start : ℕ} (h : f.At b start) : f.Ready where
  weighted := by
    rw [h.weighted, h.bar]
    rfl
  clock := fun hday => by
    rw [h.clock hday, h.bar]
    rfl
  day := fun hday => by
    obtain ⟨hopened, finish, -, -, hsession, -⟩ := h.day hday
    rw [hopened, hsession, h.bar]
    exact ⟨rfl, rfl⟩

lemma Ready.goOn (h : f.Ready) (b : HistoryBar) : (f.goOn b).Ready := by
  obtain ⟨-, -, ⟨start, -, -, hat⟩ | ⟨hsame, -⟩⟩ := goOn_cases f b
  · exact hat.ready
  · rw [hsame]
    exact h

lemma Ready.stands (h : f.Ready) : f.Stands f.bar [] where
  sums := ⟨rfl, rfl, rfl, rfl, (add_zero _).symm, rfl, fun _ => rfl, fun h => absurd rfl h⟩
  weighted := h.weighted.trans (add_zero _).symm

lemma Ready.clocked (h : base.Ready) (hday : base.seconds ≠ daySeconds) :
    Clocked base [] base where
  seconds := rfl
  opened := h.clock hday
  after := le_rfl
  inside := fun _ hb => absurd hb List.not_mem_nil
  stands := Or.inl ⟨rfl, rfl, h.stands⟩

lemma Ready.dated (h : base.Ready) (hday : base.seconds = daySeconds) : Dated base [] base := by
  obtain ⟨hopened, hsession⟩ := h.day hday
  exact ⟨rfl, rfl, rfl, base.bar.timestamp, (base.dailySession.getD (0, 0)).2,
    Prod.ext hsession rfl, hopened, rfl,
    Or.inl ⟨rfl, rfl, h.stands, fun _ hb => absurd hb List.not_mem_nil⟩⟩

/-! ## What waits for the history -/

lemma goOn_queued (f : FormingBar) (q : List LiveBar) (b : HistoryBar) :
    ({ f with queued := q } : FormingBar).goOn b = { f.goOn b with queued := q } := by
  have hheld : ({ f with queued := q } : FormingBar).heldFrom = f.heldFrom := rfl
  unfold goOn
  rw [hheld]
  cases b.start.filter (f.heldFrom ≤ ·) with
  | none => rfl
  | some start =>
      dsimp only
      split_ifs
      · cases b.finish.filter (start < ·) <;> rfl
      · rfl

lemma foldl_goOn_queued (bars : List HistoryBar) (f : FormingBar) (q : List LiveBar) :
    bars.foldl goOn { f with queued := q } = { bars.foldl goOn f with queued := q } := by
  induction bars generalizing f with
  | nil => rfl
  | cons b bars ih => rw [List.foldl_cons, List.foldl_cons, goOn_queued, ih]

lemma queued_take (f : FormingBar) (openedAt : ℕ) (five : LiveBar) :
    (f.take openedAt five).queued = f.queued := by
  unfold take
  split_ifs <;> rfl

lemma queued_fold (h : f.fold five = some g) : g.queued = f.queued := by
  unfold fold at h
  dsimp only at h
  split_ifs at h <;> rw [← Option.some.inj h, queued_take]
  rfl

lemma queued_foldAll (p : List LiveBar) (f : FormingBar) : (f.foldAll p).1.queued = f.queued := by
  induction p generalizing f with
  | nil => rfl
  | cons five p ih =>
      rw [foldAll]
      cases hfold : f.fold five with
      | none => exact ih f
      | some g => exact (ih g).trans (queued_fold hfold)

lemma clear_queued (h : f.queued = []) : ({ f with queued := [] } : FormingBar) = f := by
  cases f
  cases h
  rfl

end FormingBar

/-! ## Runs -/

namespace KeptUp

def new (seconds : ℕ) : KeptUp := { forming := { seconds } }

/-- What the five-second bars are folded over: the newest bar of the history. -/
def base (seconds : ℕ) (es : List BarArrival) : FormingBar :=
  (historyOf es).foldl FormingBar.goOn { seconds }

lemma along_snoc {k : KeptUp} {es : List BarArrival} {e : BarArrival}
    (h : Runs.Along step Arrives k (es ++ [e])) : Arrives (Runs.run step k es) e := by
  induction es generalizing k with
  | nil => exact h.1
  | cons e' es ih => exact ih h.2

lemma run_snoc (k : KeptUp) (es : List BarArrival) (e : BarArrival) :
    Runs.run step k (es ++ [e]) = (Runs.run step k es).step e := List.foldl_append

structure Stays (seconds : ℕ) (es : List BarArrival) (k : KeptUp) : Prop where
  out : (k.pushed = [] ∧ k.forming = { base seconds es with queued := fivesOf es }) ∨
    (k.held = false ∧ k.forming = ((base seconds es).foldAll (fivesOf es)).1 ∧
      k.pushed = ((base seconds es).foldAll (fivesOf es)).2)

lemma base_queued (seconds : ℕ) (es : List BarArrival) : (base seconds es).queued = [] :=
  (FormingBar.newest_foldl seconds (historyOf es)).2.1

/-- **However the history and the five-second bars arrive**, what is pushed is their fold. -/
theorem stays (seconds : ℕ) (es : List BarArrival) :
    Runs.Along step Arrives (new seconds) es →
      Stays seconds es (Runs.run step (new seconds) es) := by
  induction es using List.reverseRecOn with
  | nil => exact fun _ => ⟨Or.inl ⟨rfl, rfl⟩⟩
  | append_singleton es e ih =>
      intro hrun
      have hstays := (ih hrun.of_append).out
      have harrives := along_snoc hrun
      rw [run_snoc]
      generalize Runs.run step (new seconds) es = k at hstays harrives
      cases e with
      | page bars last =>
          have hbase : base seconds (es ++ [.page bars last]) =
              bars.foldl FormingBar.goOn (base seconds es) := by
            unfold base historyOf
            rw [List.flatMap_append, List.foldl_append, List.flatMap_singleton]
          have hfives : fivesOf (es ++ [.page bars last]) = fivesOf es := by
            unfold fivesOf
            rw [List.filterMap_append]
            exact List.append_nil _
          rcases hstays with ⟨hpushed, hforming⟩ | ⟨hheld, -, -⟩
          · refine ⟨Or.inl ⟨hpushed, ?_⟩⟩
            rw [hbase, hfives, ← FormingBar.foldl_goOn_queued, ← hforming]
            rfl
          · rw [Arrives, hheld] at harrives
            cases harrives
      | five bar =>
          have hbase : base seconds (es ++ [.five bar]) = base seconds es := by
            unfold base historyOf
            rw [List.flatMap_append, List.flatMap_singleton]
            exact congrArg (List.foldl _ _) (List.append_nil _)
          have hfives : fivesOf (es ++ [.five bar]) = fivesOf es ++ [bar] := by
            unfold fivesOf
            rw [List.filterMap_append]
            rfl
          constructor
          rw [hbase, hfives]
          cases hheld : k.held with
          | true =>
              have hstep : k.step (.five bar) =
                  { k with forming := { k.forming with queued := k.forming.queued ++ [bar] } } :=
                if_pos hheld
              rcases hstays with ⟨hpushed, hforming⟩ | ⟨hfalse, -, -⟩
              · rw [hstep]
                refine Or.inl ⟨hpushed, ?_⟩
                rw [hforming]
              · rw [hheld] at hfalse
                cases hfalse
          | false =>
              have hstep : k.step (.five bar) = { k with
                  forming := (FormingBar.foldAll { k.forming with queued := [] }
                    (k.forming.queued ++ [bar])).1
                  pushed := k.pushed ++ (FormingBar.foldAll { k.forming with queued := [] }
                    (k.forming.queued ++ [bar])).2 } :=
                if_neg (by rw [hheld]; exact Bool.false_ne_true)
              rw [hstep]
              refine Or.inr ⟨hheld, ?_⟩
              rcases hstays with ⟨hpushed, hforming⟩ | ⟨-, hforming, hpushed⟩
              · have hclear := FormingBar.clear_queued (base_queued seconds es)
                rw [hforming, hpushed]
                dsimp only
                rw [hclear]
                exact ⟨rfl, rfl⟩
              · have hnone : k.forming.queued = [] := by
                  rw [hforming, FormingBar.queued_foldAll]
                  exact base_queued seconds es
                dsimp only
                rw [FormingBar.clear_queued hnone, hnone, List.nil_append, hforming, hpushed,
                  FormingBar.foldAll_append]
                exact ⟨rfl, rfl⟩

end KeptUp

/-! ## What is asked -/

/-- **What one five-second bar does**, behind others: it is passed over where it is older than the
bar the history left in hand, and otherwise the bar it belongs to is pushed as it stands. -/
structure FiveTold (base : FormingBar) (p : List LiveBar) (five : LiveBar) : Prop where
  passed : five.timestamp < base.bar.timestamp → (base.foldAll p).1.fold five = none
  /-- Not a day's: the bar of the five-second bars that fall in its period, and of the history's
  bar where that is its period's. -/
  clock : base.seconds ≠ daySeconds → base.bar.timestamp ≤ five.timestamp →
    ∃ g, (base.foldAll p).1.fold five = some g ∧
      (opening base.seconds five.timestamp = base.openedAt →
        g.bar.timestamp = base.bar.timestamp ∧ Sums g.bar base.bar
          ((base.live (p ++ [five])).filter
            (opening base.seconds ·.timestamp = opening base.seconds five.timestamp))) ∧
      (opening base.seconds five.timestamp ≠ base.openedAt →
        g.bar.timestamp = opening base.seconds five.timestamp ∧ ∃ first rest,
          (base.live (p ++ [five])).filter
            (opening base.seconds ·.timestamp = opening base.seconds five.timestamp) =
              first :: rest ∧ Sums g.bar first rest)
  /-- A day's: the history's session until it ends, and then the session that the first
  five-second bar past the end of the one before opened at its midnight, which ends at the next or at
  the history's close between the two. -/
  day : base.seconds = daySeconds → base.bar.timestamp ≤ five.timestamp →
    ∃ g start finish, (base.foldAll p).1.fold five = some g ∧
      g.dailySession = some (start, finish) ∧ g.bar.timestamp = start ∧
      ((base.dailySession = some (start, finish) ∧ Sums g.bar base.bar (base.live (p ++ [five])) ∧
          ∀ b ∈ base.live (p ++ [five]), b.timestamp < finish) ∨
        ∃ q first rest, p ++ [five] = q ++ first :: rest ∧
          ((base.foldAll q).1.dailySession.getD (0, 0)).2 ≤ first.timestamp ∧
            start = first.timestamp - first.timestamp % daySeconds ∧
              FormingBar.EndsAt base.closedAt start finish ∧ Sums g.bar first rest ∧
                ∀ b ∈ rest, b.timestamp < finish)

lemma FormingBar.told {base : FormingBar} (h : base.Ready) {p : List LiveBar} {five : LiveBar}
    (hasc : FormingBar.Ascending (p ++ [five])) : FiveTold base p five := by
  obtain ⟨hp, hlast⟩ := hasc.of_snoc
  by_cases hday : base.seconds = daySeconds
  · have hdated := FormingBar.dated_foldAll hday (h.dated hday) hp
    rcases hdated.fold hday hlast with ⟨hlt, hfold, -⟩ | ⟨hle, g, hfold, hg⟩
    · exact ⟨fun _ => hfold, fun hno => absurd hday hno, fun _ hle => absurd hlt (not_lt.2 hle)⟩
    · refine ⟨fun hlt => absurd hlt (not_lt.2 hle), fun hno => absurd hday hno, fun _ _ => ?_⟩
      obtain ⟨start, finish, hsession, -, hstamp, hstands⟩ := hg.stands
      -- no session is before any five-second bar
      have hsome : g.dailySession = some (start, finish) := by
        cases hnone : g.dailySession with
        | some session =>
            rw [hnone] at hsession
            exact congrArg some hsession
        | none =>
            rcases hstands with ⟨-, -, -, hbefore⟩ | ⟨q, first, rest, -, -, -, -, -, hsome, -⟩
            · have hfive : five ∈ base.live (p ++ [five]) := by
                rw [FormingBar.live_snoc_of_le hle]
                exact List.mem_append_right _ (List.mem_singleton.2 rfl)
              have hlt := hbefore five hfive
              rw [hnone] at hsession
              cases hsession
              omega
            · rw [hnone] at hsome
              cases hsome
      refine ⟨g, start, finish, hfold, hsome, hstamp, ?_⟩
      rcases hstands with ⟨hbase, -, hstands, hbefore⟩ |
        ⟨q, first, rest, heq, -, hstart, hstands, hbefore, -, hpast, hends⟩
      · exact Or.inl ⟨hbase ▸ hsome, hstands.sums, hbefore⟩
      · exact Or.inr ⟨q, first, rest, heq, hpast, hstart, hends, hstands.sums, hbefore⟩
  · have hclocked := FormingBar.clocked_foldAll hday (h.clocked hday) hp
    rcases hclocked.fold hday hlast with ⟨hlt, hfold, -⟩ | ⟨hle, g, hfold, hopen, -, hg⟩
    · exact ⟨fun _ => hfold, fun _ hle => absurd hlt (not_lt.2 hle), fun hyes => absurd hyes hday⟩
    · refine ⟨fun hlt => absurd hlt (not_lt.2 hle), fun _ _ => ⟨g, hfold, ?_⟩,
        fun hyes => absurd hyes hday⟩
      have hstands := hg.stands
      rw [hg.seconds, hopen] at hstands
      rcases hstands with ⟨hsame, hstamp, hstands⟩ | ⟨hother, hstamp, first, rest, heq, hstands⟩
      · exact ⟨fun _ => ⟨hstamp, hstands.sums⟩, fun hne => absurd hsame hne⟩
      · exact ⟨fun hsame => absurd hsame hother,
          fun _ => ⟨hstamp, first, rest, heq, hstands.sums⟩⟩

end IbkrDx
