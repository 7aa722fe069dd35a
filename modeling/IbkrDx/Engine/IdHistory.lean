import IbkrDx.Protocol.Datetime

/-!
# A request asked along an id history

A contract's id history names the id it traded as on each day, newest stretch first.  A request for
bars is asked along it, `along` of `control/historical/mod.rs`: one query a stretch, bounded to the
stretch's days.  For bars longer than a day the history is split first, `split_at_actions` of
`control/adjustments.rs`.  Days are texts of eight digits, and `-1` where a bound is open.

* **`along_covers`** — the windows cover the request once, each day under the id it traded as.

The moment a request's end states, read on the machine's clocks, and the product of a count of days
with a fraction are parameters, `requestEnd` and `stretched`.
-/

namespace IbkrDx

open Calendar (Date)

/-! ## Stamps -/

/-- A date as `%Y%m%d` writes it: a year below nought has its sign. -/
def writeDate (d : Date) : Bytes :=
  if 0 ≤ d.year then d.text
  else 45 :: (Decimal.low 4 (-d.year).toNat ++ Decimal.low 2 d.month.toNat ++
    Decimal.low 2 d.day.toNat)

/-- The first and the last millisecond a timestamp can be. -/
def minMillis : ℤ := -377705023201000
def maxMillis : ℤ := 253402207200999

/-- An instant on GMT, nothing where it is past what a timestamp can be. -/
def stampAt (ms : ℤ) : Bytes :=
  if minMillis ≤ ms ∧ ms ≤ maxMillis then
    writeDate (Calendar.dateOf (ms / msDay)) ++ 45 :: writeTime (ms % msDay / 1000)
  else []

def dayOf (ms : ℤ) : Bytes := (stampAt ms).take 8

def dayMs (day : Bytes) : Option ℤ := ibDatetimeToUnixMillis (day ++ ascii "-00:00:00")

def dated (day : Bytes) : Bool := day.length = 8 ∧ (dayMs day).isSome

/-! ## Requests -/

inductive BarSize where
  | sec1 | sec5 | sec10 | sec15 | sec30
  | min1 | min2 | min3 | min4 | min5 | min10 | min15 | min20 | min30
  | hour1 | hour2 | hour3 | hour4 | hour8
  | day1 | week1 | month1 | month3 | year1
  deriving DecidableEq

def BarSize.counted : BarSize → Option ℤ
  | day1 => some msDay
  | week1 => some (7 * msDay)
  | month1 => some (31 * msDay)
  | month3 => some (93 * msDay)
  | year1 => some (365 * msDay)
  | _ => none

/-- What of a request for bars decides how it is asked along a history. -/
structure HistoricalRequest where
  conId : ℕ
  includeExpired : Bool
  endTime : Bytes
  duration : Bytes
  barSize : BarSize

def lengthUnits : List (Bytes × ℤ) :=
  [(ascii "S", 1000), (ascii "d", 86400000), (ascii "W", 604800000), (ascii "m", 2678400000),
    (ascii "y", 31536000000)]

def readLength (length : Bytes) : Option (ℤ × Bytes × ℤ) := do
  let unit ← lengthUnits.find? fun unit => unit.1 <:+ length
  let count ← parseInt (((splitOnce (· = 32) length).map (·.1)).getD length)
  return (count, unit)

/-- One stretch of an id history: eight digits for a day, `-1` for a bound left open. -/
structure IdStretch where
  conId : ℕ
  start : Bytes
  endDay : Bytes
  symbol : String
  exchange : String

def unbounded : Bytes := ascii "-1"

/-- One query of a request asked along a history. -/
structure Stretch where
  conId : ℕ
  liveConId : Option ℕ
  expired : Bool
  startTime : Option Bytes
  endTime : Option Bytes
  timeLength : Option Bytes
  cutoffDate : Option Bytes
  underlying : Option String
  listing : Option String

def noListing : List String := ["BASKET", "VALUE", "CORPACT"]

/-- The bars a series of a day or longer still wants. -/
structure BarsWanted where
  left : ℤ
  reachesTo : Bytes
  unit : Bytes × ℤ
  bar : ℤ
  deriving DecidableEq

/-- A request that cannot be bounded along a history: its end and its length, which the refusal
quotes. -/
structure Unreadable where
  endTime : Bytes
  duration : Bytes
  deriving DecidableEq

/-! ## Along the history -/

section

variable (requestEnd : Bytes → Option ℤ) (stretched : ℤ → ℤ)

namespace HistoricalRequest

/-- The refusal of a request whose end or length cannot be read. -/
def unreadable (req : HistoricalRequest) : Unreadable := ⟨req.endTime, req.duration⟩

def ends (req : HistoricalRequest) : Except Unreadable ℤ :=
  (requestEnd req.endTime).elim (.error req.unreadable) .ok

/-- How far back it reaches: a length in days counted in calendar days. -/
def back (req : HistoricalRequest) : Except Unreadable ℤ :=
  match readLength req.duration with
  | none => .error req.unreadable
  | some (count, suffix, ms) =>
      .ok (i64 ((if suffix = ascii "d" then stretched count else count) * ms))

def endDay (req : HistoricalRequest) : Except Unreadable ℤ := do
  let ms ← req.ends requestEnd
  return ms / msDay * msDay

end HistoricalRequest

def leftOut (req : HistoricalRequest) (n : ℕ) (stretch : IdStretch) : Except Unreadable Bool :=
  let behind : Except Unreadable Bool :=
    if dated stretch.start then do
      let last ← req.endDay requestEnd
      return dayOf last < stretch.start
    else return false
  if n = 0 then behind
  else if stretch.endDay = unbounded then return true
  else do
    let last ← req.endDay requestEnd
    let back ← req.back stretched
    if stretch.endDay < dayOf (i64 (last - back)) then return true else behind

def askedWhole (req : HistoricalRequest) (n : ℕ) (stretch : IdStretch) : Stretch where
  conId := stretch.conId
  liveConId := if stretch.conId = req.conId then none else some req.conId
  expired := req.includeExpired || (1 ≤ n && stretch.conId != req.conId)
  startTime := none
  endTime := none
  timeLength := some req.duration
  cutoffDate := if dated stretch.start then some stretch.start else none
  underlying := if stretch.symbol = "" then none else some stretch.symbol
  listing := if stretch.exchange = "" ∨ stretch.exchange ∈ noListing then none
    else some stretch.exchange

/-- A stretch that ends before the day the request does, bounded to its own days; nothing where
none of them is in the request. -/
def bounded (req : HistoricalRequest) (n : ℕ) (stretch : IdStretch) :
    Except Unreadable (Option Stretch) := do
  let ends ← req.ends requestEnd
  let back ← req.back stretched
  let reach := i64 (ends - back)
  let start := ((dayMs stretch.start).map fun start => max start reach).getD reach
  match dayMs stretch.endDay with
  | none => .error req.unreadable
  | some last =>
      let stop := min (last + msDay) ends
      if stop ≤ start then return none
      else
        return (some { askedWhole req n stretch with
          startTime := some (stampAt start)
          endTime := some (stampAt stop)
          timeLength := none })

def askedAs (req : HistoricalRequest) (n : ℕ) (stretch : IdStretch) :
    Except Unreadable (Option Stretch) :=
  if n = 0 then return some (askedWhole req n stretch)
  else do
    let last ← req.endDay requestEnd
    if stretch.endDay < dayOf last then bounded requestEnd stretched req n stretch
    else return some (askedWhole req n stretch)

/-- The stretches a request is asked along, from the `n`-th on, and the first days joined. -/
def alongFrom (req : HistoricalRequest) (joining : Bool) :
    ℕ → List IdStretch → Except Unreadable (List Stretch × List Bytes)
  | _, [] => return ([], [])
  | n, stretch :: history => do
      if ← leftOut requestEnd stretched req n stretch then alongFrom req joining (n + 1) history
      else
        let asked ← askedAs requestEnd stretched req n stretch
        let (out, joins) ← alongFrom req joining (n + 1) history
        return (asked.toList ++ out,
          (if joining && dated stretch.start then [stretch.start] else []) ++ joins)

def wantedBars (req : HistoricalRequest) (history : List IdStretch) :
    Except Unreadable (Option BarsWanted) :=
  match req.barSize.counted, readLength req.duration with
  | some bar, some (count, unit) =>
      if 1 < history.length ∧ 1 < (i64 (count * unit.2)).tdiv bar then do
        let ends ← req.ends requestEnd
        let back ← req.back stretched
        return some ⟨(i64 (count * unit.2)).tdiv bar, dayOf (i64 (ends - back)), unit, bar⟩
      else return none
  | _, _ => return none

def along (req : HistoricalRequest) (history : List IdStretch) :
    Except Unreadable (List Stretch × Option BarsWanted × List Bytes) := do
  let joining := req.barSize.counted.any (msDay < ·) && decide (1 < history.length)
  let (out, joins) ← alongFrom requestEnd stretched req joining 0 history
  let wanted ← wantedBars requestEnd stretched req history
  return (out, wanted, joins)

end

/-! ## Split at the actions -/

inductive AdjustmentKind where
  | cashDividend | stockDividend | split | spinOff | rightsOffer | futureRollover
  deriving DecidableEq

/-- A corporate action: what kind it is and when it takes effect. -/
structure Adjustment where
  kind : Option AdjustmentKind
  date : Bytes
  deriving DecidableEq

/-- An action falls inside the stretch that starts before its day and ends on or after it. -/
def IdStretch.holds (s : IdStretch) (day : Bytes) : Bool :=
  (s.start = unbounded ∨ s.start < day) ∧ (s.endDay = unbounded ∨ day ≤ s.endDay)

def splitHolding (day before : Bytes) : List IdStretch → List IdStretch
  | [] => []
  | s :: history =>
      if s.holds day then { s with start := day } :: { s with endDay := before } :: history
      else s :: splitHolding day before history

/-- A history split at an action.  One whose day cannot be read splits nothing. -/
def splitAt (history : List IdStretch) (day : Bytes) : List IdStretch :=
  match dateDays day with
  | none => history
  | some n => splitHolding day (writeDate (Calendar.dateOf (n - 1))) history

def splitAtActions (history : List IdStretch) (actions : List Adjustment) : List IdStretch :=
  [AdjustmentKind.stockDividend, .split, .spinOff].foldl
    (fun history kind =>
      ((actions.filter fun a => a.kind = some kind).map Adjustment.date).foldl splitAt history)
    history

/-! ## Days as text -/

variable {d : Date}

lemma dayMs_text (h : d.Written) : dayMs d.text = some (d.number * msDay) := by
  have hmidnight : ascii "-00:00:00" = 45 :: writeTime 0 := by decide
  have hread := ibDatetimeToUnixMillis_stamp h
    (timeMillis_writeTime (le_refl 0) (by decide : (0 : ℤ) < 86400))
  rw [dayMs, hmidnight, hread, Int.zero_mul, Int.add_zero]

lemma dated_text (h : d.Written) : dated d.text = true := by
  rw [dated, dayMs_text h]
  exact decide_eq_true ⟨length_date d, rfl⟩

lemma dayMs_unbounded : dayMs unbounded = none := by decide

lemma dated_unbounded : dated unbounded = false := by decide

lemma text_ne_unbounded (d : Date) : d.text ≠ unbounded := fun h => by
  have hlen := length_date d
  rw [h] at hlen
  exact absurd hlen (by decide)

/-! ## Instants as text -/

def firstMillis : ℤ := -719528 * 86400000

lemma writeDate_of_written (h : d.Written) : writeDate d = d.text := if_pos h.1

variable {ms : ℤ}

lemma stampAt_read (hlow : firstMillis ≤ ms) (hhigh : ms ≤ maxMillis) :
    ibDatetimeToUnixMillis (stampAt ms) = some (ms / 1000 * 1000) := by
  rw [firstMillis] at hlow
  rw [maxMillis] at hhigh
  have hwritten := written_dateOf (n := ms / msDay) (by rw [msDay]; omega) (by rw [msDay]; omega)
  have htime : timeMillis (writeTime (ms % msDay / 1000)) = some (ms % msDay / 1000 * 1000) :=
    timeMillis_writeTime (by rw [msDay]; omega) (by rw [msDay]; omega)
  rw [stampAt, if_pos ⟨by rw [minMillis]; omega, by rwa [maxMillis]⟩,
    writeDate_of_written hwritten, ibDatetimeToUnixMillis_stamp hwritten htime,
    Calendar.number_dateOf]
  rw [msDay]
  exact congrArg some (by omega)

lemma dayOf_eq (hlow : firstMillis ≤ ms) (hhigh : ms ≤ maxMillis) :
    dayOf ms = (Calendar.dateOf (ms / msDay)).text := by
  rw [firstMillis] at hlow
  rw [maxMillis] at hhigh
  have hwritten := written_dateOf (n := ms / msDay) (by rw [msDay]; omega) (by rw [msDay]; omega)
  rw [dayOf, stampAt, if_pos ⟨by rw [minMillis]; omega, by rwa [maxMillis]⟩,
    writeDate_of_written hwritten, List.take_left' (length_date _)]

lemma text_lt_dayOf_iff (h : d.Written) (hlow : firstMillis ≤ ms)
    (hhigh : ms ≤ maxMillis) : d.text < dayOf ms ↔ d.number < ms / msDay := by
  have hwritten : (Calendar.dateOf (ms / msDay)).Written := by
    rw [firstMillis] at hlow
    rw [maxMillis] at hhigh
    exact written_dateOf (by rw [msDay]; omega) (by rw [msDay]; omega)
  rw [dayOf_eq hlow hhigh, Calendar.text_lt_iff h hwritten, Calendar.number_dateOf]

lemma dayOf_lt_text_iff (h : d.Written) (hlow : firstMillis ≤ ms)
    (hhigh : ms ≤ maxMillis) : dayOf ms < d.text ↔ ms / msDay < d.number := by
  have hwritten : (Calendar.dateOf (ms / msDay)).Written := by
    rw [firstMillis] at hlow
    rw [maxMillis] at hhigh
    exact written_dateOf (by rw [msDay]; omega) (by rw [msDay]; omega)
  rw [dayOf_eq hlow hhigh, Calendar.text_lt_iff hwritten h, Calendar.number_dateOf]

lemma number_lt_of_text_lt (h : d.Written) (hlt : d.text < dayOf ms) :
    d.number < ms / msDay := by
  by_cases hrange : minMillis ≤ ms ∧ ms ≤ maxMillis
  · by_cases hlow : firstMillis ≤ ms
    · exact (text_lt_dayOf_iff h hlow hrange.2).1 hlt
    · -- a year below nought is written with its sign, which stands in front of any digit
      have hyear : (Calendar.dateOf (ms / msDay)).year < 0 := by
        by_contra hpos
        have hnumber := Calendar.number_dateOf (ms / msDay)
        have hfirst := (Calendar.dateOf (ms / msDay)).first_le_number
        have hmonth := Calendar.number_first_le (y := (Calendar.dateOf (ms / msDay)).year) le_rfl
          (Calendar.dateOf (ms / msDay)).month_mem.1 (Calendar.dateOf (ms / msDay)).month_mem.2
        have hle : Calendar.yearStart (-1) ≤
            Calendar.yearStart ((Calendar.dateOf (ms / msDay)).year - 1) :=
          Calendar.yearStart_le (by omega)
        have hstart : Calendar.yearStart (-1) = -366 := by decide
        rw [number_year_one] at hmonth
        rw [firstMillis] at hlow
        have hdays : ms / msDay < -719528 := by
          rw [msDay]
          omega
        omega
      have hsign : ∃ rest, dayOf ms = 45 :: rest := by
        rw [dayOf, stampAt, if_pos hrange, writeDate, if_neg (not_le.2 hyear)]
        exact ⟨_, rfl⟩
      obtain ⟨rest, hrest⟩ := hsign
      obtain ⟨c, cs, hc⟩ := List.exists_cons_of_ne_nil (List.ne_nil_of_length_pos
        (l := d.text) (by rw [length_date]; decide))
      have hdigit : Decimal.isDigit c = true :=
        isDigit_of_mem_date (d := d) (hc ▸ List.mem_cons_self)
      rw [hrest, hc, List.cons_lt_cons_iff] at hlt
      rw [Decimal.isDigit, decide_eq_true_eq, UInt8.le_iff_toNat_le,
        UInt8.le_iff_toNat_le] at hdigit
      have hlow' : 48 ≤ c.toNat := hdigit.1
      rcases hlt with hlt | ⟨rfl, -⟩
      · rw [UInt8.lt_iff_toNat_lt] at hlt
        have hsmall : c.toNat < 45 := hlt
        omega
      · exact absurd hlow' (by decide)
  · rw [dayOf, stampAt, if_neg hrange] at hlt
    exact absurd hlt (List.not_lt_nil _)

/-! ## Histories -/

/-- A stretch of days a contract traded under an id, either end left open where it states none. -/
structure TradedSpan where
  conId : ℕ
  first : Option Date
  last : Option Date
  symbol : String
  exchange : String
  first_written : ∀ d ∈ first, d.Written
  last_written : ∀ d ∈ last, d.Written
  first_le_last : ∀ f ∈ first, ∀ l ∈ last, f.number ≤ l.number

def bound (d : Option Date) : Bytes := d.elim unbounded Date.text

namespace TradedSpan

def stretch (s : TradedSpan) : IdStretch :=
  ⟨s.conId, bound s.first, bound s.last, s.symbol, s.exchange⟩

def Holds (s : TradedSpan) (day : ℤ) : Prop :=
  (∀ d ∈ s.first, d.number ≤ day) ∧ ∀ d ∈ s.last, day ≤ d.number

/-- The older stretch ends the day before the newer one starts. -/
def Follows (newer older : TradedSpan) : Prop :=
  ∃ f ∈ newer.first, ∃ l ∈ older.last, l.number + 1 = f.number

def After (newer older : TradedSpan) : Prop :=
  ∃ f ∈ newer.first, ∃ l ∈ older.last, l.number < f.number

/-- The stretch with its end left open, as the newest one is asked. -/
def opened (s : TradedSpan) : TradedSpan where
  conId := s.conId
  first := s.first
  last := none
  symbol := s.symbol
  exchange := s.exchange
  first_written := s.first_written
  last_written := fun _ h => nomatch h
  first_le_last := fun _ _ _ h => nomatch h

lemma Follows.after {newer older : TradedSpan} (h : newer.Follows older) : newer.After older := by
  obtain ⟨f, hf, l, hl, hday⟩ := h
  exact ⟨f, hf, l, hl, by omega⟩

lemma After.trans {a b c : TradedSpan} (hab : a.After b) (hbc : b.After c) : a.After c := by
  obtain ⟨fa, hfa, lb, hlb, hlt⟩ := hab
  obtain ⟨fb, hfb, lc, hlc, hlt'⟩ := hbc
  have := b.first_le_last fb hfb lb hlb
  exact ⟨fa, hfa, lc, hlc, by omega⟩

instance : Trans After After After := ⟨After.trans⟩

lemma After.lt {newer older : TradedSpan} (h : newer.After older) {n m : ℤ} (hn : newer.Holds n)
    (hm : older.Holds m) : m < n := by
  obtain ⟨f, hf, l, hl, hlt⟩ := h
  have := hn.1 f hf
  have := hm.2 l hl
  omega

lemma Holds.opened {s : TradedSpan} {day : ℤ} (h : s.Holds day) : s.opened.Holds day :=
  ⟨h.1, fun _ hd => nomatch hd⟩

end TradedSpan

def Consecutive (spans : List TradedSpan) : Prop := spans.IsChain TradedSpan.Follows

/-- The days a history is asked for: its newest stretch runs up to the request's end. -/
def reaching : List TradedSpan → List TradedSpan
  | [] => []
  | newest :: older => newest.opened :: older

variable {spans : List TradedSpan}

lemma Consecutive.after (h : Consecutive spans) :
    spans.Pairwise TradedSpan.After :=
  (h.imp fun _ _ => TradedSpan.Follows.after).pairwise

lemma Consecutive.reaching (h : Consecutive spans) :
    Consecutive (reaching spans) := by
  cases spans with
  | nil => exact h
  | cons newest older =>
      have hopened : List.IsChain TradedSpan.Follows (newest.opened :: older) :=
        List.IsChain.imp_head (x := newest) (y := newest.opened)
          (fun hfollows => hfollows) h
      exact hopened

variable {day : ℤ}

lemma Consecutive.exists_holds : ∀ {spans : List TradedSpan}, Consecutive spans →
    spans ≠ [] → (∀ newest ∈ spans.head?, ∀ d ∈ newest.last, day ≤ d.number) →
    (∀ oldest ∈ spans.getLast?, ∀ d ∈ oldest.first, d.number ≤ day) →
    ∃ span ∈ spans, span.Holds day
  | [], _, hne, _, _ => absurd rfl hne
  | [span], _, _, hlast, hfirst =>
      ⟨span, List.mem_singleton_self _, hfirst span rfl, hlast span rfl⟩
  | newer :: older :: spans, h, _, hlast, hfirst => by
      obtain ⟨⟨f, hf, l, hl, hday⟩, htail⟩ := List.isChain_cons_cons.1 h
      rcases lt_or_ge day f.number with hbefore | hafter
      · have hends : ∀ next ∈ (older :: spans).head?, ∀ d ∈ next.last, day ≤ d.number := by
          rintro next ⟨⟩ d hd
          rw [Option.mem_unique hd hl]
          omega
        rw [List.getLast?_cons_cons] at hfirst
        obtain ⟨span, hmem, hholds⟩ := exists_holds htail (List.cons_ne_nil _ _) hends hfirst
        exact ⟨span, List.mem_cons_of_mem _ hmem, hholds⟩
      · refine ⟨newer, List.mem_cons_self, fun d hd => ?_, hlast newer rfl⟩
        rwa [Option.mem_unique hd hf]

/-! ## Windows -/

namespace Stretch

/-- Where a stretch starts: its own start, or else the day it is asked from or the moment the
request reaches back to, whichever is later. -/
def opens (reach : ℤ) (s : Stretch) : Option ℤ :=
  match s.startTime with
  | some stamp => ibDatetimeToUnixMillis stamp
  | none => some (((s.cutoffDate.bind dayMs).map fun day => max day reach).getD reach)

def closes (ends : ℤ) (s : Stretch) : Option ℤ :=
  match s.endTime with
  | some stamp => ibDatetimeToUnixMillis stamp
  | none => some ends

def Asks (reach ends : ℤ) (s : Stretch) (t : ℤ) : Prop :=
  ((s.opens reach).any fun first => first ≤ t) ∧ (s.closes ends).any fun last => t < last

instance (reach ends : ℤ) (s : Stretch) (t : ℤ) : Decidable (s.Asks reach ends t) :=
  inferInstanceAs (Decidable (_ ∧ _))

lemma asks_iff {reach ends first last : ℤ} {s : Stretch} (hopens : s.opens reach = some first)
    (hcloses : s.closes ends = some last) (t : ℤ) :
    s.Asks reach ends t ↔ first ≤ t ∧ t < last := by
  rw [Asks, hopens, hcloses, Option.any_some, Option.any_some, decide_eq_true_eq,
    decide_eq_true_eq]

lemma asks_bounded {reach ends first last : ℤ} {start stop : Bytes} (s : Stretch)
    (hfrom : ibDatetimeToUnixMillis start = some first)
    (hupto : ibDatetimeToUnixMillis stop = some last) (t : ℤ) :
    Asks reach ends { s with startTime := some start, endTime := some stop, timeLength := none } t
      ↔ first ≤ t ∧ t < last :=
  asks_iff (s := { s with startTime := some start, endTime := some stop, timeLength := none })
    hfrom hupto t

end Stretch

structure AskedFor (reach ends : ℤ) (span : TradedSpan) (asked : Option Stretch) : Prop where
  id : ∀ s ∈ asked, s.conId = span.conId
  within : ∀ s ∈ asked, ∀ t, s.Asks reach ends t → span.Holds (t / msDay)
  whole : ∀ t, reach ≤ t → t < ends → span.Holds (t / msDay) → ∃ s ∈ asked, s.Asks reach ends t

/-- The stretches asked cover a history once: newest first and apart, all of its days the request
reaches, and each under its own id. -/
structure AskedAlong (reach ends : ℤ) (spans : List TradedSpan) (out : List Stretch) : Prop where
  ordered : out.Pairwise fun newer older =>
    ∀ t u, newer.Asks reach ends t → older.Asks reach ends u → u < t
  covered : ∀ t, reach ≤ t → t < ends → ∀ span ∈ spans, span.Holds (t / msDay) →
    ∃ s ∈ out, s.Asks reach ends t
  named : ∀ s ∈ out, ∃ span ∈ spans, s.conId = span.conId ∧
    ∀ t, s.Asks reach ends t → span.Holds (t / msDay)

lemma AskedAlong.nil (reach ends : ℤ) : AskedAlong reach ends [] [] where
  ordered := List.Pairwise.nil
  covered := fun _ _ _ _ h => absurd h List.not_mem_nil
  named := fun _ h => absurd h List.not_mem_nil

variable {span : TradedSpan}

lemma AskedAlong.cons {reach ends : ℤ}
    {asked : Option Stretch} {out : List Stretch} (hasked : AskedFor reach ends span asked)
    (hafter : ∀ older ∈ spans, span.After older) (hout : AskedAlong reach ends spans out) :
    AskedAlong reach ends (span :: spans) (asked.toList ++ out) where
  ordered := by
    refine List.pairwise_append.2 ⟨?_, hout.ordered, ?_⟩
    · cases asked with
      | none => exact List.Pairwise.nil
      | some s => exact List.pairwise_singleton _ _
    · intro s hs older holder t u ht hu
      obtain ⟨span', hmem, -, hwithin⟩ := hout.named older holder
      have hlt : u / msDay < t / msDay := (hafter span' hmem).lt
        (hasked.within s (Option.mem_toList.1 hs) t ht) (hwithin u hu)
      rw [msDay] at hlt
      omega
  covered := by
    intro t hreach hends span' hmem hholds
    rcases List.mem_cons.1 hmem with rfl | hmem
    · obtain ⟨s, hs, hasks⟩ := hasked.whole t hreach hends hholds
      exact ⟨s, List.mem_append_left _ (Option.mem_toList.2 hs), hasks⟩
    · obtain ⟨s, hs, hasks⟩ := hout.covered t hreach hends span' hmem hholds
      exact ⟨s, List.mem_append_right _ hs, hasks⟩
  named := by
    intro s hs
    rcases List.mem_append.1 hs with hs | hs
    · exact ⟨span, List.mem_cons_self, hasked.id s (Option.mem_toList.1 hs),
        hasked.within s (Option.mem_toList.1 hs)⟩
    · obtain ⟨span', hmem, hid, hwithin⟩ := hout.named s hs
      exact ⟨span', List.mem_cons_of_mem _ hmem, hid, hwithin⟩

/-! ## A stretch asked -/

lemma le_div_msDay {n t : ℤ} : n ≤ t / msDay ↔ n * msDay ≤ t := by
  rw [msDay]
  omega

lemma dayMs_bound {d : Option Date} (h : ∀ day ∈ d, day.Written) :
    dayMs (bound d) = d.map fun day => day.number * msDay := by
  cases d with
  | none => exact dayMs_unbounded
  | some day => exact dayMs_text (h day rfl)

lemma dated_bound {d : Option Date} (h : ∀ day ∈ d, day.Written) :
    dated (bound d) = d.isSome := by
  cases d with
  | none => exact dated_unbounded
  | some day => exact dated_text (h day rfl)

section

variable {requestEnd : Bytes → Option ℤ} {stretched : ℤ → ℤ} {req : HistoricalRequest}
  {ends back : ℤ} {span : TradedSpan} {n : ℕ}

lemma endDay_ok (hend : requestEnd req.endTime = some ends) :
    req.endDay requestEnd = .ok (ends / msDay * msDay) := by
  rw [HistoricalRequest.endDay, HistoricalRequest.ends, hend]
  rfl

lemma midnight_div (t : ℤ) : t / msDay * msDay / msDay = t / msDay := by
  rw [msDay]
  omega

def TradedSpan.startIn (s : TradedSpan) (reach : ℤ) : ℤ :=
  (s.first.map fun day => max (day.number * msDay) reach).getD reach

variable {reach : ℤ}

lemma startIn_le_iff {t : ℤ} :
    span.startIn reach ≤ t ↔ reach ≤ t ∧ ∀ d ∈ span.first, d.number ≤ t / msDay := by
  rw [TradedSpan.startIn]
  cases span.first with
  | none => exact ⟨fun h => ⟨h, fun _ hd => nomatch hd⟩, fun h => h.1⟩
  | some day =>
      refine ⟨fun h => ⟨(le_max_right _ _).trans h, ?_⟩, fun h => max_le ?_ h.1⟩
      · rintro _ ⟨⟩
        exact le_div_msDay.2 ((le_max_left _ _).trans h)
      · exact le_div_msDay.1 (h.2 day rfl)

lemma reach_le_startIn (reach : ℤ) : reach ≤ span.startIn reach := (startIn_le_iff.1 le_rfl).1

lemma first_le_startIn {d : Date} (hd : d ∈ span.first) :
    d.number ≤ span.startIn reach / 1000 * 1000 / msDay := by
  have hday := (startIn_le_iff.1 (le_refl (span.startIn reach))).2 d hd
  rw [msDay] at hday ⊢
  omega

lemma askedWhole_opens (reach : ℤ) :
    (askedWhole req n span.stretch).opens reach = some (span.startIn reach) := by
  have hcut : ((if dated span.stretch.start then some span.stretch.start else none).bind dayMs)
      = span.first.map fun day => day.number * msDay := by
    rw [TradedSpan.stretch, dated_bound span.first_written]
    cases hfirst : span.first with
    | none => rfl
    | some day =>
        rw [Option.isSome_some, if_pos rfl, Option.bind_some]
        exact dayMs_text (span.first_written day hfirst)
  rw [Stretch.opens, askedWhole]
  simp only [hcut, Option.map_map]
  rfl

lemma askedFor_whole (hlast : ∀ d ∈ span.last, ends ≤ (d.number + 1) * msDay) :
    AskedFor reach ends span (some (askedWhole req n span.stretch)) := by
  have hasks (t : ℤ) : (askedWhole req n span.stretch).Asks reach ends t ↔
      span.startIn reach ≤ t ∧ t < ends := Stretch.asks_iff (askedWhole_opens reach) rfl t
  refine ⟨?_, ?_, ?_⟩
  · rintro s ⟨⟩
    rfl
  · rintro s ⟨⟩ t ht
    obtain ⟨hfrom, hto⟩ := (hasks t).1 ht
    refine ⟨(startIn_le_iff.1 hfrom).2, fun d hd => ?_⟩
    have := hlast d hd
    rw [msDay] at this ⊢
    omega
  · intro t hreach hto hholds
    exact ⟨_, rfl, (hasks t).2 ⟨startIn_le_iff.2 ⟨hreach, hholds.1⟩, hto⟩⟩

lemma midnight_range (hlow : firstMillis ≤ ends) (hhigh : ends ≤ maxMillis) :
    firstMillis ≤ ends / msDay * msDay ∧ ends / msDay * msDay ≤ maxMillis := by
  rw [firstMillis] at hlow ⊢
  rw [maxMillis] at hhigh ⊢
  rw [msDay]
  omega

lemma startsAfter_eq (hend : requestEnd req.endTime = some ends) (hlow : firstMillis ≤ ends)
    (hhigh : ends ≤ maxMillis) :
    (if dated span.stretch.start then do
        let last ← req.endDay requestEnd
        return decide (dayOf last < span.stretch.start)
      else return false)
      = (.ok (span.first.any fun d => ends / msDay < d.number) : Except Unreadable Bool) := by
  have hmidnight := midnight_range hlow hhigh
  rw [TradedSpan.stretch, dated_bound span.first_written]
  cases hfirst : span.first with
  | none => rfl
  | some day =>
      have hlt := dayOf_lt_text_iff (span.first_written day hfirst) hmidnight.1 hmidnight.2
      rw [midnight_div] at hlt
      rw [Option.isSome_some, if_pos rfl, endDay_ok hend]
      refine congrArg Except.ok ?_
      rw [Option.any_some]
      exact decide_eq_decide.2 hlt

lemma askedFor_none (h : ∀ t, reach ≤ t → t < ends → ¬ span.Holds (t / msDay)) :
    AskedFor reach ends span none where
  id := fun _ hs => nomatch hs
  within := fun _ hs => nomatch hs
  whole := fun t hreach hto hholds => absurd hholds (h t hreach hto)

lemma askedFor_behind
    (h : (span.first.any fun d => ends / msDay < d.number) = true) :
    AskedFor reach ends span none := by
  rw [Option.any_eq_true] at h
  obtain ⟨d, hd, hlt⟩ := h
  refine askedFor_none fun t _ hto hholds => ?_
  have hday := hholds.1 d hd
  have hlt := of_decide_eq_true hlt
  rw [msDay] at hday hlt
  omega

lemma askedFor_newest (reach : ℤ) (hend : requestEnd req.endTime = some ends)
    (hlow : firstMillis ≤ ends) (hhigh : ends ≤ maxMillis) :
    ∃ out asked, leftOut requestEnd stretched req 0 span.stretch = .ok out ∧
      askedAs requestEnd stretched req 0 span.stretch = .ok asked ∧
      AskedFor reach ends span.opened (if out then none else asked) := by
  refine ⟨_, _, startsAfter_eq hend hlow hhigh, rfl, ?_⟩
  split
  · next h =>
      refine askedFor_behind ?_
      exact h
  · have hopened : AskedFor reach ends span.opened
        (some (askedWhole req 0 span.opened.stretch)) := askedFor_whole fun _ hd => nomatch hd
    exact hopened

lemma i64_midnight_le (hreach : firstMillis ≤ i64 (ends - back)) :
    i64 (ends / msDay * msDay - back) ≤ i64 (ends - back) := by
  rw [i64, i64, Int.bmod_def, Int.bmod_def, firstMillis, msDay] at *
  omega

variable {l : Date}

lemma bounded_eq (hend : requestEnd req.endTime = some ends)
    (hback : req.back stretched = .ok back) (hlast : span.last = some l)
    (hlt : l.number < ends / msDay) :
    bounded requestEnd stretched req n span.stretch
      = .ok (if (l.number + 1) * msDay ≤ span.startIn (i64 (ends - back)) then none
        else some { askedWhole req n span.stretch with
          startTime := some (stampAt (span.startIn (i64 (ends - back))))
          endTime := some (stampAt ((l.number + 1) * msDay))
          timeLength := none }) := by
  have hstart : ((dayMs span.stretch.start).map fun start => max start (i64 (ends - back))).getD
      (i64 (ends - back)) = span.startIn (i64 (ends - back)) := by
    rw [TradedSpan.stretch, dayMs_bound span.first_written, Option.map_map]
    rfl
  have hstop : dayMs span.stretch.endDay = some (l.number * msDay) := by
    rw [TradedSpan.stretch, dayMs_bound span.last_written, hlast]
    rfl
  have hmin : min (l.number * msDay + msDay) ends = (l.number + 1) * msDay := by
    rw [msDay] at hlt ⊢
    omega
  rw [bounded, HistoricalRequest.ends, hend, hback, hstop]
  simp only [Option.elim_some, bind, Except.bind, hstart, hmin]
  split_ifs with hempty
  · rfl
  · rfl

lemma askedFor_bounded (hend : requestEnd req.endTime = some ends)
    (hback : req.back stretched = .ok back) (hreach : firstMillis ≤ i64 (ends - back))
    (hhigh : ends ≤ maxMillis) (hlast : span.last = some l) (hlt : l.number < ends / msDay) :
    ∃ asked, bounded requestEnd stretched req n span.stretch = .ok asked ∧
      AskedFor (i64 (ends - back)) ends span asked := by
  have hlasts {t : ℤ} (hholds : span.Holds (t / msDay)) : t < (l.number + 1) * msDay := by
    have hday := hholds.2 l hlast
    rw [msDay] at hday ⊢
    omega
  have hopen : i64 (ends - back) ≤ span.startIn (i64 (ends - back)) := reach_le_startIn _
  refine ⟨_, bounded_eq hend hback hlast hlt, ?_⟩
  split_ifs with hempty
  · refine askedFor_none fun t hfrom _ hholds => ?_
    have hle := startIn_le_iff.2 ⟨hfrom, hholds.1⟩
    have := hlasts hholds
    omega
  · rw [not_le] at hempty
    have hopens := stampAt_read (hreach.trans hopen)
      (by rw [msDay] at hlt hempty; omega : span.startIn (i64 (ends - back)) ≤ maxMillis)
    have hwhole : (l.number + 1) * msDay / 1000 * 1000 = (l.number + 1) * msDay := by
      rw [msDay]
      omega
    have hcloses : ibDatetimeToUnixMillis (stampAt ((l.number + 1) * msDay))
        = some ((l.number + 1) * msDay) := by
      rw [stampAt_read, hwhole]
      · rw [msDay] at hlt hempty ⊢
        omega
      · rw [msDay] at hlt hempty ⊢
        omega
    have hasks (t : ℤ) := @Stretch.asks_bounded (i64 (ends - back)) ends _ _ _ _
      (askedWhole req n span.stretch) hopens hcloses t
    refine ⟨?_, ?_, ?_⟩
    · rintro s ⟨⟩
      rfl
    · rintro s ⟨⟩ t ht
      obtain ⟨hfrom, hto⟩ := (hasks t).1 ht
      refine ⟨fun d hd => ?_, fun d hd => ?_⟩
      · exact (first_le_startIn hd).trans (Int.ediv_le_ediv (by decide) hfrom)
      · obtain rfl := Option.mem_unique hd hlast
        rw [msDay] at hto ⊢
        omega
    · intro t hfrom _ hholds
      have hle := startIn_le_iff.2 ⟨hfrom, hholds.1⟩
      exact ⟨_, rfl, (hasks t).2 ⟨by omega, hlasts hholds⟩⟩

lemma text_eq (hlast : span.last = some l) : span.stretch.endDay = l.text := by
  rw [TradedSpan.stretch, hlast]
  rfl

lemma leftOut_older (hn : n ≠ 0) (hend : requestEnd req.endTime = some ends)
    (hback : req.back stretched = .ok back) (hlow : firstMillis ≤ ends) (hhigh : ends ≤ maxMillis)
    (hlast : span.last = some l) :
    leftOut requestEnd stretched req n span.stretch
      = .ok (if l.text < dayOf (i64 (ends / msDay * msDay - back)) then true
        else span.first.any fun d => ends / msDay < d.number) := by
  have hbehind := @startsAfter_eq requestEnd req ends span hend hlow hhigh
  rw [leftOut]
  simp only [if_neg hn, text_eq hlast, if_neg (text_ne_unbounded l)]
  rw [endDay_ok hend] at hbehind ⊢
  rw [hback]
  simp only [bind, Except.bind]
  by_cases hbefore : l.text < dayOf (i64 (ends / msDay * msDay - back))
  · rw [if_pos hbefore, if_pos hbefore]
    rfl
  · rw [if_neg hbefore, if_neg hbefore]
    exact hbehind

lemma askedFor_older (hn : n ≠ 0) (hend : requestEnd req.endTime = some ends)
    (hback : req.back stretched = .ok back) (hreach : firstMillis ≤ i64 (ends - back))
    (hlow : firstMillis ≤ ends) (hhigh : ends ≤ maxMillis) (hlast : span.last = some l) :
    ∃ out asked, leftOut requestEnd stretched req n span.stretch = .ok out ∧
      askedAs requestEnd stretched req n span.stretch = .ok asked ∧
      AskedFor (i64 (ends - back)) ends span (if out then none else asked) := by
  have hwritten := span.last_written l hlast
  have hmidnight := midnight_range hlow hhigh
  have hasked : ∃ asked, askedAs requestEnd stretched req n span.stretch = .ok asked ∧
      AskedFor (i64 (ends - back)) ends span asked := by
    have hlt := text_lt_dayOf_iff hwritten hmidnight.1 hmidnight.2
    rw [midnight_div] at hlt
    rw [askedAs, if_neg hn, endDay_ok hend, text_eq hlast]
    by_cases hshort : l.text < dayOf (ends / msDay * msDay)
    · obtain ⟨asked, hasked, hfor⟩ := askedFor_bounded (n := n) hend hback hreach hhigh hlast
        (hlt.1 hshort)
      exact ⟨asked, (if_pos hshort).trans hasked, hfor⟩
    · refine ⟨_, if_neg hshort, askedFor_whole fun d hd => ?_⟩
      obtain rfl := Option.mem_unique hd hlast
      have hlong := not_lt.1 (mt hlt.2 hshort)
      rw [msDay] at hlong ⊢
      omega
  obtain ⟨asked, hasked, hfor⟩ := hasked
  refine ⟨_, asked, leftOut_older hn hend hback hlow hhigh hlast, hasked, ?_⟩
  by_cases hbefore : l.text < dayOf (i64 (ends / msDay * msDay - back))
  · -- its last day is before the one the request reaches back to
    rw [if_pos hbefore, if_pos rfl]
    have hday := number_lt_of_text_lt hwritten hbefore
    have hdays := Int.ediv_le_ediv (by decide : 0 < msDay) (i64_midnight_le hreach)
    refine askedFor_none fun t hfrom _ hholds => ?_
    have hupto := hholds.2 l hlast
    have hreached := Int.ediv_le_ediv (by decide : 0 < msDay) hfrom
    omega
  · rw [if_neg hbefore]
    split
    · next hout => exact askedFor_behind hout
    · exact hfor

lemma alongFrom_cons {joining : Bool} {stretch : IdStretch} {history : List IdStretch} {out : Bool}
    {asked : Option Stretch} {rest : List Stretch} {joins : List Bytes}
    (hout : leftOut requestEnd stretched req n stretch = .ok out)
    (hasked : askedAs requestEnd stretched req n stretch = .ok asked)
    (hrest : alongFrom requestEnd stretched req joining (n + 1) history = .ok (rest, joins)) :
    ∃ joins', alongFrom requestEnd stretched req joining n (stretch :: history)
      = .ok ((if out then none else asked).toList ++ rest, joins') := by
  rw [alongFrom, hout]
  cases out with
  | true => exact ⟨joins, hrest⟩
  | false =>
      refine ⟨(if joining && dated stretch.start then [stretch.start] else []) ++ joins, ?_⟩
      simp only [bind, Except.bind, hasked, hrest]
      rfl

lemma alongFrom_older (joining : Bool) (hend : requestEnd req.endTime = some ends)
    (hback : req.back stretched = .ok back) (hreach : firstMillis ≤ i64 (ends - back))
    (hlow : firstMillis ≤ ends) (hhigh : ends ≤ maxMillis) :
    ∀ {spans : List TradedSpan} {n : ℕ}, n ≠ 0 → (∀ span ∈ spans, span.last ≠ none) →
      spans.Pairwise TradedSpan.After →
      ∃ out joins, alongFrom requestEnd stretched req joining n (spans.map TradedSpan.stretch)
          = .ok (out, joins) ∧ AskedAlong (i64 (ends - back)) ends spans out := by
  intro spans
  induction spans with
  | nil =>
      intro n hn hlast hafter
      exact ⟨[], [], rfl, AskedAlong.nil _ _⟩
  | cons span spans ih =>
      intro n hn hlast hafter
      obtain ⟨hspan, hafter⟩ := List.pairwise_cons.1 hafter
      obtain ⟨l, hl⟩ := Option.ne_none_iff_exists'.1 (hlast span List.mem_cons_self)
      obtain ⟨left, asked, hleft, hasked, hfor⟩ :=
        askedFor_older hn hend hback hreach hlow hhigh hl
      obtain ⟨out, joins, hout, halong⟩ := ih (Nat.succ_ne_zero n)
        (fun older h => hlast older (List.mem_cons_of_mem _ h)) hafter
      obtain ⟨joins', hcons⟩ := alongFrom_cons hleft hasked hout
      exact ⟨_, joins', hcons, halong.cons hfor hspan⟩

lemma alongFrom_spans (joining : Bool) {spans : List TradedSpan} (hspans : Consecutive spans)
    (hend : requestEnd req.endTime = some ends) (hback : req.back stretched = .ok back)
    (hreach : firstMillis ≤ i64 (ends - back)) (hlow : firstMillis ≤ ends)
    (hhigh : ends ≤ maxMillis) :
    ∃ out joins, alongFrom requestEnd stretched req joining 0 (spans.map TradedSpan.stretch)
        = .ok (out, joins) ∧ AskedAlong (i64 (ends - back)) ends (reaching spans) out := by
  cases spans with
  | nil => exact ⟨[], [], rfl, AskedAlong.nil _ _⟩
  | cons newest older =>
      obtain ⟨hnewest, hafter⟩ := List.pairwise_cons.1 hspans.reaching.after
      have hlast : ∀ span ∈ older, span.last ≠ none := by
        intro span hspan hnone
        obtain ⟨f, hf, l, hl, hlt⟩ := hnewest span hspan
        rw [hnone] at hl
        exact nomatch hl
      obtain ⟨left, asked, hleft, hasked, hfor⟩ :=
        @askedFor_newest requestEnd stretched req ends newest (i64 (ends - back)) hend hlow hhigh
      obtain ⟨out, joins, hout, halong⟩ := alongFrom_older joining hend hback hreach hlow hhigh
        Nat.one_ne_zero hlast hafter
      obtain ⟨joins', hcons⟩ := alongFrom_cons hleft hasked hout
      exact ⟨_, joins', hcons, halong.cons hfor hnewest⟩

lemma wantedBars_ok (history : List IdStretch) (hend : requestEnd req.endTime = some ends)
    (hback : req.back stretched = .ok back) :
    ∃ wanted, wantedBars requestEnd stretched req history = .ok wanted := by
  rw [wantedBars]
  split
  · rw [HistoricalRequest.ends, hend, hback]
    split_ifs with hmore
    · exact ⟨_, rfl⟩
    · exact ⟨_, rfl⟩
  · exact ⟨_, rfl⟩

end

/-! ## A history split -/

def Names (spans : List TradedSpan) (day : ℤ) (conId : ℕ) : Prop :=
  ∃ span ∈ spans, span.Holds day ∧ span.conId = conId

variable {conId : ℕ}

lemma names_cons :
    Names (span :: spans) day conId ↔
      (span.Holds day ∧ span.conId = conId) ∨ Names spans day conId := by
  simp only [Names, List.mem_cons, or_and_right, exists_or, exists_eq_left]

def Splits (spans : List TradedSpan) (history : List IdStretch) : Prop :=
  ∃ parts : List TradedSpan, history = parts.map TradedSpan.stretch ∧ Consecutive parts ∧
    ∀ day conId, Names parts day conId ↔ Names spans day conId

lemma date_of_dateDays {day : Bytes} {n : ℤ} (h : dateDays day = some n) :
    ∃ d : Date, d.Written ∧ d.text = day ∧ d.number = n := by
  rw [dateDays] at h
  split_ifs at h with hdate
  simp only [Option.ite_none_right_eq_some, Option.some.injEq] at h
  obtain ⟨⟨hmonth, hday⟩, rfl⟩ := h
  obtain ⟨hlength, hdigits⟩ := hdate
  rw [List.all_eq_true] at hdigits
  have hyear : ∀ b ∈ day.take 4, Decimal.isDigit b = true := fun b hb =>
    hdigits b (List.mem_of_mem_take hb)
  have hmid : ∀ b ∈ (day.drop 4).take 2, Decimal.isDigit b = true := fun b hb =>
    hdigits b (List.mem_of_mem_drop (List.mem_of_mem_take hb))
  have hlast : ∀ b ∈ (day.drop 6).take 2, Decimal.isDigit b = true := fun b hb =>
    hdigits b (List.mem_of_mem_drop (List.mem_of_mem_take hb))
  have hy := Decimal.low_value hyear
  have hm := Decimal.low_value hmid
  have hd := Decimal.low_value hlast
  have hlt := Decimal.value_lt hyear
  rw [List.length_take, hlength] at hy hlt
  rw [List.length_take, List.length_drop, hlength] at hm hd
  refine ⟨⟨_, _, _, hmonth, hday⟩, ⟨Int.natCast_nonneg _, ?_⟩, ?_, ?_⟩
  · have hbound : Decimal.value (day.take 4) < 10000 := hlt
    exact Int.ofNat_lt.2 hbound
  · have hrest : (day.drop 6).take 2 = (day.drop 4).drop 2 := by
      rw [List.drop_drop]
      exact List.take_of_length_le (by rw [List.length_drop, hlength])
    calc Decimal.low 4 (Decimal.value (day.take 4))
          ++ Decimal.low 2 (Decimal.value ((day.drop 4).take 2))
          ++ Decimal.low 2 (Decimal.value ((day.drop 6).take 2))
        = day.take 4 ++ (day.drop 4).take 2 ++ (day.drop 6).take 2 := by
          exact congrArg₂ (· ++ ·) (congrArg₂ (· ++ ·) hy hm) hd
      _ = day := by
          rw [hrest, List.append_assoc, List.take_append_drop, List.take_append_drop]
  · exact (ymdToDays_eq (Int.natCast_nonneg _) (Int.ofNat_lt.2 hlt) hmonth
      ⟨hday.1, hday.2.trans (daysInMonth_le _ _)⟩).symm

def firstDay : Bytes := ascii "00000101"

lemma number_of_written (h : d.Written) : -719528 ≤ d.number ∧ d.number < 2932897 := by
  have hnext := d.number_lt_next_year
  have hfirst := d.first_le_number
  have hmonth := Calendar.number_first_le (y := d.year) le_rfl d.month_mem.1 d.month_mem.2
  have hlow : Calendar.yearStart (-1) ≤ Calendar.yearStart (d.year - 1) :=
    Calendar.yearStart_le (by have := h.1; omega)
  have hhigh : Calendar.yearStart d.year ≤ Calendar.yearStart 9999 :=
    Calendar.yearStart_le (by have := h.2; omega)
  have hone : Calendar.yearStart (-1) = -366 := by decide
  have hlast : Calendar.yearStart 9999 = 3652059 := by decide
  rw [number_year_one] at hnext hmonth
  rw [Int.add_sub_cancel] at hnext
  omega

lemma written_before (h : d.Written) (hne : d.text ≠ firstDay) :
    (Calendar.dateOf (d.number - 1)).Written := by
  obtain ⟨hlow, hhigh⟩ := number_of_written h
  refine written_dateOf ?_ (by omega)
  by_contra hlt
  have hfirst : d.number = (⟨0, 1, 1, by decide, by decide⟩ : Date).number := by
    have : (⟨0, 1, 1, by decide, by decide⟩ : Date).number = -719528 := by decide
    omega
  rw [Date.number_inj hfirst] at hne
  exact hne (by decide)

namespace TradedSpan

def since (s : TradedSpan) (d : Date) (hd : d.Written) (h : ∀ l ∈ s.last, d.number ≤ l.number) :
    TradedSpan where
  conId := s.conId
  first := some d
  last := s.last
  symbol := s.symbol
  exchange := s.exchange
  first_written := fun _ h => Option.some.inj h ▸ hd
  last_written := s.last_written
  first_le_last := fun _ hf l hl => Option.some.inj hf ▸ h l hl

def upTo (s : TradedSpan) (d : Date) (hd : d.Written) (h : ∀ f ∈ s.first, f.number ≤ d.number) :
    TradedSpan where
  conId := s.conId
  first := s.first
  last := some d
  symbol := s.symbol
  exchange := s.exchange
  first_written := s.first_written
  last_written := fun _ h => Option.some.inj h ▸ hd
  first_le_last := fun f hf _ hl => Option.some.inj hl ▸ h f hf

lemma holds_iff {s : TradedSpan} {d : Date} (hd : d.Written) :
    s.stretch.holds d.text = true ↔
      (∀ f ∈ s.first, f.number < d.number) ∧ ∀ l ∈ s.last, d.number ≤ l.number := by
  rw [IdStretch.holds, decide_eq_true_iff, stretch]
  refine and_congr ?_ ?_
  · cases hfirst : s.first with
    | none => exact ⟨fun _ _ hf => (nomatch hf), fun _ => Or.inl rfl⟩
    | some f =>
        have hlt := Calendar.text_lt_iff (s.first_written f hfirst) hd
        refine ⟨?_, fun h => Or.inr (hlt.2 (h f rfl))⟩
        rintro (hopen | hbefore) _ ⟨⟩
        · exact absurd hopen (text_ne_unbounded f)
        · exact hlt.1 hbefore
  · cases hlast : s.last with
    | none => exact ⟨fun _ _ hl => (nomatch hl), fun _ => Or.inl rfl⟩
    | some l =>
        have hlt := Calendar.text_lt_iff (s.last_written l hlast) hd
        refine ⟨?_, fun h => Or.inr (List.not_lt.1 fun hlong => ?_)⟩
        · rintro (hopen | hupto) _ ⟨⟩
          · exact absurd hopen (text_ne_unbounded l)
          · exact not_lt.1 fun hlong => List.not_lt.2 hupto (hlt.2 hlong)
        · exact absurd (hlt.1 hlong) (not_lt.2 (h l rfl))

end TradedSpan

lemma splitHolding_spans {before : Date} (hd : d.Written) (hbefore : before.Written)
    (hstep : before.number + 1 = d.number) :
    ∀ {spans : List TradedSpan}, Consecutive spans →
      ∃ parts : List TradedSpan,
        splitHolding d.text before.text (spans.map TradedSpan.stretch)
          = parts.map TradedSpan.stretch ∧
        parts.head?.map TradedSpan.last = spans.head?.map TradedSpan.last ∧ Consecutive parts ∧
        ∀ day conId, Names parts day conId ↔ Names spans day conId := by
  intro spans
  induction spans with
  | nil => exact fun h => ⟨[], rfl, rfl, h, fun _ _ => Iff.rfl⟩
  | cons span spans ih =>
      intro h
      obtain ⟨hhead, htail⟩ := List.isChain_cons.1 h
      by_cases hholds : span.stretch.holds d.text = true
      · obtain ⟨hfirst, hlast⟩ := (TradedSpan.holds_iff hd).1 hholds
        have hfirst' : ∀ f ∈ span.first, f.number ≤ before.number := fun f hf => by
          have := hfirst f hf
          omega
        refine ⟨span.since d hd hlast :: span.upTo before hbefore hfirst' :: spans, ?_, rfl, ?_, ?_⟩
        · rw [List.map_cons, splitHolding, if_pos hholds]
          rfl
        · refine List.isChain_cons_cons.2 ⟨⟨d, rfl, before, rfl, hstep⟩, ?_⟩
          exact List.isChain_cons.2 ⟨hhead, htail⟩
        · intro day conId
          rw [names_cons, names_cons, names_cons, ← or_assoc]
          refine or_congr_left ⟨?_, fun hnamed => ?_⟩
          · rintro (⟨hpart, rfl⟩ | ⟨hpart, rfl⟩)
            · have hsince := hpart.1 d rfl
              refine ⟨⟨fun f hf => ?_, hpart.2⟩, rfl⟩
              have := hfirst f hf
              omega
            · have hupto := hpart.2 before rfl
              refine ⟨⟨hpart.1, fun l hl => ?_⟩, rfl⟩
              have := hlast l hl
              omega
          · obtain ⟨hday, rfl⟩ := hnamed
            rcases lt_or_ge day d.number with hlt | hge
            · refine Or.inr ⟨⟨hday.1, ?_⟩, rfl⟩
              rintro _ ⟨⟩
              omega
            · refine Or.inl ⟨⟨?_, hday.2⟩, rfl⟩
              rintro _ ⟨⟩
              exact hge
      · obtain ⟨parts, hparts, hlast, hchain, hnames⟩ := ih htail
        refine ⟨span :: parts, ?_, rfl, List.isChain_cons.2 ⟨?_, hchain⟩, fun day conId => ?_⟩
        · rw [List.map_cons, splitHolding, if_neg hholds, hparts]
          rfl
        · intro older holder
          have hmap : older.last ∈ spans.head?.map TradedSpan.last := by
            rw [← hlast]
            exact Option.mem_map_of_mem _ holder
          obtain ⟨older', holder', heq⟩ := Option.mem_map.1 hmap
          obtain ⟨f, hf, l, hl, hday⟩ := hhead older' holder'
          exact ⟨f, hf, l, heq ▸ hl, hday⟩
        · rw [names_cons, names_cons, hnames]

lemma Splits.refl (h : Consecutive spans) :
    Splits spans (spans.map TradedSpan.stretch) :=
  ⟨spans, rfl, h, fun _ _ => Iff.rfl⟩

lemma Splits.splitAt {history : List IdStretch}
    (h : Splits spans history) {day : Bytes} (hday : day ≠ firstDay) :
    Splits spans (splitAt history day) := by
  rw [IbkrDx.splitAt]
  split
  · exact h
  · next n hn =>
      obtain ⟨d, hd, rfl, rfl⟩ := date_of_dateDays hn
      obtain ⟨parts, rfl, hchain, hnames⟩ := h
      have hbefore := written_before hd hday
      obtain ⟨parts', hparts, -, hchain', hnames'⟩ := splitHolding_spans hd hbefore
        (by rw [Calendar.number_dateOf, Int.sub_add_cancel]) hchain
      refine ⟨parts', ?_, hchain', fun day conId => (hnames' day conId).trans (hnames day conId)⟩
      rw [writeDate_of_written hbefore, hparts]

lemma Splits.foldl : ∀ {days : List Bytes} {history : List IdStretch},
    Splits spans history → (∀ day ∈ days, day ≠ firstDay) →
    Splits spans (days.foldl IbkrDx.splitAt history) := by
  intro days
  induction days with
  | nil => exact fun h _ => h
  | cons day days ih =>
      intro history h hdays
      exact ih (h.splitAt (hdays day List.mem_cons_self))
        fun later hlater => hdays later (List.mem_cons_of_mem _ hlater)

lemma splits_splitAtActions (h : Consecutive spans)
    {actions : List Adjustment} (hactions : ∀ a ∈ actions, a.date ≠ firstDay) :
    Splits spans (splitAtActions (spans.map TradedSpan.stretch) actions) := by
  have hdays (kind : AdjustmentKind) : ∀ day ∈ (actions.filter fun a => a.kind = some kind).map
      Adjustment.date, day ≠ firstDay := by
    intro day hday
    obtain ⟨a, ha, rfl⟩ := List.mem_map.1 hday
    exact hactions a (List.mem_of_mem_filter ha)
  exact (((Splits.refl h).foldl (hdays .stockDividend)).foldl (hdays .split)).foldl (hdays .spinOff)

/-! ## The windows cover a request once -/

/-- The windows of a request cover it once along a history: newest first and pairwise apart,
together all it reaches from the history's first day on, and each instant under the id the history
names for its day. -/
structure CoveredOnce (reach ends : ℤ) (spans : List TradedSpan) (out : List Stretch) : Prop where
  ordered : out.Pairwise fun newer older =>
    ∀ t u, newer.Asks reach ends t → older.Asks reach ends u → u < t
  covered : ∀ t, reach ≤ t → t < ends →
    (∀ oldest ∈ spans.getLast?, ∀ d ∈ oldest.first, d.number ≤ t / msDay) →
    ∃ s ∈ out, s.Asks reach ends t
  named : ∀ s ∈ out, ∀ t, s.Asks reach ends t → ∀ conId, Names spans (t / msDay) conId →
    s.conId = conId

lemma names_reaching
    (h : Names spans day conId) : Names (reaching spans) day conId := by
  cases spans with
  | nil => exact h
  | cons newest older =>
      exact names_cons.2 ((names_cons.1 h).imp_left fun hnewest => ⟨hnewest.1.opened, hnewest.2⟩)

lemma names_unique (h : Consecutive spans)
    (hmem : span ∈ spans) (hday : span.Holds day)
    (hnames : Names spans day conId) : span.conId = conId := by
  obtain ⟨span', hmem', hday', rfl⟩ := hnames
  have hpair : spans.Pairwise fun a b => a.Holds day → b.Holds day → a.conId = b.conId := by
    refine h.after.imp ?_
    intro a b hafter ha hb
    exact absurd (hafter.lt ha hb) (lt_irrefl _)
  have hsymm : Std.Symm fun a b : TradedSpan =>
      a.Holds day → b.Holds day → a.conId = b.conId := ⟨fun _ _ hab hb ha => (hab ha hb).symm⟩
  exact hpair.forall_of_forall (fun _ _ _ _ => rfl) hmem hmem' hday hday'

lemma AskedAlong.coveredOnce {reach ends : ℤ} {out : List Stretch}
    (hspans : Consecutive spans) (hne : spans ≠ [])
    (h : AskedAlong reach ends (reaching spans) out) : CoveredOnce reach ends spans out where
  ordered := h.ordered
  covered := by
    intro t hreach hends hfirst
    obtain ⟨newest, older, rfl⟩ := List.exists_cons_of_ne_nil hne
    have holdest : ∀ oldest ∈ (reaching (newest :: older)).getLast?, ∀ d ∈ oldest.first,
        d.number ≤ t / msDay := by
      cases older with
      | nil => rintro _ ⟨⟩ d hd; exact hfirst newest rfl d hd
      | cons next older =>
          rw [reaching, List.getLast?_cons_cons]
          rwa [List.getLast?_cons_cons] at hfirst
    obtain ⟨span, hmem, hholds⟩ := hspans.reaching.exists_holds (List.cons_ne_nil _ _)
      (by rintro _ ⟨⟩ d hd; exact nomatch hd) holdest
    exact h.covered t hreach hends span hmem hholds
  named := by
    intro s hs t ht conId hnames
    obtain ⟨span, hmem, hid, hwithin⟩ := h.named s hs
    rw [hid]
    exact names_unique hspans.reaching hmem (hwithin t ht) (names_reaching hnames)

/-- **A request asked along an id history covers its span once, each day under the id it traded
as.**  A history whose days are consecutive stays one, every day under its id, when it is split at
actions; and asked along it, whatever its own ends, a request is covered once. -/
theorem along_covers (requestEnd : Bytes → Option ℤ) (stretched : ℤ → ℤ) (req : HistoricalRequest)
    {spans : List TradedSpan} (hspans : Consecutive spans) (hne : spans ≠ [])
    {ends back : ℤ} (hend : requestEnd req.endTime = some ends)
    (hback : req.back stretched = .ok back)
    (hreach : firstMillis ≤ i64 (ends - back)) (hlow : firstMillis ≤ ends)
    (hhigh : ends ≤ maxMillis) :
    (∃ out wanted joins, along requestEnd stretched req (spans.map TradedSpan.stretch)
        = .ok (out, wanted, joins) ∧ CoveredOnce (i64 (ends - back)) ends spans out) ∧
      ∀ actions : List Adjustment, (∀ a ∈ actions, a.date ≠ firstDay) →
        Splits spans (splitAtActions (spans.map TradedSpan.stretch) actions) := by
  refine ⟨?_, fun actions hactions => splits_splitAtActions hspans hactions⟩
  obtain ⟨out, joins, hout, halong⟩ := alongFrom_spans
    (req.barSize.counted.any (msDay < ·) && decide (1 < (spans.map TradedSpan.stretch).length))
    hspans hend hback hreach hlow hhigh
  obtain ⟨wanted, hwanted⟩ := wantedBars_ok (spans.map TradedSpan.stretch) hend hback
  refine ⟨out, wanted, joins, ?_, halong.coveredOnce hspans hne⟩
  rw [along]
  simp only [hout, hwanted, bind, Except.bind]
  rfl

def TradedSpan.between (conId : ℕ) (symbol : String) (f l : Date) (hf : f.Written) (hl : l.Written)
    (h : f.number ≤ l.number) : TradedSpan where
  conId := conId
  first := some f
  last := some l
  symbol := symbol
  exchange := ""
  first_written := fun _ h => Option.some.inj h ▸ hf
  last_written := fun _ h => Option.some.inj h ▸ hl
  first_le_last := fun _ hf _ hl => Option.some.inj hf ▸ Option.some.inj hl ▸ h

instance (d : Date) : Decidable d.Written := inferInstanceAs (Decidable (_ ∧ _))

/-- A contract that took a new id on 9 June 2022. -/
def renamedContract : List TradedSpan :=
  [(TradedSpan.between 2 "META" ⟨2022, 6, 9, by decide, by decide⟩
      ⟨2022, 6, 30, by decide, by decide⟩ (by decide) (by decide) (by decide)).opened,
    TradedSpan.between 1 "FB" ⟨2012, 5, 18, by decide, by decide⟩
      ⟨2022, 6, 8, by decide, by decide⟩ (by decide) (by decide) (by decide)]

/-- Bars of an hour back from the fifteenth of the month the contract was renamed in. -/
def hoursBack (duration : String) : HistoricalRequest :=
  ⟨2, false, ascii "20220615-12:00:00 UTC", ascii duration, .hour1⟩

def juneNoon : ℤ := 1655294400000

def calendarDays (count : ℤ) : ℤ := count * 61 / 42

lemma consecutive_renamedContract : Consecutive renamedContract :=
  List.isChain_pair.2 ⟨_, rfl, _, rfl, by decide⟩

theorem along_covers_renamed :
    (∃ out wanted joins, along (fun _ => some juneNoon) calendarDays (hoursBack "1 m")
        (renamedContract.map TradedSpan.stretch) = .ok (out, wanted, joins) ∧
      CoveredOnce (i64 (juneNoon - 2678400000)) juneNoon renamedContract out) ∧
    Splits renamedContract (splitAtActions (renamedContract.map TradedSpan.stretch)
      [⟨some .split, ascii "20220601"⟩]) := by
  have h := along_covers (fun _ => some juneNoon) calendarDays (hoursBack "1 m")
    consecutive_renamedContract (List.cons_ne_nil _ _) rfl
    (rfl : (hoursBack "1 m").back calendarDays = .ok 2678400000)
    (by decide) (by decide) (by decide)
  exact ⟨h.1, h.2 _ (by decide)⟩

/-- The days before the history's first are in no window, however far back a request reaches. -/
theorem years_uncovered :
    Consecutive renamedContract ∧ (hoursBack "20 y").back calendarDays = .ok 630720000000 ∧
    ∃ out wanted joins, along (fun _ => some juneNoon) calendarDays (hoursBack "20 y")
        (renamedContract.map TradedSpan.stretch) = .ok (out, wanted, joins) ∧
      ∃ t, i64 (juneNoon - 630720000000) ≤ t ∧ t < juneNoon ∧
        ∀ s ∈ out, ¬ s.Asks (i64 (juneNoon - 630720000000)) juneNoon t := by
  refine ⟨consecutive_renamedContract, rfl, _, _, _, rfl, 1262304000000, by decide, by decide, ?_⟩
  decide

end IbkrDx
