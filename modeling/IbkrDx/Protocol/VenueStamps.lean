import IbkrDx.Protocol.Datetime

/-!
# Instants written and read

A second is written as a stamp and a stamp is read, from `protocol/datetime.rs`.

* **`stamps_and_instants`** — days, dates and stamps agree, and what reads is a stamp but for those.
-/

namespace IbkrDx

open Calendar (Date)

/-! ## Days and dates -/

/-- Days since the epoch for a civil date, as it is written out for a stated day. -/
def daysFromCivil (year month day : ℤ) : ℤ :=
  let year := if month ≤ 2 then i64 (year - 1) else year
  let era := (if 0 ≤ year then year else i64 (year - 399)).tdiv 400
  let yearOfEra := i64 (year - era * 400)
  let dayOfYear := i64 ((i64 (153 * (if 2 < month then month - 3 else month + 9) + 2)).tdiv 5
    + day - 1)
  let dayOfEra := i64 (yearOfEra * 365 + yearOfEra.tdiv 4 - yearOfEra.tdiv 100 + dayOfYear)
  i64 (era * 146097 + dayOfEra - 719468)

lemma daysFromCivil_eq (year month day : ℤ) :
    daysFromCivil year month day = ymdToDays year month day := rfl

/-- The year, the month and the day of a day.  The sum is one of 64 bits. -/
def daysToYmd (days : ℕ) : ℕ × ℕ × ℕ :=
  let z := (days + 719468) % 2 ^ 64
  let era := z / 146097
  let doe := z - era * 146097
  let yoe := (doe - doe / 1460 + doe / 36524 - doe / 146096) / 365
  let y := yoe + era * 400
  let doy := doe - (365 * yoe + yoe / 4 - yoe / 100)
  let mp := (5 * doy + 2) / 153
  let d := doy - (153 * mp + 2) / 5 + 1
  let m := if mp < 10 then mp + 3 else mp - 9
  (if m ≤ 2 then y + 1 else y, m, d)

def dateNumbers (d : Date) : ℕ × ℕ × ℕ := (d.year.toNat, d.month.toNat, d.day.toNat)

lemma yearOfEra_eq {doe y : ℕ} (hy : y < 400) (hlow : 365 * y + y / 4 - y / 100 ≤ doe)
    (hhigh : doe < 365 * (y + 1) + (y + 1) / 4 - (y + 1) / 100 + (y + 1) / 400) :
    (doe - doe / 1460 + doe / 36524 - doe / 146096) / 365 = y := by
  -- a year of the era is one of four, in so many fours of a century
  obtain ⟨c, q, m, rfl, hc, hq, hm⟩ : ∃ c q m, y = 100 * c + 4 * q + m ∧ c < 4 ∧ q < 25 ∧ m < 4 :=
    ⟨y / 100, y % 100 / 4, y % 100 % 4, by omega, by omega, by omega, by omega⟩
  obtain ⟨r, rfl⟩ : ∃ r, doe = 36524 * c + 1461 * q + 365 * m + r :=
    ⟨doe - (36524 * c + 1461 * q + 365 * m), by omega⟩
  have hr : r < 365 ∨ r = 365 ∧ m = 3 ∧ (q = 24 → c = 3) := by omega
  clear hlow hhigh hy
  rcases hr with hr | ⟨rfl, rfl, hlast⟩
  · have hcentury : (36524 * c + 1461 * q + 365 * m + r) / 36524 = c := by omega
    have hera : (36524 * c + 1461 * q + 365 * m + r) / 146096 = 0 := by omega
    rw [hcentury, hera]
    obtain ⟨d, hd, hfour⟩ : ∃ d, d ≤ r ∧
        (36524 * c + 1461 * q + 365 * m + r) / 1460 = 25 * c + q + d := by
      by_cases h : 24 * c + q + 365 * m + r < 1460
      · exact ⟨0, by omega, by omega⟩
      · exact ⟨1, by omega, by omega⟩
    rw [hfour]
    omega
  · have hfour : (36524 * c + 1461 * q + 365 * 3 + 365) / 1460 = 25 * c + q + 1 := by omega
    rw [hfour]
    by_cases hq' : q = 24
    · obtain rfl := hlast hq'
      subst hq'
      decide
    · have hcentury : (36524 * c + 1461 * q + 365 * 3 + 365) / 36524 = c := by omega
      have hera : (36524 * c + 1461 * q + 365 * 3 + 365) / 146096 = 0 := by omega
      rw [hcentury, hera]
      omega
lemma yearStart_era (e y : ℕ) : Calendar.yearStart (400 * e + y) =
    (146097 * e + (365 * y + y / 4 - y / 100 + y / 400) : ℕ) := by
  have hfour : (400 * (e : ℤ) + y) / 4 = 100 * e + (y / 4 : ℕ) := by omega
  have hcentury : (400 * (e : ℤ) + y) / 100 = 4 * e + (y / 100 : ℕ) := by omega
  have hera : (400 * (e : ℤ) + y) / 400 = e + (y / 400 : ℕ) := by omega
  rw [Calendar.yearStart, hfour, hcentury, hera]
  omega

/-- **A day is the date it was counted from**, where the sum does not wrap around. -/
theorem daysToYmd_eq {n : ℕ} (h : n + 719468 < 2 ^ 64) :
    daysToYmd n = dateNumbers (Calendar.dateOf n) := by
  obtain ⟨hlow, hhigh⟩ := Calendar.yearOf_spec (n + 719468)
  have hdate : dateNumbers (Calendar.dateOf n) =
      ((Calendar.ofMarch (Calendar.yearOf (n + 719468))
          (n + 719468 - Calendar.yearStart (Calendar.yearOf (n + 719468)))).1.toNat,
        (Calendar.ofMarch (Calendar.yearOf (n + 719468))
          (n + 719468 - Calendar.yearStart (Calendar.yearOf (n + 719468)))).2.1.toNat,
        (Calendar.ofMarch (Calendar.yearOf (n + 719468))
          (n + 719468 - Calendar.yearStart (Calendar.yearOf (n + 719468)))).2.2.toNat) := rfl
  rw [hdate]
  generalize Calendar.yearOf (n + 719468) = Y at *
  obtain ⟨e, y, rfl, hy⟩ : ∃ e y : ℕ, Y = 400 * e + y ∧ y < 400 := by
    rw [Calendar.yearStart] at hhigh
    have hnonneg : 0 ≤ Y := by omega
    exact ⟨(Y / 400).toNat, (Y % 400).toNat, by omega, by omega⟩
  have hnext : (400 * (e : ℤ) + y + 1) = 400 * e + (y + 1 : ℕ) := by omega
  rw [yearStart_era] at hlow
  rw [hnext, yearStart_era] at hhigh
  have hwhole : y / 400 = 0 := by omega
  rw [hwhole] at hlow
  have hlow' : 146097 * e + (365 * y + y / 4 - y / 100) ≤ n + 719468 := by exact_mod_cast hlow
  have hhigh' : n + 719468 < 146097 * e + (365 * (y + 1) + (y + 1) / 4 - (y + 1) / 100 +
      (y + 1) / 400) := by exact_mod_cast hhigh
  clear hlow hhigh hnext
  have hz : (n + 719468) % 2 ^ 64 = n + 719468 := Nat.mod_eq_of_lt h
  have hera : (n + 719468) / 146097 = e := by omega
  have hyoe : (n + 719468 - e * 146097 - (n + 719468 - e * 146097) / 1460 +
      (n + 719468 - e * 146097) / 36524 - (n + 719468 - e * 146097) / 146096) / 365 = y :=
    yearOfEra_eq hy (by omega) (by omega)
  obtain ⟨doy, hdoy, hday, hleap⟩ : ∃ doy : ℕ,
      n + 719468 - e * 146097 - (365 * y + y / 4 - y / 100) = doy ∧
        (n : ℤ) + 719468 - Calendar.yearStart (400 * e + y) = doy ∧ doy < 366 :=
    ⟨_, rfl, by rw [yearStart_era, hwhole]; omega, by omega⟩
  unfold daysToYmd
  dsimp only
  rw [hz, hera, hyoe, hdoy, hday]
  unfold Calendar.ofMarch Calendar.monthStart
  dsimp only
  have hmonth : ((5 * (doy : ℤ) + 2) / 153) = ((5 * doy + 2) / 153 : ℕ) := by omega
  rw [hmonth]
  clear hdoy hday hyoe hera hz hlow' hhigh'
  generalize hk : (5 * doy + 2) / 153 = k
  have hfirst : (153 * k + 2) / 5 ≤ doy := by omega
  by_cases hlt : k < 10
  · have hlt' : (k : ℤ) < 10 := by omega
    rw [if_pos hlt, if_pos hlt', if_pos hlt', if_neg (by omega)]
    refine Prod.ext ?_ (Prod.ext ?_ ?_) <;> dsimp only <;> omega
  · have hlt' : ¬(k : ℤ) < 10 := by omega
    rw [if_neg hlt, if_neg hlt', if_neg hlt']
    rw [if_pos (by omega)]
    refine Prod.ext ?_ (Prod.ext ?_ ?_) <;> dsimp only <;> omega

lemma year_nonneg {n : ℕ} : 0 ≤ (Calendar.dateOf n).year := by
  have hn := Calendar.number_dateOf n
  have hnext := (Calendar.dateOf n).number_lt_next_year
  rw [hn, number_year_one, Calendar.yearStart] at hnext
  omega

lemma ymdToDays_dateNumbers {n : ℕ} (hn : n < 2 ^ 64) :
    ymdToDays (dateNumbers (Calendar.dateOf n)).1 (dateNumbers (Calendar.dateOf n)).2.1
      (dateNumbers (Calendar.dateOf n)).2.2 = i64 n := by
  have hnonneg := year_nonneg (n := n)
  have hnumber := Calendar.number_dateOf n
  generalize Calendar.dateOf n = d at *
  have hm := d.month_mem
  have hd := d.day_mem
  have hyear : ((dateNumbers d).1 : ℤ) = d.year := Int.toNat_of_nonneg hnonneg
  have hmonth : ((dateNumbers d).2.1 : ℤ) = d.month := Int.toNat_of_nonneg (by omega)
  have hday : ((dateNumbers d).2.2 : ℤ) = d.day := Int.toNat_of_nonneg (by omega)
  have hbelow : d.year < 2 ^ 60 := by
    have hmarch : d.year - 1 ≤ Calendar.marchYear d.year d.month := by
      unfold Calendar.marchYear
      split_ifs <;> omega
    have hfrom : 0 ≤ Calendar.fromMarch d.month := by
      unfold Calendar.fromMarch
      split_ifs <;> omega
    rw [Date.number, Calendar.number, Calendar.yearStart, Calendar.monthStart] at hnumber
    omega
  rw [hyear, hmonth, hday, ymdToDays_wraps hnonneg hbelow hm ⟨hd.1, hd.2.trans (daysInMonth_le _ _)⟩]
  exact congrArg i64 hnumber

lemma daysToYmd_ne {n : ℕ} (hn : n < 2 ^ 64) (h : 2 ^ 64 ≤ n + 719468) :
    daysToYmd n ≠ dateNumbers (Calendar.dateOf n) := by
  intro heq
  have hyear := congrArg Prod.fst heq
  have hz : (n + 719468) % 2 ^ 64 < 719468 := by omega
  unfold daysToYmd at hyear
  dsimp only at hyear
  generalize (n + 719468) % 2 ^ 64 = z at hyear hz
  have hnumber := Calendar.number_dateOf n
  have hnext := (Calendar.dateOf n).number_lt_next_year
  rw [hnumber, number_year_one, Calendar.yearStart] at hnext
  have hnonneg := year_nonneg (n := n)
  have hsmall : (dateNumbers (Calendar.dateOf n)).1 ≤ 2001 := by
    rw [← hyear]
    have hera : z / 146097 ≤ 4 := by omega
    split_ifs <;> omega
  have hle : (Calendar.dateOf n).year.toNat ≤ 2001 := hsmall
  omega

/-! ## A second written -/

/-- A second since the epoch, its date and its time joined by a byte. -/
def writeSecond (join : UInt8) (secs : ℕ) : Bytes :=
  let (year, month, day) := daysToYmd (secs / 86400)
  let t := secs % 86400
  Decimal.padded 4 year ++ Decimal.padded 2 month ++ Decimal.padded 2 day ++ join ::
    (Decimal.padded 2 (t / 3600) ++ 58 :: (Decimal.padded 2 (t % 3600 / 60) ++
      58 :: Decimal.padded 2 (t % 60)))

/-- Unix seconds as `YYYYMMDD HH:MM:SS`. -/
def unixToIbDatetime (secs : ℤ) : Bytes := writeSecond 32 (secs % 2 ^ 64).toNat

/-- Unix seconds as `YYYYMMDD-HH:MM:SS`. -/
def unixToIbUtcDash (secs : ℤ) : Bytes := writeSecond 45 (max secs 0).toNat

/-- The venue's timestamp read back to unix seconds. -/
def ibDatetimeToUnix (stamped : Bytes) : Option ℤ :=
  (ibDatetimeToUnixMillis stamped).map (· / 1000)

/-! ## Stamps -/

structure VenueStamp where
  date : Date
  join : UInt8
  hours : ℕ
  minutes : ℕ
  seconds : ℕ
  tail : Bytes
  written : date.Written
  joins : join = 45 ∨ join = 32
  hours_lt : hours < 24
  minutes_lt : minutes < 60
  seconds_le : seconds ≤ 60
  separated : tail = [] ∨ ∃ sep rest, tail = sep :: rest ∧ (sep = 46 ∨ sep = 44)

namespace VenueStamp

open Decimal

/-- The time of day, in three parts of two digits. -/
def clock (s : VenueStamp) : Bytes :=
  low 2 s.hours ++ 58 :: (low 2 s.minutes ++ 58 :: low 2 s.seconds)

def text (s : VenueStamp) : Bytes := s.date.text ++ s.join :: (s.clock ++ s.tail)

def fraction (s : VenueStamp) : ℤ := fractionMillis s.tail.tail

def instant (s : VenueStamp) : ℤ :=
  s.date.number * msDay +
    ((s.hours * 3600 + s.minutes * 60 + s.seconds) * 1000 + s.fraction)

lemma splitOn_clock (s : VenueStamp) :
    s.clock.splitOn 58 = [low 2 s.hours, low 2 s.minutes, low 2 s.seconds] := splitOn_parts ..

lemma cut_clock (s : VenueStamp) :
    (splitOnce (fun b => decide (b = 46 ∨ b = 44)) (s.clock ++ s.tail)).getD
      (s.clock ++ s.tail, []) = (s.clock, s.tail.tail) := by
  have hclock : ∀ c ∈ s.clock, decide (c = 46 ∨ c = 44) = false := fun _ => notSep_of_mem_parts
  rcases s.separated with hnil | ⟨sep, rest, htail, hsep⟩
  · rw [hnil, List.append_nil, splitOnce_none hclock]
    rfl
  · rw [htail, splitOnce_append hclock (decide_eq_true hsep)]
    rfl

lemma timeMillis_clock (s : VenueStamp) : timeMillis (s.clock ++ s.tail) =
    some ((s.hours * 3600 + s.minutes * 60 + s.seconds) * 1000 + s.fraction) := by
  have hhours := s.hours_lt
  have hminutes := s.minutes_lt
  have hseconds := s.seconds_le
  rw [timeMillis, s.cut_clock]
  simp only [s.splitOn_clock]
  rw [parseInt_low (by omega), parseInt_low (by omega), parseInt_low (by omega)]
  simp only [Option.bind_eq_bind, Option.bind_some]
  rw [if_pos (by omega)]
  rfl

lemma cut_date (s : VenueStamp) : splitOnce (fun b => decide (b = 45 ∨ b = 32)) s.text =
    some (s.date.text, s.clock ++ s.tail) :=
  splitOnce_append (fun _ hc => (notSep_of_isDigit (isDigit_of_mem_date hc)).1)
    (decide_eq_true s.joins)

/-- **A stamp reads as the instant it names.** -/
theorem read (s : VenueStamp) : ibDatetimeToUnixMillis s.text = some s.instant := by
  rw [ibDatetimeToUnixMillis, s.cut_date]
  simp only [Option.bind_eq_bind, Option.bind_some, dateDays_text s.written, s.timeMillis_clock]
  rfl

end VenueStamp

def stampOfSecond (join : UInt8) (hjoin : join = 45 ∨ join = 32) (secs : ℕ)
    (h : secs < 253402300800) : VenueStamp where
  date := Calendar.dateOf (secs / 86400 : ℕ)
  join
  hours := secs % 86400 / 3600
  minutes := secs % 86400 % 3600 / 60
  seconds := secs % 86400 % 60
  tail := []
  written := written_dateOf (by omega) (by omega)
  joins := hjoin
  hours_lt := by omega
  minutes_lt := by omega
  seconds_le := by omega
  separated := Or.inl rfl

lemma padded_of_lt {k n : ℕ} (h : n < 10 ^ k) : Decimal.padded k n = Decimal.low k n := by
  rw [Decimal.padded, Nat.div_eq_of_lt h, if_neg (lt_irrefl 0)]

lemma writeSecond_eq {join : UInt8} (hjoin : join = 45 ∨ join = 32) {secs : ℕ}
    (h : secs < 253402300800) :
    writeSecond join secs = (stampOfSecond join hjoin secs h).text := by
  have hwritten := written_dateOf (n := (secs / 86400 : ℕ)) (by omega) (by omega)
  have hm := (Calendar.dateOf (secs / 86400 : ℕ)).month_mem
  have hd := (Calendar.dateOf (secs / 86400 : ℕ)).day_mem.1
  have hd' := (Calendar.dateOf (secs / 86400 : ℕ)).day_le
  obtain ⟨hyear, hyear'⟩ := hwritten
  unfold writeSecond
  rw [daysToYmd_eq (by omega)]
  dsimp only [dateNumbers]
  rw [padded_of_lt (k := 4) (by omega), padded_of_lt (k := 2) (by omega),
    padded_of_lt (k := 2) (by omega), padded_of_lt (k := 2) (by omega),
    padded_of_lt (k := 2) (by omega), padded_of_lt (k := 2) (by omega)]
  have htail : (stampOfSecond join hjoin secs h).tail = [] := rfl
  rw [VenueStamp.text, htail, List.append_nil]
  rfl

/-- **A second reads back.** -/
theorem read_writeSecond {join : UInt8} (hjoin : join = 45 ∨ join = 32) {secs : ℕ}
    (h : secs < 253402300800) : ibDatetimeToUnix (writeSecond join secs) = some (secs : ℤ) := by
  have hfraction : (stampOfSecond join hjoin secs h).fraction = 0 := rfl
  have hdate : (stampOfSecond join hjoin secs h).date.number = (secs / 86400 : ℕ) :=
    Calendar.number_dateOf _
  rw [ibDatetimeToUnix, writeSecond_eq hjoin h, VenueStamp.read, Option.map_some,
    VenueStamp.instant, hfraction, hdate]
  refine congrArg some ?_
  change ((secs / 86400 : ℕ) * msDay + (((secs % 86400 / 3600 : ℕ) * 3600 +
    (secs % 86400 % 3600 / 60 : ℕ) * 60 + (secs % 86400 % 60 : ℕ)) * 1000 + 0)) / 1000 = (secs : ℤ)
  rw [msDay]
  omega

/-! ## What reads -/

def PartReads (part : Bytes) (bound : ℤ) : Prop := ∃ n, parseInt part = some n ∧ 0 ≤ n ∧ n < bound

def IsPair (part : Bytes) : Prop := part.length = 2 ∧ part.all Decimal.isDigit = true

def wholeOf (time : Bytes) : Bytes :=
  ((splitOnce (fun b => decide (b = 46 ∨ b = 44)) time).getD (time, [])).1

/-- **A lax stamp**: its day is one and the parts of its time read, and they are not three of two
digits. -/
def Lax (t : Bytes) : Prop :=
  ∃ date time hours minutes seconds rest,
    splitOnce (fun b => decide (b = 45 ∨ b = 32)) t = some (date, time) ∧
    (dateDays date).isSome ∧ (wholeOf time).splitOn 58 = hours :: minutes :: seconds :: rest ∧
    PartReads hours 24 ∧ PartReads minutes 60 ∧ PartReads seconds 61 ∧
    ¬(rest = [] ∧ IsPair hours ∧ IsPair minutes ∧ IsPair seconds)

lemma splitOnce_eq_some {sep : UInt8 → Bool} {t front rest : Bytes}
    (h : splitOnce sep t = some (front, rest)) : ∃ b, sep b = true ∧ t = front ++ b :: rest := by
  unfold splitOnce at h
  cases hdrop : t.dropWhile fun b => !sep b with
  | nil =>
      rw [hdrop] at h
      cases h
  | cons b rest' =>
      rw [hdrop] at h
      obtain ⟨rfl, rfl⟩ := Prod.mk.inj (Option.some.inj h)
      have hb := List.head?_dropWhile_not (fun b => !sep b) t
      rw [hdrop] at hb
      refine ⟨b, by simpa using hb, ?_⟩
      rw [← hdrop, List.takeWhile_append_dropWhile]

lemma low_two {part : Bytes} (h : IsPair part) : Decimal.low 2 (Decimal.value part) = part := by
  have hlow := Decimal.low_value (List.all_eq_true.1 h.2)
  rwa [h.1] at hlow

lemma exists_date {date : Bytes} (h : (dateDays date).isSome) :
    ∃ d : Date, d.Written ∧ date = d.text := by
  unfold dateDays at h
  dsimp only at h
  split_ifs at h with hdigits hdate
  · obtain ⟨hlen, hall⟩ := hdigits
    have hdigit := List.all_eq_true.1 hall
    have hyear := Decimal.low_value (t := date.take 4) fun b hb =>
      hdigit b (List.mem_of_mem_take hb)
    have hmonth := Decimal.low_value (t := (date.drop 4).take 2) fun b hb =>
      hdigit b (List.mem_of_mem_drop (List.mem_of_mem_take hb))
    have hday := Decimal.low_value (t := (date.drop 6).take 2) fun b hb =>
      hdigit b (List.mem_of_mem_drop (List.mem_of_mem_take hb))
    have hlt := Decimal.value_lt (t := date.take 4) fun b hb => hdigit b (List.mem_of_mem_take hb)
    have hlen4 : (date.take 4).length = 4 := by rw [List.length_take]; omega
    have hlen2 : ((date.drop 4).take 2).length = 2 := by
      rw [List.length_take, List.length_drop]; omega
    have hlen2' : ((date.drop 6).take 2).length = 2 := by
      rw [List.length_take, List.length_drop]; omega
    rw [hlen4] at hyear hlt
    rw [hlen2] at hmonth
    rw [hlen2'] at hday
    refine ⟨⟨_, _, _, hdate.1, hdate.2⟩, ⟨Int.natCast_nonneg _, Int.ofNat_lt.2 hlt⟩, ?_⟩
    rw [Date.text]
    dsimp only
    rw [Int.toNat_natCast, Int.toNat_natCast, Int.toNat_natCast, hyear, hmonth, hday]
    have hsix : date.drop 6 = (date.drop 4).drop 2 := by rw [List.drop_drop]
    rw [List.take_of_length_le (i := 2) (l := date.drop 6) (by rw [List.length_drop]; omega), hsix,
      List.append_assoc, List.take_append_drop, List.take_append_drop]
  · cases h
  · cases h

lemma parseInt_pair {part : Bytes} (h : IsPair part) :
    parseInt part = some (Decimal.value part : ℤ) := by
  have hlt := Decimal.value_lt (List.all_eq_true.1 h.2)
  rw [h.1] at hlt
  have hread := parseInt_low hlt
  rwa [low_two h] at hread

lemma timeMillis_isSome {time : Bytes} : (timeMillis time).isSome ↔
    ∃ hours minutes seconds rest, (wholeOf time).splitOn 58 = hours :: minutes :: seconds :: rest ∧
      PartReads hours 24 ∧ PartReads minutes 60 ∧ PartReads seconds 61 := by
  unfold timeMillis wholeOf
  obtain ⟨whole, fraction⟩ :=
    (splitOnce (fun b => decide (b = 46 ∨ b = 44)) time).getD (time, [])
  dsimp only
  constructor
  · intro h
    split at h
    case h_1 hours minutes seconds rest hparts =>
      cases hh : parseInt hours with
      | none => simp [hh] at h
      | some a =>
          cases hm : parseInt minutes with
          | none => simp [hh, hm] at h
          | some b =>
              cases hs : parseInt seconds with
              | none => simp [hh, hm, hs] at h
              | some c =>
                  simp only [hh, hm, hs, Option.bind_eq_bind, Option.bind_some] at h
                  split_ifs at h with hrange
                  · exact ⟨hours, minutes, seconds, rest, hparts, ⟨a, hh, hrange.1⟩,
                      ⟨b, hm, hrange.2.1⟩, ⟨c, hs, by omega, by omega⟩⟩
                  · cases h
    case h_2 => cases h
  · rintro ⟨hours, minutes, seconds, rest, hparts, ⟨a, hh, ha⟩, ⟨b, hm, hb⟩, ⟨c, hs, hc⟩⟩
    rw [hparts]
    simp only [hh, hm, hs, Option.bind_eq_bind, Option.bind_some]
    rw [if_pos (by omega)]
    rfl

lemma read_isSome {t : Bytes} : (ibDatetimeToUnixMillis t).isSome ↔
    ∃ date time, splitOnce (fun b => decide (b = 45 ∨ b = 32)) t = some (date, time) ∧
      (dateDays date).isSome ∧ (timeMillis time).isSome := by
  unfold ibDatetimeToUnixMillis
  constructor
  · intro h
    cases hcut : splitOnce (fun b => decide (b = 45 ∨ b = 32)) t with
    | none =>
        rw [hcut] at h
        cases h
    | some cut =>
        obtain ⟨date, time⟩ := cut
        refine ⟨date, time, rfl, ?_⟩
        rw [hcut] at h
        cases hdate : dateDays date with
        | none => simp [hdate] at h
        | some days =>
            cases htime : timeMillis time with
            | none => simp [hdate, htime] at h
            | some millis => exact ⟨rfl, rfl⟩
  · rintro ⟨date, time, hcut, hdate, htime⟩
    obtain ⟨days, hdays⟩ := Option.isSome_iff_exists.1 hdate
    obtain ⟨millis, hmillis⟩ := Option.isSome_iff_exists.1 htime
    rw [hcut]
    simp [hdays, hmillis]

lemma isPair_low (n : ℕ) : IsPair (Decimal.low 2 n) :=
  ⟨Decimal.length_low 2 n, List.all_eq_true.2 fun _ hb => Decimal.isDigit_of_mem_low hb⟩

lemma VenueStamp.not_lax (s : VenueStamp) : ¬Lax s.text := by
  rintro ⟨date, time, hours, minutes, seconds, rest, hcut, -, hparts, -, -, -, hpairs⟩
  rw [s.cut_date] at hcut
  obtain ⟨rfl, rfl⟩ := Prod.mk.inj (Option.some.inj hcut)
  rw [wholeOf, s.cut_clock, s.splitOn_clock] at hparts
  simp only [List.cons.injEq] at hparts
  obtain ⟨rfl, rfl, rfl, rfl⟩ := hparts
  exact hpairs ⟨rfl, isPair_low _, isPair_low _, isPair_low _⟩

/-- **What reads and is not lax is a stamp.** -/
theorem exists_stamp {t : Bytes} (hread : (ibDatetimeToUnixMillis t).isSome) (hlax : ¬Lax t) :
    ∃ s : VenueStamp, s.text = t := by
  obtain ⟨date, time, hcut, hdate, htime⟩ := read_isSome.1 hread
  obtain ⟨hours, minutes, seconds, rest, hparts, hh, hm, hs⟩ := timeMillis_isSome.1 htime
  obtain ⟨rfl, hhours, hminutes, hseconds⟩ :
      rest = [] ∧ IsPair hours ∧ IsPair minutes ∧ IsPair seconds := by
    by_contra hpairs
    exact hlax ⟨date, time, hours, minutes, seconds, rest, hcut, hdate, hparts, hh, hm, hs, hpairs⟩
  obtain ⟨join, hjoin, rfl⟩ := splitOnce_eq_some hcut
  obtain ⟨d, hwritten, rfl⟩ := exists_date hdate
  have hvalue {part : Bytes} {bound : ℤ} (hpair : IsPair part) (h : PartReads part bound) :
      (Decimal.value part : ℤ) < bound := by
    obtain ⟨n, hn, -, hlt⟩ := h
    rw [parseInt_pair hpair] at hn
    rw [Option.some.inj hn]
    exact hlt
  have hwhole : wholeOf time = Decimal.low 2 (Decimal.value hours) ++ 58 ::
      (Decimal.low 2 (Decimal.value minutes) ++ 58 :: Decimal.low 2 (Decimal.value seconds)) := by
    have hjoined : [58].intercalate ((wholeOf time).splitOn 58) = wholeOf time :=
      List.intercalate_splitOn 58
    rw [low_two hhours, low_two hminutes, low_two hseconds, ← hjoined, hparts]
    simp [List.intercalate]
  obtain ⟨tail, htail, hsep⟩ : ∃ tail, time = wholeOf time ++ tail ∧
      (tail = [] ∨ ∃ sep rest, tail = sep :: rest ∧ (sep = 46 ∨ sep = 44)) := by
    unfold wholeOf
    cases hfraction : splitOnce (fun b => decide (b = 46 ∨ b = 44)) time with
    | none => exact ⟨[], (List.append_nil _).symm, Or.inl rfl⟩
    | some cut =>
        obtain ⟨whole, fraction⟩ := cut
        obtain ⟨sep, hsep, rfl⟩ := splitOnce_eq_some hfraction
        exact ⟨sep :: fraction, rfl, Or.inr ⟨sep, fraction, rfl, of_decide_eq_true hsep⟩⟩
  have hlt := hvalue hhours hh
  have hlt' := hvalue hminutes hm
  have hlt'' := hvalue hseconds hs
  refine ⟨⟨d, join, Decimal.value hours, Decimal.value minutes, Decimal.value seconds, tail,
    hwritten, of_decide_eq_true hjoin, by omega, by omega, by omega, hsep⟩, ?_⟩
  rw [VenueStamp.text, VenueStamp.clock]
  dsimp only
  rw [← hwhole, ← htail]

/-! ## Stamps in their order -/

def shapeOf (t : Bytes) : Bytes := t.map fun b => if Decimal.isDigit b then 48 else b

/-- Two stamps of one shape: joined alike, and what follows alike but for the digits. -/
structure OneShape (s t : VenueStamp) : Prop where
  join : s.join = t.join
  tail : shapeOf s.tail = shapeOf t.tail

def VenueStamp.minute (s : VenueStamp) : ℤ := s.date.number * 1440 + s.hours * 60 + s.minutes

/-- A stamp of a sixtieth second and one of the minute behind it, in its first second, that states
less of a fraction. -/
def LeapBehind (s t : VenueStamp) : Prop :=
  s.seconds = 60 ∧ t.seconds = 0 ∧ t.minute = s.minute + 1 ∧ t.fraction < s.fraction

lemma all_isDigit_shape (t : Bytes) :
    (shapeOf t).all Decimal.isDigit = t.all Decimal.isDigit := by
  unfold shapeOf
  rw [List.all_map]
  refine congrArg (fun p => List.all t p) (funext fun b => ?_)
  by_cases hb : Decimal.isDigit b = true
  · simp [hb, show Decimal.isDigit 48 = true from by decide]
  · simp [hb]

lemma length_shape (t : Bytes) : (shapeOf t).length = t.length := List.length_map _

lemma fractionMillis_bounds (t : Bytes) : 0 ≤ fractionMillis t ∧ fractionMillis t < 1000 := by
  unfold fractionMillis
  split_ifs with h
  · have hdigits : ∀ b ∈ (t ++ [48, 48, 48]).take 3, Decimal.isDigit b = true := by
      intro b hb
      rcases List.mem_append.1 (List.mem_of_mem_take hb) with hb | hb
      · exact List.all_eq_true.1 h b hb
      · simp only [List.mem_cons, List.not_mem_nil, or_false] at hb
        rcases hb with rfl | rfl | rfl <;> decide
    have hlt := Decimal.value_lt hdigits
    have hlen : ((t ++ [48, 48, 48]).take 3).length = 3 := by
      rw [List.length_take, List.length_append]
      exact min_eq_left (Nat.le_add_left _ _)
    rw [hlen] at hlt
    omega
  · omega

lemma fractionMillis_mono {a b : Bytes} (hshape : shapeOf a = shapeOf b) (hlt : a < b) :
    fractionMillis a ≤ fractionMillis b := by
  have hall : a.all Decimal.isDigit = b.all Decimal.isDigit := by
    rw [← all_isDigit_shape, hshape, all_isDigit_shape]
  have hlen : a.length = b.length := by rw [← length_shape, hshape, length_shape]
  unfold fractionMillis
  rw [hall]
  split_ifs with h
  · have hdigits {t : Bytes} (ht : t.all Decimal.isDigit = true) :
        ∀ c ∈ (t ++ [48, 48, 48]).take 3, Decimal.isDigit c = true := by
      intro c hc
      rcases List.mem_append.1 (List.mem_of_mem_take hc) with hc | hc
      · exact List.all_eq_true.1 ht c hc
      · simp only [List.mem_cons, List.not_mem_nil, or_false] at hc
        rcases hc with rfl | rfl | rfl <;> decide
    have hthree (t : Bytes) : ((t ++ [48, 48, 48]).take 3).length = 3 := by
      rw [List.length_take, List.length_append]
      exact min_eq_left (Nat.le_add_left _ _)
    have hpadded : a ++ [48, 48, 48] < b ++ [48, 48, 48] :=
      (Calendar.append_lt_append_iff hlen).2 (Or.inl hlt)
    rw [← List.take_append_drop 3 (a ++ [48, 48, 48]),
      ← List.take_append_drop 3 (b ++ [48, 48, 48]),
      Calendar.append_lt_append_iff ((hthree a).trans (hthree b).symm)] at hpadded
    rcases hpadded with hless | ⟨heq, -⟩
    · have ha := Decimal.low_value (hdigits (hall.trans h))
      have hb := Decimal.low_value (hdigits h)
      have hvalue := Decimal.value_lt (hdigits (hall.trans h))
      have hvalue' := Decimal.value_lt (hdigits h)
      rw [hthree] at ha hb hvalue hvalue'
      rw [← ha, ← hb, Calendar.low_lt_iff hvalue hvalue'] at hless
      exact Int.ofNat_le.2 hless.le
    · rw [heq]
  · exact le_rfl

namespace VenueStamp

variable {s t : VenueStamp}

lemma shape_cons (b : UInt8) (l : Bytes) :
    shapeOf (b :: l) = (if Decimal.isDigit b then 48 else b) :: shapeOf l := rfl

lemma fraction_mono (h : OneShape s t) (hlt : s.tail < t.tail) : s.fraction ≤ t.fraction := by
  have hshape := h.tail
  unfold fraction
  rcases s.separated with hs | ⟨sep, rest, hs, hsep⟩
  · rw [hs] at hshape hlt
    have hnil : t.tail = [] := List.map_eq_nil_iff.1 hshape.symm
    rw [hs, hnil]
  · rcases t.separated with ht | ⟨sep', rest', ht, hsep'⟩
    · rw [ht] at hlt
      exact absurd hlt (List.not_lt_nil _)
    · have hnot : ∀ {b : UInt8}, b = 46 ∨ b = 44 → Decimal.isDigit b = false := by
        rintro b (rfl | rfl) <;> decide
      rw [hs, ht, shape_cons, shape_cons, hnot hsep, hnot hsep'] at hshape
      obtain ⟨hsame, hrest⟩ := List.cons.inj hshape
      rw [hs, ht, List.cons_lt_cons_iff] at hlt
      rw [hs, ht]
      rcases hlt with hlt | ⟨-, hlt⟩
      · exact absurd hlt (by
          rw [show sep = sep' from hsame]
          exact UInt8.lt_irrefl _)
      · exact fractionMillis_mono hrest hlt

lemma parts_of_le (h : OneShape s t) (hle : s.text < t.text ∨ s.text = t.text) :
    s.date.number < t.date.number ∨ s.date.number = t.date.number ∧
      (s.hours < t.hours ∨ s.hours = t.hours ∧ (s.minutes < t.minutes ∨ s.minutes = t.minutes ∧
        (s.seconds < t.seconds ∨ s.seconds = t.seconds ∧ s.fraction ≤ t.fraction))) := by
  have hh := s.hours_lt
  have hh' := t.hours_lt
  have hm := s.minutes_lt
  have hm' := t.minutes_lt
  have hs := s.seconds_le
  have hs' := t.seconds_le
  have hlen : ∀ m n : ℕ, (Decimal.low 2 m).length = (Decimal.low 2 n).length := fun m n => by
    rw [Decimal.length_low, Decimal.length_low]
  have hdates : s.date.text = t.date.text → s.date.number = t.date.number := fun heq => by
    have hst := Calendar.text_lt_iff s.written t.written
    have hts := Calendar.text_lt_iff t.written s.written
    have htt := Calendar.text_lt_iff t.written t.written
    rw [heq] at hst hts
    have hno : ¬t.date.text < t.date.text := fun hlt => lt_irrefl _ (htt.1 hlt)
    exact le_antisymm (not_lt.1 fun hlt => hno (hts.2 hlt)) (not_lt.1 fun hlt => hno (hst.2 hlt))
  have hnumber {m n : ℕ} (hm : m < 10 ^ 2) (hn : n < 10 ^ 2) :
      Decimal.low 2 m = Decimal.low 2 n → m = n := Calendar.low_inj hm hn
  rcases hle with hlt | heq
  · rw [text, text, Calendar.append_lt_append_iff (by rw [length_date, length_date]),
      Calendar.text_lt_iff s.written t.written, h.join, List.cons_lt_cons_iff, clock, clock,
      List.append_assoc, List.append_assoc, Calendar.append_lt_append_iff (hlen _ _),
      Calendar.low_lt_iff (by omega) (by omega), List.cons_append, List.cons_append,
      List.cons_lt_cons_iff, List.append_assoc, List.append_assoc, Calendar.append_lt_append_iff (hlen _ _),
      Calendar.low_lt_iff (by omega) (by omega), List.cons_append, List.cons_append,
      List.cons_lt_cons_iff, Calendar.append_lt_append_iff (hlen _ _),
      Calendar.low_lt_iff (by omega) (by omega)] at hlt
    rcases hlt with hdate | ⟨hdate, hlt | ⟨-, hhours | ⟨hhours, hlt | ⟨-, hminutes |
      ⟨hminutes, hlt | ⟨-, hseconds | ⟨hseconds, htail⟩⟩⟩⟩⟩⟩⟩
    · exact Or.inl hdate
    · exact absurd hlt (UInt8.lt_irrefl _)
    · exact Or.inr ⟨hdates hdate, Or.inl hhours⟩
    · exact absurd hlt (UInt8.lt_irrefl _)
    · exact Or.inr ⟨hdates hdate, Or.inr ⟨hnumber (by omega) (by omega) hhours, Or.inl hminutes⟩⟩
    · exact absurd hlt (UInt8.lt_irrefl _)
    · exact Or.inr ⟨hdates hdate, Or.inr ⟨hnumber (by omega) (by omega) hhours,
        Or.inr ⟨hnumber (by omega) (by omega) hminutes, Or.inl hseconds⟩⟩⟩
    · exact Or.inr ⟨hdates hdate, Or.inr ⟨hnumber (by omega) (by omega) hhours,
        Or.inr ⟨hnumber (by omega) (by omega) hminutes,
          Or.inr ⟨hnumber (by omega) (by omega) hseconds, fraction_mono h htail⟩⟩⟩⟩
  · have hread := s.read
    rw [heq, t.read] at hread
    have hcut := s.cut_date
    rw [heq, t.cut_date] at hcut
    obtain ⟨hdate, hrest⟩ := Prod.mk.inj (Option.some.inj hcut)
    have hclock := s.cut_clock
    rw [← hrest, t.cut_clock] at hclock
    obtain ⟨hclock, htail⟩ := Prod.mk.inj hclock
    have hparts := s.splitOn_clock
    rw [← hclock, t.splitOn_clock] at hparts
    simp only [List.cons.injEq, and_true] at hparts
    exact Or.inr ⟨hdates hdate.symm, Or.inr ⟨hnumber (by omega) (by omega) hparts.1.symm,
      Or.inr ⟨hnumber (by omega) (by omega) hparts.2.1.symm,
        Or.inr ⟨hnumber (by omega) (by omega) hparts.2.2.symm,
          (congrArg fractionMillis htail.symm).le⟩⟩⟩⟩

/-- **Stamps of one shape read in their order**, but for a leap second's fraction. -/
theorem instant_le_iff (h : OneShape s t) (hle : s.text < t.text ∨ s.text = t.text) :
    s.instant ≤ t.instant ↔ ¬LeapBehind s t := by
  have hparts := parts_of_le h hle
  have hs := fractionMillis_bounds s.tail.tail
  have ht := fractionMillis_bounds t.tail.tail
  have hh := s.hours_lt
  have hh' := t.hours_lt
  have hm := s.minutes_lt
  have hm' := t.minutes_lt
  have hsec := s.seconds_le
  have hsec' := t.seconds_le
  unfold LeapBehind instant minute msDay
  unfold fraction at *
  omega

end VenueStamp

def DayReads (n : ℕ) : Prop :=
  daysToYmd n = dateNumbers (Calendar.dateOf n) ∧
    daysFromCivil (daysToYmd n).1 (daysToYmd n).2.1 (daysToYmd n).2.2 = n ∧
    ymdToDays (daysToYmd n).1 (daysToYmd n).2.1 (daysToYmd n).2.2 = n

lemma dateReads_iff {n : ℕ} (hn : n < 2 ^ 64) :
    daysToYmd n = dateNumbers (Calendar.dateOf n) ↔ n + 719468 < 2 ^ 64 :=
  ⟨fun hdate => not_le.1 fun hwrap => daysToYmd_ne hn hwrap hdate, daysToYmd_eq⟩

/-- A day number comes back where an `i64` holds it. -/
lemma dayReads_iff {n : ℕ} (hn : n < 2 ^ 64) : DayReads n ↔ n < 2 ^ 63 := by
  constructor
  · rintro ⟨-, hnumber, -⟩
    have hlt : (n : ℤ) < 2 ^ 63 := hnumber ▸ i64_lt _
    omega
  · intro h
    have hdate := daysToYmd_eq (n := n) (by omega)
    have hnumber : ymdToDays (daysToYmd n).1 (daysToYmd n).2.1 (daysToYmd n).2.2 = n := by
      rw [hdate, ymdToDays_dateNumbers hn, i64_of_fits (by omega) (by omega)]
    exact ⟨hdate, hnumber, hnumber⟩

/-- **Days, dates, seconds and stamps agree**, and what reads is a stamp but where it is lax. -/
theorem stamps_and_instants (n secs : ℕ) (a b : Date) (s t : VenueStamp) (text : Bytes) :
    (n < 2 ^ 64 → (daysToYmd n = dateNumbers (Calendar.dateOf n) ↔ n + 719468 < 2 ^ 64) ∧
      (DayReads n ↔ n < 2 ^ 63)) ∧
    (a.Written → b.Written → a.key < b.key →
      daysFromCivil a.year a.month a.day < daysFromCivil b.year b.month b.day ∧
        ymdToDays a.year a.month a.day < ymdToDays b.year b.month b.day) ∧
    (secs < 253402300800 → ibDatetimeToUnix (unixToIbUtcDash secs) = some (secs : ℤ) ∧
      ibDatetimeToUnix (unixToIbDatetime secs) = some (secs : ℤ)) ∧
    (ibDatetimeToUnixMillis s.text = some s.instant ∧
      (OneShape s t → s.text < t.text ∨ s.text = t.text →
        (s.instant ≤ t.instant ↔ ¬LeapBehind s t))) ∧
    (((ibDatetimeToUnixMillis text).isSome → ∃ s : VenueStamp, s.text = text) ↔ ¬Lax text) := by
  refine ⟨fun hn => ⟨dateReads_iff hn, dayReads_iff hn⟩, fun ha hb hlt => ?_, fun h => ?_,
    ⟨s.read, VenueStamp.instant_le_iff⟩,
    ⟨fun h hlax => ?_, fun hlax hread => exists_stamp hread hlax⟩⟩
  · have hnumber := Date.number_lt hlt
    have hcount (d : Date) (h : d.Written) : ymdToDays d.year d.month d.day = d.number :=
      ymdToDays_eq h.1 h.2 d.month_mem ⟨d.day_mem.1, d.day_mem.2.trans (daysInMonth_le _ _)⟩
    rw [daysFromCivil_eq, daysFromCivil_eq, hcount a ha, hcount b hb]
    exact ⟨hnumber, hnumber⟩
  · have hdash : (max (secs : ℤ) 0).toNat = secs := by omega
    have hspace : ((secs : ℤ) % 2 ^ 64).toNat = secs := by omega
    rw [unixToIbUtcDash, hdash, unixToIbDatetime, hspace]
    exact ⟨read_writeSecond (Or.inl rfl) h, read_writeSecond (Or.inr rfl) h⟩
  · have hlax' := hlax
    obtain ⟨date, time, hours, minutes, seconds, rest, hcut, hdate, hparts, hh, hm, hs, -⟩ := hlax
    obtain ⟨s, rfl⟩ := h (read_isSome.2 ⟨date, time, hcut, hdate,
      timeMillis_isSome.2 ⟨hours, minutes, seconds, rest, hparts, hh, hm, hs⟩⟩)
    exact s.not_lax hlax'

/-- A time of one digit a part, with a sign and a fourth part. -/
def laxText : Bytes := ascii "20260101-+1:2:3:99"

/-- **A time of one digit a part, with a sign and a fourth part, is read.** -/
theorem lax_time_reads :
    (ibDatetimeToUnixMillis laxText).isSome ∧ ¬∃ s : VenueStamp, s.text = laxText := by
  refine ⟨by decide, fun ⟨s, hs⟩ => s.not_lax ?_⟩
  rw [hs]
  exact ⟨ascii "20260101", ascii "+1:2:3:99", ascii "+1", ascii "2", ascii "3", [ascii "99"],
    by decide, by decide, by decide, ⟨1, by decide, by decide⟩,
    ⟨2, by decide, by decide⟩, ⟨3, by decide, by decide⟩,
    fun h => absurd h.1 (List.cons_ne_nil _ _)⟩

end IbkrDx
