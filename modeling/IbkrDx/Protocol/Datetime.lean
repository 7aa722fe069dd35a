import Mathlib.Data.List.TakeWhile
import IbkrDx.Lib.Calendar
import IbkrDx.Protocol.Fix

/-!
# The venue's stamps

The reader of a stamp, `ib_datetime_to_unix_millis` of `protocol/datetime.rs`, and what it reads of
a date and a time of day.

* **`timeMillis_writeTime`**, **`dateDays_text`** — a time and a date read back.
-/

namespace IbkrDx

open Calendar (Date)

/-! ## Stamps -/

def msDay : ℤ := 86400000

/-- The parts of a text in front of and behind the first of some bytes. -/
def splitOnce (sep : UInt8 → Bool) (t : Bytes) : Option (Bytes × Bytes) :=
  match t.dropWhile fun b => !sep b with
  | [] => none
  | _ :: rest => some (t.takeWhile fun b => !sep b, rest)

/-- `str::parse::<i64>`. -/
def parseInt (t : Bytes) : Option ℤ :=
  match t with
  | 45 :: ds => if ds.head? = some 43 then none
      else (Decimal.parse (2 ^ 63 + 1) ds).map fun n : ℕ => -(n : ℤ)
  | _ => (Decimal.parse (2 ^ 63) t).map fun n : ℕ => (n : ℤ)

/-- A 64-bit integer, wrapped around. -/
def i64 (n : ℤ) : ℤ := n.bmod (2 ^ 64)

/-- Days since the epoch for a civil date, in `i64`. -/
def ymdToDays (year month day : ℤ) : ℤ :=
  let y := if month ≤ 2 then i64 (year - 1) else year
  let era := (if 0 ≤ y then y else i64 (y - 399)).tdiv 400
  let yoe := i64 (y - era * 400)
  let doy := i64 ((i64 (153 * (if 2 < month then month - 3 else month + 9) + 2)).tdiv 5
    + day - 1)
  let doe := i64 (yoe * 365 + yoe.tdiv 4 - yoe.tdiv 100 + doy)
  i64 (era * 146097 + doe - 719468)

/-- The milliseconds a fraction of a second states: its first three digits. -/
def fractionMillis (fraction : Bytes) : ℤ :=
  if fraction.all Decimal.isDigit then
    Decimal.value ((fraction ++ [48, 48, 48]).take 3)
  else 0

def timeMillis (time : Bytes) : Option ℤ :=
  let (whole, fraction) := (splitOnce (fun b => b = 46 ∨ b = 44) time).getD (time, [])
  match whole.splitOn 58 with
  | hours :: minutes :: seconds :: _ => do
      let hours ← parseInt hours
      let minutes ← parseInt minutes
      let seconds ← parseInt seconds
      if (0 ≤ hours ∧ hours < 24) ∧ (0 ≤ minutes ∧ minutes < 60) ∧ (0 ≤ seconds ∧ seconds ≤ 60) then
        some ((hours * 3600 + minutes * 60 + seconds) * 1000 + fractionMillis fraction)
      else none
  | _ => none

def dateDays (date : Bytes) : Option ℤ :=
  if date.length = 8 ∧ date.all Decimal.isDigit then
    let year : ℤ := Decimal.value (date.take 4)
    let month : ℤ := Decimal.value ((date.drop 4).take 2)
    let day : ℤ := Decimal.value ((date.drop 6).take 2)
    if (1 ≤ month ∧ month ≤ 12) ∧ 1 ≤ day ∧ day ≤ Calendar.daysInMonth year month then
      some (ymdToDays year month day)
    else none
  else none

/-- The venue's timestamp read back to unix milliseconds. -/
def ibDatetimeToUnixMillis (stamped : Bytes) : Option ℤ := do
  let (date, time) ← splitOnce (fun b => b = 45 ∨ b = 32) stamped
  let days ← dateDays date
  let millis ← timeMillis time
  return days * msDay + millis

/-- A time of day as `%H:%M:%S` writes it. -/
def writeTime (seconds : ℤ) : Bytes :=
  Decimal.low 2 (seconds / 3600).toNat ++ 58 :: (Decimal.low 2 (seconds % 3600 / 60).toNat ++
    58 :: Decimal.low 2 (seconds % 60).toNat)

/-! ## Days as text -/

lemma i64_lt (x : ℤ) : i64 x < 2 ^ 63 := Int.bmod_lt (by decide)

lemma i64_of_fits {x : ℤ} (hlow : -2 ^ 63 ≤ x) (hhigh : x < 2 ^ 63) : i64 x = x :=
  Int.bmod_eq_of_le (by omega) (by omega)

/-- A civil date counts as the calendar's, but for the last sum. -/
lemma ymdToDays_wraps {year month day : ℤ} (hyear : 0 ≤ year) (hyear' : year < 2 ^ 60)
    (hm : 1 ≤ month ∧ month ≤ 12) (hd : 1 ≤ day ∧ day ≤ 31) :
    ymdToDays year month day = i64 (Calendar.number year month day) := by
  have hfirst : i64 (year - 1) = year - 1 := i64_of_fits (by omega) (by omega)
  have hmarch : -1 ≤ Calendar.marchYear year month ∧ Calendar.marchYear year month < 2 ^ 60 := by
    unfold Calendar.marchYear
    split_ifs <;> omega
  have hera : ∀ y : ℤ, -1 ≤ y → (if 0 ≤ y then y else i64 (y - 399)).tdiv 400 = y / 400 := by
    intro y hy
    split_ifs with h
    · exact Int.tdiv_eq_ediv_of_nonneg h
    · obtain rfl : y = -1 := by omega
      decide
  have h := hera _ hmarch.1
  have hmonth : 0 ≤ 153 * (if 2 < month then month - 3 else month + 9) + 2 ∧
      153 * (if 2 < month then month - 3 else month + 9) + 2 < 1700 := by
    split_ifs <;> omega
  rw [Calendar.marchYear] at h hmarch
  rw [ymdToDays, Calendar.number, Calendar.yearStart, Calendar.monthStart, Calendar.fromMarch,
    Calendar.marchYear]
  simp only [hfirst, h]
  generalize hy : (if month ≤ 2 then year - 1 else year) = y at *
  generalize hk : (if 2 < month then month - 3 else month + 9) = k at *
  have hyoe : i64 (y - y / 400 * 400) = y - y / 400 * 400 :=
    i64_of_fits (by omega) (by omega)
  rw [hyoe, i64_of_fits (x := 153 * k + 2) (by omega) (by omega),
    Int.tdiv_eq_ediv_of_nonneg (by omega), Int.tdiv_eq_ediv_of_nonneg (by omega),
    Int.tdiv_eq_ediv_of_nonneg (by omega), i64_of_fits (x := _ + day - 1) (by omega) (by omega),
    i64_of_fits (x := _ + _) (by omega) (by omega)]
  congr 1
  omega

lemma ymdToDays_eq {year month day : ℤ} (hyear : 0 ≤ year) (hyear' : year < 10000)
    (hm : 1 ≤ month ∧ month ≤ 12) (hd : 1 ≤ day ∧ day ≤ 31) :
    ymdToDays year month day = Calendar.number year month day := by
  rw [ymdToDays_wraps hyear (by omega) hm hd]
  have hmarch : -1 ≤ Calendar.marchYear year month ∧ Calendar.marchYear year month < 10000 := by
    unfold Calendar.marchYear
    split_ifs <;> omega
  have hmonth : 0 ≤ Calendar.fromMarch month ∧ Calendar.fromMarch month < 12 := by
    unfold Calendar.fromMarch
    split_ifs <;> omega
  refine i64_of_fits ?_ ?_ <;>
    rw [Calendar.number, Calendar.yearStart, Calendar.monthStart] <;> omega

lemma daysInMonth_le (year month : ℤ) : Calendar.daysInMonth year month ≤ 31 := by
  unfold Calendar.daysInMonth
  split_ifs <;> omega

section

open Decimal

lemma take_low_append {j : ℕ} (n : ℕ) (rest : Bytes) : (low j n ++ rest).take j = low j n :=
  List.take_left' (length_low j n)

lemma drop_low_append {j : ℕ} (n : ℕ) (rest : Bytes) : (low j n ++ rest).drop j = rest :=
  List.drop_left' (length_low j n)

lemma isDigit_of_mem_date {d : Date} {b : UInt8} (hb : b ∈ d.text) : isDigit b = true := by
  rcases List.mem_append.1 hb with hb | hb
  · rcases List.mem_append.1 hb with hb | hb
    · exact isDigit_of_mem_low hb
    · exact isDigit_of_mem_low hb
  · exact isDigit_of_mem_low hb

lemma dateDays_text {d : Date} (h : d.Written) : dateDays d.text = some d.number := by
  have hday := d.day_le
  have hm := d.month_mem
  have hd := d.day_mem
  obtain ⟨hlow, hhigh⟩ := h
  have hlen : d.text.length = 8 := by
    rw [Date.text, List.length_append, List.length_append, length_low, length_low, length_low]
  have hdigits : d.text.all isDigit = true :=
    List.all_eq_true.2 fun b hb => isDigit_of_mem_date hb
  have hsix : d.text.drop 6 = low 2 d.day.toNat :=
    List.drop_left' (by rw [List.length_append, length_low, length_low])
  have hfour : d.text.drop 4 = low 2 d.month.toNat ++ low 2 d.day.toNat := by
    rw [Date.text, List.append_assoc, drop_low_append]
  have hyear : d.text.take 4 = low 4 d.year.toNat := by
    rw [Date.text, List.append_assoc, take_low_append]
  have hvalue {k : ℕ} {v : ℤ} (hv : 0 ≤ v) (hlt : v.toNat < 10 ^ k) :
      (value (low k v.toNat) : ℤ) = v := by
    rw [value_low, Nat.mod_eq_of_lt hlt]
    omega
  have hwhole : (low 2 d.day.toNat).take 2 = low 2 d.day.toNat :=
    List.take_of_length_le (length_low _ _).le
  rw [dateDays, if_pos ⟨hlen, hdigits⟩, hyear, hfour, hsix, take_low_append, hwhole,
    hvalue hlow (by omega), hvalue (by omega) (by omega), hvalue (by omega) (by omega)]
  simp only []
  rw [if_pos ⟨hm, hd⟩, ymdToDays_eq hlow hhigh hm ⟨hd.1, hd.2.trans (daysInMonth_le _ _)⟩]
  rfl

lemma splitOnce_append {sep : UInt8 → Bool} {front rest : Bytes} {b : UInt8}
    (hfront : ∀ c ∈ front, sep c = false) (hb : sep b = true) :
    splitOnce sep (front ++ b :: rest) = some (front, rest) := by
  have hpass : ∀ c ∈ front, (!sep c) = true := fun c hc => by rw [hfront c hc]; rfl
  rw [splitOnce, List.dropWhile_append_of_pos hpass, List.takeWhile_append_of_pos hpass,
    List.dropWhile_cons_of_neg (by rw [hb]; decide),
    List.takeWhile_cons_of_neg (by rw [hb]; decide), List.append_nil]

lemma splitOnce_none {sep : UInt8 → Bool} {t : Bytes} (h : ∀ c ∈ t, sep c = false) :
    splitOnce sep t = none := by
  have hdrop : (t.dropWhile fun b => !sep b) = [] :=
    List.dropWhile_eq_nil_iff.2 fun c hc => by rw [h c hc]; rfl
  rw [splitOnce, hdrop]

lemma notSep_of_isDigit {c : UInt8} (h : isDigit c = true) :
    decide (c = 45 ∨ c = 32) = false ∧ decide (c = 46 ∨ c = 44) = false ∧ c ≠ 58 := by
  rw [isDigit, decide_eq_true_eq, UInt8.le_iff_toNat_le, UInt8.le_iff_toNat_le] at h
  have hne {k : UInt8} (hk : k.toNat < 48 ∨ 57 < k.toNat) : c ≠ k := by
    rintro rfl
    have hlow : 48 ≤ c.toNat := h.1
    have hhigh : c.toNat ≤ 57 := h.2
    omega
  refine ⟨?_, ?_, hne (Or.inr (by decide))⟩
  · exact decide_eq_false (not_or.2 ⟨hne (Or.inl (by decide)), hne (Or.inl (by decide))⟩)
  · exact decide_eq_false (not_or.2 ⟨hne (Or.inl (by decide)), hne (Or.inl (by decide))⟩)

lemma parseInt_low {n : ℕ} (h : n < 100) : parseInt (low 2 n) = some (n : ℤ) := by
  have hdigits : ∀ b ∈ low 2 n, isDigit b = true := fun b hb => isDigit_of_mem_low hb
  have hread : parse (2 ^ 63) (low 2 n) = some n := by
    have hvalue : value (low 2 n) = n := by
      rw [value_low, Nat.mod_eq_of_lt (by omega)]
    rw [parse_digits (List.ne_nil_of_length_pos (by rw [length_low]; decide)) hdigits
      (by rw [hvalue]; omega), hvalue]
  unfold parseInt
  split
  · next ds hds =>
      have := hdigits 45 (hds ▸ List.mem_cons_self)
      exact absurd this (by decide)
  · rw [hread]
    rfl

/-- Three parts of two digits have their colons, and no other separator. -/
lemma notSep_of_mem_parts {h m s : ℕ} {c : UInt8}
    (hc : c ∈ low 2 h ++ 58 :: (low 2 m ++ 58 :: low 2 s)) :
    decide (c = 46 ∨ c = 44) = false := by
  simp only [List.mem_append, List.mem_cons] at hc
  rcases hc with hc | rfl | hc | rfl | hc
  · exact (notSep_of_isDigit (isDigit_of_mem_low hc)).2.1
  · decide
  · exact (notSep_of_isDigit (isDigit_of_mem_low hc)).2.1
  · decide
  · exact (notSep_of_isDigit (isDigit_of_mem_low hc)).2.1

lemma splitOn_parts (h m s : ℕ) : (low 2 h ++ 58 :: (low 2 m ++ 58 :: low 2 s)).splitOn 58 =
    [low 2 h, low 2 m, low 2 s] := by
  have hno {n : ℕ} : (58 : UInt8) ∉ low 2 n := fun h =>
    (notSep_of_isDigit (isDigit_of_mem_low h)).2.2 rfl
  rw [List.splitOn_append_cons_self_of_not_mem hno,
    List.splitOn_append_cons_self_of_not_mem hno, List.splitOn_eq_singleton hno]

lemma timeMillis_writeTime {seconds : ℤ} (hlow : 0 ≤ seconds) (hhigh : seconds < 86400) :
    timeMillis (writeTime seconds) = some (seconds * 1000) := by
  have hwhole : splitOnce (fun b => decide (b = 46 ∨ b = 44)) (writeTime seconds) = none :=
    splitOnce_none fun c hc => notSep_of_mem_parts hc
  have hparts : (writeTime seconds).splitOn 58 = [low 2 (seconds / 3600).toNat,
      low 2 (seconds % 3600 / 60).toNat, low 2 (seconds % 60).toNat] := splitOn_parts ..
  rw [timeMillis, hwhole]
  simp only [Option.getD_none, hparts]
  rw [parseInt_low (by omega), parseInt_low (by omega), parseInt_low (by omega)]
  simp only [Option.bind_eq_bind, Option.bind_some]
  rw [if_pos (by omega)]
  have hnone : fractionMillis [] = 0 := rfl
  rw [hnone]
  exact congrArg some (by omega)

end

lemma length_date (d : Date) : d.text.length = 8 := by
  rw [Date.text, List.length_append, List.length_append, Decimal.length_low, Decimal.length_low,
    Decimal.length_low]

lemma ibDatetimeToUnixMillis_stamp {d : Date} (h : d.Written) {time : Bytes} {millis : ℤ}
    (htime : timeMillis time = some millis) :
    ibDatetimeToUnixMillis (d.text ++ 45 :: time) = some (d.number * msDay + millis) := by
  have hcut : splitOnce (fun b => decide (b = 45 ∨ b = 32)) (d.text ++ 45 :: time)
      = some (d.text, time) :=
    splitOnce_append (fun c hc => (notSep_of_isDigit (isDigit_of_mem_date hc)).1) (by decide)
  rw [ibDatetimeToUnixMillis, hcut]
  simp only [Option.bind_eq_bind, Option.bind_some, dateDays_text h, htime]
  rfl

/-! ## Years of four digits -/

lemma number_year_one (y : ℤ) :
    Calendar.number y 1 1 = Calendar.yearStart (y - 1) + 306 - 719468 := by
  unfold Calendar.number Calendar.marchYear Calendar.fromMarch Calendar.monthStart
  norm_num

lemma written_dateOf {n : ℤ} (hlow : -719528 ≤ n) (hhigh : n < 2932897) :
    (Calendar.dateOf n).Written := by
  have hn := Calendar.number_dateOf n
  have hnext := (Calendar.dateOf n).number_lt_next_year
  have hfirst := (Calendar.dateOf n).first_le_number
  have hmonth := Calendar.number_first_le (y := (Calendar.dateOf n).year) le_rfl
    (Calendar.dateOf n).month_mem.1 (Calendar.dateOf n).month_mem.2
  rw [hn] at hnext hfirst
  rw [number_year_one] at hnext hmonth
  rw [Int.add_sub_cancel] at hnext
  refine ⟨not_lt.1 fun hneg => ?_, not_le.1 fun hlong => ?_⟩
  · have hle : Calendar.yearStart (Calendar.dateOf n).year ≤ Calendar.yearStart (-1) :=
      Calendar.yearStart_le (by omega)
    have hfirst : Calendar.yearStart (-1) = -366 := by decide
    omega
  · have hle : Calendar.yearStart 9999 ≤ Calendar.yearStart ((Calendar.dateOf n).year - 1) :=
      Calendar.yearStart_le (by omega)
    have hlast : Calendar.yearStart 9999 = 3652059 := by decide
    omega

end IbkrDx
