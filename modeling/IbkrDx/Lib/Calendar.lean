import IbkrDx.Lib.Decimal

/-!
# The Gregorian calendar

Days counted from the first of January 1970, and their dates.  The year is taken to begin in March,
so that the day that comes and goes is the last of it.

* `number` — the day a date is; `dateOf` — the date of a day.
* `Date` — a year, a month of it and a day of that.
* `Date.text` — eight digits, which stand in the order of the days.
* **`number_dateOf`** — every day has a date.
* **`text_lt_iff`** — a day is earlier than another where its text is.
-/

namespace Calendar

/-! ## Days and dates -/

def isLeap (year : ℤ) : Bool := year % 4 = 0 ∧ (year % 100 ≠ 0 ∨ year % 400 = 0)

def daysInMonth (year month : ℤ) : ℤ :=
  if month = 2 then if isLeap year then 29 else 28
  else if month = 4 ∨ month = 6 ∨ month = 9 ∨ month = 11 then 30
  else 31

def fromMarch (month : ℤ) : ℤ := if 2 < month then month - 3 else month + 9

def marchYear (year month : ℤ) : ℤ := if month ≤ 2 then year - 1 else year

def yearStart (year : ℤ) : ℤ := 365 * year + year / 4 - year / 100 + year / 400

/-- The days in front of a month, in a year that begins in March. -/
def monthStart (month : ℤ) : ℤ := (153 * month + 2) / 5

def number (year month day : ℤ) : ℤ :=
  yearStart (marchYear year month) + monthStart (fromMarch month) + day - 1 - 719468

structure Date where
  year : ℤ
  month : ℤ
  day : ℤ
  month_mem : 1 ≤ month ∧ month ≤ 12
  day_mem : 1 ≤ day ∧ day ≤ daysInMonth year month

namespace Date

def number (d : Date) : ℤ := Calendar.number d.year d.month d.day

def key (d : Date) : ℤ := d.year * 10000 + d.month * 100 + d.day

end Date

/-- The year, beginning in March, that a day counted from the first of its years falls in. -/
def yearOf (n : ℤ) : ℤ :=
  let y := 400 * n / 146097
  if n < yearStart y then y - 1 else if n < yearStart (y + 1) then y else y + 1

def ofMarch (year day : ℤ) : ℤ × ℤ × ℤ :=
  let month := (5 * day + 2) / 153
  (if month < 10 then year else year + 1, if month < 10 then month + 3 else month - 9,
    day - monthStart month + 1)

def ymdOf (n : ℤ) : ℤ × ℤ × ℤ :=
  ofMarch (yearOf (n + 719468)) (n + 719468 - yearStart (yearOf (n + 719468)))

/-! ## Every day has a date -/

lemma yearStart_pred (y : ℤ) :
    yearStart y = yearStart (y - 1) + if isLeap y then 366 else 365 := by
  unfold yearStart isLeap
  split_ifs with h <;> simp only [decide_eq_true_eq] at h <;> omega

lemma yearOf_spec (n : ℤ) : yearStart (yearOf n) ≤ n ∧ n < yearStart (yearOf n + 1) := by
  unfold yearOf yearStart
  simp only []
  split_ifs <;> omega

lemma ofMarch_spec (y day : ℤ) (h : 0 ≤ day) (h' : yearStart y + day < yearStart (y + 1)) :
    (1 ≤ (ofMarch y day).2.1 ∧ (ofMarch y day).2.1 ≤ 12) ∧
    (1 ≤ (ofMarch y day).2.2 ∧
      (ofMarch y day).2.2 ≤ daysInMonth (ofMarch y day).1 (ofMarch y day).2.1) ∧
    number (ofMarch y day).1 (ofMarch y day).2.1 (ofMarch y day).2.2
      = yearStart y + day - 719468 := by
  have hsucc := yearStart_pred (y + 1)
  rw [Int.add_sub_cancel] at hsucc
  have hlow : 0 ≤ (5 * day + 2) / 153 := by omega
  have hlt : day < 366 := by split_ifs at hsucc <;> omega
  have hhigh : (5 * day + 2) / 153 ≤ 11 := by omega
  unfold ofMarch number marchYear fromMarch monthStart daysInMonth
  simp only []
  generalize hk : (5 * day + 2) / 153 = k at *
  -- one case a month: only February's last day hangs on the year
  interval_cases k <;> norm_num <;> first
    | omega
    | (split_ifs at * <;> omega)

def dateOf (n : ℤ) : Date :=
  have h := yearOf_spec (n + 719468)
  have hspec := ofMarch_spec (yearOf (n + 719468))
    (n + 719468 - yearStart (yearOf (n + 719468))) (by omega) (by omega)
  ⟨(ymdOf n).1, (ymdOf n).2.1, (ymdOf n).2.2, hspec.1, hspec.2.1⟩

/-- **Every day has a date.** -/
theorem number_dateOf (n : ℤ) : (dateOf n).number = n := by
  have h := yearOf_spec (n + 719468)
  have hspec := ofMarch_spec (yearOf (n + 719468))
    (n + 719468 - yearStart (yearOf (n + 719468))) (by omega) (by omega)
  refine hspec.2.2.trans ?_
  omega

/-! ## Dates stand in the order of their days -/

lemma number_lt_month {y m d : ℤ} (hm : 1 ≤ m ∧ m < 12) (hd : d ≤ daysInMonth y m) :
    number y m d < number y (m + 1) 1 := by
  obtain ⟨hlow, hhigh⟩ := hm
  have hyear := yearStart_pred y
  unfold daysInMonth at hd
  unfold number marchYear fromMarch monthStart
  interval_cases m <;> norm_num at hd ⊢ <;> first
    | omega
    | (split_ifs at * <;> omega)

lemma number_lt_year {y d : ℤ} (hd : d ≤ daysInMonth y 12) :
    number y 12 d < number (y + 1) 1 1 := by
  unfold daysInMonth at hd
  unfold number marchYear fromMarch monthStart
  norm_num at hd ⊢
  omega

lemma number_first_le {y m m' : ℤ} (hm : 1 ≤ m) (hle : m ≤ m') (hm' : m' ≤ 12) :
    number y m 1 ≤ number y m' 1 := by
  induction m', hle using Int.leInduction with
  | base => exact le_rfl
  | succ k hk ih =>
      refine (ih (by omega)).trans (number_lt_month ⟨hm.trans hk, by omega⟩ ?_).le
      unfold daysInMonth
      split_ifs <;> omega

lemma yearStart_le {y y' : ℤ} (h : y ≤ y') : yearStart y ≤ yearStart y' := by
  unfold yearStart
  omega

lemma number_year_le {y y' : ℤ} (h : y ≤ y') : number y 1 1 ≤ number y' 1 1 := by
  have hle := yearStart_le (Int.sub_le_sub_right h 1)
  unfold number marchYear
  norm_num
  exact hle

namespace Date

variable {a b : Date}

lemma day_le (d : Date) : d.day ≤ 31 := by
  have h := d.day_mem.2
  unfold daysInMonth at h
  split_ifs at h <;> omega

lemma number_lt_next_year (d : Date) : d.number < Calendar.number (d.year + 1) 1 1 := by
  have hlast : Calendar.number d.year 12 1 < Calendar.number (d.year + 1) 1 1 :=
    number_lt_year (by unfold daysInMonth; split_ifs <;> omega)
  obtain ⟨hlow, hhigh⟩ := d.month_mem
  rcases eq_or_lt_of_le hhigh with hm | hm
  · have h := d.day_mem.2
    rw [hm] at h
    rw [number, hm]
    exact number_lt_year h
  · have h := number_lt_month ⟨hlow, hm⟩ d.day_mem.2
    exact (h.trans_le (number_first_le (by omega) (by omega) le_rfl)).trans hlast

lemma first_le_number (d : Date) : Calendar.number d.year d.month 1 ≤ d.number := by
  have h := d.day_mem.1
  unfold number Calendar.number
  omega

lemma number_lt (h : a.key < b.key) : a.number < b.number := by
  have ha := a.day_le
  have hb := b.day_le
  have ham := a.month_mem
  have hbm := b.month_mem
  have had := a.day_mem
  have hbd := b.day_mem
  unfold key at h
  rcases lt_trichotomy a.year b.year with hy | hy | hy
  · calc a.number < Calendar.number (a.year + 1) 1 1 := a.number_lt_next_year
      _ ≤ Calendar.number b.year 1 1 := number_year_le hy
      _ ≤ Calendar.number b.year b.month 1 := number_first_le le_rfl hbm.1 hbm.2
      _ ≤ b.number := b.first_le_number
  · rcases lt_trichotomy a.month b.month with hm | hm | hm
    · calc a.number < Calendar.number a.year (a.month + 1) 1 :=
            number_lt_month ⟨ham.1, by omega⟩ had.2
        _ ≤ Calendar.number a.year b.month 1 := number_first_le (by omega) hm hbm.2
        _ = Calendar.number b.year b.month 1 := by rw [hy]
        _ ≤ b.number := b.first_le_number
    · rw [hy, hm] at h
      unfold number
      rw [hy, hm]
      unfold Calendar.number
      omega
    · omega
  · omega

lemma key_inj (h : a.key = b.key) : a = b := by
  have ha := a.day_le
  have hb := b.day_le
  have ham := a.month_mem
  have hbm := b.month_mem
  have had := a.day_mem
  have hbd := b.day_mem
  unfold key at h
  have hy : a.year = b.year := by omega
  have hm : a.month = b.month := by omega
  have hd : a.day = b.day := by omega
  cases a
  cases b
  simp only at hy hm hd
  subst hy hm hd
  rfl

/-- **A day is earlier than another where its date is.** -/
theorem number_lt_iff : a.number < b.number ↔ a.key < b.key := by
  refine ⟨fun h => ?_, number_lt⟩
  rcases lt_trichotomy a.key b.key with hlt | heq | hgt
  · exact hlt
  · rw [key_inj heq] at h
    exact absurd h (lt_irrefl _)
  · exact absurd (h.trans (number_lt hgt)) (lt_irrefl _)

lemma number_inj (h : a.number = b.number) : a = b := by
  rcases lt_trichotomy a.key b.key with hlt | heq | hgt
  · exact absurd (number_lt hlt) (by rw [h]; exact lt_irrefl _)
  · exact key_inj heq
  · exact absurd (number_lt hgt) (by rw [h]; exact lt_irrefl _)

end Date

/-! ## Dates as text -/

open Decimal

lemma low_append (j a : ℕ) : ∀ (k : ℕ) {b : ℕ}, b < 10 ^ k →
    low (j + k) (a * 10 ^ k + b) = low j a ++ low k b
  | 0, b, hb => by
      obtain rfl : b = 0 := by simpa using hb
      simp [low]
  | k + 1, b, hb => by
      have hdiv : (a * 10 ^ (k + 1) + b) / 10 = a * 10 ^ k + b / 10 := by
        rw [pow_succ, ← mul_assoc, Nat.add_comm, Nat.add_mul_div_right _ _ (by decide),
          Nat.add_comm]
      have hmod : (a * 10 ^ (k + 1) + b) % 10 = b % 10 := by
        rw [pow_succ, ← mul_assoc, Nat.mul_add_mod']
      have hlt : b / 10 < 10 ^ k := Nat.div_lt_of_lt_mul (by rwa [pow_succ'] at hb)
      rw [← Nat.add_assoc, low, hdiv, hmod, low_append j a k hlt, low, List.append_assoc]

lemma append_lt_append_iff {α : Type*} [LT α] : ∀ {s t x y : List α},
    s.length = t.length → (s ++ x < t ++ y ↔ s < t ∨ s = t ∧ x < y)
  | [], [], x, y, _ => by simp
  | a :: s, b :: t, x, y, h => by
      have ih := append_lt_append_iff (x := x) (y := y) (Nat.succ.inj h)
      simp only [List.cons_append, List.cons_lt_cons_iff, ih, List.cons.injEq]
      tauto

lemma append_lt_append {α : Type*} [LT α] {s t : List α} {x y : α} (h : s.length = t.length) :
    s ++ [x] < t ++ [y] ↔ s < t ∨ s = t ∧ x < y := by
  rw [append_lt_append_iff h]
  simp [List.cons_lt_cons_iff]

lemma digit_lt_iff {a b : ℕ} (ha : a < 10) (hb : b < 10) : digit a < digit b ↔ a < b := by
  have hvalue {d : ℕ} (hd : d < 10) : (digit d).toNat = 48 + d := by
    interval_cases d <;> decide
  rw [UInt8.lt_iff_toNat_lt, hvalue ha, hvalue hb]
  omega

lemma low_inj : ∀ {k a b : ℕ}, a < 10 ^ k → b < 10 ^ k → low k a = low k b → a = b := by
  intro k a b ha hb h
  have hvalue := congrArg value h
  rwa [value_low, value_low, Nat.mod_eq_of_lt ha, Nat.mod_eq_of_lt hb] at hvalue

lemma low_lt_iff : ∀ {k a b : ℕ}, a < 10 ^ k → b < 10 ^ k → (low k a < low k b ↔ a < b)
  | 0, a, b, ha, hb => by
      obtain rfl : a = 0 := by simpa using ha
      obtain rfl : b = 0 := by simpa using hb
      simp [low]
  | k + 1, a, b, ha, hb => by
      have ha' : a / 10 < 10 ^ k := Nat.div_lt_of_lt_mul (by rwa [pow_succ'] at ha)
      have hb' : b / 10 < 10 ^ k := Nat.div_lt_of_lt_mul (by rwa [pow_succ'] at hb)
      have hlen : (low k (a / 10)).length = (low k (b / 10)).length := by
        rw [length_low, length_low]
      have hdigit := digit_lt_iff (Nat.mod_lt a (show 0 < 10 by decide))
        (Nat.mod_lt b (show 0 < 10 by decide))
      rw [low, low, append_lt_append hlen, low_lt_iff ha' hb', hdigit]
      constructor
      · rintro (h | ⟨h, h'⟩)
        · omega
        · have := low_inj ha' hb' h
          omega
      · intro h
        rcases lt_or_eq_of_le (Nat.div_le_div_right (c := 10) h.le) with hlt | heq
        · exact Or.inl hlt
        · exact Or.inr ⟨congrArg _ heq, by omega⟩

def Date.text (d : Date) : List UInt8 :=
  low 4 d.year.toNat ++ low 2 d.month.toNat ++ low 2 d.day.toNat

def Date.Written (d : Date) : Prop := 0 ≤ d.year ∧ d.year < 10000

lemma Date.text_eq {d : Date} (h : d.Written) : d.text = low 8 d.key.toNat := by
  have hday := d.day_le
  have hm := d.month_mem
  have hd := d.day_mem
  have hkey : d.key.toNat = (d.year.toNat * 10 ^ 2 + d.month.toNat) * 10 ^ 2 + d.day.toNat := by
    obtain ⟨hlow, hhigh⟩ := h
    unfold key
    omega
  rw [hkey, show 8 = 4 + 2 + 2 from rfl, low_append _ _ 2 (by omega), low_append _ _ 2 (by omega)]
  rfl

/-- **A day is earlier than another where its text is.** -/
theorem text_lt_iff {a b : Date} (ha : a.Written) (hb : b.Written) :
    a.text < b.text ↔ a.number < b.number := by
  have hbound {d : Date} (h : d.Written) : 0 ≤ d.key ∧ d.key.toNat < 10 ^ 8 := by
    have hday := d.day_le
    have hm := d.month_mem
    have hd := d.day_mem
    obtain ⟨hlow, hhigh⟩ := h
    unfold Date.key
    omega
  have hA := hbound ha
  have hB := hbound hb
  rw [Date.text_eq ha, Date.text_eq hb, low_lt_iff hA.2 hB.2, Date.number_lt_iff]
  omega

end Calendar
