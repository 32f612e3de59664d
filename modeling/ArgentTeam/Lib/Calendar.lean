import Mathlib.Tactic.IntervalCases

/-!
# Dates

The dates of the proleptic Gregorian calendar from the year 1 on, and their numbers: the first of
January of the year 1 has the number 1. The number of a date grows with its year, its month and its
day in this order (`Date.ordinal_lt_iff`), and each number is that of a date
(`Date.ordinal_ofOrdinal`).
-/

namespace Calendar

/-! ### Years and months -/

/-- The year has a day more. -/
def isLeap (y : ℕ) : Bool := y % 4 = 0 && (y % 100 ≠ 0 || y % 400 = 0)

def yearLength (y : ℕ) : ℕ := if isLeap y then 366 else 365

def daysBeforeYear (y : ℕ) : ℕ := (y - 1) * 365 + (y - 1) / 4 + (y - 1) / 400 - (y - 1) / 100

/-- The days of a month, in a leap year or not. -/
def daysInMonth (leap : Bool) (m : ℕ) : ℕ :=
  if m = 2 then (if leap then 29 else 28)
  else if m = 4 ∨ m = 6 ∨ m = 9 ∨ m = 11 then 30
  else 31

def daysBeforeMonth (leap : Bool) (m : ℕ) : ℕ :=
  [0, 31, 59, 90, 120, 151, 181, 212, 243, 273, 304, 334].getD (m - 1) 0 +
    if 2 < m ∧ leap then 1 else 0

theorem daysBeforeYear_succ {y : ℕ} (hy : 1 ≤ y) :
    daysBeforeYear (y + 1) = daysBeforeYear y + yearLength y := by
  have h4 : y / 4 = (y - 1) / 4 + if y % 4 = 0 then 1 else 0 := by split <;> omega
  have h100 : y / 100 = (y - 1) / 100 + if y % 100 = 0 then 1 else 0 := by split <;> omega
  have h400 : y / 400 = (y - 1) / 400 + if y % 400 = 0 then 1 else 0 := by split <;> omega
  have hle : (y - 1) / 100 ≤ (y - 1) / 4 := Nat.div_le_div_left (by decide) (by decide)
  have hfour : y % 100 = 0 → y % 4 = 0 := by omega
  have hhundred : y % 400 = 0 → y % 100 = 0 := by omega
  rw [daysBeforeYear, daysBeforeYear, Nat.add_sub_cancel, h4, h100, h400, yearLength, isLeap]
  generalize (y - 1) / 4 = a at hle ⊢
  generalize (y - 1) / 100 = b at hle ⊢
  by_cases h : y % 4 = 0
  · by_cases h' : y % 100 = 0
    · by_cases h'' : y % 400 = 0
      · simp [h, h', h'']
        omega
      · simp [h, h', h'']
        omega
    · have h'' : ¬y % 400 = 0 := mt hhundred h'
      simp [h, h', h'']
      omega
  · have h' : ¬y % 100 = 0 := mt hfour h
    have h'' : ¬y % 400 = 0 := mt hhundred h'
    simp [h, h', h'']
    omega

theorem daysBeforeYear_le {y z : ℕ} (hy : 1 ≤ y) (h : y < z) :
    daysBeforeYear y + yearLength y ≤ daysBeforeYear z := by
  induction z, h using Nat.le_induction with
  | base => exact (daysBeforeYear_succ hy).ge
  | succ z hz ih =>
    rw [daysBeforeYear_succ (by omega)]
    omega

theorem daysBeforeMonth_succ {leap : Bool} {m : ℕ} (hm : 1 ≤ m) (h : m < 12) :
    daysBeforeMonth leap (m + 1) = daysBeforeMonth leap m + daysInMonth leap m := by
  interval_cases m <;> cases leap <;> rfl

theorem daysBeforeMonth_le {leap : Bool} {m k : ℕ} (hm : 1 ≤ m) (h : m < k) (hk : k ≤ 12) :
    daysBeforeMonth leap m + daysInMonth leap m ≤ daysBeforeMonth leap k := by
  induction k, h using Nat.le_induction with
  | base => exact (daysBeforeMonth_succ hm (by omega)).ge
  | succ k hmk ih =>
    rw [daysBeforeMonth_succ (by omega) (by omega)]
    have := ih (by omega)
    omega

theorem daysBeforeMonth_add_le {y m : ℕ} (hm : 1 ≤ m) (h : m ≤ 12) :
    daysBeforeMonth (isLeap y) m + daysInMonth (isLeap y) m ≤ yearLength y := by
  rw [yearLength]
  cases isLeap y <;> interval_cases m <;> decide

/-! ### Dates -/

/-- A date. -/
@[ext]
structure Date where
  year : ℕ
  month : ℕ
  day : ℕ
  year_pos : 1 ≤ year
  month_pos : 1 ≤ month
  month_le : month ≤ 12
  day_pos : 1 ≤ day
  day_le : day ≤ daysInMonth (isLeap year) month

namespace Date

/-- The date with this year, month and day, if there is one. -/
def ofYmd (year month day : ℕ) : Option Date :=
  if h : 1 ≤ year ∧ 1 ≤ month ∧ month ≤ 12 ∧ 1 ≤ day ∧ day ≤ daysInMonth (isLeap year) month then
    some ⟨year, month, day, h.1, h.2.1, h.2.2.1, h.2.2.2.1, h.2.2.2.2⟩
  else none

@[simp]
theorem ofYmd_self (a : Date) : ofYmd a.year a.month a.day = some a :=
  dif_pos ⟨a.year_pos, a.month_pos, a.month_le, a.day_pos, a.day_le⟩

/-- The number of a date. -/
def ordinal (a : Date) : ℕ :=
  daysBeforeYear a.year + daysBeforeMonth (isLeap a.year) a.month + a.day

variable {a b : Date}

theorem ordinal_lt_of_year (h : a.year < b.year) : a.ordinal < b.ordinal := by
  have hyear := daysBeforeYear_le a.year_pos h
  have hmonth := @daysBeforeMonth_add_le a.year a.month a.month_pos a.month_le
  have hday := a.day_le
  have hday' := b.day_pos
  unfold ordinal
  omega

theorem ordinal_lt_of_month (hyear : a.year = b.year) (h : a.month < b.month) :
    a.ordinal < b.ordinal := by
  have hmonth := @daysBeforeMonth_le (isLeap a.year) _ _ a.month_pos h b.month_le
  have hday := a.day_le
  have hday' := b.day_pos
  unfold ordinal
  rw [← hyear]
  omega

/-- **The number of a date** grows with the year, the month and the day. -/
theorem ordinal_lt_iff : a.ordinal < b.ordinal ↔ a.year < b.year ∨
    a.year = b.year ∧ (a.month < b.month ∨ a.month = b.month ∧ a.day < b.day) := by
  constructor
  · intro h
    rcases lt_trichotomy a.year b.year with hyear | hyear | hyear
    · exact .inl hyear
    · rcases lt_trichotomy a.month b.month with hmonth | hmonth | hmonth
      · exact .inr ⟨hyear, .inl hmonth⟩
      · refine .inr ⟨hyear, .inr ⟨hmonth, ?_⟩⟩
        simpa [ordinal, hyear, hmonth] using h
      · exact absurd (ordinal_lt_of_month hyear.symm hmonth) h.not_gt
    · exact absurd (ordinal_lt_of_year hyear) h.not_gt
  · rintro (hyear | ⟨hyear, hmonth | ⟨hmonth, hday⟩⟩)
    · exact ordinal_lt_of_year hyear
    · exact ordinal_lt_of_month hyear hmonth
    · simpa [ordinal, hyear, hmonth] using hday

theorem ordinal_injective (h : a.ordinal = b.ordinal) : a = b := by
  have hlt := mt (ordinal_lt_iff).mpr h.not_lt
  have hgt := mt (ordinal_lt_iff).mpr h.symm.not_lt
  ext <;> omega

theorem ordinal_pos : 1 ≤ a.ordinal := by
  have := a.day_pos
  unfold ordinal
  omega

end Date

/-! ### The date of a number -/

/-- The year of a number, counted from 0, and the days of the year before it: so many whole cycles
of 400 years, of 100, of 4 and of one. -/
def yearOf (n : ℕ) : ℕ × ℕ :=
  let n100 := min 3 (n % 146097 / 36524)
  let r := n % 146097 - n100 * 36524
  let n1 := min 3 (r % 1461 / 365)
  (n / 146097 * 400 + n100 * 100 + r / 1461 * 4 + n1 + 1, r % 1461 - n1 * 365)

theorem daysBeforeYear_cycles {a b c d : ℕ} (hb : b ≤ 3) (hc : c ≤ 24) (hd : d ≤ 3) :
    daysBeforeYear (a * 400 + b * 100 + c * 4 + d + 1) =
      a * 146097 + b * 36524 + c * 1461 + d * 365 := by
  have h4 : (a * 400 + b * 100 + c * 4 + d) / 4 = a * 100 + b * 25 + c := by omega
  have h100 : (a * 400 + b * 100 + c * 4 + d) / 100 = a * 4 + b := by omega
  have h400 : (a * 400 + b * 100 + c * 4 + d) / 400 = a := by omega
  rw [daysBeforeYear, Nat.add_sub_cancel, h4, h100, h400]
  omega

theorem isLeap_cycles {a b c d : ℕ} (hb : b ≤ 3) (hc : c ≤ 24) (hd : d ≤ 3) :
    isLeap (a * 400 + b * 100 + c * 4 + d + 1) ↔ d = 3 ∧ (c < 24 ∨ b = 3) := by
  simp only [isLeap, Bool.and_eq_true, Bool.or_eq_true, decide_eq_true_eq]
  omega

theorem yearOf_spec (n : ℕ) :
    1 ≤ (yearOf n).1 ∧ daysBeforeYear (yearOf n).1 + (yearOf n).2 = n ∧
      (yearOf n).2 < yearLength (yearOf n).1 := by
  simp only [yearOf]
  have hn := Nat.div_add_mod n 146097
  have hlt := Nat.mod_lt n (show 0 < 146097 by decide)
  generalize n / 146097 = a at hn ⊢
  generalize n % 146097 = r400 at hn hlt ⊢
  -- the hundred years, of which the last are longer by a day
  have hb : min 3 (r400 / 36524) ≤ 3 ∧ min 3 (r400 / 36524) * 36524 ≤ r400 ∧
      (r400 - min 3 (r400 / 36524) * 36524 < 36525) ∧
      (min 3 (r400 / 36524) < 3 → r400 - min 3 (r400 / 36524) * 36524 < 36524) := by
    omega
  generalize min 3 (r400 / 36524) = b at hb ⊢
  obtain ⟨hb, hle, hlt, hlast⟩ := hb
  generalize hr100 : r400 - b * 36524 = r100 at hlt hlast ⊢
  -- the four years, of which the last of a hundred may be shorter by a day
  have hr := Nat.div_add_mod r100 1461
  have hc : r100 / 1461 ≤ 24 := by omega
  have hlt4 := Nat.mod_lt r100 (show 0 < 1461 by decide)
  generalize r100 / 1461 = c at hr hc ⊢
  generalize r100 % 1461 = r4 at hr hlt4 ⊢
  -- and the year
  have hd : min 3 (r4 / 365) ≤ 3 ∧ min 3 (r4 / 365) * 365 ≤ r4 ∧ r4 - min 3 (r4 / 365) * 365 < 366 ∧
      (min 3 (r4 / 365) < 3 → r4 - min 3 (r4 / 365) * 365 < 365) := by
    omega
  generalize min 3 (r4 / 365) = d at hd ⊢
  obtain ⟨hd, hled, hltd, hshort⟩ := hd
  refine ⟨Nat.succ_pos _, ?_, ?_⟩
  · rw [daysBeforeYear_cycles hb hc hd]
    omega
  · have hleap := @isLeap_cycles a b c d hb hc hd
    rw [yearLength]
    split
    · exact hltd
    next hnot =>
      rw [hleap] at hnot
      omega

/-- The month of a day of a year, counted from 0. -/
def monthOf (leap : Bool) (n : ℕ) : ℕ :=
  let m := (n + 50) / 32
  if daysBeforeMonth leap m ≤ n then m else m - 1

theorem monthOf_spec : ∀ leap, ∀ n < if leap then 366 else 365,
    1 ≤ monthOf leap n ∧ monthOf leap n ≤ 12 ∧ daysBeforeMonth leap (monthOf leap n) ≤ n ∧
      n < daysBeforeMonth leap (monthOf leap n) + daysInMonth leap (monthOf leap n) := by
  decide +kernel

def Date.ofOrdinal (n : ℕ) : Date :=
  have hyear := yearOf_spec (n - 1)
  have hmonth := monthOf_spec (isLeap (yearOf (n - 1)).1) (yearOf (n - 1)).2 hyear.2.2
  { year := (yearOf (n - 1)).1
    month := monthOf (isLeap (yearOf (n - 1)).1) (yearOf (n - 1)).2
    day := (yearOf (n - 1)).2 - daysBeforeMonth (isLeap (yearOf (n - 1)).1)
      (monthOf (isLeap (yearOf (n - 1)).1) (yearOf (n - 1)).2) + 1
    year_pos := hyear.1
    month_pos := hmonth.1
    month_le := hmonth.2.1
    day_pos := Nat.succ_pos _
    day_le := by omega }

/-- **Each number is that of one date.** -/
theorem Date.ordinal_ofOrdinal {n : ℕ} (h : 1 ≤ n) : (ofOrdinal n).ordinal = n := by
  have hyear := yearOf_spec (n - 1)
  have hmonth := monthOf_spec (isLeap (yearOf (n - 1)).1) (yearOf (n - 1)).2 hyear.2.2
  simp only [ordinal, ofOrdinal]
  omega

theorem Date.ofOrdinal_ordinal (a : Date) : ofOrdinal a.ordinal = a :=
  ordinal_injective (ordinal_ofOrdinal ordinal_pos)

end Calendar
