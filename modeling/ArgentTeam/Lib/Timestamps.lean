import ArgentTeam.Lib.Calendar
import ArgentTeam.Lib.TextOrder

/-!
# Times and their texts

A moment is a date and a time of that day, down to the microsecond. Its text is that of
`datetime.isoformat`; a fraction of a second is written only if there is one. The texts of moments
in UTC are in the order of the moments (`Moment.iso_le_iff`), as the sign of a zone comes before the
point of a fraction. With another zone, a text is compared as if it had none
(`Moment.isoformat_le_iff`).
-/

open Calendar

/-! ### Digits -/

namespace PyStr

def digit (n : ℕ) : PyChar := .scalar (Char.ofNat (48 + n))

/-- A number in so many digits. -/
def pad : ℕ → ℕ → PyStr
  | 0, _ => []
  | w + 1, n => digit (n / 10 ^ w) :: pad w (n % 10 ^ w)

theorem code_digit {n : ℕ} (h : n < 10) : code (digit n) = 48 + n := by
  interval_cases n <;> rfl

variable {s t : PyStr} {c d : PyChar}

@[simp]
theorem le_cons_cons : le (c :: s) (d :: t) ↔
    code c < code d ∨ code c = code d ∧ le s t := by
  simp [le]

/-- **Numbers in as many digits** are in the order of the numbers. -/
theorem le_pad {w a b : ℕ} (ha : a < 10 ^ w) (hb : b < 10 ^ w) :
    le (pad w a ++ s) (pad w b ++ t) ↔ a < b ∨ a = b ∧ le s t := by
  induction w generalizing a b with
  | zero =>
    obtain rfl : a = 0 := by simpa using ha
    obtain rfl : b = 0 := by simpa using hb
    simp [pad]
  | succ w ih =>
    have hpos : 0 < 10 ^ w := Nat.pow_pos (by decide)
    have hdigit {n : ℕ} (hn : n < 10 ^ (w + 1)) : n / 10 ^ w < 10 := by
      rw [Nat.div_lt_iff_lt_mul hpos]
      rwa [pow_succ, Nat.mul_comm] at hn
    rw [pad, pad, List.cons_append, List.cons_append, le_cons_cons, code_digit (hdigit ha),
      code_digit (hdigit hb), ih (Nat.mod_lt _ hpos) (Nat.mod_lt _ hpos)]
    have hda := Nat.div_add_mod a (10 ^ w)
    have hdb := Nat.div_add_mod b (10 ^ w)
    have hma := Nat.mod_lt a hpos
    have hmb := Nat.mod_lt b hpos
    generalize a / 10 ^ w = x at hda ⊢
    generalize b / 10 ^ w = y at hdb ⊢
    generalize a % 10 ^ w = i at hda hma ⊢
    generalize b % 10 ^ w = j at hdb hmb ⊢
    generalize 10 ^ w = B at hda hdb hma hmb
    subst hda hdb
    rcases lt_trichotomy x y with hxy | rfl | hxy
    · have : B * x + B ≤ B * y := by
        rw [← Nat.mul_succ]
        exact Nat.mul_le_mul_left B hxy
      constructor
      · exact fun _ => .inl (by omega)
      · exact fun _ => .inl (by omega)
    · constructor
      · rintro (h | ⟨-, h | ⟨h, hle⟩⟩)
        · omega
        · exact .inl (by omega)
        · exact .inr ⟨by omega, hle⟩
      · rintro (h | ⟨h, hle⟩)
        · exact .inr ⟨rfl, .inl (by omega)⟩
        · exact .inr ⟨rfl, .inr ⟨by omega, hle⟩⟩
    · have : B * y + B ≤ B * x := by
        rw [← Nat.mul_succ]
        exact Nat.mul_le_mul_left B hxy
      constructor <;> intro h <;> omega

theorem le_pad_cons {w a b : ℕ} (ha : a < 10 ^ w) (hb : b < 10 ^ w) :
    le (pad w a ++ c :: s) (pad w b ++ c :: t) ↔ a < b ∨ a = b ∧ le s t := by
  rw [le_pad ha hb, le_cons_cons]
  simp

end PyStr

/-! ### Moments -/

/-- A date and a time of that day. -/
@[ext]
structure Moment where
  date : Date
  hour : ℕ
  minute : ℕ
  second : ℕ
  micro : ℕ
  year_le : date.year ≤ 9999
  hour_lt : hour < 24
  minute_lt : minute < 60
  second_lt : second < 60
  micro_lt : micro < 1000000

namespace Moment

/-- The microseconds from a beginning on. -/
def instant (m : Moment) : ℕ :=
  (((m.date.ordinal * 24 + m.hour) * 60 + m.minute) * 60 + m.second) * 1000000 + m.micro

/-- The moment of an instant, if there is one. -/
def ofInstant (i : ℤ) : Option Moment :=
  let n := i.toNat
  let date := Date.ofOrdinal (n / 86400000000)
  if h : 86400000000 ≤ i ∧ date.year ≤ 9999 then
    some
      { date := date
        hour := n / 3600000000 % 24
        minute := n / 60000000 % 60
        second := n / 1000000 % 60
        micro := n % 1000000
        year_le := h.2
        hour_lt := Nat.mod_lt _ (by decide)
        minute_lt := Nat.mod_lt _ (by decide)
        second_lt := Nat.mod_lt _ (by decide)
        micro_lt := Nat.mod_lt _ (by decide) }
  else none

theorem instant_ofInstant {i : ℤ} {m : Moment} (h : ofInstant i = some m) :
    (m.instant : ℤ) = i := by
  simp only [ofInstant] at h
  split at h
  next hrange =>
    obtain rfl := Option.some.inj h
    simp only [instant]
    rw [Date.ordinal_ofOrdinal (by omega)]
    omega
  next => cases h

theorem exists_ofInstant (m : Moment) : ∃ m', ofInstant m.instant = some m' := by
  have hdate : m.instant / 86400000000 = m.date.ordinal := by
    have hhour := m.hour_lt
    have hminute := m.minute_lt
    have hsecond := m.second_lt
    have hmicro := m.micro_lt
    unfold instant
    omega
  have hpos := @Date.ordinal_pos m.date
  refine ⟨_, dif_pos ⟨by omega, ?_⟩⟩
  rw [Int.toNat_natCast, hdate, Date.ofOrdinal_ordinal]
  exact m.year_le

/-! ### Texts -/

/-- What is written of the microseconds. -/
def fraction (us : ℕ) : PyStr := if us = 0 then [] else .scalar '.' :: PyStr.pad 6 us

/-- `isoformat`, with what is written of the zone. -/
def isoformat (m : Moment) (zone : PyStr) : PyStr :=
  PyStr.pad 4 m.date.year ++ .scalar '-' :: (PyStr.pad 2 m.date.month ++ .scalar '-' ::
    (PyStr.pad 2 m.date.day ++ .scalar 'T' :: (PyStr.pad 2 m.hour ++ .scalar ':' ::
      (PyStr.pad 2 m.minute ++ .scalar ':' ::
        (PyStr.pad 2 m.second ++ (fraction m.micro ++ zone))))))

def utcZone : PyStr := PyStr.ofString "+00:00"

/-- `isoformat`, of a moment in UTC. -/
def iso (m : Moment) : PyStr := m.isoformat utcZone

theorem bounds (m : Moment) : m.date.year < 10 ^ 4 ∧ m.date.month < 10 ^ 2 ∧ m.date.day < 10 ^ 2 ∧
    m.hour < 10 ^ 2 ∧ m.minute < 10 ^ 2 ∧ m.second < 10 ^ 2 ∧ m.micro < 10 ^ 6 := by
  have hday := m.date.day_le
  have hyear := m.year_le
  have hmonth := m.date.month_le
  have hhour := m.hour_lt
  have hminute := m.minute_lt
  have hsecond := m.second_lt
  have hmicro := m.micro_lt
  unfold daysInMonth at hday
  split_ifs at hday <;> omega

variable {m m' : Moment} {z z' : PyStr}

/-- A number in two parts is compared by the first, and then by the second. -/
theorem radix {B a b x y : ℕ} {P : Prop} (ha : a < B) (hb : b < B) :
    (x * B + a < y * B + b ∨ x * B + a = y * B + b ∧ P) ↔
      x < y ∨ x = y ∧ (a < b ∨ a = b ∧ P) := by
  rcases lt_trichotomy x y with hxy | rfl | hxy
  · have : x * B + B ≤ y * B := by
      rw [← Nat.succ_mul]
      exact Nat.mul_le_mul_right B hxy
    constructor
    · exact fun _ => .inl hxy
    · exact fun _ => .inl (by omega)
  · simp
  · have : y * B + B ≤ x * B := by
      rw [← Nat.succ_mul]
      exact Nat.mul_le_mul_right B hxy
    constructor
    · rintro (h | ⟨h, -⟩) <;> omega
    · rintro (h | ⟨h, -⟩) <;> omega

/-- Moments are compared by their parts, from the year on. -/
theorem instant_lt_or_iff {P : Prop} : (m.instant < m'.instant ∨ m.instant = m'.instant ∧ P) ↔
    m.date.year < m'.date.year ∨ m.date.year = m'.date.year ∧
      (m.date.month < m'.date.month ∨ m.date.month = m'.date.month ∧
        (m.date.day < m'.date.day ∨ m.date.day = m'.date.day ∧
          (m.hour < m'.hour ∨ m.hour = m'.hour ∧
            (m.minute < m'.minute ∨ m.minute = m'.minute ∧
              (m.second < m'.second ∨ m.second = m'.second ∧
                (m.micro < m'.micro ∨ m.micro = m'.micro ∧ P)))))) := by
  unfold instant
  rw [radix m.micro_lt m'.micro_lt, radix m.second_lt m'.second_lt,
    radix m.minute_lt m'.minute_lt, radix m.hour_lt m'.hour_lt, Date.ordinal_lt_iff]
  have heq : m.date.ordinal = m'.date.ordinal ↔ m.date.year = m'.date.year ∧
      m.date.month = m'.date.month ∧ m.date.day = m'.date.day := by
    constructor
    · intro h
      rw [Date.ordinal_injective h]
      exact ⟨rfl, rfl, rfl⟩
    · rintro ⟨hyear, hmonth, hday⟩
      rw [Date.ext hyear hmonth hday]
  rw [heq]
  constructor
  · rintro ((h | ⟨h, h' | ⟨h', h''⟩⟩) | ⟨⟨h, h', h''⟩, hrest⟩)
    · exact .inl h
    · exact .inr ⟨h, .inl h'⟩
    · exact .inr ⟨h, .inr ⟨h', .inl h''⟩⟩
    · exact .inr ⟨h, .inr ⟨h', .inr ⟨h'', hrest⟩⟩⟩
  · rintro (h | ⟨h, h' | ⟨h', h'' | ⟨h'', hrest⟩⟩⟩)
    · exact .inl (.inl h)
    · exact .inl (.inr ⟨h, .inl h'⟩)
    · exact .inl (.inr ⟨h, .inr ⟨h', h''⟩⟩)
    · exact .inr ⟨⟨h, h', h''⟩, hrest⟩

theorem instant_injective (h : m.instant = m'.instant) : m = m' := by
  have hle := (@instant_lt_or_iff m m' True).mp (.inr ⟨h, trivial⟩)
  have hge := (@instant_lt_or_iff m' m True).mp (.inr ⟨h.symm, trivial⟩)
  ext <;> omega

@[simp]
theorem ofInstant_instant (m : Moment) : ofInstant m.instant = some m := by
  obtain ⟨m', hm'⟩ := exists_ofInstant m
  have hinstant := instant_ofInstant hm'
  obtain rfl : m' = m := instant_injective (by omega)
  exact hm'

/-- What is written of the zone begins with a sign. -/
def Signed (zone : PyStr) : Prop :=
  ∃ rest, zone = .scalar '+' :: rest ∨ zone = .scalar '-' :: rest

theorem Signed.exists_cons (h : Signed z) :
    ∃ c rest, z = c :: rest ∧ PyStr.code c < PyStr.code (.scalar '.') := by
  obtain ⟨rest, rfl | rfl⟩ := h
  · exact ⟨_, rest, rfl, by decide⟩
  · exact ⟨_, rest, rfl, by decide⟩

/-- A sign comes before a point, and nothing comes before either. -/
theorem le_fraction {us us' : ℕ} (hus : us < 10 ^ 6) (hus' : us' < 10 ^ 6)
    (hz : z = [] ∨ Signed z) (hz' : Signed z') :
    PyStr.le (fraction us ++ z) (fraction us' ++ z') ↔
      us < us' ∨ us = us' ∧ PyStr.le z z' := by
  have hpoint {s : PyStr} : PyStr.le z (.scalar '.' :: s) = true := by
    rcases hz with rfl | hz
    · rfl
    · obtain ⟨c, rest, rfl, hc⟩ := hz.exists_cons
      exact PyStr.le_cons_cons.mpr (.inl hc)
  obtain ⟨c', rest', rfl, hc'⟩ := hz'.exists_cons
  unfold fraction
  split
  next h =>
    subst h
    split
    next h' =>
      subst h'
      simp
    next h' =>
      rw [List.nil_append, List.cons_append]
      exact iff_of_true hpoint (.inl (by omega))
  next h =>
    split
    next h' =>
      subst h'
      rw [List.nil_append, List.cons_append, PyStr.le_cons_cons]
      constructor <;> intro hle <;> omega
    next h' =>
      rw [List.cons_append, List.cons_append, PyStr.le_cons_cons, PyStr.le_pad hus hus']
      simp

/-- **Texts with zones**, or with none, are compared as if they had none, and by the zones where
nothing else is different. -/
theorem isoformat_le_iff (hz : z = [] ∨ Signed z) (hz' : Signed z') :
    PyStr.le (m.isoformat z) (m'.isoformat z') ↔
      m.instant < m'.instant ∨ m.instant = m'.instant ∧ PyStr.le z z' := by
  obtain ⟨hyear, hmonth, hday, hhour, hminute, hsecond, hmicro⟩ := m.bounds
  obtain ⟨hyear', hmonth', hday', hhour', hminute', hsecond', hmicro'⟩ := m'.bounds
  rw [instant_lt_or_iff, isoformat, isoformat, PyStr.le_pad_cons hyear hyear',
    PyStr.le_pad_cons hmonth hmonth', PyStr.le_pad_cons hday hday',
    PyStr.le_pad_cons hhour hhour', PyStr.le_pad_cons hminute hminute',
    PyStr.le_pad hsecond hsecond', le_fraction hmicro hmicro' hz hz']

theorem signed_utcZone : Signed utcZone := ⟨_, .inl rfl⟩

/-- **The texts of moments in UTC** are in the order of the moments. -/
theorem iso_le_iff : PyStr.le m.iso m'.iso ↔ m.instant ≤ m'.instant := by
  rw [iso, iso, isoformat_le_iff (.inr signed_utcZone) signed_utcZone, le_iff_lt_or_eq]
  simp [PyStr.le_refl]

end Moment
