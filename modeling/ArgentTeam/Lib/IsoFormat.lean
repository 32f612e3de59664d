import ArgentTeam.Lib.Timestamps

/-!
# The texts that are read as times

`fromisoformat` reads a date, in one of the forms `2026-01-31`, `20260131`, `2026-W05-6`,
`2026W056`, `2026-W05` and `2026W05`, any one character, and a time of the day with the parts it
needs, with colons or without; then, if there is one, the offset of a zone. A text without a zone is
taken to be in UTC (`parseIso`). The text that is written of a moment in UTC is read as that moment
(`parseIso_iso`).
-/

open Calendar

namespace IsoFormat

/-! ### Digits -/

def digitValue (c : PyChar) : Option ℕ :=
  if 48 ≤ PyStr.code c ∧ PyStr.code c ≤ 57 then some (PyStr.code c - 48) else none

/-- A number in so many digits, and what comes after it. -/
def digits : ℕ → PyStr → Option (ℕ × PyStr)
  | 0, s => some (0, s)
  | _ + 1, [] => none
  | w + 1, c :: s => do
    let d ← digitValue c
    let (n, rest) ← digits w s
    pure (d * 10 ^ w + n, rest)

/-! ### Dates -/

/-- Where the date ends: `_find_isoformat_datetime_separator`. -/
def separatorLocation (s : PyStr) : Option ℕ :=
  let digitAt (i : ℕ) : Bool := (s[i]?.bind digitValue).isSome
  if s.length = 7 then some 7
  else if s[4]? = some (.scalar '-') then
    if s[5]? = some (.scalar 'W') then
      if s[8]? = some (.scalar '-') then
        if s.length = 9 then none else some (if digitAt 10 then 8 else 10)
      else some 8
    else some 10
  else if s[4]? = some (.scalar 'W') then
    let idx := 7 + ((s.drop 7).takeWhile fun c => (digitValue c).isSome).length
    some (if idx < 9 then idx else if idx % 2 = 0 then 7 else 8)
  else some 8

/-- `_isoweek_to_gregorian`. -/
def isoWeek (year week day : ℕ) : Option Date :=
  let first := daysBeforeYear year + 1
  let weekday := (first + 6) % 7
  let monday := if weekday > 3 then first + 7 - weekday else first - weekday
  let long := first % 7 = 4 ∨ first % 7 = 3 ∧ isLeap year = true
  if (1 ≤ year ∧ year ≤ 9999) ∧ (1 ≤ week ∧ (week ≤ 52 ∨ week = 53 ∧ long)) ∧ 1 ≤ day ∧ day ≤ 7 then
    some (Date.ofOrdinal (monday + (week - 1) * 7 + (day - 1)))
  else none

/-- The dash between two parts of a date, if there are dashes. -/
def dash (dashed : Bool) (s : PyStr) : Option PyStr :=
  if dashed then
    match s with
    | .scalar '-' :: s => some s
    | _ => none
  else some s

/-- `_parse_isoformat_date`. -/
def parseDate (s : PyStr) : Option Date := do
  let (year, s) ← digits 4 s
  let dashed : Bool := s.head? = some (.scalar '-')
  let s ← dash dashed s
  match s with
  | .scalar 'W' :: s => do
    let (week, s) ← digits 2 s
    if s = [] then isoWeek year week 1
    else do
      let s ← dash dashed s
      let (day, s) ← digits 1 s
      if s = [] then isoWeek year week day else none
  | s => do
    let (month, s) ← digits 2 s
    let s ← dash dashed s
    let (day, s) ← digits 2 s
    if s = [] then Date.ofYmd year month day else none

/-! ### Times of the day -/

/-- The parts of a time of the day. -/
structure Clock where
  hour : ℕ := 0
  minute : ℕ := 0
  second : ℕ := 0
  micro : ℕ := 0

/-- The microseconds of a fraction; what is beyond them is not looked at. -/
def parseFraction : PyStr → Option ℕ
  | [] => some 0
  | c :: s =>
    if (c = .scalar '.' ∨ c = .scalar ',') ∧ s ≠ [] ∧ ∀ d ∈ s, (digitValue d).isSome = true then
      (digits (min 6 s.length) s).map fun n => n.1 * 10 ^ (6 - min 6 s.length)
    else none

/-- `_parse_hh_mm_ss_ff`. -/
def parseClock (s : PyStr) : Option Clock := do
  let (hour, s) ← digits 2 s
  match s with
  | [] => pure { hour := hour }
  | .scalar ':' :: s => do
    let (minute, s) ← digits 2 s
    match s with
    | [] => pure { hour := hour, minute := minute }
    | .scalar ':' :: s => do
      let (second, s) ← digits 2 s
      let micro ← parseFraction s
      pure ⟨hour, minute, second, micro⟩
    | _ => none
  | s => do
    let (minute, s) ← digits 2 s
    if s = [] then pure { hour := hour, minute := minute }
    else do
      let (second, s) ← digits 2 s
      let micro ← parseFraction s
      pure ⟨hour, minute, second, micro⟩

/-- The microseconds of a time of the day. -/
def Clock.total (c : Clock) : ℤ := ((c.hour * 60 + c.minute) * 60 + c.second) * 1000000 + c.micro

/-- What begins a zone. -/
def isSign (c : PyChar) : Bool := c = .scalar '+' || c = .scalar '-' || c = .scalar 'Z'

/-- The offset of a zone, in microseconds, from its sign on; `none` within for no zone. -/
def parseZone : PyStr → Option (Option ℤ)
  | [] => some none
  | sign :: s =>
    if sign = .scalar 'Z' then if s = [] then some (some 0) else none
    else if s.length = 0 ∨ s.length = 1 ∨ s.length = 3 then none
    else do
      let c ← parseClock s
      if c.hour < 24 ∧ c.minute < 60 ∧ c.second < 60 then
        pure (some (if sign = .scalar '-' then -c.total else c.total))
      else none

/-- `_parse_isoformat_time`. -/
def parseTime (s : PyStr) : Option (Clock × Option ℤ) := do
  let clock ← parseClock (s.takeWhile fun c => !isSign c)
  let zone ← parseZone (s.dropWhile fun c => !isSign c)
  pure (clock, zone)

/-! ### Times -/

/-- The constructor, of a date and a time of the day. -/
def moment (date : Date) (c : Clock) : Option Moment :=
  if h : date.year ≤ 9999 ∧ c.hour < 24 ∧ c.minute < 60 ∧ c.second < 60 ∧ c.micro < 1000000 then
    some ⟨date, c.hour, c.minute, c.second, c.micro, h.1, h.2.1, h.2.2.1, h.2.2.2.1, h.2.2.2.2⟩
  else none

/-- `datetime.fromisoformat`: the time that is written, and the offset of its zone; `none` where it
raises `ValueError`. -/
def fromisoformat (s : PyStr) : Option (Moment × Option ℤ) :=
  if s.length < 7 then none
  else do
    let loc ← separatorLocation s
    let date ← parseDate (s.take loc)
    if s.drop (loc + 1) = [] then (moment date {}).map fun m => (m, none)
    else do
      let (c, zone) ← parseTime (s.drop (loc + 1))
      if c.hour = 24 then
        -- the midnight at the end of the day
        if c.minute = 0 ∧ c.second = 0 ∧ c.micro = 0 then
          (moment (Date.ofOrdinal (date.ordinal + 1)) {}).map fun m => (m, zone)
        else none
      else (moment date c).map fun m => (m, zone)

/-- The moment that a text means, in UTC: a text without a zone is taken to be in UTC. `none` where
`ValueError` is raised, or `OverflowError` for a moment beyond the calendar. -/
def parseIso (s : PyStr) : Option Moment := do
  let (m, zone) ← fromisoformat s
  Moment.ofInstant (m.instant - zone.getD 0)

/-! ### Reading what is written -/

section Written

variable {w n : ℕ} {rest : PyStr} {c : PyChar}

theorem length_pad : (PyStr.pad w n).length = w := by
  induction w generalizing n with
  | zero => rfl
  | succ w ih => rw [PyStr.pad, List.length_cons, ih]

theorem digitValue_digit {d : ℕ} (h : d < 10) : digitValue (PyStr.digit d) = some d := by
  rw [digitValue, PyStr.code_digit h, if_pos (by omega), Nat.add_sub_cancel_left]

theorem digit_lt {w n : ℕ} (h : n < 10 ^ (w + 1)) : n / 10 ^ w < 10 := by
  rw [Nat.div_lt_iff_lt_mul (Nat.pow_pos (by decide))]
  rwa [pow_succ, Nat.mul_comm] at h

/-- **A number in digits is read.** -/
theorem digits_pad (h : n < 10 ^ w) : digits w (PyStr.pad w n ++ rest) = some (n, rest) := by
  induction w generalizing n with
  | zero =>
    obtain rfl : n = 0 := by simpa using h
    rfl
  | succ w ih =>
    rw [PyStr.pad, List.cons_append, digits, digitValue_digit (digit_lt h),
      ih (Nat.mod_lt _ (Nat.pow_pos (by decide)))]
    simp only [Option.bind_eq_bind, Option.bind_some, Option.pure_def, Option.some.injEq,
      Prod.mk.injEq, and_true]
    rw [Nat.mul_comm]
    exact Nat.div_add_mod n (10 ^ w)

theorem digitValue_of_mem_pad (h : n < 10 ^ w) (hc : c ∈ PyStr.pad w n) :
    (digitValue c).isSome := by
  induction w generalizing n with
  | zero => cases hc
  | succ w ih =>
    rcases List.mem_cons.mp hc with rfl | hc
    · rw [digitValue_digit (digit_lt h)]
      rfl
    · exact ih (Nat.mod_lt _ (Nat.pow_pos (by decide))) hc

theorem not_isSign_of_digit (h : (digitValue c).isSome) : isSign c = false := by
  cases hsign : isSign c with
  | false => rfl
  | true =>
    simp only [isSign, Bool.or_eq_true, decide_eq_true_eq] at hsign
    rcases hsign with (rfl | rfl) | rfl <;> cases h

variable (m : Moment)

def dateText : PyStr :=
  PyStr.pad 4 m.date.year ++ .scalar '-' ::
    (PyStr.pad 2 m.date.month ++ .scalar '-' :: PyStr.pad 2 m.date.day)

/-- What is written of the time of the day. -/
def clockText : PyStr :=
  PyStr.pad 2 m.hour ++ .scalar ':' ::
    (PyStr.pad 2 m.minute ++ .scalar ':' :: (PyStr.pad 2 m.second ++ Moment.fraction m.micro))

theorem isoformat_eq {zone : PyStr} :
    m.isoformat zone = dateText m ++ .scalar 'T' :: (clockText m ++ zone) := by
  simp [Moment.isoformat, dateText, clockText]

theorem length_dateText : (dateText m).length = 10 := by
  simp [dateText, length_pad]

theorem parseDate_dateText : parseDate (dateText m) = some m.date := by
  obtain ⟨hyear, hmonth, hday, -⟩ := m.bounds
  have hhead : ∀ s', PyStr.pad 2 m.date.month ++ .scalar '-' :: PyStr.pad 2 m.date.day ≠
      .scalar 'W' :: s' := by
    intro s' h
    have hdigit : (digitValue (.scalar 'W')).isSome = true :=
      digitValue_of_mem_pad hmonth (List.mem_of_mem_head? (by
        rw [← @List.head?_append_of_ne_nil _ _ (.scalar '-' :: PyStr.pad 2 m.date.day)
          (by simp [PyStr.pad]), h]
        rfl))
    cases hdigit
  rw [parseDate, dateText, digits_pad hyear]
  have hlast := @digits_pad 2 m.date.day [] hday
  rw [List.append_nil] at hlast
  simp only [Option.bind_eq_bind, Option.bind_some, List.head?_cons, decide_true, dash, if_true,
    digits_pad hmonth, hlast, Date.ofYmd_self]

theorem parseFraction_fraction (h : n < 10 ^ 6) : parseFraction (Moment.fraction n) = some n := by
  rw [Moment.fraction]
  split
  next hn =>
    rw [hn]
    rfl
  next =>
    have hdigits := @digits_pad 6 n [] h
    rw [List.append_nil] at hdigits
    rw [parseFraction, if_pos ⟨.inl rfl, by simp [PyStr.pad], fun d => digitValue_of_mem_pad h⟩,
      length_pad, Nat.min_self, hdigits]
    simp

theorem parseClock_clockText :
    parseClock (clockText m) = some ⟨m.hour, m.minute, m.second, m.micro⟩ := by
  obtain ⟨-, -, -, hhour, hminute, hsecond, hmicro⟩ := m.bounds
  rw [parseClock, clockText, digits_pad hhour]
  simp only [Option.bind_eq_bind, Option.bind_some, digits_pad hminute, digits_pad hsecond,
    parseFraction_fraction hmicro, Option.pure_def]

theorem not_isSign_of_mem_clockText (hc : c ∈ clockText m) : isSign c = false := by
  obtain ⟨-, -, -, hhour, hminute, hsecond, hmicro⟩ := m.bounds
  simp only [clockText, List.mem_append, List.mem_cons, Moment.fraction] at hc
  rcases hc with hc | rfl | hc | rfl | hc | hc
  · exact not_isSign_of_digit (digitValue_of_mem_pad hhour hc)
  · rfl
  · exact not_isSign_of_digit (digitValue_of_mem_pad hminute hc)
  · rfl
  · exact not_isSign_of_digit (digitValue_of_mem_pad hsecond hc)
  · split at hc
    · cases hc
    · rcases List.mem_cons.mp hc with rfl | hc
      · rfl
      · exact not_isSign_of_digit (digitValue_of_mem_pad hmicro hc)

/-- **A time that is written is read**, with the zone that is written behind it, if there is one. -/
theorem fromisoformat_isoformat {z : PyStr} (hz : z = [] ∨ Moment.Signed z) :
    fromisoformat (m.isoformat z) = (parseZone z).map fun zone => (m, zone) := by
  have hlen := length_dateText m
  have hsep : separatorLocation (dateText m ++ .scalar 'T' :: (clockText m ++ z)) =
      some 10 := by
    have hdash : (dateText m ++ .scalar 'T' :: (clockText m ++ z))[4]? =
        some (.scalar '-') := by
      rw [dateText, List.append_assoc, List.getElem?_append_right (by simp [length_pad]),
        length_pad]
      rfl
    have hweek : (dateText m ++ .scalar 'T' :: (clockText m ++ z))[5]? ≠
        some (.scalar 'W') := by
      obtain ⟨-, hmonth, -⟩ := m.bounds
      rw [dateText, List.append_assoc, List.getElem?_append_right (by simp [length_pad]),
        length_pad]
      intro hW
      have hdigit : (digitValue (.scalar 'W')).isSome = true := by
        refine digitValue_of_mem_pad hmonth ?_
        simp only [PyStr.pad, List.cons_append, List.getElem?_cons_succ,
          List.getElem?_cons_zero, Option.some.injEq] at hW
        rw [← hW]
        exact List.mem_cons_self
      cases hdigit
    have hlong : (dateText m ++ .scalar 'T' :: (clockText m ++ z)).length ≠ 7 := by
      simp only [List.length_append, List.length_cons, hlen]
      omega
    simp only [separatorLocation, if_neg hlong, if_pos hdash, if_neg hweek]
  have hspan : z.takeWhile (fun c => !isSign c) = [] ∧ z.dropWhile (fun c => !isSign c) = z := by
    rcases hz with rfl | ⟨rest, rfl | rfl⟩
    all_goals exact ⟨rfl, rfl⟩
  have htake : (clockText m ++ z).takeWhile (fun c => !isSign c) = clockText m := by
    rw [List.takeWhile_append_of_pos fun d hd => by simp [not_isSign_of_mem_clockText m hd],
      hspan.1, List.append_nil]
  have hdrop : (clockText m ++ z).dropWhile (fun c => !isSign c) = z := by
    rw [List.dropWhile_append_of_pos fun d hd => by simp [not_isSign_of_mem_clockText m hd],
      hspan.2]
  have hclock : clockText m ++ z ≠ [] := by simp [clockText, PyStr.pad]
  rw [isoformat_eq, fromisoformat, if_neg (by simp [hlen]; omega), hsep]
  simp only [Option.bind_eq_bind, Option.bind_some]
  have htail : (dateText m ++ .scalar 'T' :: (clockText m ++ z)).drop (10 + 1) =
      clockText m ++ z := by
    rw [← List.drop_drop, List.drop_left' hlen]
    rfl
  rw [List.take_left' hlen, parseDate_dateText, htail]
  simp only [Option.bind_some, if_neg hclock, parseTime, htake, hdrop, parseClock_clockText,
    Option.bind_eq_bind]
  cases parseZone z with
  | none => rfl
  | some zone =>
    simp only [Option.bind_some, Option.pure_def, m.hour_lt.ne, if_false, Option.map_some]
    rw [moment, dif_pos ⟨m.year_le, m.hour_lt, m.minute_lt, m.second_lt, m.micro_lt⟩]
    rfl

theorem parseIso_isoformat {z : PyStr} {zone : Option ℤ} (hz : z = [] ∨ Moment.Signed z)
    (hzone : parseZone z = some zone) :
    parseIso (m.isoformat z) = Moment.ofInstant (m.instant - zone.getD 0) := by
  rw [parseIso, fromisoformat_isoformat m hz, hzone, Option.map_some, Option.bind_eq_bind,
    Option.bind_some]

theorem parseZone_utcZone : parseZone Moment.utcZone = some (some 0) := by
  decide

/-- **What is written of a moment in UTC is read as that moment.** -/
theorem parseIso_iso : parseIso m.iso = some m := by
  rw [Moment.iso, parseIso_isoformat m (.inr Moment.signed_utcZone) parseZone_utcZone,
    Option.getD_some, Int.sub_zero, Moment.ofInstant_instant]

end Written

end IsoFormat
