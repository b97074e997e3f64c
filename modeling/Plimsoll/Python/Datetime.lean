import Mathlib.Algebra.Order.Group.Int
import Mathlib.Data.List.Basic
import Mathlib.Tactic.NormNum

/-!
`datetime`: the proleptic Gregorian calendar, `isoformat`, and `fromisoformat` as the
library has it in Python. An interpreter may read more texts than that.
-/

namespace Python

/-- A `datetime`; `utcoffset` is in microseconds, and `none` of a naive one. -/
structure Datetime where
  year : Nat
  month : Nat
  day : Nat
  hour : Nat := 0
  minute : Nat := 0
  second : Nat := 0
  microsecond : Nat := 0
  utcoffset : Option Int := none
deriving DecidableEq

namespace Datetime

/-! ## The calendar -/

def isLeap (year : Nat) : Bool := year % 4 = 0 ∧ (year % 100 ≠ 0 ∨ year % 400 = 0)

def daysInMonth (leap : Bool) (month : Nat) : Nat :=
  if month = 2 then (if leap then 29 else 28)
  else if month = 4 ∨ month = 6 ∨ month = 9 ∨ month = 11 then 30
  else 31

/-- The days of a year before the first of a month. -/
def daysBeforeMonth (leap : Bool) (month : Nat) : Nat :=
  ((List.range month).drop 1).foldl (fun days m => days + daysInMonth leap m) 0

/-- The days before the first of January of a year. -/
def daysBeforeYear (year : Nat) : Nat :=
  (year - 1) * 365 + (year - 1) / 4 - (year - 1) / 100 + (year - 1) / 400

/-- `_ymd2ord`: the first of January of year 1 is day 1. -/
def ymd2ord (year month day : Nat) : Nat :=
  daysBeforeYear year + daysBeforeMonth (isLeap year) month + day

/-- The month and the day of the month of a day of a year, from 0 on. -/
def monthDay (leap : Bool) (n : Nat) : Nat × Nat :=
  let month := (n + 50) / 32
  if n < daysBeforeMonth leap month then (month - 1, n - daysBeforeMonth leap (month - 1) + 1)
  else (month, n - daysBeforeMonth leap month + 1)

/-- `_ord2ymd`. -/
def ord2ymd (ordinal : Nat) : Nat × Nat × Nat :=
  let n := ordinal - 1
  let n400 := n / 146097
  let n := n % 146097
  let n100 := n / 36524
  let n := n % 36524
  let n4 := n / 1461
  let n := n % 1461
  let n1 := n / 365
  let n := n % 365
  let year := n400 * 400 + n100 * 100 + n4 * 4 + n1 + 1
  if n1 = 4 ∨ n100 = 4 then (year - 1, 12, 31)
  else (year, monthDay (n1 = 3 ∧ (n4 ≠ 24 ∨ n100 = 3)) n)

/-- `date.max.toordinal()`. -/
def maxOrdinal : Nat := 3652059

theorem monthDay_spec : ∀ leap : Bool, ∀ n < 365 + leap.toNat,
    1 ≤ (monthDay leap n).1 ∧ (monthDay leap n).1 ≤ 12 ∧ 1 ≤ (monthDay leap n).2 ∧
      (monthDay leap n).2 ≤ daysInMonth leap (monthDay leap n).1 ∧
        daysBeforeMonth leap (monthDay leap n).1 + (monthDay leap n).2 = n + 1 := by
  decide +kernel

/-- The days before a year, by its place in the cycles of 400, 100 and 4 years. -/
theorem daysBeforeYear_cycles {a b c d : Nat} (centuries : b ≤ 3) (fours : c ≤ 24) (ones : d ≤ 3) :
    daysBeforeYear (a * 400 + b * 100 + c * 4 + d + 1) =
      a * 146097 + b * 36524 + c * 1461 + d * 365 := by
  rw [daysBeforeYear]
  omega

theorem isLeap_cycles {a b c d : Nat} (centuries : b ≤ 3) (fours : c ≤ 24) (ones : d ≤ 3) :
    isLeap (a * 400 + b * 100 + c * 4 + d + 1) = decide (d = 3 ∧ (c ≠ 24 ∨ b = 3)) := by
  rw [isLeap, decide_eq_decide]
  omega

/-- A day of a calendar. -/
structure IsDay (ordinal : Nat) (ymd : Nat × Nat × Nat) : Prop where
  year_pos : 1 ≤ ymd.1
  year_le : ymd.1 ≤ 9999
  month_pos : 1 ≤ ymd.2.1
  month_le : ymd.2.1 ≤ 12
  day_pos : 1 ≤ ymd.2.2
  day_le : ymd.2.2 ≤ daysInMonth (isLeap ymd.1) ymd.2.1
  ordinal_eq : ymd2ord ymd.1 ymd.2.1 ymd.2.2 = ordinal

/-- The last day of a leap year. -/
theorem isDay_last {year ordinal : Nat} (positive : 1 ≤ year) (small : year ≤ 9999)
    (leap : isLeap year = true) (days : daysBeforeYear year + 366 = ordinal) :
    IsDay ordinal (year, 12, 31) where
  year_pos := positive
  year_le := small
  month_pos := by change 1 ≤ 12; decide
  month_le := le_refl 12
  day_pos := by change 1 ≤ 31; decide
  day_le := le_refl 31
  ordinal_eq := by
    rw [ymd2ord, leap, ← days]
    rfl

/-- What a day's year, month and day are. -/
theorem isDay_ord2ymd {ordinal : Nat} (positive : 1 ≤ ordinal) (small : ordinal ≤ maxOrdinal) :
    IsDay ordinal (ord2ymd ordinal) := by
  rw [maxOrdinal] at small
  rw [ord2ymd]
  generalize four : (ordinal - 1) / 146097 = a
  generalize rest : (ordinal - 1) % 146097 = r
  generalize century : r / 36524 = b
  generalize rest' : r % 36524 = r'
  generalize leapCycle : r' / 1461 = c
  generalize rest'' : r' % 1461 = r''
  generalize single : r'' / 365 = d
  generalize inYear : r'' % 365 = n
  by_cases last : d = 4 ∨ b = 4
  · rw [if_pos last, Nat.add_sub_cancel]
    rcases last with fourth | fourth
    · have cycles := daysBeforeYear_cycles (a := a) (b := b) (c := c) (d := 3) (by omega) (by omega)
        (le_refl 3)
      have leap := isLeap_cycles (a := a) (b := b) (c := c) (d := 3) (by omega) (by omega)
        (le_refl 3)
      have same : a * 400 + b * 100 + c * 4 + d = a * 400 + b * 100 + c * 4 + 3 + 1 := by omega
      rw [same]
      refine isDay_last (by omega) (by omega) ?_ (by omega)
      rw [leap]
      exact decide_eq_true ⟨rfl, by omega⟩
    · have cycles := daysBeforeYear_cycles (a := a) (b := 3) (c := 24) (d := 3) (le_refl 3)
        (le_refl 24) (le_refl 3)
      have leap := isLeap_cycles (a := a) (b := 3) (c := 24) (d := 3) (le_refl 3) (le_refl 24)
        (le_refl 3)
      have same : a * 400 + b * 100 + c * 4 + d = a * 400 + 3 * 100 + 24 * 4 + 3 + 1 := by omega
      rw [same]
      refine isDay_last (by omega) (by omega) ?_ (by omega)
      rw [leap]
      rfl
  · rw [if_neg last]
    obtain ⟨notLastYear, notLastCentury⟩ := not_or.mp last
    have cycles := daysBeforeYear_cycles (a := a) (b := b) (c := c) (d := d) (by omega) (by omega)
      (by omega)
    have leap := isLeap_cycles (a := a) (b := b) (c := c) (d := d) (by omega) (by omega) (by omega)
    have bound : n < 365 + (decide (d = 3 ∧ (c ≠ 24 ∨ b = 3))).toNat := by omega
    obtain ⟨monthPos, monthLe, dayPos, dayLe, days⟩ := monthDay_spec _ n bound
    refine ⟨by dsimp only; omega, by dsimp only; omega, monthPos, monthLe, dayPos, ?_, ?_⟩
    · dsimp only
      rw [leap]
      exact dayLe
    · dsimp only
      rw [ymd2ord, leap, cycles]
      omega

/-! ## Instants -/

/-- The microseconds of a day. -/
def microsecondsPerDay : Nat := 86400000000

/-- The instants a `datetime` can stand for, in microseconds since the beginning of
year 1. -/
def InRange (t : Int) : Prop := 0 ≤ t ∧ t < maxOrdinal * microsecondsPerDay

instance (t : Int) : Decidable (InRange t) := inferInstanceAs (Decidable (_ ∧ _))

/-- An instant, in UTC. -/
def ofInstant (t : Int) : Datetime :=
  let date := ord2ymd (t.toNat / microsecondsPerDay + 1)
  let n := t.toNat % microsecondsPerDay
  { year := date.1
    month := date.2.1
    day := date.2.2
    hour := n / 3600000000
    minute := n / 60000000 % 60
    second := n / 1000000 % 60
    microsecond := n % 1000000
    utcoffset := some 0 }

/-- The instant of a `datetime`; there is none of a naive one, nor beyond the range. -/
def instant (d : Datetime) : Option Int :=
  d.utcoffset.bind fun utcoffset =>
    let t : Int := ((ymd2ord d.year d.month d.day - 1) * microsecondsPerDay + d.hour * 3600000000 +
      d.minute * 60000000 + d.second * 1000000 + d.microsecond : Nat) - utcoffset
    if InRange t then some t else none

/-- What the constructor accepts. -/
def Valid (d : Datetime) : Prop :=
  (1 ≤ d.year ∧ d.year ≤ 9999) ∧ (1 ≤ d.month ∧ d.month ≤ 12) ∧
    (1 ≤ d.day ∧ d.day ≤ daysInMonth (isLeap d.year) d.month) ∧
      d.hour < 24 ∧ d.minute < 60 ∧ d.second < 60 ∧ d.microsecond < 1000000 ∧
        d.utcoffset.all fun offset => offset.natAbs < microsecondsPerDay

instance (d : Datetime) : Decidable d.Valid := inferInstanceAs (Decidable (_ ∧ _))

/-- Aware, and off from UTC by nothing or by at least a second. CPython reads an offset
below a second as none. -/
def Zoned (d : Datetime) : Prop :=
  d.utcoffset.any (fun utcoffset => utcoffset = 0 ∨ 1000000 ≤ utcoffset.natAbs) = true

instance (d : Datetime) : Decidable d.Zoned := inferInstanceAs (Decidable (_ = true))

theorem Zoned.aware {d : Datetime} (zoned : d.Zoned) : ∃ utcoffset, d.utcoffset = some utcoffset := by
  unfold Zoned at zoned
  cases offset : d.utcoffset with
  | none => rw [offset] at zoned; cases zoned
  | some utcoffset => exact ⟨utcoffset, rfl⟩

/-! ## Writing -/

/-- `n` with as many digits as `width`. -/
def pad : Nat → Nat → List Char
  | 0, _ => []
  | width + 1, n => pad width (n / 10) ++ [Nat.digitChar (n % 10)]

/-- The offset of an aware `datetime`. -/
def offsetText (utcoffset : Int) : List Char :=
  let n := utcoffset.natAbs
  let seconds := if n % 60000000 = 0 then [] else ':' :: pad 2 (n / 1000000 % 60)
  let microseconds := if n % 1000000 = 0 then [] else '.' :: pad 6 (n % 1000000)
  (if utcoffset < 0 then '-' else '+') ::
    (pad 2 (n / 3600000000) ++ ':' :: pad 2 (n / 60000000 % 60) ++ seconds ++ microseconds)

/-- `d.isoformat()`. -/
def isoformat (d : Datetime) : List Char :=
  pad 4 d.year ++ '-' :: (pad 2 d.month ++ '-' :: (pad 2 d.day ++ 'T' ::
    (pad 2 d.hour ++ ':' :: (pad 2 d.minute ++ ':' :: (pad 2 d.second ++
      ((if d.microsecond = 0 then [] else '.' :: pad 6 d.microsecond) ++
        (d.utcoffset.map offsetText).getD []))))))

/-! ## Reading -/

/-- The number some digits make. -/
def number (digits : List Char) : Option Nat :=
  if digits ≠ [] ∧ digits.all Char.isDigit then
    some (digits.foldl (fun n c => n * 10 + (c.toNat - 48)) 0)
  else none

/-- The two digits at the beginning of a text. -/
def twoDigits (text : List Char) : Option Nat :=
  if 2 ≤ text.length then number (text.take 2) else none

/-- Where the date of a text ends. -/
def separator (text : List Char) : Option Nat :=
  if text.length = 7 then some 7
  else if text[4]? = some '-' then
    if text[5]? = some 'W' then
      if text[8]? = some '-' then
        if text.length = 9 then none
        else if text[10]?.any Char.isDigit then some 8
        else some 10
      else some 8
    else some 10
  else if text[4]? = some 'W' then
    let digits := ((text.drop 7).takeWhile Char.isDigit).length
    if digits < 2 then some (7 + digits) else if digits % 2 = 1 then some 7 else some 8
  else some 8

/-- `_isoweek_to_gregorian`. -/
def ofIsoWeek (year week day : Nat) : Option (Nat × Nat × Nat) :=
  let first := ymd2ord year 1 1
  let long := first % 7 = 4 ∨ (first % 7 = 3 ∧ isLeap year)
  let weekday := (first + 6) % 7
  let monday := first - weekday + (if 3 < weekday then 7 else 0)
  if (1 ≤ year ∧ year ≤ 9999) ∧ (1 ≤ week ∧ (week < 53 ∨ week = 53 ∧ long)) ∧
      (1 ≤ day ∧ day < 8) then
    some (ord2ymd (monday + (week - 1) * 7 + (day - 1)))
  else none

/-- A number of as many digits as `width`. -/
def exactly (width : Nat) (text : List Char) : Option Nat :=
  if text.length = width then number text else none

/-- The day behind a month or a week: set off as the month or week is. -/
def readDay (dash : Bool) (width : Nat) (text : List Char) : Option Nat :=
  if dash = false then exactly width text
  else if text.head? = some '-' then exactly width (text.drop 1)
  else none

/-- `_parse_isoformat_date`. -/
def readDate (text : List Char) : Option (Nat × Nat × Nat) := do
  let year ← number (text.take 4)
  let dash : Bool := text[4]? = some '-'
  let rest := text.drop (if dash then 5 else 4)
  if rest.head? = some 'W' then
    let week ← twoDigits (rest.drop 1)
    if rest.length = 3 then ofIsoWeek year week 1
    else ofIsoWeek year week (← readDay dash 1 (rest.drop 3))
  else
    let month ← twoDigits rest
    return (year, month, ← readDay dash 2 (rest.drop 2))

/-- A fraction of a second, in microseconds. What is smaller is cut off. -/
def readFraction (digits : List Char) : Option Nat :=
  if digits.all Char.isDigit then
    (number (digits.take 6)).map fun n => n * 10 ^ (6 - digits.length)
  else none

/-- Seconds, with microseconds behind a point or a comma. -/
def readSeconds (text : List Char) : Option (Nat × Nat) := do
  let second ← twoDigits text
  match text.drop 2 with
  | [] => return (second, 0)
  | c :: digits =>
      if c = '.' ∨ c = ',' then return (second, ← readFraction digits) else none

/-- `_parse_hh_mm_ss_ff`: hours, minutes, seconds and microseconds, all set off from
each other as the minutes are. -/
def readClock (text : List Char) : Option (Nat × Nat × Nat × Nat) := do
  let hour ← twoDigits text
  let rest := text.drop 2
  let colon : Bool := rest.head? = some ':'
  if rest = [] then return (hour, 0, 0, 0)
  else
    let minute ← twoDigits (rest.drop colon.toNat)
    let rest := (rest.drop colon.toNat).drop 2
    if rest = [] then return (hour, minute, 0, 0)
    else if colon = true ∧ rest.head? ≠ some ':' then none
    else
      let seconds ← readSeconds (rest.drop colon.toNat)
      return (hour, minute, seconds)

/-- A clock as a time zone's offset. -/
def offsetOf (clock : Nat × Nat × Nat × Nat) : Int :=
  (clock.1 * 3600000000 + clock.2.1 * 60000000 + clock.2.2.1 * 1000000 + clock.2.2.2 : Nat)

/-- What a time zone begins with. -/
def isZone (c : Char) : Bool := c = '+' ∨ c = '-' ∨ c = 'Z'

/-- `_parse_isoformat_time`: the clock, and the offset if there is one. -/
def readTime (text : List Char) : Option ((Nat × Nat × Nat × Nat) × Option Int) := do
  let clock ← readClock (text.takeWhile fun c => !isZone c)
  match text.dropWhile fun c => !isZone c with
  | [] => return (clock, none)
  | mark :: zone =>
      if mark = 'Z' then
        if zone = [] then return (clock, some 0) else none
      else
        let offset := offsetOf (← readClock zone)
        return (clock, some (if mark = '-' then -offset else offset))

/-- `datetime.fromisoformat(text)`, of the library's own Python; `none` is the
`ValueError`. -/
def fromisoformat (text : List Char) : Option Datetime :=
  if text.length < 7 then none
  else do
    let length ← separator text
    let (year, month, day) ← readDate (text.take length)
    let (clock, utcoffset) ←
      if text.drop (length + 1) = [] then some ((0, 0, 0, 0), none)
      else readTime (text.drop (length + 1))
    let d : Datetime := {
      year, month, day, utcoffset
      hour := clock.1
      minute := clock.2.1
      second := clock.2.2.1
      microsecond := clock.2.2.2 }
    if d.Valid then some d else none

/-! ## Round trip -/

theorem isDay_ofInstant {t : Int} (inRange : InRange t) :
    IsDay (t.toNat / microsecondsPerDay + 1)
      ((ofInstant t).year, (ofInstant t).month, (ofInstant t).day) := by
  obtain ⟨positive, small⟩ := inRange
  refine isDay_ord2ymd (Nat.le_add_left 1 _) ?_
  rw [microsecondsPerDay, maxOrdinal] at *
  omega

theorem valid_ofInstant {t : Int} (inRange : InRange t) : (ofInstant t).Valid := by
  have date := isDay_ofInstant inRange
  refine ⟨⟨date.year_pos, date.year_le⟩, ⟨date.month_pos, date.month_le⟩,
    ⟨date.day_pos, date.day_le⟩, ?_, ?_, ?_, ?_, rfl⟩
  · change t.toNat % microsecondsPerDay / 3600000000 < 24
    rw [microsecondsPerDay]
    omega
  · exact Nat.mod_lt _ (by decide)
  · exact Nat.mod_lt _ (by decide)
  · exact Nat.mod_lt _ (by decide)

/-- The microseconds of a day, from its clock. -/
theorem clock_eq (n : Nat) :
    n / 3600000000 * 3600000000 + n / 60000000 % 60 * 60000000 + n / 1000000 % 60 * 1000000 +
      n % 1000000 = n := by
  omega

theorem instant_eq {d : Datetime} {t : Int} (inRange : InRange t)
    (aware : d.utcoffset = some 0)
    (days : ymd2ord d.year d.month d.day = t.toNat / microsecondsPerDay + 1)
    (clock : d.hour * 3600000000 + d.minute * 60000000 + d.second * 1000000 + d.microsecond =
      t.toNat % microsecondsPerDay) : d.instant = some t := by
  have same : (((ymd2ord d.year d.month d.day - 1) * microsecondsPerDay + d.hour * 3600000000 +
      d.minute * 60000000 + d.second * 1000000 + d.microsecond : Nat) : Int) - 0 = t := by
    have positive := inRange.1
    have parts := Nat.div_add_mod' t.toNat microsecondsPerDay
    rw [days, Nat.add_sub_cancel]
    omega
  rw [instant, aware, Option.bind_some, same, if_pos inRange]

/-- An instant is that of its `datetime`. -/
theorem instant_ofInstant {t : Int} (inRange : InRange t) : (ofInstant t).instant = some t :=
  instant_eq inRange rfl (isDay_ofInstant inRange).ordinal_eq (clock_eq _)

theorem digitChar_spec : ∀ d < 10, (Nat.digitChar d).isDigit = true ∧
    (Nat.digitChar d).toNat - 48 = d := by decide

theorem length_pad (width n : Nat) : (pad width n).length = width := by
  induction width generalizing n with
  | zero => rfl
  | succ width ih => rw [pad, List.length_append, ih, List.length_singleton]

theorem isDigit_pad {width n : Nat} : ∀ c ∈ pad width n, c.isDigit = true := by
  induction width generalizing n with
  | zero => exact fun c member => (nomatch member)
  | succ width ih =>
      intro c member
      rcases List.mem_append.mp member with front | last
      · exact ih c front
      · rw [List.mem_singleton.mp last]
        exact (digitChar_spec _ (Nat.mod_lt n (by decide))).1

theorem foldl_pad {width n : Nat} (fits : n < 10 ^ width) :
    (pad width n).foldl (fun n c => n * 10 + (c.toNat - 48)) 0 = n := by
  induction width generalizing n with
  | zero =>
      rw [pow_zero] at fits
      exact (Nat.lt_one_iff.mp fits).symm
  | succ width ih =>
      rw [pow_succ] at fits
      rw [pad, List.foldl_append, ih (by omega), List.foldl_cons, List.foldl_nil,
        (digitChar_spec _ (Nat.mod_lt n (by decide))).2]
      omega

/-- Padded digits are read back. -/
theorem number_pad {width n : Nat} (positive : 0 < width) (fits : n < 10 ^ width) :
    number (pad width n) = some n := by
  have some_ : pad width n ≠ [] := by
    intro none_
    have length := length_pad width n
    rw [none_, List.length_nil] at length
    omega
  rw [number, if_pos ⟨some_, List.all_eq_true.mpr isDigit_pad⟩, foldl_pad fits]

variable {rest : List Char}

theorem twoDigits_pad {n : Nat} (fits : n < 100) : twoDigits (pad 2 n ++ rest) = some n := by
  have long : 2 ≤ (pad 2 n ++ rest).length := by
    rw [List.length_append, length_pad]
    omega
  rw [twoDigits, if_pos long, List.take_left' (length_pad 2 n)]
  exact number_pad (by decide) fits

theorem drop_pad {width n : Nat} : (pad width n ++ rest).drop width = rest :=
  List.drop_left' (length_pad width n)

theorem isDigit_ne {c d : Char} (digit : c.isDigit = true) (other : d.isDigit = false) : c ≠ d := by
  rintro rfl
  rw [digit] at other
  cases other

/-- The text of a date. -/
def dateText (year month day : Nat) : List Char :=
  pad 4 year ++ '-' :: (pad 2 month ++ '-' :: pad 2 day)

theorem length_dateText (year month day : Nat) : (dateText year month day).length = 10 := by
  simp only [dateText, List.length_append, List.length_cons, length_pad]

theorem readDate_dateText {year month day : Nat} (y : year < 10000) (m : month < 100)
    (d : day < 100) : readDate (dateText year month day) = some (year, month, day) := by
  have front : (dateText year month day).take 4 = pad 4 year := List.take_left' (length_pad 4 year)
  have dash : (dateText year month day)[4]? = some '-' := by
    rw [dateText, List.getElem?_append_right (by rw [length_pad]), length_pad]
    rfl
  have back : (dateText year month day).drop 5 = pad 2 month ++ '-' :: pad 2 day := by
    rw [dateText, show 5 = 4 + 1 from rfl, ← List.drop_drop, drop_pad]
    rfl
  have notWeek : ¬ (pad 2 month ++ '-' :: pad 2 day).head? = some 'W' := by
    intro same
    exact isDigit_ne (digitChar_spec _ (Nat.mod_lt _ (by decide))).1 (by decide)
      (Option.some.inj same)
  have last : readDay true 2 ('-' :: pad 2 day) = some day := number_pad (by decide) d
  rw [readDate, front, number_pad (by decide) y, dash]
  simp only [decide_true, if_true, back, if_neg notWeek, twoDigits_pad m, drop_pad, last,
    Option.bind_eq_bind, Option.bind_some]
  rfl

/-- The text of a clock, down to microseconds where there are any. -/
def clockText (hour minute second microsecond : Nat) : List Char :=
  pad 2 hour ++ ':' :: (pad 2 minute ++ ':' :: (pad 2 second ++
    if microsecond = 0 then [] else '.' :: pad 6 microsecond))

theorem readSeconds_pad {second microsecond : Nat} (s : second < 100)
    (us : microsecond < 1000000) :
    readSeconds (pad 2 second ++ if microsecond = 0 then [] else '.' :: pad 6 microsecond) =
      some (second, microsecond) := by
  rw [readSeconds, twoDigits_pad s, drop_pad]
  by_cases none_ : microsecond = 0
  · rw [if_pos none_, none_]
    rfl
  · have fraction : readFraction (pad 6 microsecond) = some microsecond := by
      rw [readFraction, if_pos (List.all_eq_true.mpr isDigit_pad),
        List.take_of_length_le (length_pad 6 microsecond).le, number_pad (by decide) us, length_pad]
      exact congrArg some (Nat.mul_one microsecond)
    rw [if_neg none_]
    simp only [Option.bind_eq_bind, Option.bind_some, true_or, if_true, fraction]
    rfl

theorem readClock_clockText {hour minute second microsecond : Nat} (h : hour < 100)
    (m : minute < 100) (s : second < 100) (us : microsecond < 1000000) :
    readClock (clockText hour minute second microsecond) =
      some (hour, minute, second, microsecond) := by
  rw [readClock, clockText, twoDigits_pad h, drop_pad]
  simp only [List.head?_cons, decide_true, Bool.toNat_true, List.drop_succ_cons, List.drop_zero,
    twoDigits_pad m, drop_pad, readSeconds_pad s us, Option.bind_eq_bind, Option.bind_some,
    reduceCtorEq, if_false, ne_eq, not_true_eq_false, and_false]
  rfl

theorem isZone_of_digit {c : Char} (digit : c.isDigit = true) : isZone c = false := by
  rw [isZone, decide_eq_false_iff_not]
  rintro (same | same | same)
  · exact isDigit_ne digit (by decide) same
  · exact isDigit_ne digit (by decide) same
  · exact isDigit_ne digit (by decide) same

/-- No character of a clock begins a time zone. -/
theorem isZone_clockText {hour minute second microsecond : Nat} :
    ∀ c ∈ clockText hour minute second microsecond, isZone c = false := by
  intro c member
  simp only [clockText, List.mem_append, List.mem_cons] at member
  rcases member with front | rfl | middle | rfl | back | fraction
  · exact isZone_of_digit (isDigit_pad c front)
  · rfl
  · exact isZone_of_digit (isDigit_pad c middle)
  · rfl
  · exact isZone_of_digit (isDigit_pad c back)
  · split at fraction
    · cases fraction
    · rcases List.mem_cons.mp fraction with rfl | digits
      · rfl
      · exact isZone_of_digit (isDigit_pad c digits)

/-- What an offset of `n` microseconds is written as, behind its sign. -/
def zoneText (n : Nat) : List Char :=
  let seconds := if n % 60000000 = 0 then [] else ':' :: pad 2 (n / 1000000 % 60)
  let microseconds := if n % 1000000 = 0 then [] else '.' :: pad 6 (n % 1000000)
  pad 2 (n / 3600000000) ++ ':' :: pad 2 (n / 60000000 % 60) ++ seconds ++ microseconds

theorem offsetText_eq (utcoffset : Int) :
    offsetText utcoffset = (if utcoffset < 0 then '-' else '+') :: zoneText utcoffset.natAbs := rfl

/-- An offset is read as the clock it is written as. -/
theorem readClock_zoneText {n : Nat} (small : n < microsecondsPerDay) :
    ∃ clock, readClock (zoneText n) = some clock ∧ offsetOf clock = n := by
  rw [microsecondsPerDay] at small
  by_cases whole : n % 60000000 = 0
  · refine ⟨(n / 3600000000, n / 60000000 % 60, 0, 0), ?_, ?_⟩
    · have text : zoneText n = pad 2 (n / 3600000000) ++ ':' :: (pad 2 (n / 60000000 % 60) ++ []) := by
        have noMicroseconds : n % 1000000 = 0 := by omega
        simp only [zoneText, if_pos whole, if_pos noMicroseconds, List.append_nil]
      rw [readClock, text, twoDigits_pad (by omega), drop_pad]
      simp only [List.head?_cons, decide_true, Bool.toNat_true, List.drop_succ_cons, List.drop_zero,
        twoDigits_pad (show n / 60000000 % 60 < 100 by omega), drop_pad, Option.bind_eq_bind,
        Option.bind_some, reduceCtorEq, if_false, if_true]
      rfl
    · simp only [offsetOf]
      omega
  · refine ⟨(n / 3600000000, n / 60000000 % 60, n / 1000000 % 60, n % 1000000), ?_, ?_⟩
    · have text : zoneText n = clockText (n / 3600000000) (n / 60000000 % 60) (n / 1000000 % 60)
          (n % 1000000) := by
        simp only [zoneText, clockText, if_neg whole, List.append_assoc, List.cons_append]
      rw [text]
      exact readClock_clockText (by omega) (by omega) (by omega) (by omega)
    · simp only [offsetOf]
      omega

theorem readTime_clockText {hour minute second microsecond : Nat} {utcoffset : Int}
    (h : hour < 100) (m : minute < 100) (s : second < 100) (us : microsecond < 1000000)
    (small : utcoffset.natAbs < microsecondsPerDay) :
    readTime (clockText hour minute second microsecond ++ offsetText utcoffset) =
      some ((hour, minute, second, microsecond), some utcoffset) := by
  have clock : ∀ c ∈ clockText hour minute second microsecond, (!isZone c) = true := by
    intro c member
    rw [isZone_clockText c member]
    rfl
  obtain ⟨zone, read, value⟩ := readClock_zoneText small
  rw [readTime, offsetText_eq, List.takeWhile_append_of_pos clock, List.dropWhile_append_of_pos clock]
  by_cases negative : utcoffset < 0
  · rw [if_pos negative, List.takeWhile_cons_of_neg (by decide), List.append_nil,
      readClock_clockText h m s us, List.dropWhile_cons_of_neg (by decide)]
    simp only [read, value, Option.bind_eq_bind, Option.bind_some]
    rw [if_neg (by decide), if_pos trivial]
    exact congrArg (fun offset => some ((hour, minute, second, microsecond), some offset)) (by omega)
  · rw [if_neg negative, List.takeWhile_cons_of_neg (by decide), List.append_nil,
      readClock_clockText h m s us, List.dropWhile_cons_of_neg (by decide)]
    simp only [read, value, Option.bind_eq_bind, Option.bind_some]
    rw [if_neg (by decide), if_neg (by decide)]
    exact congrArg (fun offset => some ((hour, minute, second, microsecond), some offset)) (by omega)

/-- The date of such a text ends behind its tenth character. -/
theorem separator_dateText {year month day : Nat} :
    separator (dateText year month day ++ 'T' :: rest) = some 10 := by
  have length : (dateText year month day ++ 'T' :: rest).length ≠ 7 := by
    rw [List.length_append, length_dateText]
    omega
  have dash : (dateText year month day ++ 'T' :: rest)[4]? = some '-' := by
    rw [dateText, List.append_assoc, List.getElem?_append_right (by rw [length_pad]), length_pad]
    rfl
  have digit : (dateText year month day ++ 'T' :: rest)[5]? ≠ some 'W' := by
    rw [dateText, List.append_assoc, List.getElem?_append_right (by rw [length_pad]; decide),
      length_pad]
    intro same
    exact isDigit_ne (digitChar_spec _ (Nat.mod_lt _ (by decide))).1 (by decide)
      (Option.some.inj same)
  rw [separator, if_neg length, if_pos dash, if_neg digit]

theorem day_lt {leap : Bool} {month day : Nat} (inMonth : day ≤ daysInMonth leap month) :
    day < 100 := by
  have atMost : daysInMonth leap month ≤ 31 := by
    rw [daysInMonth]
    split
    · split <;> decide
    · split <;> decide
  omega

theorem isoformat_eq {d : Datetime} {utcoffset : Int} (aware : d.utcoffset = some utcoffset) :
    d.isoformat = dateText d.year d.month d.day ++
      'T' :: (clockText d.hour d.minute d.second d.microsecond ++ offsetText utcoffset) := by
  simp only [isoformat, dateText, clockText, List.append_assoc, List.cons_append, aware,
    Option.map_some, Option.getD_some]

/-- The text of an aware `datetime` is read back. -/
theorem fromisoformat_isoformat {d : Datetime} {utcoffset : Int} (valid : d.Valid)
    (aware : d.utcoffset = some utcoffset) : fromisoformat d.isoformat = some d := by
  obtain ⟨⟨-, year⟩, ⟨-, month⟩, ⟨-, day⟩, hour, minute, second, microsecond, offset⟩ := id valid
  have same : (⟨d.year, d.month, d.day, d.hour, d.minute, d.second, d.microsecond,
      some utcoffset⟩ : Datetime) = d := by rw [← aware]
  have small : utcoffset.natAbs < microsecondsPerDay := by
    rw [aware] at offset
    exact of_decide_eq_true offset
  have clock := readTime_clockText (hour.trans (by decide)) (minute.trans (by decide))
    (second.trans (by decide)) microsecond small
  rw [isoformat_eq aware]
  generalize time : clockText d.hour d.minute d.second d.microsecond ++ offsetText utcoffset = rest
    at clock
  have some_ : rest ≠ [] := by
    rw [← time, clockText]
    exact fun none_ => nomatch none_
  have long : ¬ (dateText d.year d.month d.day ++ 'T' :: rest).length < 7 := by
    rw [List.length_append, length_dateText]
    omega
  have back : (dateText d.year d.month d.day ++ 'T' :: rest).drop 11 = rest := by
    rw [show 11 = 10 + 1 from rfl, ← List.drop_drop, List.drop_left' (length_dateText _ _ _)]
    rfl
  rw [fromisoformat, if_neg long, separator_dateText]
  simp only [List.take_left' (length_dateText _ _ _), back, if_neg some_, clock,
    readDate_dateText (Nat.lt_succ_of_le year) (month.trans_lt (by decide)) (day_lt day),
    Option.bind_eq_bind, Option.bind_some, same, if_pos valid]

end Datetime

end Python
