import EmailScheduler.Foundation.Digits

/-!
# Dates and times

The proleptic Gregorian calendar in UTC: the fields of a time in milliseconds since 1970, the time
of some fields, and the text in which a `Date` shows a time. Taking a time apart and putting it
together again is the identity (`timeOf_dateTime`), and so is writing and reading a time of a
four-digit year (`readDate_toISOString`).
-/

set_option autoImplicit false

namespace Foundation

structure DateTime where
  year : Int
  month : Nat
  day : Nat
  hour : Nat
  minute : Nat
  second : Nat
  millisecond : Nat
deriving DecidableEq, Repr

/-! ## Years -/

/-- The days from 1970 to the beginning of a year. -/
def dayFromYear (year : Int) : Int :=
  365 * (year - 1970) + (year - 1969) / 4 - (year - 1901) / 100 + (year - 1601) / 400

def isLeapYear (year : Int) : Bool :=
  decide (year % 4 = 0) && (decide (year % 100 ≠ 0) || decide (year % 400 = 0))

/-- The year of a day. A year has 146097 / 400 days on average, so the quotient is off by one at
most. -/
def yearFromDay (day : Int) : Int :=
  let year := 1970 + 400 * day / 146097
  if day < dayFromYear year then year - 1
  else if dayFromYear (year + 1) ≤ day then year + 1
  else year

theorem dayFromYear_succ (year : Int) :
    dayFromYear (year + 1) = dayFromYear year + if isLeapYear year then 366 else 365 := by
  unfold dayFromYear isLeapYear
  split
  next h =>
    simp only [Bool.and_eq_true, Bool.or_eq_true, decide_eq_true_eq] at h
    omega
  next h =>
    simp only [Bool.and_eq_true, Bool.or_eq_true, decide_eq_true_eq] at h
    omega

/-- A day lies in its year. -/
theorem yearFromDay_spec (day : Int) :
    dayFromYear (yearFromDay day) ≤ day ∧ day < dayFromYear (yearFromDay day + 1) := by
  have hlow : dayFromYear (1970 + 400 * day / 146097 - 1) ≤ day := by
    unfold dayFromYear
    omega
  have hhigh : day < dayFromYear (1970 + 400 * day / 146097 + 1 + 1) := by
    unfold dayFromYear
    omega
  unfold yearFromDay
  dsimp only
  split
  next hbefore => exact ⟨hlow, by rwa [Int.sub_add_cancel]⟩
  next hbefore =>
    split
    next hafter => exact ⟨hafter, hhigh⟩
    next hafter => exact ⟨Int.not_lt.1 hbefore, Int.not_le.1 hafter⟩

/-! ## Months -/

/-- The lengths of the months of a year. -/
def monthLengths (year : Int) : List Nat :=
  [31, if isLeapYear year then 29 else 28, 31, 30, 31, 30, 31, 31, 30, 31, 30, 31]

/-- The month of a day of the year and the day of that month, all counted from 0. -/
def splitDay : List Nat → Nat → Nat × Nat
  | [], day => (0, day)
  | length :: lengths, day =>
      if day < length then (0, day)
      else ((splitDay lengths (day - length)).1 + 1, (splitDay lengths (day - length)).2)

/-- A day of the year is in one of the months, and within its length. -/
theorem splitDay_spec (lengths : List Nat) :
    ∀ day, day < lengths.sum →
      (lengths.take (splitDay lengths day).1).sum + (splitDay lengths day).2 = day ∧
        ∃ length, lengths[(splitDay lengths day).1]? = some length ∧
          (splitDay lengths day).2 < length := by
  induction lengths with
  | nil =>
      intro day h
      exact absurd h (Nat.not_lt_zero day)
  | cons length lengths ih =>
      intro day h
      rw [splitDay]
      split
      next hday => exact ⟨Nat.zero_add day, length, rfl, hday⟩
      next hday =>
        rw [List.sum_cons] at h
        obtain ⟨hsum, hlength⟩ := ih (day - length) (by omega)
        refine ⟨?_, hlength⟩
        rw [List.take_succ_cons, List.sum_cons]
        omega

theorem sum_monthLengths (year : Int) :
    (monthLengths year).sum = if isLeapYear year then 366 else 365 := by
  unfold monthLengths
  split
  · rfl
  · rfl

/-! ## Times -/

/-- The month and the day of a day since 1970, counted from 0. -/
def monthAndDay (day : Int) : Nat × Nat :=
  splitDay (monthLengths (yearFromDay day)) (day - dayFromYear (yearFromDay day)).toNat

/-- The fields of a time. -/
def dateTime (time : Int) : DateTime :=
  let day := time / 86400000
  let within := (time % 86400000).toNat
  { year := yearFromDay day
    month := (monthAndDay day).1 + 1
    day := (monthAndDay day).2 + 1
    hour := within / 3600000
    minute := within / 60000 % 60
    second := within / 1000 % 60
    millisecond := within % 1000 }

/-- The time of some fields. -/
def timeOf (d : DateTime) : Int :=
  (dayFromYear d.year + ((monthLengths d.year).take (d.month - 1)).sum + (d.day - 1 : Nat)) *
      86400000 +
    (d.hour * 3600000 + d.minute * 60000 + d.second * 1000 + d.millisecond : Nat)

/-- The fields are those of a day and a time of that day. -/
structure DateTime.Valid (d : DateTime) : Prop where
  month : 1 ≤ d.month
  day : 1 ≤ d.day
  inMonth : ∃ length, (monthLengths d.year)[d.month - 1]? = some length ∧ d.day ≤ length
  hour : d.hour < 24
  minute : d.minute < 60
  second : d.second < 60
  millisecond : d.millisecond < 1000

/-- The month and the day of a day, in its year. -/
theorem monthAndDay_spec (day : Int) :
    dayFromYear (yearFromDay day) +
      ((monthLengths (yearFromDay day)).take (monthAndDay day).1).sum +
        (monthAndDay day).2 = day ∧
      ∃ length, (monthLengths (yearFromDay day))[(monthAndDay day).1]? = some length ∧
        (monthAndDay day).2 < length := by
  obtain ⟨hlow, hhigh⟩ := yearFromDay_spec day
  rw [dayFromYear_succ] at hhigh
  have hday : (day - dayFromYear (yearFromDay day)).toNat <
    (monthLengths (yearFromDay day)).sum := by
    rw [sum_monthLengths]
    split
    next hleap =>
      rw [if_pos hleap] at hhigh
      omega
    next hleap =>
      rw [if_neg hleap] at hhigh
      omega
  obtain ⟨hsum, hlength⟩ := splitDay_spec _ _ hday
  unfold monthAndDay
  refine ⟨?_, hlength⟩
  omega

theorem valid_dateTime (time : Int) : (dateTime time).Valid := by
  obtain ⟨-, length, hlength, hlt⟩ := monthAndDay_spec (time / 86400000)
  have hwithin : (time % 86400000).toNat < 86400000 := by omega
  exact {
    month := Nat.le_add_left 1 _
    day := Nat.le_add_left 1 _
    inMonth := ⟨length, hlength, hlt⟩
    hour := by
      dsimp only [dateTime]
      omega
    minute := Nat.mod_lt _ (by decide)
    second := Nat.mod_lt _ (by decide)
    millisecond := Nat.mod_lt _ (by decide) }

/-- **A time is the time of its fields.** -/
theorem timeOf_dateTime (time : Int) : timeOf (dateTime time) = time := by
  obtain ⟨hday, -⟩ := monthAndDay_spec (time / 86400000)
  unfold timeOf
  dsimp only [dateTime]
  rw [Nat.add_sub_cancel, Nat.add_sub_cancel, hday]
  omega

/-! ## Texts -/

/-- A year that does not have four digits has a sign and six. -/
def yearText (year : Int) : List Char :=
  if 0 ≤ year ∧ year ≤ 9999 then fixedDigits 10 4 year.toNat
  else (if year < 0 then '-' else '+') :: fixedDigits 10 6 year.natAbs

/-- `YYYY-MM-DDTHH:mm:ss.sssZ`. -/
def DateTime.text (d : DateTime) : List Char :=
  yearText d.year ++ '-' :: (fixedDigits 10 2 d.month ++ '-' :: (fixedDigits 10 2 d.day ++
    'T' :: (fixedDigits 10 2 d.hour ++ ':' :: (fixedDigits 10 2 d.minute ++
      ':' :: (fixedDigits 10 2 d.second ++ '.' :: (fixedDigits 10 3 d.millisecond ++ ['Z']))))))

/-- `toISOString`. -/
def toISOString (time : Int) : String := .ofList (dateTime time).text

/-- The first three digits of a fraction of a second. -/
def readFraction (digits : List Char) : Option Nat :=
  (readDigits 10 3 0 (digits.take 3 ++ List.replicate (3 - digits.length) '0')).map Prod.fst

/-- `:ss` or `:ss.s…`, or nothing. -/
def readSeconds : List Char → Option (Nat × Nat × List Char)
  | ':' :: chars => do
      let (second, chars) ← readDigits 10 2 0 chars
      match chars with
      | '.' :: chars =>
          let digits := chars.takeWhile Char.isDigit
          if digits.isEmpty then none
          else do
            let millisecond ← readFraction digits
            return (second, millisecond, chars.dropWhile Char.isDigit)
      | chars => return (second, 0, chars)
  | chars => return (0, 0, chars)

/-- `new Date(text)` for a date and a time in UTC, the seconds and their fraction being optional;
`none` is `Invalid Date`. A day that its month does not have counts on into the next one. -/
def readDate (text : String) : Option Int := do
  let (year, chars) ← readDigits 10 4 0 text.toList
  let chars ← readChar '-' chars
  let (month, chars) ← readDigits 10 2 0 chars
  let chars ← readChar '-' chars
  let (day, chars) ← readDigits 10 2 0 chars
  let chars ← readChar 'T' chars
  let (hour, chars) ← readDigits 10 2 0 chars
  let chars ← readChar ':' chars
  let (minute, chars) ← readDigits 10 2 0 chars
  let (second, millisecond, chars) ← readSeconds chars
  if chars = ['Z'] ∧ 1 ≤ month ∧ month ≤ 12 ∧ 1 ≤ day ∧ day ≤ 31 ∧ hour < 24 ∧ minute < 60 ∧
      second < 60 then
    return timeOf ⟨year, month, day, hour, minute, second, millisecond⟩
  else none

/-- The year of a time has four digits. -/
def FourDigitYear (time : Int) : Prop := 0 ≤ (dateTime time).year ∧ (dateTime time).year ≤ 9999

instance (time : Int) : Decidable (FourDigitYear time) :=
  inferInstanceAs (Decidable (_ ∧ _))

/-! ## Reading back -/

theorem readFraction_fixedDigits {n : Nat} (h : n < 1000) :
    readFraction (fixedDigits 10 3 n) = some n := by
  have hread : readDigits 10 3 0 (fixedDigits 10 3 n ++ []) = some (n, []) :=
    readDigits_zero (by decide) h []
  unfold readFraction
  rw [length_fixedDigits,
    List.take_of_length_le (Nat.le_of_eq (length_fixedDigits 10 3 n)), Nat.sub_self,
    List.replicate_zero, hread]
  rfl

/-- The seconds of a time, with three digits of their fraction. -/
theorem readSeconds_fixedDigits {second millisecond : Nat} (hsecond : second < 100)
    (hmillisecond : millisecond < 1000) :
    readSeconds (':' ::
    (fixedDigits 10 2 second ++ '.' :: (fixedDigits 10 3 millisecond ++ ['Z']))) =
      some (second, millisecond, ['Z']) := by
  have hdigits := isDigit_of_mem_fixedDigits 3 millisecond hmillisecond
  have hread : ∀ rest, readDigits 10 2 0 (fixedDigits 10 2 second ++ rest) = some (second, rest) :=
    readDigits_zero (by decide) hsecond
  have htake : (fixedDigits 10 3 millisecond ++ ['Z']).takeWhile Char.isDigit =
      fixedDigits 10 3 millisecond := by
    rw [List.takeWhile_append_of_pos hdigits]
    exact List.append_nil _
  have hdrop : (fixedDigits 10 3 millisecond ++ ['Z']).dropWhile Char.isDigit = ['Z'] :=
    List.dropWhile_append_of_pos hdigits
  rw [readSeconds, hread]
  simp only [Option.bind_eq_bind, Option.bind_some]
  rw [htake, hdrop, readFraction_fixedDigits hmillisecond]
  rfl

namespace DateTime

variable {d : DateTime}

theorem Valid.month_le (h : d.Valid) : d.month ≤ 12 := by
  obtain ⟨length, hlength, -⟩ := h.inMonth
  obtain ⟨hlt, -⟩ := List.getElem?_eq_some_iff.1 hlength
  have htwelve : (monthLengths d.year).length = 12 := rfl
  omega

theorem Valid.day_le (h : d.Valid) : d.day ≤ 31 := by
  obtain ⟨length, hlength, hday⟩ := h.inMonth
  have hall : ∀ length ∈ monthLengths d.year, length ≤ 31 := by
    unfold monthLengths
    split
    · decide
    · decide
  exact Nat.le_trans hday (hall length (List.mem_of_getElem? hlength))

/-- A date and a time in UTC are read back from their text. -/
theorem readDate_text (h : d.Valid) (hyear : 0 ≤ d.year ∧ d.year ≤ 9999) :
    readDate (.ofList d.text) = some (timeOf d) := by
  have hread : ∀ {width n : Nat}, n < 10 ^ width → ∀ rest,
      readDigits 10 width 0 (fixedDigits 10 width n ++ rest) = some (n, rest) :=
    readDigits_zero (by decide)
  have hmonth := h.month_le
  have hday := h.day_le
  have hhour := h.hour
  have hminute := h.minute
  have hsecond := h.second
  unfold readDate text yearText
  rw [String.toList_ofList, if_pos hyear, hread (by omega)]
  simp only [Option.bind_eq_bind, Option.bind_some, readChar_cons]
  rw [hread (by omega)]
  simp only [Option.bind_some, readChar_cons]
  rw [hread (by omega)]
  simp only [Option.bind_some, readChar_cons]
  rw [hread (by omega)]
  simp only [Option.bind_some, readChar_cons]
  rw [hread (by omega)]
  simp only [Option.bind_some]
  rw [readSeconds_fixedDigits (by omega) h.millisecond]
  simp only [Option.bind_some]
  rw [if_pos ⟨trivial, h.month, hmonth, h.day, hday, hhour, hminute, hsecond⟩,
    Int.toNat_of_nonneg hyear.1]
  rfl

end DateTime

/-- **A time is read back from its text.** -/
theorem readDate_toISOString {time : Int} (h : FourDigitYear time) :
    readDate (toISOString time) = some time := by
  rw [toISOString, DateTime.readDate_text (valid_dateTime time) h, timeOf_dateTime]

example : toISOString 951782400007 = "2000-02-29T00:00:00.007Z" := by decide +kernel

end Foundation
