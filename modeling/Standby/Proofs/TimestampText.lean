import Mathlib.Algebra.Group.Nat.Defs
import Standby.Value.TimestampText

/-!
# Timestamps read back from their texts

The text of a regular timestamp stands for that timestamp. The calendar has every date that a
count of days is turned into (`Date.isValid_ofDays`), and each scan takes just the characters off
the front of a text that the writer put there, because no digit follows them.

A leap second in the middle of a minute has the text of the next second and is read as that
(`Timestamp.ofText?_text`). So timestamps have one text just if they are read as the same
(`Timestamp.reread_eq_iff`), and the regular ones are those that are read as they are
(`Timestamp.reread_eq_self_iff`).
-/

set_option autoImplicit false

namespace Standby

/-! ## Dates of the calendar -/

namespace Date

theorem isLeapYear_add_eras (year era : Int) : isLeapYear (year + era * 400) = isLeapYear year := by
  have four : (year + era * 400) % 4 = year % 4 := by omega
  have hundred : (year + era * 400) % 100 = year % 100 := by omega
  have fourHundred : (year + era * 400) % 400 = year % 400 := by omega
  rw [isLeapYear, four, hundred, fourHundred, isLeapYear]

/-- A year that starts in March has 366 days if its last month has the leap day. -/
theorem dayOfYear_lt {dayOfEra : Int} (inEra : 0 ≤ dayOfEra ∧ dayOfEra < 146097) :
    dayOfEra - daysBeforeYear (yearOfDay dayOfEra) <
      if isLeapYear (yearOfDay dayOfEra + 1) then 366 else 365 := by
  unfold daysBeforeYear yearOfDay isLeapYear
  generalize hcentury : min (dayOfEra / 36524) 3 = century
  generalize hday : dayOfEra - century * 36524 = dayOfCentury
  generalize hyear : min (dayOfCentury % 1461 / 365) 3 = year
  simp only [hday, hyear]
  generalize hfour : dayOfCentury / 1461 = fourYears
  have century0 : 0 ≤ century ∧ century ≤ 3 := by omega
  have fourYears0 : 0 ≤ fourYears ∧ fourYears < 25 := by omega
  have year0 : 0 ≤ year ∧ year ≤ 3 := by omega
  have leapYears : (century * 100 + fourYears * 4 + year) / 4 = century * 25 + fourYears := by
    omega
  have centuries : (century * 100 + fourYears * 4 + year) / 100 = century := by omega
  rw [leapYears, centuries]
  simp only [Bool.and_eq_true, beq_iff_eq, bne_iff_ne, Bool.or_eq_true, ne_eq]
  split <;> omega

/-- The date of a day of a year that starts in March is one of the calendar. -/
theorem isValid_ofMarch {year dayOfYear : Int} (inYear : 0 ≤ dayOfYear ∧
    dayOfYear < if isLeapYear (year + 1) then 366 else 365) :
    let date := ofMarch year (monthOfDay dayOfYear)
      (dayOfYear - daysBeforeMonth (monthOfDay dayOfYear) + 1)
    (1 ≤ date.month ∧ date.month ≤ 12) ∧ (1 ≤ date.day ∧ date.day ≤ 31) ∧ date.isValid = true := by
  intro date
  have small : 0 ≤ dayOfYear ∧ dayOfYear < 366 := by
    refine ⟨inYear.1, Int.lt_of_lt_of_le inYear.2 ?_⟩
    split <;> decide
  have inMonth : daysBeforeMonth (monthOfDay dayOfYear) ≤ dayOfYear ∧
      dayOfYear < daysBeforeMonth (monthOfDay dayOfYear + 1) := by
    unfold monthOfDay daysBeforeMonth
    omega
  have months : 0 ≤ monthOfDay dayOfYear ∧ monthOfDay dayOfYear < 12 := by
    unfold monthOfDay
    omega
  subst date
  generalize monthOfDay dayOfYear = month at *
  by_cases february : month = 11
  · -- Only here the number of days depends on the year.
    subst february
    simp only [daysBeforeMonth, ofMarch, isValid, daysInMonth] at inMonth ⊢
    split at inYear <;> simp_all <;> omega
  · have others : month = 0 ∨ month = 1 ∨ month = 2 ∨ month = 3 ∨ month = 4 ∨ month = 5 ∨
        month = 6 ∨ month = 7 ∨ month = 8 ∨ month = 9 ∨ month = 10 := by omega
    rcases others with same | same | same | same | same | same | same | same | same | same | same
    all_goals
      subst same
      simp only [daysBeforeMonth, ofMarch, isValid, daysInMonth] at inMonth ⊢
      simp
      omega

/-- Every count of days is turned into a date of the calendar. -/
theorem isValid_ofDays (days : Int) :
    (1 ≤ (ofDays days).month ∧ (ofDays days).month ≤ 12) ∧
      (1 ≤ (ofDays days).day ∧ (ofDays days).day ≤ 31) ∧ (ofDays days).isValid = true := by
  have inEra : 0 ≤ (days + eraOrigin) % 146097 ∧ (days + eraOrigin) % 146097 < 146097 := by
    omega
  refine isValid_ofMarch ⟨(dayOfYear_bounds inEra).1, ?_⟩
  have leap := isLeapYear_add_eras (yearOfDay ((days + eraOrigin) % 146097) + 1)
    ((days + eraOrigin) / 146097)
  rw [Int.add_right_comm, leap]
  exact dayOfYear_lt inEra

/-- The days of timestamps lie in the years of timestamps. -/
theorem year_ofDays_bounds {days : Int} (inRange : -96465292 ≤ days ∧ days ≤ 95026236) :
    -262143 ≤ (ofDays days).year ∧ (ofDays days).year ≤ 262142 := by
  have inEra : 0 ≤ (days + eraOrigin) % 146097 ∧ (days + eraOrigin) % 146097 < 146097 := by
    omega
  have inYear := dayOfYear_bounds inEra
  have eras : -656 ≤ (days + eraOrigin) / 146097 ∧ (days + eraOrigin) / 146097 ≤ 655 := by
    unfold eraOrigin
    omega
  have first : (days + eraOrigin) / 146097 = -656 → 93808 ≤ (days + eraOrigin) % 146097 := by
    unfold eraOrigin
    omega
  have last : (days + eraOrigin) / 146097 = 655 → (days + eraOrigin) % 146097 ≤ 52169 := by
    unfold eraOrigin
    omega
  have year := yearOfDay_bounds inEra
  simp only [ofDays]
  generalize (days + eraOrigin) / 146097 = era at *
  generalize (days + eraOrigin) % 146097 = dayOfEra at *
  generalize yearOfDay dayOfEra = yearOfEra at *
  unfold ofMarch monthOfDay
  unfold daysBeforeYear at *
  split <;> simp only <;> omega

end Date

/-! ## Digits at the front of a text -/

namespace Decimal

theorem digits_ne_nil (number : Nat) : digits number ≠ [] := by
  rw [digits]
  split
  · exact List.cons_ne_nil _ _
  · exact List.append_ne_nil_of_right_ne_nil _ (List.cons_ne_nil _ _)

theorem length_digits_le {width number : Nat} (fits : number < 10 ^ width) (wide : 0 < width) :
    (digits number).length ≤ width := by
  induction width generalizing number with
  | zero => exact absurd wide (Nat.lt_irrefl _)
  | succ width ih =>
    rw [digits]
    split
    · simp
    next large =>
      have fewer : number / 10 < 10 ^ width :=
        (Nat.div_lt_iff_lt_mul (by decide)).2 (by simpa only [Nat.pow_succ] using fits)
      have positive : 0 < width := by
        rcases Nat.eq_zero_or_pos width with none | positive
        · subst none
          omega
        · exact positive
      have shorter := ih fewer positive
      simp only [List.length_append, List.length_singleton]
      omega

/-- The digits of a number with zeros in front of them up to a width. -/
def paddedDigits (width number : Nat) : List Nat :=
  List.replicate (width - (digits number).length) 0 ++ digits number

theorem toList_padded (width number : Nat) :
    (padded width number).toList = (paddedDigits width number).map digitChar := by
  simp [padded, paddedDigits, chars, digitChar]

theorem paddedDigits_ne_nil (width number : Nat) : paddedDigits width number ≠ [] :=
  List.append_ne_nil_of_right_ne_nil _ (digits_ne_nil number)

theorem digit_lt_ten_of_padded {width number digit : Nat}
    (member : digit ∈ paddedDigits width number) : digit < 10 := by
  rcases List.mem_append.1 member with zero | digit
  · have same := (List.mem_replicate.1 zero).2
    omega
  · exact digit_lt_ten digit

theorem value_replicate_zero (count : Nat) (rest : List Nat) :
    value (List.replicate count 0 ++ rest) = value rest := by
  induction count with
  | zero => rfl
  | succ count ih => rwa [List.replicate_succ, List.cons_append, value, List.foldl_cons]

/-- Zeros in front of a number do not change it. -/
theorem value_paddedDigits (width number : Nat) : value (paddedDigits width number) = number := by
  rw [paddedDigits, value_replicate_zero, value_digits]

theorem length_paddedDigits {width number : Nat} (fits : number < 10 ^ width) (wide : 0 < width) :
    (paddedDigits width number).length = width := by
  have shorter := length_digits_le fits wide
  simp only [paddedDigits, List.length_append, List.length_replicate]
  omega

/-- A text that does not start with a digit. -/
def NoDigitAhead (chars : List Char) : Prop := ∀ char ∈ chars.head?, ofChar? char = none

theorem noDigitAhead_cons {char : Char} {rest : List Char} (noDigit : ofChar? char = none) :
    NoDigitAhead (char :: rest) := by
  rintro _ ⟨⟩
  exact noDigit

theorem NoDigitAhead.take {chars : List Char} (noMore : NoDigitAhead chars) (count : Nat) :
    NoDigitAhead (chars.take count) := by
  intro char first
  cases count with
  | zero => cases first
  | succ count =>
    cases chars with
    | nil => cases first
    | cons head rest => exact noMore char first

theorem ofChar?_digitChar {digit : Nat} (isDigit : digit < 10) :
    ofChar? (digitChar digit) = some digit := by
  have all : ∀ digit < 10, ofChar? (digitChar digit) = some digit := by decide
  exact all digit isDigit

/-- Splitting off digits takes just the digits in front of a text that starts with none. -/
theorem spanChars_digits {digits : List Nat} {rest : List Char}
    (areDigits : ∀ digit ∈ digits, digit < 10) (noMore : NoDigitAhead rest) :
    spanChars (digits.map digitChar ++ rest) = (digits, rest) := by
  induction digits with
  | nil =>
    cases rest with
    | nil => rfl
    | cons char rest => simp [spanChars, noMore char rfl]
  | cons digit digits ih =>
    have first := ofChar?_digitChar (areDigits digit List.mem_cons_self)
    have others := ih fun other member => areDigits other (List.mem_cons_of_mem _ member)
    simp only [List.map_cons, List.cons_append, spanChars, first, others]

end Decimal

/-! ## Scanning what was written -/

namespace Timestamp

open Decimal Text

/-- A scan for digits takes all digits in front if they are as many as it takes at most, or if
fewer are there and no other digit follows. -/
theorem scanDigits_digits (most : Nat) {digits : List Nat} (rest : List Char)
    (nonempty : digits ≠ []) (areDigits : ∀ digit ∈ digits, digit < 10)
    (stops : digits.length = most ∨ digits.length ≤ most ∧ NoDigitAhead rest) :
    scanDigits most (digits.map digitChar ++ rest) = some (value digits, rest) := by
  have few : digits.length ≤ most := by omega
  have noMore : NoDigitAhead (rest.take (most - digits.length)) := by
    rcases stops with exact | ⟨_, noMore⟩
    · rw [exact, Nat.sub_self]
      exact nofun
    · exact NoDigitAhead.take noMore _
  have all : (digits.map digitChar).take most = digits.map digitChar :=
    List.take_of_length_le (by rwa [List.length_map])
  have taken : (spanChars ((digits.map digitChar ++ rest).take most)).1 = digits := by
    rw [List.take_append, all, List.length_map, spanChars_digits areDigits noMore]
  have dropped : (digits.map digitChar ++ rest).drop digits.length = rest :=
    List.drop_left' (List.length_map ..)
  simp only [scanDigits, taken, if_neg nonempty, dropped]

theorem isBlank_digitChar {digit : Nat} (isDigit : digit < 10) :
    isBlank (digitChar digit) = false := by
  have all : ∀ digit < 10, isBlank (digitChar digit) = false := by decide
  exact all digit isDigit

theorem skipBlank_padded (width number : Nat) (rest : List Char) :
    skipBlank ((padded width number).toList ++ rest) = (padded width number).toList ++ rest := by
  rw [toList_padded]
  have areDigits := fun digit => @digit_lt_ten_of_padded width number digit
  rcases split : paddedDigits width number with _ | ⟨digit, digits⟩
  · exact absurd split (paddedDigits_ne_nil width number)
  · have first := isBlank_digitChar (areDigits digit (split ▸ List.mem_cons_self))
    simp [skipBlank, first]

/-- Two digits are read as the number they were written for. -/
theorem scanField_padded {least most number : Nat} (fits : number < 100)
    (inRange : least ≤ number ∧ number ≤ most) (rest : List Char) :
    scanField least most ((padded 2 number).toList ++ rest) = some (number, rest) := by
  have digits := scanDigits_digits 2 rest (paddedDigits_ne_nil 2 number)
    (fun digit => digit_lt_ten_of_padded) (.inl (length_paddedDigits fits (by decide)))
  rw [scanField, skipBlank_padded, toList_padded, digits, value_paddedDigits]
  simp only [bind, Option.bind]
  rw [if_pos inRange]

theorem scanMark_cons {mark : Char} (notBlank : isBlank mark = false) (rest : List Char) :
    scanMark mark (mark :: rest) = some ((), rest) := by
  simp [scanMark, skipBlank, notBlank]

/-- A text that does not start with a sign or a blank has a year of at most four digits. -/
theorem scanYear_of_unsigned {char : Char} {rest : List Char} (notBlank : isBlank char = false)
    (notMinus : char ≠ '-') (notPlus : char ≠ '+') :
    scanYear (char :: rest) =
      (scanDigits 4 (char :: rest)).map fun found => ((found.1 : Int), found.2) := by
  have ahead : skipBlank (char :: rest) = char :: rest := by simp [skipBlank, notBlank]
  rw [scanYear, ahead]
  split
  next same => exact absurd (List.cons.inj same).1 notMinus
  next same => exact absurd (List.cons.inj same).1 notPlus
  next => cases scanDigits 4 (char :: rest) <;> rfl

/-- A year is read as it was written, with four digits or with a sign. -/
theorem scanYear_yearText (year : Int) {rest : List Char} (noMore : NoDigitAhead rest) :
    scanYear ((yearText year).toList ++ rest) = some (year, rest) := by
  have areDigits := fun number digit => @digit_lt_ten_of_padded 4 number digit
  rw [yearText]
  split
  next four =>
    have fits : year.toNat < 10 ^ 4 := by omega
    have digits := scanDigits_digits 4 rest (paddedDigits_ne_nil 4 year.toNat)
      (areDigits _) (.inl (length_paddedDigits fits (by decide)))
    rw [value_paddedDigits] at digits
    rw [toList_padded]
    rcases split : paddedDigits 4 year.toNat with _ | ⟨digit, others⟩
    · exact absurd split (paddedDigits_ne_nil 4 year.toNat)
    · have isDigit := areDigits year.toNat digit (split ▸ List.mem_cons_self)
      have unsigned : ∀ digit < 10, digitChar digit ≠ '-' ∧ digitChar digit ≠ '+' := by decide
      rw [split, List.map_cons, List.cons_append] at digits
      rw [List.map_cons, List.cons_append, scanYear_of_unsigned (isBlank_digitChar isDigit)
        (unsigned digit isDigit).1 (unsigned digit isDigit).2, digits]
      simp only [Option.map_some, Option.some.injEq, Prod.mk.injEq, and_true]
      omega
  next signed =>
    have digits : scanDigits ((paddedDigits 4 year.natAbs).map digitChar ++ rest).length
        ((paddedDigits 4 year.natAbs).map digitChar ++ rest) = some (year.natAbs, rest) := by
      have scanned := scanDigits_digits
        ((paddedDigits 4 year.natAbs).map digitChar ++ rest).length rest
        (paddedDigits_ne_nil 4 year.natAbs) (areDigits _) (.inr ⟨by simp, noMore⟩)
      rwa [value_paddedDigits] at scanned
    have minus (chars : List Char) : skipBlank ('-' :: chars) = '-' :: chars :=
      List.dropWhile_cons_of_neg (by decide)
    have plus (chars : List Char) : skipBlank ('+' :: chars) = '+' :: chars :=
      List.dropWhile_cons_of_neg (by decide)
    split
    next negative =>
      have ahead : ("-" ++ padded 4 year.natAbs).toList ++ rest =
          '-' :: ((paddedDigits 4 year.natAbs).map digitChar ++ rest) := by
        simp [toList_padded]
      rw [ahead, scanYear, minus]
      simp only [digits, bind, Option.bind, Option.some.injEq, Prod.mk.injEq, and_true]
      omega
    next positive =>
      have ahead : ("+" ++ padded 4 year.natAbs).toList ++ rest =
          '+' :: ((paddedDigits 4 year.natAbs).map digitChar ++ rest) := by
        simp [toList_padded]
      rw [ahead, scanYear, plus]
      simp only [digits, bind, Option.bind, Option.some.injEq, Prod.mk.injEq, and_true]
      omega

theorem scanFraction_digits {width number : Nat} (fits : number < 10 ^ width) (wide : 0 < width)
    (short : width ≤ 9) {rest : List Char} (noMore : NoDigitAhead rest) :
    scanFraction (("." ++ padded width number).toList ++ rest) =
      some (number * 10 ^ (9 - width), rest) := by
  have ahead : ("." ++ padded width number).toList ++ rest =
      '.' :: ((paddedDigits width number).map digitChar ++ rest) := by
    simp [toList_padded]
  have digits := spanChars_digits (fun digit => @digit_lt_ten_of_padded width number digit) noMore
  have length := length_paddedDigits fits wide
  have kept : (paddedDigits width number).take 9 = paddedDigits width number :=
    List.take_of_length_le (by omega)
  simp only [ahead, scanFraction, digits, kept, length, value_paddedDigits,
    if_neg (paddedDigits_ne_nil width number), Nat.pow_eq]

/-- A fraction of a second is read as it was written. -/
theorem scanFraction_fractionText {nanos : Nat} (fits : nanos < 1000000000) {rest : List Char}
    (noMore : NoDigitAhead rest) (noPoint : ∀ char ∈ rest.head?, char ≠ '.') :
    scanFraction ((fractionText nanos).toList ++ rest) = some (nanos, rest) := by
  rw [fractionText]
  split
  next whole =>
    subst whole
    change scanFraction rest = _
    cases rest with
    | nil => rfl
    | cons char rest =>
      have different := noPoint char rfl
      simp [scanFraction, different]
  next =>
    split
    next millis =>
      rw [scanFraction_digits (by omega) (by decide) (by decide) noMore]
      simp only [Option.some.injEq, Prod.mk.injEq, and_true]
      omega
    next =>
      split
      next micros =>
        rw [scanFraction_digits (by omega) (by decide) (by decide) noMore]
        simp only [Option.some.injEq, Prod.mk.injEq, and_true]
        omega
      next =>
        rw [scanFraction_digits fits (by decide) (by decide) noMore]
        simp

/-- A regular timestamp is read from its text. A leap second, which is written as second 60, is
taken apart again into the second before it and the nanoseconds past its end. -/
theorem ofText?_text_of_isRegular {timestamp : Timestamp} (regular : timestamp.IsRegular) :
    ofText? timestamp.text = some timestamp := by
  have ⟨month, day, valid⟩ := Date.isValid_ofDays timestamp.day
  have inRange := timestamp.inRange
  have inSecond := timestamp.inSecond
  have leap : 1000000000 ≤ timestamp.nanos → timestamp.seconds % 60 = 59 := regular
  have year : -262143 ≤ (Date.ofDays timestamp.day).year ∧
      (Date.ofDays timestamp.day).year ≤ 262142 :=
    Date.year_ofDays_bounds (by unfold Timestamp.day; omega)
  have days := Date.toDays_ofDays timestamp.day
  have parts := ofParts?_parts regular
  have second : timestamp.secondOfDay < 86400 := by
    unfold secondOfDay
    omega
  have listed : timestamp.text.toList =
      (yearText (Date.ofDays timestamp.day).year).toList ++ '-' ::
        ((padded 2 (Date.ofDays timestamp.day).month.toNat).toList ++ '-' ::
          ((padded 2 (Date.ofDays timestamp.day).day.toNat).toList ++ 'T' ::
            ((padded 2 (timestamp.secondOfDay / 3600)).toList ++ ':' ::
              ((padded 2 (timestamp.secondOfDay / 60 % 60)).toList ++ ':' ::
                ((padded 2 (timestamp.secondOfDay % 60 +
                    timestamp.nanos / 1000000000)).toList ++
                  ((fractionText (timestamp.nanos % 1000000000)).toList ++ ['Z'])))))) := by
    simp [text]
  have mark : isBlank '-' = false ∧ isBlank ':' = false := by decide
  have ends : NoDigitAhead ['Z'] := noDigitAhead_cons (by decide)
  have small : timestamp.nanos % 1000000000 < 1000000000 := by omega
  have fraction := scanFraction_fractionText small ends (by simp)
  rw [ofText?, listed, scanYear_yearText _ (noDigitAhead_cons (by decide))]
  simp only [bind, Option.bind, scanMark_cons mark.1]
  rw [scanField_padded (by omega) (by omega)]
  simp only [scanMark_cons mark.1]
  rw [scanField_padded (by omega) (by omega)]
  simp only [scanSeparator]
  rw [scanField_padded (by omega) (by omega)]
  simp only [scanMark_cons mark.2]
  rw [scanField_padded (by omega) (by omega)]
  simp only [scanMark_cons mark.2]
  rw [scanField_padded (by omega) (by omega)]
  simp only [fraction]
  have offset : scanOffset (skipBlank ['Z']) = some (0, []) := by decide
  have date : (⟨(Date.ofDays timestamp.day).year, (Date.ofDays timestamp.day).month.toNat,
      (Date.ofDays timestamp.day).day.toNat⟩ : Date) = Date.ofDays timestamp.day := by
    rw [Int.toNat_of_nonneg (by omega), Int.toNat_of_nonneg (by omega)]
  have accepted : skipBlank [] = [] ∧ (Date.ofDays timestamp.day).isValid = true ∧
      (-86400 : Int) < 0 ∧ (0 : Int) < 86400 ∧ -262143 ≤ (Date.ofDays timestamp.day).year ∧
        (Date.ofDays timestamp.day).year ≤ 262142 :=
    ⟨rfl, valid, by decide, by decide, year⟩
  simp only [offset, date, days]
  rw [if_pos accepted]
  have nanos : timestamp.nanos % 1000000000 + (timestamp.secondOfDay % 60 +
      timestamp.nanos / 1000000000 - min (timestamp.secondOfDay % 60 +
        timestamp.nanos / 1000000000) 59) * 1000000000 = timestamp.nanos := by
    unfold secondOfDay
    omega
  have seconds : timestamp.day * 86400 + ((timestamp.secondOfDay / 3600 : Nat) : Int) * 3600 +
      ((timestamp.secondOfDay / 60 % 60 : Nat) : Int) * 60 +
      ((min (timestamp.secondOfDay % 60 + timestamp.nanos / 1000000000) 59 : Nat) : Int) - 0 =
        timestamp.seconds := by
    unfold Timestamp.day secondOfDay
    omega
  rw [nanos, seconds, parts]

/-! ## What is read from a text -/

/-- The timestamp that the text of a timestamp stands for: the next second for a leap second in the
middle of a minute. -/
def reread (timestamp : Timestamp) : Timestamp :=
  if misplaced : 1000000000 ≤ timestamp.nanos ∧ timestamp.seconds % 60 ≠ 59 then
    ⟨timestamp.seconds + 1, timestamp.nanos - 1000000000,
      by have inRange := timestamp.inRange; omega, by have inSecond := timestamp.inSecond; omega⟩
  else timestamp

theorem isRegular_iff {timestamp : Timestamp} : timestamp.IsRegular ↔
    ¬(1000000000 ≤ timestamp.nanos ∧ timestamp.seconds % 60 ≠ 59) := by
  unfold IsRegular
  omega

theorem isRegular_reread (timestamp : Timestamp) : timestamp.reread.IsRegular := by
  have inSecond := timestamp.inSecond
  unfold reread
  split
  next =>
    intro past
    simp only at past
    omega
  next placed => exact isRegular_iff.2 placed

theorem reread_eq_self_iff {timestamp : Timestamp} :
    timestamp.reread = timestamp ↔ timestamp.IsRegular := by
  constructor
  · intro same
    rw [← same]
    exact timestamp.isRegular_reread
  · intro regular
    exact dif_neg (isRegular_iff.1 regular)

/-- A leap second in the middle of a minute is written as the next second. -/
theorem text_reread (timestamp : Timestamp) : timestamp.reread.text = timestamp.text := by
  unfold reread
  split
  next misplaced =>
    have inSecond := timestamp.inSecond
    have day : (timestamp.seconds + 1) / 86400 = timestamp.seconds / 86400 := by omega
    have hour : ((timestamp.seconds + 1) % 86400).toNat / 3600 =
        (timestamp.seconds % 86400).toNat / 3600 := by omega
    have minute : ((timestamp.seconds + 1) % 86400).toNat / 60 % 60 =
        (timestamp.seconds % 86400).toNat / 60 % 60 := by omega
    have second : ((timestamp.seconds + 1) % 86400).toNat % 60 +
        (timestamp.nanos - 1000000000) / 1000000000 =
          (timestamp.seconds % 86400).toNat % 60 + timestamp.nanos / 1000000000 := by omega
    have fraction : (timestamp.nanos - 1000000000) % 1000000000 =
        timestamp.nanos % 1000000000 := by omega
    simp only [text, Timestamp.day, secondOfDay, day, hour, minute, second, fraction]
  next => rfl

/-- **A timestamp is read from its text**, if it is regular, and else the next second. -/
theorem ofText?_text (timestamp : Timestamp) :
    ofText? timestamp.text = some timestamp.reread := by
  rw [← text_reread]
  exact ofText?_text_of_isRegular timestamp.isRegular_reread

/-- Timestamps are read as the same just if they have the same text. -/
theorem reread_eq_iff {first second : Timestamp} :
    first.reread = second.reread ↔ first.text = second.text := by
  constructor
  · intro same
    rw [← first.text_reread, same, text_reread]
  · intro same
    have read := first.ofText?_text
    rw [same, ofText?_text] at read
    exact (Option.some.inj read).symm

end Timestamp

end Standby
