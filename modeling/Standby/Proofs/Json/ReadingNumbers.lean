import Standby.Proofs.Json.Reading

/-!
# Reading numbers off JSON text

A number ends where its reader stops, and the reader stops before whatever may follow an item. So a
number that is read from a text alone is read from it in a list or an object too
(`readNumber_append`). Integers are read from their digits (`takes_integer`), and a double is read
from its text if the text stands for it (`takes_double`).
-/

set_option autoImplicit false

namespace Standby

open Decimal

namespace Json

variable {rest : Bytes}

/-! ## What follows a number -/

theorem Halts.noPoint (halts : Halts rest) : ∀ byte ∈ rest.head?, byte ≠ 0x2e :=
  fun byte first => (halts byte first).2.1

/-- What is taken wherever a number may end is taken where an item may. -/
theorem Takes.of_halts {α : Type} {reader : Reader α} {bytes : Bytes} {value : α}
    (takes : Takes reader Halts bytes value) : Takes reader Ends bytes value :=
  fun rest ends => takes rest ends.halts

theorem spanDigits_append {bytes left : Bytes} {digits : List Nat}
    (read : spanDigits bytes = (digits, left)) (noMore : NoDigit rest) :
    spanDigits (bytes ++ rest) = (digits, left ++ rest) := by
  induction bytes generalizing digits with
  | nil =>
    cases read
    exact @spanDigits_digits _ [] nofun noMore
  | cons byte bytes ih =>
    rw [List.cons_append, spanDigits]
    rw [spanDigits] at read
    cases isDigit : ofByte? byte with
    | none =>
      rw [isDigit] at read
      cases read
      rfl
    | some digit =>
      rw [isDigit] at read
      cases read
      rw [ih rfl]

/-- Digits are a whole number if there are any, and no zero leads more than itself. -/
theorem readWhole_eq_some_iff {bytes left : Bytes} {digits : List Nat} :
    readWhole bytes = some (digits, left) ↔ spanDigits bytes = (digits, left) ∧ digits ≠ [] ∧
      ∀ second others, digits ≠ 0 :: second :: others := by
  rw [readWhole]
  rcases spanDigits bytes with ⟨found, after⟩
  rcases found with - | ⟨_ | first, - | ⟨second, others⟩⟩ <;> aesop

theorem readWhole_append {bytes left : Bytes} {digits : List Nat}
    (read : readWhole bytes = some (digits, left)) (noMore : NoDigit rest) :
    readWhole (bytes ++ rest) = some (digits, left ++ rest) := by
  obtain ⟨span, whole⟩ := readWhole_eq_some_iff.1 read
  exact readWhole_eq_some_iff.2 ⟨spanDigits_append span noMore, whole⟩

/-- Whatever is made of one or more digits is made of them here too. -/
theorem someDigits_append {α : Type} (make : List Nat → α) {bytes left : Bytes} {value : α}
    (read : (match spanDigits bytes with
      | ([], _) => none
      | (digits, rest) => some (make digits, rest)) = some (value, left)) (noMore : NoDigit rest) :
    (match spanDigits (bytes ++ rest) with
      | ([], _) => none
      | (digits, rest) => some (make digits, rest)) = some (value, left ++ rest) := by
  cases span : spanDigits bytes with
  | mk digits after =>
    rw [span] at read
    rw [spanDigits_append span noMore]
    cases digits with
    | nil => cases read
    | cons digit digits =>
      cases read
      rfl

theorem readFraction_append {bytes left : Bytes} {digits : Option (List Nat)}
    (read : readFraction bytes = some (digits, left)) (halts : Halts rest) :
    readFraction (bytes ++ rest) = some (digits, left ++ rest) := by
  cases bytes with
  | nil =>
    cases read
    exact readFraction_none halts.noPoint
  | cons point bytes =>
    simp only [List.cons_append, readFraction] at read ⊢
    split at read
    next isPoint =>
      rw [if_pos isPoint]
      exact someDigits_append some read halts.noDigit
    next noPoint =>
      cases read
      rw [if_neg noPoint]
      rfl

/-- An exponent is read alike before more bytes, as its sign is told by its mark alone. -/
theorem readExponent_append {bytes left : Bytes} {exponent : Option Int}
    (read : readExponent bytes = some (exponent, left)) (halts : Halts rest) :
    readExponent (bytes ++ rest) = some (exponent, left ++ rest) := by
  cases bytes with
  | nil =>
    cases read
    exact readExponent_none halts
  | cons letter bytes =>
    simp only [List.cons_append, readExponent] at read ⊢
    split at read
    next isLetter =>
      rw [if_pos isLetter]
      cases bytes with
      | nil => cases read
      | cons mark bytes =>
        simp only [List.cons_append] at read ⊢
        split_ifs at read ⊢
        · exact someDigits_append (fun digits => some (1 * (value digits : Int))) read halts.noDigit
        · exact someDigits_append (fun digits => some (-1 * (value digits : Int))) read
            halts.noDigit
        · exact someDigits_append (fun digits => some (1 * (value digits : Int))) read halts.noDigit
    next noLetter =>
      cases read
      rw [if_neg noLetter]
      rfl

/-! ## The parts of a number -/

/-- Whether a minus stands in front of a number, and the number behind it. -/
def splitSign : Bytes → Bool × Bytes
  | [] => (false, [])
  | mark :: rest => if mark = 0x2d then (true, rest) else (false, mark :: rest)

theorem splitSign_of_ne_minus {bytes : Bytes} (noMinus : ∀ others, bytes ≠ 0x2d :: others) :
    splitSign bytes = (false, bytes) := by
  cases bytes with
  | nil => rfl
  | cons mark others =>
    refine if_neg ?_
    rintro rfl
    exact noMinus others rfl

/-- The number that its parts stand for. -/
def numberOf (negative : Bool) (whole : List Nat) (fraction : Option (List Nat))
    (exponent : Option Int) : Option Number :=
  let (significand, dropped) := absorb 0 whole
  if dropped = [] ∧ fraction.isNone ∧ exponent.isNone then
    some (integerNumber negative significand)
  else
    let digits := fraction.getD []
    let (significand, left) := absorb significand digits
    let start : Int := (dropped.length : Int) - ((digits.length - left.length : Nat) : Int)
    (decimalDouble negative significand start (exponent.getD 0)).map .double

/-- A number is read part by part. -/
theorem readUnspaced_eq (bytes : Bytes) :
    readUnspaced bytes = (readWhole (splitSign bytes).2).bind fun whole =>
      (readFraction whole.2).bind fun fraction =>
        (readExponent fraction.2).bind fun exponent =>
          (numberOf (splitSign bytes).1 whole.1 fraction.1 exponent.1).map fun number =>
            (number, exponent.2) := by
  rw [readUnspaced.eq_def]
  split
  next negative behind split =>
  have sign : splitSign bytes = (negative, behind) := by cases bytes <;> exact split
  rw [sign]
  refine Option.bind_congr fun whole _ => ?_
  refine Option.bind_congr fun fraction _ => ?_
  refine Option.bind_congr fun exponent _ => ?_
  simp only [numberOf]
  split
  · rfl
  · rw [Option.map_map]
    exact Option.map_eq_bind.symm

/-- What follows a number changes nothing for its reader. -/
theorem readUnspaced_append {bytes left : Bytes} {number : Number}
    (read : readUnspaced bytes = some (number, left)) (halts : Halts rest) :
    readUnspaced (bytes ++ rest) = some (number, left ++ rest) := by
  simp only [readUnspaced_eq, Option.bind_eq_some_iff, Option.map_eq_some_iff] at read
  obtain ⟨whole, readsWhole, fraction, readsFraction, exponent, readsExponent, number, stands,
    same⟩ := read
  cases same
  have sign : splitSign (bytes ++ rest) = ((splitSign bytes).1, (splitSign bytes).2 ++ rest) := by
    cases bytes with
    | nil => cases readsWhole
    | cons mark bytes =>
      simp only [List.cons_append, splitSign]
      split <;> rfl
  simp only [readUnspaced_eq, sign, readWhole_append readsWhole halts.noDigit,
    readFraction_append readsFraction halts, readExponent_append readsExponent halts, stands,
    Option.bind_some, Option.map_some]

theorem readNumber_append {bytes left : Bytes} {number : Number}
    (read : readNumber bytes = .ok (number, left)) (halts : Halts rest) :
    readNumber (bytes ++ rest) = .ok (number, left ++ rest) := by
  rw [readNumber] at read ⊢
  cases unspaced : readUnspaced (skipSpace bytes) with
  | none => rw [unspaced] at read; cases read
  | some result =>
    rw [unspaced] at read
    cases read
    have behind : skipSpace (bytes ++ rest) = skipSpace bytes ++ rest := by
      rw [skipSpace, List.dropWhile_append, if_neg]
      · rfl
      · intro empty
        rw [skipSpace, List.isEmpty_iff.1 empty] at unspaced
        cases unspaced
    rw [behind, readUnspaced_append unspaced halts]

theorem readNumber_eq {bytes : Bytes} (starts : skipSpace bytes = bytes) {number : Number}
    {left : Bytes} (read : readUnspaced bytes = some (number, left)) :
    readNumber bytes = .ok (number, left) := by
  rw [readNumber, starts, read]

/-! ## Integers -/

/-- The digits of a number do not start with a zero before others. -/
theorem digits_ne_zero_cons (number second : Nat) (others : List Nat) :
    digits number ≠ 0 :: second :: others := by
  fun_induction digits number generalizing second others with
  | case1 number small => simp
  | case2 number large ih =>
    intro same
    obtain ⟨first, front, are⟩ := List.exists_cons_of_ne_nil (digits_ne_nil (number / 10))
    rw [are, List.cons_append] at same
    obtain ⟨rfl, -⟩ := List.cons.inj same
    cases front with
    | nil =>
      have stands := value_digits (number / 10)
      rw [are] at stands
      have none : number / 10 = 0 := stands.symm
      omega
    | cons next front => exact ih next front are

theorem readWhole_bytes (number : Nat) :
    readWhole (Decimal.bytes number) = some (digits number, []) := by
  have span : spanDigits (Decimal.bytes number ++ []) = (digits number, []) :=
    spanDigits_bytes number nofun
  rw [List.append_nil] at span
  exact readWhole_eq_some_iff.2 ⟨span, digits_ne_nil number, digits_ne_zero_cons number⟩

/-- The number that digits make behind a number. -/
abbrev valueFrom (number : Nat) (digits : List Nat) : Nat :=
  digits.foldl (fun number digit => number * 10 + digit) number

theorem le_valueFrom (number : Nat) (digits : List Nat) : number ≤ valueFrom number digits := by
  induction digits generalizing number with
  | nil => exact Nat.le_refl _
  | cons digit digits ih =>
    have further := ih (number * 10 + digit)
    exact Nat.le_trans (by omega) further

/-- Digits are taken up if the number they make fits. -/
theorem absorb_eq {number : Nat} {digits : List Nat}
    (fits : valueFrom number digits < UInt64.size) :
    absorb number digits = (valueFrom number digits, []) := by
  induction digits generalizing number with
  | nil => rfl
  | cons digit digits ih =>
    rw [absorb, if_pos (Nat.lt_of_le_of_lt (le_valueFrom _ digits) fits), ih fits]
    rfl

theorem numberOf_digits (negative : Bool) {number : Nat} (fits : number < UInt64.size) :
    numberOf negative (digits number) none none = some (integerNumber negative number) := by
  have stands : valueFrom 0 (digits number) = number := value_digits number
  rw [numberOf, absorb_eq (stands.symm ▸ fits), stands]
  rfl

theorem readUnspaced_bytes {number : Nat} (fits : number < UInt64.size) :
    readUnspaced (Decimal.bytes number) = some (.natural number, []) ∧
      readUnspaced (0x2d :: Decimal.bytes number) = some (integerNumber true number, []) := by
  have plain : splitSign (Decimal.bytes number) = (false, Decimal.bytes number) := by
    have noMinus := bytes_append_ne_minus number []
    rw [List.append_nil] at noMinus
    exact splitSign_of_ne_minus noMinus
  have minus : splitSign (0x2d :: Decimal.bytes number) = (true, Decimal.bytes number) := rfl
  constructor
  · rw [readUnspaced_eq, plain, readWhole_bytes]
    simp only [Option.bind_some, readFraction, readExponent, numberOf_digits _ fits]
    rfl
  · rw [readUnspaced_eq, minus, readWhole_bytes]
    simp only [Option.bind_some, readFraction, readExponent, numberOf_digits _ fits]
    rfl

/-- A number starts with none of the marks that may stand before it. -/
theorem avoids_bytes {mark : UInt8} (noDigit : ofByte? mark = none) (number : Nat) :
    Avoids mark (Decimal.bytes number) := by
  obtain ⟨digit, digits, are⟩ := List.exists_cons_of_ne_nil (digits_ne_nil number)
  have isDigit : digit < 10 := digit_lt_ten (are ▸ List.mem_cons_self)
  have noSpace : ∀ digit < 10, isSpace (digitByte digit) = false := by decide
  refine ⟨digitByte digit, digits.map digitByte, by rw [Decimal.bytes, are, List.map_cons],
    noSpace digit isDigit, ?_⟩
  rintro rfl
  cases (ofByte?_digitByte isDigit).symm.trans noDigit

theorem avoids_intBytes {mark : UInt8} (noDigit : ofByte? mark = none) (noMinus : 0x2d ≠ mark)
    (number : Int) : Avoids mark (intBytes number) := by
  rw [intBytes]
  split
  · exact ⟨0x2d, _, rfl, by decide, noMinus⟩
  · exact avoids_bytes noDigit _

theorem Avoids.skipSpace_eq {mark : UInt8} {bytes : Bytes} (avoids : Avoids mark bytes) :
    skipSpace bytes = bytes := by
  obtain ⟨byte, others, rfl, noSpace, -⟩ := avoids
  exact skipSpace_cons noSpace others

/-- **An integer is read from its digits.** -/
theorem takes_integer {least most number : Int}
    (fit : -(greatestNegative : Int) ≤ least ∧ most < UInt64.size)
    (inRange : least ≤ number ∧ number ≤ most) :
    Takes (Codec.integer least most).read Halts (intBytes number) number := by
  intro rest halts
  have small : number.natAbs < UInt64.size := by
    have negatives : greatestNegative < UInt64.size := by decide
    omega
  obtain ⟨natural, negated⟩ := readUnspaced_bytes small
  have avoids : Avoids closeList (intBytes number) := avoids_intBytes rfl (by decide) number
  have starts := avoids.skipSpace_eq
  change readInteger least most (intBytes number ++ rest) = _
  rw [readInteger]
  rw [intBytes] at starts ⊢
  split at starts
  next negative =>
    have magnitude : -(number.natAbs : Int) = number := by omega
    have isNegative : integerNumber true number.natAbs = .negative number.natAbs := by
      rw [integerNumber]
      simp
      omega
    rw [isNegative] at negated
    rw [if_pos negative, readNumber_append (readNumber_eq starts negated) halts]
    simp only [bind, Except.bind, magnitude, inRange, and_self, if_true, List.nil_append]
  next positive =>
    have magnitude : (number.natAbs : Int) = number := by omega
    rw [if_neg positive, readNumber_append (readNumber_eq starts natural) halts]
    simp only [bind, Except.bind, magnitude, inRange, and_self, if_true, List.nil_append]

/-- Values that stand for integers in a range are read from these. -/
theorem takes_integral {α : Type} {least most : Int} {toInt : α → Int} {ofInt : Int → α}
    (fit : -(greatestNegative : Int) ≤ least ∧ most < UInt64.size) {value : α}
    (inRange : least ≤ toInt value ∧ toInt value ≤ most) (back : ofInt (toInt value) = value) :
    Takes ((Codec.integer least most).map toInt ofInt).read Halts
      (((Codec.integer least most).map toInt ofInt).write value) value := by
  have read := (takes_integer fit inRange).map toInt ofInt
  rwa [back] at read

theorem takes_int32 (number : Int32) :
    Takes Codec.int32.read Ends (Codec.int32.write number) number :=
  (takes_integral (by decide) ⟨number.le_toInt, Int.le_of_lt_add_one number.toInt_lt⟩
    (Int32.ofInt_toInt number)).of_halts

theorem takes_int64 (number : Int64) :
    Takes Codec.int64.read Ends (Codec.int64.write number) number :=
  (takes_integral (by decide) ⟨number.le_toInt, Int.le_of_lt_add_one number.toInt_lt⟩
    (Int64.ofInt_toInt number)).of_halts

theorem takes_word64 (word : UInt64) :
    Takes Codec.word64.read Halts (Codec.word64.write word) word := by
  have below := word.toNat_lt
  refine takes_integral (by decide) ⟨by omega, by omega⟩ ?_
  rw [Int.toNat_natCast, UInt64.ofNat_toNat]

theorem takes_byte (byte : UInt8) : Takes Codec.byte.read Ends (Codec.byte.write byte) byte := by
  have below := byte.toNat_lt
  refine (takes_integral (by decide) ⟨by omega, by omega⟩ ?_).of_halts
  rw [Int.toNat_natCast, UInt8.ofNat_toNat]

/-- A blob is read from the numbers of its bytes. -/
theorem takes_blob (bytes : Bytes) :
    Takes Codec.blob.read Anything (Codec.blob.write bytes) bytes := by
  have items : List.Forall₂ (Takes Codec.byte.read Ends) (bytes.map Codec.byte.write) bytes :=
    List.forall₂_map_left_iff.2 (List.forall₂_same.2 fun byte _ => takes_byte byte)
  have read := takes_list items fun part member => by
    obtain ⟨byte, -, rfl⟩ := List.mem_map.1 member
    exact avoids_intBytes rfl (by decide) byte.toNat
  intro rest _
  have noQuote : dropMark? quoteMark (Codec.blob.write bytes ++ rest) = none :=
    dropMark?_of_avoids ⟨openList, _, rfl, by decide, by decide⟩ rest
  simp only [Codec.blob] at noQuote ⊢
  rw [noQuote]
  exact read rest trivial

/-! ## Doubles -/

end Json

/-- Whether a double is finite and its text in JSON stands for it, bit for bit. -/
structure Double.ReadsBack (double : Double) : Prop where
  finite : double.isFinite
  reads : Json.Codec.double.parse (Json.Codec.double.write double) = .ok double

namespace Json

/-- A number is left where its digits are. -/
theorem left_eq_of_readUnspaced {decimal : Scientific} {bytes left : Bytes} {number : Number}
    (unsigned : (splitSign bytes).2 = scientificBytes decimal)
    (read : readUnspaced bytes = some (number, left)) : left = [] := by
  simp only [readUnspaced_eq, Option.bind_eq_some_iff, Option.map_eq_some_iff] at read
  obtain ⟨whole, readsWhole, fraction, readsFraction, exponent, readsExponent, number, -, same⟩ :=
    read
  cases same
  have ahead := numberAhead?_scientificBytes decimal ends_nil
  rw [unsigned] at readsWhole
  rw [List.append_nil] at ahead
  simp only [numberAhead?, (readWhole_eq_some_iff.1 readsWhole).1, readsFraction, readsExponent,
    bind, Option.bind] at ahead
  exact (Prod.mk.inj (Option.some.inj ahead)).2

theorem splitSign_doubleBytes {double : Double} (finite : double.isFinite) :
    (splitSign (doubleBytes double)).2 = scientificBytes (shortest double) := by
  have noMinus (others : Bytes) : scientificBytes (shortest double) ≠ 0x2d :: others := by
    rw [← List.append_nil (scientificBytes _)]
    exact scientificBytes_ne_cons _ ends_nil (by decide) (by decide)
  rw [doubleBytes, if_pos finite]
  split
  · rfl
  · rw [List.nil_append, splitSign_of_ne_minus noMinus]

theorem skipSpace_doubleBytes {double : Double} (finite : double.isFinite) :
    skipSpace (doubleBytes double) = doubleBytes double := by
  have noSpace (byte : UInt8) (others : Bytes) (space : isSpace byte) :
      scientificBytes (shortest double) ≠ byte :: others := by
    have isMark : byte = 0x20 ∨ byte = 0x09 ∨ byte = 0x0a ∨ byte = 0x0d := by
      simpa [isSpace, or_assoc] using space
    rw [← List.append_nil (scientificBytes _)]
    rcases isMark with rfl | rfl | rfl | rfl <;>
      exact scientificBytes_ne_cons _ ends_nil (by decide) (by decide)
  rw [doubleBytes, if_pos finite]
  split
  · exact skipSpace_cons (by decide) _
  · rw [List.nil_append]
    cases text : scientificBytes (shortest double) with
    | nil => rfl
    | cons byte others =>
      exact skipSpace_cons (Bool.eq_false_iff.2 fun space => noSpace byte others space text) others

/-- **A double is read from its text if that stands for it.** Numbers of all three kinds make the
same double of themselves whatever comes next. -/
theorem takes_double {double : Double} (readsBack : double.ReadsBack) :
    Takes Codec.double.read Ends (Codec.double.write double) double := by
  intro rest ends
  have finite := readsBack.finite
  have parsed := readsBack.reads
  change Codec.parse ⟨doubleBytes, readDouble⟩ (doubleBytes double) = _ at parsed
  change readDouble (doubleBytes double ++ rest) = _
  rw [Codec.parse] at parsed
  simp only [readDouble] at parsed ⊢
  cases unspaced : readUnspaced (doubleBytes double) with
  | none =>
    rw [readNumber, skipSpace_doubleBytes finite, unspaced] at parsed
    cases parsed
  | some result =>
    obtain ⟨number, left⟩ := result
    obtain rfl := left_eq_of_readUnspaced (splitSign_doubleBytes finite) unspaced
    have read := readNumber_eq (skipSpace_doubleBytes finite) unspaced
    rw [read] at parsed
    rw [readNumber_append read ends.halts, List.nil_append]
    cases number <;> cases parsed <;> rfl

end Json

end Standby
