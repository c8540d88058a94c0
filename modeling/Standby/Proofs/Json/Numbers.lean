import Standby.Codec.Json.Number
import Standby.Proofs.ShortestDecimal
import Standby.Proofs.TimestampText

/-!
# What the text of a number in JSON says

The text of a decimal has digits before the point, digits after it and an exponent, of which some
may be missing. Read with exact arithmetic, it stands for the decimal, whatever follows it in a
list or an object (`numberAhead?_scientificBytes`). So the text of a finite double tells its bits,
and the text of any other double is no number (`doubleBytes_append_inj`).
-/

set_option autoImplicit false

namespace Standby

open Decimal

/-! ## Digits -/

namespace Decimal

theorem ofByte?_digitByte {digit : Nat} (isDigit : digit < 10) :
    ofByte? (digitByte digit) = some digit := by
  have all : ∀ digit < 10, ofByte? (digitByte digit) = some digit := by decide
  exact all digit isDigit

theorem value_append (front back : List Nat) :
    value (front ++ back) = value front * 10 ^ back.length + value back := by
  induction back using List.reverseRecOn with
  | nil => simp [value]
  | append_singleton back digit ih =>
    rw [← List.append_assoc]
    simp only [value, List.foldl_append, List.foldl_cons, List.foldl_nil, List.length_append,
      List.length_singleton, Nat.pow_succ] at ih ⊢
    rw [ih]
    ring

end Decimal

namespace Json

/-- What may follow a value within a text: the end, or a mark that ends an item. -/
def Ends (rest : Bytes) : Prop :=
  ∀ byte ∈ rest.head?, byte = comma ∨ byte = closeList ∨ byte = closeObject

theorem ends_nil : Ends [] := nofun

/-- No digit stands at the front of a byte string. -/
def NoDigit (rest : Bytes) : Prop := ∀ byte ∈ rest.head?, ofByte? byte = none

variable {rest : Bytes}

theorem Ends.noDigit (ends : Ends rest) : NoDigit rest := by
  intro byte first
  rcases ends byte first with rfl | rfl | rfl <;> rfl

/-- Nothing at the front of a byte string goes on with a number. -/
def Halts (rest : Bytes) : Prop :=
  ∀ byte ∈ rest.head?, ofByte? byte = none ∧ byte ≠ 0x2e ∧ byte ≠ 0x65 ∧ byte ≠ 0x45

theorem Ends.halts (ends : Ends rest) : Halts rest := by
  intro byte first
  rcases ends byte first with rfl | rfl | rfl <;> decide

theorem Halts.noDigit (halts : Halts rest) : NoDigit rest := fun byte first => (halts byte first).1

theorem spanDigits_digits {digits : List Nat} (areDigits : ∀ digit ∈ digits, digit < 10)
    (noMore : NoDigit rest) : spanDigits (digits.map digitByte ++ rest) = (digits, rest) := by
  induction digits with
  | nil =>
    cases rest with
    | nil => rfl
    | cons byte rest => simp [spanDigits, noMore byte rfl]
  | cons digit digits ih =>
    have first := ofByte?_digitByte (areDigits digit List.mem_cons_self)
    have others := ih fun other member => areDigits other (List.mem_cons_of_mem _ member)
    simp only [List.map_cons, List.cons_append, spanDigits, first, others]

theorem spanDigits_bytes (number : Nat) (noMore : NoDigit rest) :
    spanDigits (Decimal.bytes number ++ rest) = (digits number, rest) :=
  spanDigits_digits (fun _ => digit_lt_ten) noMore

/-! ## Fractions and exponents -/

theorem readFraction_digits {first : Nat} {digits : List Nat}
    (areDigits : ∀ digit ∈ first :: digits, digit < 10) (noMore : NoDigit rest) :
    readFraction (0x2e :: ((first :: digits).map digitByte ++ rest)) =
      some (some (first :: digits), rest) := by
  simp only [readFraction, if_true, spanDigits_digits areDigits noMore]

theorem readFraction_none (noPoint : ∀ byte ∈ rest.head?, byte ≠ 0x2e) :
    readFraction rest = some (none, rest) := by
  cases rest with
  | nil => rfl
  | cons byte rest => rw [readFraction, if_neg (noPoint byte rfl)]

theorem readExponent_none (halts : Halts rest) : readExponent rest = some (none, rest) := by
  cases rest with
  | nil => rfl
  | cons byte rest =>
    have noLetter : ¬(byte = 0x65 ∨ byte = 0x45) := not_or.2 (halts byte rfl).2.2
    simp only [readExponent, if_neg noLetter]

theorem readExponent_exponentBytes (exponent : Int) (ends : Ends rest) :
    readExponent (0x65 :: exponentBytes exponent ++ rest) = some (some exponent, rest) := by
  have read := spanDigits_bytes exponent.natAbs ends.noDigit
  obtain ⟨first, others, nonempty⟩ := List.exists_cons_of_ne_nil (digits_ne_nil exponent.natAbs)
  have stands := value_digits exponent.natAbs
  rw [nonempty] at read stands
  rw [exponentBytes]
  split
  next negative =>
    have magnitude : -1 * (exponent.natAbs : Int) = exponent := by omega
    simp only [List.cons_append, readExponent, true_or, if_true, read, stands, magnitude,
      if_neg (show ¬(0x2d : UInt8) = 0x2b by decide)]
  next positive =>
    have magnitude : 1 * (exponent.natAbs : Int) = exponent := by omega
    simp only [List.cons_append, readExponent, true_or, if_true, read, stands, magnitude]

/-! ## Decimals -/

/-- The number that a byte string starts with, and the bytes after it. -/
def numberAhead? (bytes : Bytes) : Option (ℚ × Bytes) := do
  let (whole, rest) := spanDigits bytes
  let (fraction, rest) ← readFraction rest
  let (exponent, rest) ← readExponent rest
  let places := fraction.getD []
  some (value (whole ++ places) * 10 ^ (exponent.getD 0 - places.length), rest)

/-- Digits, a point and more digits, with or without an exponent. -/
theorem numberAhead?_pointed {whole places : List Nat} {tail : Bytes} {exponent : Option Int}
    (nonempty : places ≠ []) (areDigits : ∀ digit ∈ whole ++ places, digit < 10)
    (noMore : NoDigit tail) (read : readExponent tail = some (exponent, rest)) :
    numberAhead? (whole.map digitByte ++ 0x2e :: (places.map digitByte ++ tail)) =
      some ((value (whole ++ places) : ℚ) * 10 ^ (exponent.getD 0 - places.length), rest) := by
  obtain ⟨first, others, rfl⟩ := List.exists_cons_of_ne_nil nonempty
  have point : NoDigit (0x2e :: ((first :: others).map digitByte ++ tail)) := by
    rintro _ ⟨⟩
    rfl
  have wholes : ∀ digit ∈ whole, digit < 10 :=
    fun digit member => areDigits digit (List.mem_append_left _ member)
  have fraction := readFraction_digits
    (fun digit member => areDigits digit (List.mem_append_right _ member)) noMore
  simp only [numberAhead?, spanDigits_digits wholes point, fraction, read, bind, Option.bind,
    Option.getD_some]

/-- Digits and an exponent. -/
theorem numberAhead?_unpointed {whole : List Nat} (exponent : Int)
    (areDigits : ∀ digit ∈ whole, digit < 10) (ends : Ends rest) :
    numberAhead? (whole.map digitByte ++ 0x65 :: exponentBytes exponent ++ rest) =
      some ((value whole : ℚ) * 10 ^ exponent, rest) := by
  have letter : NoDigit (0x65 :: (exponentBytes exponent ++ rest)) := by
    rintro _ ⟨⟩
    rfl
  have noPoint : ∀ byte ∈ (0x65 :: (exponentBytes exponent ++ rest) : Bytes).head?,
      byte ≠ 0x2e := by
    rintro _ ⟨⟩
    decide
  have read := readExponent_exponentBytes exponent ends
  rw [List.cons_append] at read
  rw [List.append_assoc, List.cons_append]
  simp [numberAhead?, spanDigits_digits areDigits letter, readFraction_none noPoint, read]

/-- A decimal without an exponent is read as it was written. -/
theorem numberAhead?_positional (number : Nat) (exponent : Int) (ends : Ends rest) :
    numberAhead? (positional (Decimal.bytes number) exponent ++ rest) =
      some ((number : ℚ) * 10 ^ exponent, rest) := by
  have stands := value_digits number
  have areDigits : ∀ digit ∈ digits number, digit < 10 := fun _ => digit_lt_ten
  have nonempty := digits_ne_nil number
  have read := readExponent_none ends.halts
  rw [Decimal.bytes]
  generalize digits number = written at stands areDigits nonempty
  simp only [positional, List.length_map]
  split
  next whole =>
    have padded : ∀ digit ∈ (written ++ List.replicate exponent.toNat 0) ++ [0], digit < 10 := by
      simp only [List.mem_append, List.mem_replicate, List.mem_singleton]
      rintro digit ((member | ⟨_, rfl⟩) | rfl)
      · exact areDigits digit member
      · decide
      · decide
    have pointed := numberAhead?_pointed (by decide) padded ends.noDigit read
    have text : written.map digitByte ++ List.replicate exponent.toNat 0x30 ++ utf8 ".0" ++ rest =
        (written ++ List.replicate exponent.toNat 0).map digitByte ++
          0x2e :: ([0].map digitByte ++ rest) := by
      have point : utf8 ".0" = [0x2e, 0x30] := by decide
      simp [point, digitByte]
    have power : (10 : ℚ) ^ exponent.toNat = 10 ^ exponent := by
      rw [← zpow_natCast, Int.toNat_of_nonneg whole]
    have last : value [0] = 0 := rfl
    have padding : value (List.replicate exponent.toNat 0) = 0 := by
      simpa [value] using value_replicate_zero exponent.toNat []
    rw [text, pointed, value_append, value_append, padding, stands, last]
    simp [power]
  next =>
    have places : exponent = -(exponent.natAbs : Int) := by omega
    split
    next within =>
      have parts := List.take_append_drop (written.length - exponent.natAbs) written
      have behind : (written.drop (written.length - exponent.natAbs)).length = exponent.natAbs := by
        rw [List.length_drop]
        omega
      have behindPoint : written.drop (written.length - exponent.natAbs) ≠ [] := by
        rw [← List.length_pos_iff, behind]
        omega
      have pointed := numberAhead?_pointed behindPoint (by rw [parts]; exact areDigits)
        ends.noDigit read
      rw [parts, stands, behind] at pointed
      rw [← List.map_take, ← List.map_drop, List.append_assoc, List.cons_append, pointed]
      simp only [Option.getD_none, Int.zero_sub, ← places]
    next beyond =>
      have padded : ∀ digit ∈ [0] ++ (List.replicate (exponent.natAbs - written.length) 0 ++
          written), digit < 10 := by
        simp only [List.mem_append, List.mem_replicate, List.mem_singleton]
        rintro digit (rfl | ⟨_, rfl⟩ | member)
        · decide
        · decide
        · exact areDigits digit member
      have pointed := numberAhead?_pointed
        (List.append_ne_nil_of_right_ne_nil _ nonempty) padded ends.noDigit read
      have text : utf8 "0." ++ List.replicate (exponent.natAbs - written.length) 0x30 ++
          written.map digitByte ++ rest = [0].map digitByte ++ 0x2e ::
            ((List.replicate (exponent.natAbs - written.length) 0 ++ written).map digitByte ++
              rest) := by
        have point : utf8 "0." = [0x30, 0x2e] := by decide
        simp [point, digitByte]
      have behind : (List.replicate (exponent.natAbs - written.length) 0 ++ written).length =
          exponent.natAbs := by
        simp only [List.length_append, List.length_replicate]
        omega
      have zeros : [0] ++ (List.replicate (exponent.natAbs - written.length) 0 ++ written) =
          List.replicate (exponent.natAbs - written.length + 1) 0 ++ written := rfl
      rw [text, pointed, behind, zeros, value_replicate_zero, stands]
      simp only [Option.getD_none, Int.zero_sub, ← places]

/-- A decimal with an exponent is read as it was written. -/
theorem numberAhead?_exponential (number : Nat) (leading : Int) (ends : Ends rest) :
    numberAhead? (exponential (Decimal.bytes number) leading ++ rest) =
      some ((number : ℚ) * 10 ^ (leading - ((digits number).length : Int) + 1), rest) := by
  have stands := value_digits number
  have areDigits : ∀ digit ∈ digits number, digit < 10 := fun _ => digit_lt_ten
  obtain ⟨first, others, written⟩ := List.exists_cons_of_ne_nil (digits_ne_nil number)
  rw [written] at stands areDigits
  rw [exponential, Decimal.bytes, written]
  cases others with
  | nil =>
    have unpointed := numberAhead?_unpointed leading areDigits ends
    rw [stands] at unpointed
    simpa using unpointed
  | cons second others =>
    have letter : NoDigit (0x65 :: (exponentBytes leading ++ rest)) := by
      rintro _ ⟨⟩
      rfl
    have read := readExponent_exponentBytes leading ends
    rw [List.cons_append] at read
    have areDigits : ∀ digit ∈ [first] ++ second :: others, digit < 10 := areDigits
    have pointed := numberAhead?_pointed (List.cons_ne_nil second others) areDigits letter read
    rw [List.singleton_append, stands] at pointed
    have places : leading - (((first :: second :: others).length : Nat) : Int) + 1 =
        leading - ((second :: others).length : Nat) := by
      simp only [List.length_cons]
      omega
    rw [places]
    simpa using pointed

/-- **A decimal is read as it was written.** -/
theorem numberAhead?_scientificBytes (decimal : Scientific) (ends : Ends rest) :
    numberAhead? (scientificBytes decimal ++ rest) = some (decimal.number, rest) := by
  rw [scientificBytes]
  split
  next => exact numberAhead?_positional decimal.digits decimal.exponent ends
  next =>
    rw [numberAhead?_exponential _ _ ends, Decimal.bytes, List.length_map, Scientific.number]
    congr 4
    omega

/-! ## Doubles -/

/-- A decimal does not start with a mark that stands in no decimal and behind none: no digits would
be read there. -/
theorem scientificBytes_ne_cons {byte : UInt8} {others : Bytes} (decimal : Scientific)
    (ends : Ends rest) (noDigit : ofByte? byte = none)
    (noMark : byte ∉ [comma, closeList, closeObject, 0x2e, 0x65, 0x45]) :
    scientificBytes decimal ++ rest ≠ byte :: others := by
  intro same
  have read := numberAhead?_scientificBytes decimal ends
  simp only [List.mem_cons, List.not_mem_nil, or_false, not_or] at noMark
  obtain ⟨noComma, noList, noObject, noPoint, noLetter, noCapital⟩ := noMark
  have stuck : numberAhead? (byte :: others) = some (0, byte :: others) := by
    simp [numberAhead?, spanDigits, noDigit, readFraction, noPoint, readExponent, noLetter,
      noCapital, value]
  rw [same, stuck] at read
  obtain ⟨-, rfl⟩ := Prod.mk.inj (Option.some.inj read)
  rcases ends byte rfl with isComma | isList | isObject
  · exact noComma isComma
  · exact noList isList
  · exact noObject isObject

/-- Decimals of finite doubles are told apart. -/
theorem magnitude_eq_of_append_eq {first second : Double} {after : Bytes}
    (firstFinite : first.isFinite) (secondFinite : second.isFinite)
    (ends : Ends rest) (otherEnds : Ends after)
    (same : scientificBytes (shortest first) ++ rest = scientificBytes (shortest second) ++ after) :
    rest = after ∧ first.magnitude = second.magnitude := by
  have read := numberAhead?_scientificBytes (shortest first) ends
  rw [same, numberAhead?_scientificBytes (shortest second) otherEnds] at read
  obtain ⟨number, remaining⟩ := Prod.mk.inj (Option.some.inj read)
  exact ⟨remaining.symm, Double.magnitude_eq_of_shortest firstFinite secondFinite number.symm⟩

/-- The text of a finite double is no `null`. -/
theorem doubleBytes_ne_null {double : Double} {others : Bytes} (finite : double.isFinite)
    (ends : Ends rest) : doubleBytes double ++ rest ≠ utf8 "null" ++ others := by
  have null : utf8 "null" = 0x6e :: utf8 "ull" := by decide
  rw [doubleBytes, if_pos finite, null]
  cases double.isNegative with
  | true => simp
  | false => exact scientificBytes_ne_cons _ ends (by decide) (by decide)

/-- **The text of a double tells its bits if it is finite, and otherwise that it is not.** -/
theorem doubleBytes_append_inj {first second : Double} {after : Bytes} (ends : Ends rest)
    (otherEnds : Ends after) (same : doubleBytes first ++ rest = doubleBytes second ++ after) :
    rest = after ∧ (first = second ∨ first.isFinite = false ∧ second.isFinite = false) := by
  have null {double : Double} (infinite : double.isFinite = false) :
      doubleBytes double = utf8 "null" := by
    simp [doubleBytes, infinite]
  cases firstFinite : first.isFinite with
  | false =>
    rw [null firstFinite] at same
    cases secondFinite : second.isFinite with
    | false =>
      rw [null secondFinite] at same
      exact ⟨List.append_cancel_left same, .inr ⟨rfl, rfl⟩⟩
    | true => exact absurd same.symm (doubleBytes_ne_null secondFinite otherEnds)
  | true => cases secondFinite : second.isFinite with
    | false =>
      rw [null secondFinite] at same
      exact absurd same (doubleBytes_ne_null firstFinite ends)
    | true =>
      have notMinus (decimal : Scientific) {rest others : Bytes} (ends : Ends rest) :
          scientificBytes decimal ++ rest ≠ 0x2d :: others :=
        scientificBytes_ne_cons decimal ends (by decide) (by decide)
      have told (sign : first.isNegative = second.isNegative)
          (same : scientificBytes (shortest first) ++ rest =
            scientificBytes (shortest second) ++ after) :
          rest = after ∧ (first = second ∨ true = false ∧ true = false) := by
        obtain ⟨remaining, magnitude⟩ :=
          magnitude_eq_of_append_eq firstFinite secondFinite ends otherEnds same
        exact ⟨remaining, .inl (Double.eq_of_parts sign magnitude)⟩
      simp only [doubleBytes, firstFinite, secondFinite, if_true, List.append_assoc] at same
      cases sign : first.isNegative <;> cases otherSign : second.isNegative <;>
        simp only [sign, otherSign, if_true, Bool.false_eq_true, if_false, List.nil_append,
          List.singleton_append] at same told
      next => exact told trivial same
      next => exact absurd same (notMinus _ ends)
      next => exact absurd same.symm (notMinus _ otherEnds)
      next => exact told trivial (List.tail_eq_of_cons_eq same)

end Json

end Standby
