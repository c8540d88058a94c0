import Mathlib.Data.List.TakeWhile
import Standby.Duration
import Standby.Proofs.TimestampText

/-!
# Durations read back from their texts

The text of a duration stands for that duration (`Duration.ofText?_text`). It is a sequence of
parts, each a number and the name of a unit, and whatever parts a text has, it is read as their sum
if that fits (`Duration.ofText?_of_tells`). The parts that are written for a duration add up to it,
although the units have uneven lengths: a year is no whole number of months, nor a month of days.
-/

set_option autoImplicit false

namespace Standby.Duration

open Decimal Text

/-! ## Numbers and names -/

/-- The letters of units are neither digits nor blanks. -/
theorem ofChar?_and_isBlank_of_isUnitLetter {char : Char} (isLetter : isUnitLetter char) :
    ofChar? char = none ∧ isBlank char = false := by
  have code : 65 ≤ char.toNat ∧ char.toNat ≤ 122 ∨ char.toNat = 181 := by
    simp only [isUnitLetter, Bool.or_eq_true, Bool.and_eq_true, decide_eq_true_eq, beq_iff_eq,
      Char.le_def, UInt32.le_iff_toNat_le] at isLetter
    rcases isLetter with (bounds | bounds) | rfl
    · exact .inl ⟨Nat.le_trans (by decide) bounds.1, bounds.2⟩
    · exact .inl ⟨bounds.1, Nat.le_trans bounds.2 (by decide)⟩
    · exact .inr rfl
  constructor
  · rw [ofChar?, if_neg]
    rintro ⟨-, most⟩
    have most : char.toNat ≤ 57 := UInt32.le_iff_toNat_le.1 most
    omega
  · rw [isBlank, List.any_eq_false]
    simp only [blankRanges, List.mem_cons, List.not_mem_nil, or_false]
    rintro range (rfl | rfl | rfl | rfl | rfl | rfl | rfl | rfl | rfl | rfl)
    all_goals
      simp
      omega

/-- A text that starts neither with a digit nor with a blank. -/
theorem spanSpaced_digits {digits : List Nat} {first : Char} (rest : List Char)
    (areDigits : ∀ digit ∈ digits, digit < 10) (isLetter : isUnitLetter first) :
    spanSpaced (digits.map digitChar ++ first :: rest) = (digits, first :: rest) := by
  induction digits with
  | nil =>
    obtain ⟨noDigit, noBlank⟩ := ofChar?_and_isBlank_of_isUnitLetter isLetter
    simp [spanSpaced, noDigit, noBlank]
  | cons digit digits ih =>
    have isDigit := ofChar?_digitChar (areDigits digit List.mem_cons_self)
    have others := ih fun other member => areDigits other (List.mem_cons_of_mem _ member)
    simp only [List.map_cons, List.cons_append, spanSpaced, isDigit, others]

/-- Units are a nanosecond long at least, and those from a second on are whole seconds. -/
theorem unit_nanos {name : String} {unit : TimeUnit} (named : unit? name = some unit) :
    0 < unit.nanos ∧ (second ≤ unit.nanos → unit.nanos / second * second = unit.nanos) := by
  have all : ∀ unit ∈ units, 0 < unit.nanos ∧
      (second ≤ unit.nanos → unit.nanos / second * second = unit.nanos) := by decide
  exact all unit (List.mem_of_find?_eq_some named)

/-- Units have names. -/
theorem exists_cons_of_unit? {name : String} {unit : TimeUnit} (named : unit? name = some unit) :
    ∃ first others, name.toList = first :: others := by
  refine List.exists_cons_of_ne_nil fun empty => ?_
  rw [String.toList_eq_nil_iff] at empty
  rw [empty] at named
  cases named

theorem whole?_eq {name : String} {unit : TimeUnit} (named : unit? name = some unit) {count : Nat}
    (fits : count * unit.nanos < UInt64.size * second)
    (within : unit.nanos < second → count * unit.nanos < second) :
    whole? count unit = some (count * unit.nanos) := by
  rw [whole?]
  split
  next long =>
    have seconds := (unit_nanos named).2 long
    have whole : count * (unit.nanos / second) * second = count * unit.nanos := by
      rw [Nat.mul_assoc, seconds]
    have small : count * (unit.nanos / second) < UInt64.size := by
      refine Nat.lt_of_mul_lt_mul_right (a := second) ?_
      rwa [whole]
    rw [word?, if_pos small]
    exact congrArg some whole
  next short =>
    have small := within (Nat.lt_of_not_le short)
    rw [word?, if_pos (Nat.lt_trans small (by decide))]

theorem plus?_eq {sum part : Nat} {inSeconds : Bool} (fits : sum + part < UInt64.size * second)
    (within : inSeconds = false → part < second) :
    plus? sum part inSeconds = some (sum + part) := by
  cases inSeconds with
  | true => simp [plus?, fits]
  | false =>
    have carried : sum % second + part < UInt64.size := by
      have small := within rfl
      have rest := Nat.mod_lt sum (by decide : 0 < second)
      exact Nat.lt_trans (Nat.add_lt_add rest small) (by decide)
    simp [plus?, word?, carried, fits]

/-! ## Parts -/

/-- Whether a text is a number of units that make up so many nanoseconds. Less than a second of the
units below one makes up a part. -/
inductive IsPart : String → Nat → Prop where
  | intro (count : Nat) {name : String} {unit : TimeUnit} (named : unit? name = some unit)
      (letters : ∀ char ∈ name.toList, isUnitLetter char)
      (within : unit.nanos < second → count * unit.nanos < second) :
      IsPart (Decimal.text count ++ name) (count * unit.nanos)

/-- Whether texts are parts that make up so many nanoseconds together. -/
inductive Tells : List String → Nat → Prop where
  | nil : Tells [] 0
  | cons {text : String} {part : Nat} {texts : List String} {others : Nat}
      (first : IsPart text part) (further : Tells texts others) :
      Tells (text :: texts) (part + others)

theorem Tells.append {texts others : List String} {nanos more : Nat} (first : Tells texts nanos)
    (further : Tells others more) : Tells (texts ++ others) (nanos + more) := by
  induction first with
  | nil => rwa [Nat.zero_add]
  | cons part _ ih =>
    rw [Nat.add_assoc]
    exact .cons part ih

/-- The characters of parts in a row. -/
def spoken (texts : List String) : List Char := (" ".intercalate texts).toList

theorem spoken_cons_cons (text next : String) (texts : List String) :
    spoken (text :: next :: texts) = text.toList ++ ' ' :: spoken (next :: texts) := by
  rw [spoken, String.intercalate_cons_cons, String.toList_append, String.toList_append,
    List.append_assoc]
  rfl

/-- A part starts with a digit, which is not all of it. -/
theorem IsPart.starts {text : String} {part : Nat} (isPart : IsPart text part) :
    ∃ digit < 10, ∃ others, text.toList = digitChar digit :: others ∧ others ≠ [] := by
  cases isPart with
  | @intro count name unit named letters within =>
    obtain ⟨digit, digits, are⟩ := List.exists_cons_of_ne_nil (digits_ne_nil count)
    obtain ⟨first, others, isName⟩ := exists_cons_of_unit? named
    refine ⟨digit, digit_lt_ten (are ▸ List.mem_cons_self), digits.map digitChar ++ name.toList,
      ?_, by simp [isName]⟩
    rw [String.toList_append, Decimal.text, String.toList_ofList, chars, are]
    rfl

/-- Parts start with a digit, which is not all of them, and there are no more of them than
characters. -/
theorem Tells.starts {text : String} {texts : List String} {nanos : Nat}
    (tells : Tells (text :: texts) nanos) : ∃ digit < 10, ∃ others,
      spoken (text :: texts) = digitChar digit :: others ∧ others ≠ [] ∧
        texts.length < others.length + 1 := by
  induction texts generalizing text nanos with
  | nil =>
    obtain - | ⟨first, -⟩ := tells
    obtain ⟨digit, small, others, starts, more⟩ := first.starts
    refine ⟨digit, small, others, ?_, more, Nat.succ_pos _⟩
    rw [spoken, String.intercalate_singleton, starts]
  | cons next texts ih =>
    obtain - | ⟨first, further⟩ := tells
    obtain ⟨digit, small, others, starts, -⟩ := first.starts
    obtain ⟨_, -, behind, startsToo, -, enough⟩ := ih further
    refine ⟨digit, small, others ++ ' ' :: spoken (next :: texts), ?_, by simp, ?_⟩
    · rw [spoken_cons_cons, starts, List.cons_append]
    · simp only [startsToo, List.length_cons, List.length_append] at enough ⊢
      omega

/-! ## Reading parts -/

/-- What comes after a part. -/
def addFurther (bound sum : Nat) (rest : List Char) : Option Nat :=
  match skipBlank rest with
  | [] => some sum
  | char :: rest => if (ofChar? char).isSome then addParts bound sum (char :: rest) else none

/-- What is done with a number without a fraction. -/
theorem addParts_of_no_point {chars : List Char} {digits : List Nat} {first : Char}
    {rest : List Char} (number : spanSpaced chars = (digits, first :: rest))
    (noPoint : first ≠ '.') (bound sum : Nat) : addParts (bound + 1) sum chars =
      (word? (value digits)).bind fun count =>
        (unit? (String.ofList ((first :: rest).takeWhile isUnitLetter))).bind fun unit =>
          (whole? count unit).bind fun part =>
            (plus? sum part (second ≤ unit.nanos)).bind fun sum =>
              addFurther bound sum ((first :: rest).dropWhile isUnitLetter) := by
  rw [addParts, number]
  simp only [List.cons.injEq, noPoint, false_and, imp_self, implies_true, Option.bind_eq_bind,
    Option.bind_some]
  rfl

/-- A part is added to the sum. -/
theorem addParts_isPart {text : String} {part : Nat} (isPart : IsPart text part) {sum : Nat}
    (fits : sum + part < UInt64.size * second) (bound : Nat) {rest : List Char}
    (noLetter : ∀ char ∈ rest.head?, isUnitLetter char = false) :
    addParts (bound + 1) sum (text.toList ++ rest) = addFurther bound (sum + part) rest := by
  cases isPart with
  | @intro count name unit named letters within =>
    obtain ⟨first, others, isName⟩ := exists_cons_of_unit? named
    have isLetter := letters first (isName ▸ List.mem_cons_self)
    have noPoint : first ≠ '.' := by
      rintro rfl
      cases isLetter
    have number : spanSpaced ((Decimal.text count ++ name).toList ++ rest) =
        (digits count, first :: (others ++ rest)) := by
      rw [String.toList_append, Decimal.text, String.toList_ofList, chars, List.append_assoc,
        isName, List.cons_append]
      exact spanSpaced_digits _ (fun _ => digit_lt_ten) isLetter
    have countFits : count < UInt64.size := by
      have positive := (unit_nanos named).1
      by_cases long : second ≤ unit.nanos
      · have more := Nat.mul_le_mul_left count long
        exact Nat.lt_of_mul_lt_mul_right (a := second) (by omega)
      · have small := within (Nat.lt_of_not_le long)
        have more := Nat.le_mul_of_pos_right count positive
        exact Nat.lt_of_le_of_lt more (Nat.lt_trans small (by decide))
    have taken : (first :: (others ++ rest)).takeWhile isUnitLetter = name.toList := by
      rw [← List.cons_append, ← isName, List.takeWhile_append_of_pos letters]
      cases rest with
      | nil => simp
      | cons char rest => simp [noLetter char rfl]
    have dropped : (first :: (others ++ rest)).dropWhile isUnitLetter = rest := by
      rw [← List.cons_append, ← isName, List.dropWhile_append_of_pos letters]
      cases rest with
      | nil => rfl
      | cons char rest => simp [noLetter char rfl]
    have whole := whole?_eq named (by omega) within
    have added : plus? sum (count * unit.nanos) (second ≤ unit.nanos) = _ :=
      plus?_eq fits fun short => within (Nat.lt_of_not_le (of_decide_eq_false short))
    rw [addParts_of_no_point number noPoint, value_digits, word?, if_pos countFits, taken, dropped,
      String.ofList_toList, named]
    simp only [Option.bind, whole, added]

/-- **Parts add up.** Whatever parts a text has, they are added to the sum if they fit. -/
theorem addParts_tells {text : String} {texts : List String} {nanos sum bound : Nat}
    (tells : Tells (text :: texts) nanos) (fits : sum + nanos < UInt64.size * second)
    (enough : texts.length < bound) :
    addParts bound sum (spoken (text :: texts)) = some (sum + nanos) := by
  obtain ⟨bound, rfl⟩ := Nat.exists_eq_succ_of_ne_zero (Nat.ne_of_gt (Nat.zero_lt_of_lt enough))
  induction texts generalizing text nanos sum bound with
  | nil =>
    obtain - | ⟨first, - | -⟩ := tells
    have read : addParts (bound + 1) sum (text.toList ++ []) = _ :=
      addParts_isPart first fits bound nofun
    rw [List.append_nil] at read
    rw [spoken, String.intercalate_singleton]
    exact read
  | cons next texts ih =>
    obtain - | @⟨_, part, _, others, first, further⟩ := tells
    obtain ⟨bound, rfl⟩ := Nat.exists_eq_succ_of_ne_zero
      (Nat.ne_of_gt (Nat.zero_lt_of_lt (Nat.lt_of_succ_lt_succ enough)))
    obtain ⟨digit, small, behind, starts, -⟩ := further.starts
    have blank : ∀ char ∈ (' ' :: spoken (next :: texts)).head?, isUnitLetter char = false := by
      rintro _ ⟨⟩
      decide
    have noBlank : skipBlank (' ' :: spoken (next :: texts)) = spoken (next :: texts) := by
      rw [starts, skipBlank, List.dropWhile_cons_of_pos (by decide), List.dropWhile_cons_of_neg
        (by rw [Timestamp.isBlank_digitChar small]; exact Bool.false_ne_true)]
    have remainder : sum + part + others < UInt64.size * second := by omega
    have remaining := ih further remainder bound (Nat.lt_of_succ_lt_succ enough)
    rw [spoken_cons_cons, addParts_isPart first (by omega) _ blank, addFurther, noBlank]
    rw [starts] at remaining ⊢
    simp only [ofChar?_digitChar small, Option.isSome_some, if_true, remaining]
    rw [Nat.add_assoc]

/-- **A text stands for the sum of its parts**, if that is a duration. -/
theorem ofText?_of_tells {text : String} {texts : List String} {nanos : Nat}
    (tells : Tells (text :: texts) nanos) (bounded : nanos < UInt64.size * second) :
    ofText? (" ".intercalate (text :: texts)) = some ⟨nanos, bounded⟩ := by
  obtain ⟨digit, small, others, starts, more, enough⟩ := tells.starts
  have fits : 0 + nanos < UInt64.size * second := by omega
  have added := addParts_tells tells fits enough
  have notZero : " ".intercalate (text :: texts) ≠ "0" := by
    intro isZero
    rw [spoken, isZero] at starts
    exact more (List.tail_eq_of_cons_eq starts).symm
  have noBlank : skipBlank (spoken (text :: texts)) = digitChar digit :: others := by
    rw [starts, skipBlank, List.dropWhile_cons_of_neg
      (by rw [Timestamp.isBlank_digitChar small]; exact Bool.false_ne_true)]
  rw [ofText?, if_neg notZero, ← spoken, noBlank]
  rw [starts] at added
  simp only [ofChar?_digitChar small, Option.isSome_some, if_true, added, Option.bind_some,
    Nat.zero_add, ofNanos?]
  exact dif_pos bounded

/-! ## The parts of a duration -/

/-- What is written for a number of units makes up as much. -/
theorem tells_partText (count : Nat) (name : String) (takesPlural : Bool) {unit : TimeUnit}
    (letters : name.toList.all isUnitLetter) (one : unit? name = some unit)
    (many : takesPlural → unit? (name ++ "s") = some unit)
    (within : second ≤ unit.nanos ∨ count * unit.nanos < second) :
    Tells (partText count name takesPlural) (count * unit.nanos) := by
  have letters := List.all_eq_true.1 letters
  have within : unit.nanos < second → count * unit.nanos < second :=
    fun short => within.resolve_left (Nat.not_le_of_lt short)
  rw [partText]
  split
  next zero =>
    rw [zero, Nat.zero_mul]
    exact .nil
  next =>
    rw [String.append_assoc, ← Nat.add_zero (count * unit.nanos)]
    refine .cons ?_ .nil
    split
    next plural =>
      refine .intro count (many (Bool.and_eq_true_iff.1 plural).1) (fun char member => ?_) within
      rw [String.toList_append, List.mem_append] at member
      rcases member with member | member
      · exact letters char member
      · cases List.mem_singleton.1 member
        decide
    next =>
      rw [String.append_empty]
      exact .intro count one letters within

/-- The parts that are written for a duration. -/
def parts (duration : Duration) : List String :=
  let nanos := duration.nanos
  let afterYears := nanos % year
  let afterMonths := afterYears % month
  partText (nanos / year) "year" true ++
    partText (afterYears / month) "month" true ++
    partText (afterMonths / day) "day" true ++
    partText (afterMonths % day / hour) "h" false ++
    partText (afterMonths % hour / (60 * second)) "m" false ++
    partText (afterMonths % (60 * second) / second) "s" false ++
    partText (nanos % second / 1000000) "ms" false ++
    partText (nanos % 1000000 / 1000) "us" false ++
    partText (nanos % 1000) "ns" false

theorem text_eq (duration : Duration) : duration.text =
    if duration.parts = [] then "0s" else " ".intercalate duration.parts := rfl

/-- **The parts of a duration add up to it.** -/
theorem tells_parts (duration : Duration) : Tells duration.parts duration.nanos := by
  obtain ⟨nanos, bounded⟩ := duration
  have years := tells_partText (nanos / year) "year" true rfl rfl (fun _ => rfl)
    (.inl (by decide))
  have months := tells_partText (nanos % year / month) "month" true rfl rfl (fun _ => rfl)
    (.inl (by decide))
  have days := tells_partText (nanos % year % month / day) "day" true rfl rfl (fun _ => rfl)
    (.inl (by decide))
  have hours := tells_partText (nanos % year % month % day / hour) "h" false rfl rfl nofun
    (.inl (by decide))
  have minutes := tells_partText (nanos % year % month % hour / (60 * second)) "m" false rfl rfl
    nofun (.inl (by decide))
  have seconds := tells_partText (nanos % year % month % (60 * second) / second) "s" false rfl rfl
    nofun (.inl (by decide))
  have millis := tells_partText (nanos % second / 1000000) "ms" false rfl rfl nofun
    (.inr (Nat.lt_of_le_of_lt (Nat.div_mul_le_self _ _) (Nat.mod_lt _ (by decide))))
  have micros := tells_partText (nanos % 1000000 / 1000) "us" false rfl rfl nofun
    (.inr (Nat.lt_of_le_of_lt (Nat.div_mul_le_self _ _)
      (Nat.lt_trans (Nat.mod_lt _ (by decide)) (by decide))))
  have few : nanos % 1000 * 1 < second := by
    rw [Nat.mul_one]
    exact Nat.lt_trans (Nat.mod_lt _ (by decide)) (by decide : 1000 < second)
  have ones := tells_partText (nanos % 1000) "ns" false rfl rfl nofun (.inr few)
  have sum : nanos / year * year + nanos % year / month * month +
      nanos % year % month / day * day + nanos % year % month % day / hour * hour +
      nanos % year % month % hour / (60 * second) * (60 * second) +
      nanos % year % month % (60 * second) / second * second +
      nanos % second / 1000000 * 1000000 + nanos % 1000000 / 1000 * 1000 + nanos % 1000 * 1 =
      nanos := by
    simp only [year, month, day, hour, second]
    omega
  have all := years.append months |>.append days |>.append hours |>.append minutes
    |>.append seconds |>.append millis |>.append micros |>.append ones
  rw [sum] at all
  exact all

/-- **A duration is read back from its text.** -/
theorem ofText?_text (duration : Duration) : ofText? duration.text = some duration := by
  have tells := duration.tells_parts
  rw [text_eq]
  split
  next none =>
    rw [none] at tells
    obtain ⟨nanos, bounded⟩ := duration
    cases tells
    have zero : ofText? "0s" = ofNanos? 0 := by decide
    rw [zero, ofNanos?, dif_pos bounded]
  next some =>
    obtain ⟨text, texts, are⟩ := List.exists_cons_of_ne_nil some
    rw [are] at tells ⊢
    exact ofText?_of_tells tells duration.bounded

/-- The longest duration has a part of every unit that is written. -/
example : text ⟨UInt64.size * 1000000000 - 1, by decide⟩ =
    "584542046090years 7months 15days 17h 5m 3s 999ms 999us 999ns" := by decide +kernel

end Standby.Duration
