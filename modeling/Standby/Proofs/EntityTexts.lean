import Standby.Entity
import Standby.Proofs.TimestampText

/-!
# The written forms of entities

Stores know an entity by its written form alone. The form names the scope, the prefix, the version
and the name one after the other with marks between them, and since scopes and prefixes may have
these marks in them, two entities can be written alike. Entities are told apart by their written
forms if no scope has a point and no prefix a colon (`Entity.text_inj_of_plain`); names may be any
texts.
-/

set_option autoImplicit false

namespace Standby

/-! ## Integers in front of a text -/

namespace Decimal

theorem chars_append_inj {first second : Nat} {rest otherRest : List Char}
    (ends : NoDigitAhead rest) (otherEnds : NoDigitAhead otherRest)
    (same : chars first ++ rest = chars second ++ otherRest) :
    first = second ∧ rest = otherRest := by
  have read := congrArg spanChars same
  rw [chars, chars, spanChars_digits (fun _ => digit_lt_ten) ends,
    spanChars_digits (fun _ => digit_lt_ten) otherEnds] at read
  obtain ⟨sameDigits, sameRest⟩ := Prod.mk.inj read
  exact ⟨by rw [← value_digits first, sameDigits, value_digits], sameRest⟩

theorem toList_intText (number : Int) : (intText number).toList =
    if number < 0 then '-' :: chars number.natAbs else chars number.natAbs := by
  rw [intText]
  split <;> simp [text]

/-- A number does not start with a minus sign. -/
theorem chars_append_ne_minus (number : Nat) (rest others : List Char) :
    chars number ++ rest ≠ '-' :: others := by
  intro same
  obtain ⟨digit, digits, isDigits⟩ := List.exists_cons_of_ne_nil (digits_ne_nil number)
  have small : digit < 10 := digit_lt_ten (isDigits ▸ List.mem_cons_self)
  rw [chars, isDigits, List.map_cons, List.cons_append, List.cons.injEq] at same
  have notDigit : ofChar? '-' = none := by decide
  rw [← same.1, ofChar?_digitChar small] at notDigit
  cases notDigit

/-- An integer is read off the front of a text in one way. -/
theorem intText_append_inj {first second : Int} {rest otherRest : List Char}
    (ends : NoDigitAhead rest) (otherEnds : NoDigitAhead otherRest)
    (same : (intText first).toList ++ rest = (intText second).toList ++ otherRest) :
    first = second ∧ rest = otherRest := by
  rw [toList_intText, toList_intText] at same
  split at same <;> split at same
  next firstNegative secondNegative =>
    obtain ⟨sameSize, sameRest⟩ := chars_append_inj ends otherEnds (List.cons.inj same).2
    exact ⟨by omega, sameRest⟩
  next => exact absurd same.symm (chars_append_ne_minus _ _ _)
  next => exact absurd same (chars_append_ne_minus _ _ _)
  next firstPositive secondPositive =>
    obtain ⟨sameSize, sameRest⟩ := chars_append_inj ends otherEnds same
    exact ⟨by omega, sameRest⟩

end Decimal

/-- What stands before the first mark in a list is determined by the list. -/
theorem append_cons_inj_of_not_mem {α : Type} {mark : α} {front other back otherBack : List α}
    (unmarked : mark ∉ front) (otherUnmarked : mark ∉ other)
    (same : front ++ mark :: back = other ++ mark :: otherBack) :
    front = other ∧ back = otherBack := by
  induction front generalizing other with
  | nil =>
    cases other with
    | nil => exact ⟨rfl, (List.cons.inj same).2⟩
    | cons item others => exact absurd ((List.cons.inj same).1 ▸ List.mem_cons_self) otherUnmarked
  | cons item front ih =>
    cases other with
    | nil => exact absurd ((List.cons.inj same).1 ▸ List.mem_cons_self) unmarked
    | cons otherItem others =>
      obtain ⟨rfl, sameRest⟩ := List.cons.inj same
      obtain ⟨rfl, sameBack⟩ := ih (fun member => unmarked (List.mem_cons_of_mem _ member))
        (fun member => otherUnmarked (List.mem_cons_of_mem _ member)) sameRest
      exact ⟨rfl, sameBack⟩

/-! ## Entities -/

namespace Entity

/-- Whether two entities have the same location and the same name. -/
def IsSame (first second : Entity) : Prop :=
  first.location = second.location ∧ first.name = second.name

instance (first second : Entity) : Decidable (first.IsSame second) :=
  inferInstanceAs (Decidable (first.location = second.location ∧ first.name = second.name))

/-- Whether the scope has no point and the prefix no colon. -/
def IsPlain (entity : Entity) : Prop :=
  '.' ∉ entity.location.scope.toList ∧ ':' ∉ entity.location.namePrefix.toList

instance (entity : Entity) : Decidable entity.IsPlain :=
  inferInstanceAs (Decidable ('.' ∉ entity.location.scope.toList ∧
    ':' ∉ entity.location.namePrefix.toList))

theorem text_of_isSame {first second : Entity} (same : first.IsSame second) :
    first.text = second.text := by
  rw [text, text, same.1, same.2]

theorem toList_text (entity : Entity) : entity.text.toList =
    entity.location.scope.toList ++ '.' :: (entity.location.namePrefix.toList ++ ':' :: 'v' ::
      ((Decimal.intText entity.location.version.toInt).toList ++ '/' :: entity.name.toList)) := by
  have point : ".".toList = ['.'] := rfl
  have version : ":v".toList = [':', 'v'] := rfl
  have slash : "/".toList = ['/'] := rfl
  simp only [text, Location.text, String.toList_append, point, version, slash, List.append_assoc,
    List.cons_append, List.nil_append]

/-- **Where entities are told apart.** Entities without points in their scopes and colons in their
prefixes are the same if they are written alike. -/
theorem text_inj_of_plain {first second : Entity} (firstPlain : first.IsPlain)
    (secondPlain : second.IsPlain) (same : first.text = second.text) : first.IsSame second := by
  have characters := congrArg String.toList same
  rw [toList_text, toList_text] at characters
  obtain ⟨sameScope, afterScope⟩ :=
    append_cons_inj_of_not_mem firstPlain.1 secondPlain.1 characters
  obtain ⟨samePrefix, afterPrefix⟩ :=
    append_cons_inj_of_not_mem firstPlain.2 secondPlain.2 afterScope
  have slash {rest : List Char} : Decimal.NoDigitAhead ('/' :: rest) :=
    Decimal.noDigitAhead_cons (by decide)
  obtain ⟨sameVersion, afterVersion⟩ :=
    Decimal.intText_append_inj slash slash (List.cons.inj afterPrefix).2
  have sameName := String.toList_inj.1 (List.cons.inj afterVersion).2
  refine ⟨?_, sameName⟩
  rcases first with ⟨⟨scope, namePrefix, version⟩, schema⟩
  rcases second with ⟨⟨otherScope, otherPrefix, otherVersion⟩, otherSchema⟩
  simp only [Location.mk.injEq]
  exact ⟨String.toList_inj.1 sameScope, String.toList_inj.1 samePrefix,
    Int32.toInt_inj.1 sameVersion⟩

end Entity

end Standby
