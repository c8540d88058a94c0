import Standby.Proofs.Json.Tokens

/-!
# JSON that is a text

Quoted texts are byte strings that are the UTF-8 form of a text again (`isUtf8_quoteText`): the
bytes of ASCII characters are written as others of that kind, and those of any other character
stand as they are.
-/

set_option autoImplicit false

namespace Standby

/-- Whether a byte string is the UTF-8 form of a text. -/
def IsUtf8 (bytes : Bytes) : Prop := ∃ text, utf8 text = bytes

theorem isUtf8_utf8 (text : String) : IsUtf8 (utf8 text) := ⟨text, rfl⟩

theorem IsUtf8.utf8_getD {bytes : Bytes} (is : IsUtf8 bytes) :
    utf8 ((ofUtf8? bytes).getD "") = bytes := by
  obtain ⟨text, rfl⟩ := is
  rw [ofUtf8?_utf8, Option.getD_some]

theorem IsUtf8.append {front back : Bytes} (first : IsUtf8 front) (second : IsUtf8 back) :
    IsUtf8 (front ++ back) := by
  obtain ⟨text, rfl⟩ := first
  obtain ⟨other, rfl⟩ := second
  exact ⟨text ++ other, by simp only [utf8_eq_flatMap, String.toList_append, List.flatMap_append]⟩

theorem isUtf8_flatten {parts : List Bytes} (are : ∀ part ∈ parts, IsUtf8 part) :
    IsUtf8 parts.flatten := by
  induction parts with
  | nil => exact isUtf8_utf8 ""
  | cons part parts ih =>
    exact (are part List.mem_cons_self).append
      (ih fun other among => are other (List.mem_cons_of_mem _ among))

theorem IsUtf8.single {bytes : Bytes} (is : IsUtf8 bytes) : IsUtf8 [bytes].flatten := by
  rwa [List.flatten_singleton]

/-- The bytes of a character. -/
theorem isUtf8_character (character : Char) : IsUtf8 (String.utf8EncodeChar character) :=
  ⟨String.ofList [character], by
    rw [utf8_eq_flatMap, String.toList_ofList, List.flatMap_singleton]⟩

/-- What holds of all bytes is checked value by value. -/
theorem forall_byte {motive : UInt8 → Prop}
    (all : ∀ number < 256, motive (UInt8.ofNat number)) : ∀ byte, motive byte := by
  intro byte
  have here := all byte.toNat byte.toNat_lt
  rwa [UInt8.ofNat_toNat] at here

theorem utf8EncodeChar_ascii : ∀ byte : UInt8, byte < 128 →
    String.utf8EncodeChar (Char.ofNat byte.toNat) = [byte] := forall_byte (by decide +kernel)

theorem isUtf8_byte {byte : UInt8} (ascii : byte < 128) : IsUtf8 [byte] := by
  rw [← utf8EncodeChar_ascii byte ascii]
  exact isUtf8_character _

theorem isUtf8_of_ascii {bytes : Bytes} (ascii : ∀ byte ∈ bytes, byte < 128) : IsUtf8 bytes := by
  induction bytes with
  | nil => exact isUtf8_utf8 ""
  | cons byte bytes ih =>
    exact (isUtf8_byte (ascii byte List.mem_cons_self)).append
      (ih fun other among => ascii other (List.mem_cons_of_mem _ among))

/-- The bytes of a character are one of ASCII or none of it. -/
theorem utf8EncodeChar_cases (character : Char) :
    (∃ byte < 128, String.utf8EncodeChar character = [byte]) ∨
      ∀ byte ∈ String.utf8EncodeChar character, 128 ≤ byte := by
  have large {byte mark : UInt8} (high : 128 ≤ mark) : 128 ≤ byte ||| mark := by
    rw [UInt8.le_iff_toNat_le, UInt8.toNat_or] at *
    exact Nat.le_trans high Nat.right_le_or
  rcases character.utf8Size_eq with size | size | size | size
  · have single := String.utf8EncodeChar_eq_singleton size
    obtain ⟨text, isText⟩ := isUtf8_character character
    exact .inl ⟨_, lt_of_utf8_eq_singleton (isText.trans single), single⟩
  · rw [String.utf8EncodeChar_eq_cons_cons size]
    simp [large]
  · rw [String.utf8EncodeChar_eq_cons_cons_cons size]
    simp [large]
  · rw [String.utf8EncodeChar_eq_cons_cons_cons_cons size]
    simp [large]

theorem isUtf8_bytes (number : Nat) : IsUtf8 (Decimal.bytes number) := by
  have all : ∀ digit < 10, Decimal.digitByte digit < 128 := by decide
  refine isUtf8_of_ascii fun byte among => ?_
  obtain ⟨digit, isDigit, rfl⟩ := List.mem_map.1 among
  exact all digit (Decimal.digit_lt_ten isDigit)

namespace Json

theorem escape_ascii : ∀ byte : UInt8, byte < 128 → (escape byte).all fun part => part < 128 :=
  forall_byte (by decide +kernel)

theorem escape_of_large : ∀ byte : UInt8, 128 ≤ byte → escape byte = [byte] :=
  forall_byte (by decide +kernel)

/-- A quoted text is a text. -/
theorem isUtf8_quoteText (text : String) : IsUtf8 (quoteText text) := by
  have mark : IsUtf8 [quoteMark] := isUtf8_byte (by decide)
  refine (mark.append ?_).append mark
  change IsUtf8 ((utf8 text).flatMap escape)
  rw [utf8_eq_flatMap, List.flatMap_assoc, List.flatMap_def]
  refine isUtf8_flatten fun part among => ?_
  obtain ⟨character, -, rfl⟩ := List.mem_map.1 among
  rcases utf8EncodeChar_cases character with ⟨byte, ascii, single⟩ | large
  · rw [single, List.flatMap_singleton]
    have parts := List.all_eq_true.1 (escape_ascii byte ascii)
    exact isUtf8_of_ascii fun part among => of_decide_eq_true (parts part among)
  · rw [List.flatMap_congr fun byte member => escape_of_large byte (large byte member),
      List.flatMap_singleton']
    exact isUtf8_character character

/-- So is an object whose members are. -/
theorem isUtf8_objectTokens {bindings : List (String × List Bytes)}
    (are : ∀ binding ∈ bindings, IsUtf8 binding.2.flatten) :
    IsUtf8 (objectTokens bindings).flatten := by
  have opening : IsUtf8 [openObject] := isUtf8_byte (by decide)
  have closing : IsUtf8 [closeObject] := isUtf8_byte (by decide)
  have between : IsUtf8 [comma] := isUtf8_byte (by decide)
  have part {binding : String × List Bytes} (contents : IsUtf8 binding.2.flatten) :
      IsUtf8 (memberTokens binding).flatten := by
    have mark : IsUtf8 [colon] := isUtf8_byte (by decide)
    exact (isUtf8_quoteText binding.1).append (mark.append contents)
  rcases List.eq_nil_or_concat bindings with rfl | ⟨front, last, rfl⟩
  · exact opening.append closing
  · rw [List.concat_eq_append] at are ⊢
    rw [objectTokens_concat, openingTokens, List.flatten_append, List.flatten_append]
    refine IsUtf8.append (IsUtf8.append (opening.append ?_) (part (are last (by simp)))) closing
    rw [List.flatMap_def, List.flatten_flatten, List.map_map]
    refine isUtf8_flatten fun text among => ?_
    obtain ⟨binding, member, rfl⟩ := List.mem_map.1 among
    rw [Function.comp_apply, List.flatten_append]
    exact (part (are binding (List.mem_append_left _ member))).append between

end Json

end Standby
