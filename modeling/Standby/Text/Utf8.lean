/-!
# Texts as bytes

Everything the library stores or sends is a list of bytes. A text enters such a list as its
UTF-8 form, which is how a `String` is kept, and leaves it only where the bytes are valid.
Reading back what was written gives the text again (`ofUtf8?_utf8`).
-/

set_option autoImplicit false

namespace Standby

/-- A string of bytes. -/
abbrev Bytes := List UInt8

/-- The UTF-8 bytes of a text. -/
def utf8 (text : String) : Bytes := text.toByteArray.data.toList

/-- The text with these UTF-8 bytes, if they are valid. -/
def ofUtf8? (bytes : Bytes) : Option String := String.fromUTF8? ⟨bytes.toArray⟩

/-- Writing a text and reading it back gives the text. -/
theorem ofUtf8?_utf8 (text : String) : ofUtf8? (utf8 text) = some text := by
  have valid : (⟨(utf8 text).toArray⟩ : ByteArray) = text.toByteArray := by
    simp [utf8]
  rw [ofUtf8?, valid, String.fromUTF8?, dif_pos text.isValidUTF8]
  rfl

theorem utf8_eq_flatMap (text : String) :
    utf8 text = text.toList.flatMap String.utf8EncodeChar := by
  rw [utf8, ← String.utf8Encode_toList, List.utf8Encode, List.toList_data_toByteArray]

/-- The byte of a text of one byte is that of an ASCII character. -/
theorem lt_of_utf8_eq_singleton {text : String} {byte : UInt8} (is : utf8 text = [byte]) :
    byte < 128 := by
  rw [utf8_eq_flatMap] at is
  cases characters : text.toList with
  | nil =>
    rw [characters] at is
    cases is
  | cons first others =>
    rw [characters, List.flatMap_cons] at is
    have size := congrArg List.length is
    have visible := first.utf8Size_pos
    simp only [List.length_append, String.length_utf8EncodeChar, List.length_singleton] at size
    have one : first.utf8Size = 1 := by omega
    rw [String.utf8EncodeChar_eq_singleton one] at is
    have code : first.val.toNat ≤ 127 := UInt32.le_iff_toNat_le.1 (Char.utf8Size_eq_one_iff.1 one)
    cases List.head_eq_of_cons_eq is
    rw [UInt8.lt_iff_toNat_lt, UInt32.toNat_toUInt8]
    change _ < 128
    omega

end Standby
