import Standby.Codec.Json.Quoted

/-!
# Quoted texts read back

Each byte of a text is read from what stands for it between quotation marks as one piece, a byte
or a unit of UTF-16 (`readPieces_escape`), and the pieces make up the bytes again
(`assemble_pieces`). So a quoted text is read as the text that was written, whatever follows the
closing mark (`readText_quoteText`).
-/

set_option autoImplicit false

namespace Standby.Json

/-! ## Escapes -/

/-- The letter of an escape stands for the byte, and starts no unit. -/
theorem unescape?_of_escapeLetter? {byte letter : UInt8} (is : escapeLetter? byte = some letter) :
    letter ≠ 0x75 ∧ unescape? letter = some byte := by
  rw [escapeLetter?] at is
  repeat' split at is
  all_goals first | (cases is; subst_vars; decide) | cases is

theorem escapeLetter?_quoteMark : escapeLetter? quoteMark = some quoteMark := rfl

theorem escapeLetter?_backslash : escapeLetter? backslash = some backslash := rfl

/-- A control character is the unit that its hexadecimal digits stand for. -/
theorem hexUnit?_control {byte : UInt8} (control : byte < 0x20) :
    hexUnit? 0x30 0x30 (hexByte (byte.toNat / 16)) (hexByte (byte.toNat % 16)) =
      some byte.toNat := by
  have all : ∀ number < 32,
      hexUnit? 0x30 0x30 (hexByte (number / 16)) (hexByte (number % 16)) = some number := by
    decide
  exact all byte.toNat (UInt8.lt_iff_toNat_lt.1 control)

/-! ## Pieces -/

/-- What a byte of a text is read as. -/
def Piece.ofByte (byte : UInt8) : Piece :=
  if escapeLetter? byte = none ∧ byte < 0x20 then .unit byte.toNat else .byte byte

/-- What stands for a byte between quotation marks is read as one piece. -/
theorem readPieces_escape (byte : UInt8) (rest : Bytes) :
    readPieces true (escape byte ++ rest) =
      (readPieces true rest).map fun read => (.ofByte byte :: read.1, read.2) := by
  rw [escape, Piece.ofByte]
  cases isLetter : escapeLetter? byte with
  | some letter =>
    obtain ⟨noUnit, back⟩ := unescape?_of_escapeLetter? isLetter
    have noMark : backslash ≠ quoteMark := by decide
    rw [List.cons_append, List.singleton_append, readPieces.eq_def]
    simp only [if_neg noMark, if_true, if_neg noUnit, back, reduceCtorEq, false_and, if_false]
    cases readPieces true rest <;> rfl
  | none =>
    simp only [true_and]
    split
    next control =>
      have start : utf8 "\\u00" = [backslash, 0x75, 0x30, 0x30] := by decide
      have noMark : backslash ≠ quoteMark := by decide
      simp only [start, List.cons_append, List.nil_append, readPieces, if_neg noMark, if_true,
        hexUnit?_control control]
      cases readPieces true rest <;> rfl
    next visible =>
      have noMark : byte ≠ quoteMark := by
        rintro rfl
        cases escapeLetter?_quoteMark.symm.trans isLetter
      have noBackslash : byte ≠ backslash := by
        rintro rfl
        cases escapeLetter?_backslash.symm.trans isLetter
      rw [List.singleton_append, readPieces.eq_def]
      simp only [if_neg noMark, if_neg noBackslash, visible, decide_false, Bool.and_false,
        Bool.false_eq_true, if_false]
      cases readPieces true rest <;> rfl

theorem readPieces_quote (bytes rest : Bytes) :
    readPieces true (bytes.flatMap escape ++ quoteMark :: rest) =
      some (bytes.map Piece.ofByte, rest) := by
  induction bytes with
  | nil =>
    rw [List.flatMap_nil, List.nil_append, readPieces.eq_def]
    rfl
  | cons byte bytes ih =>
    rw [List.flatMap_cons, List.append_assoc, readPieces_escape, ih]
    rfl

/-- A unit that is a control character is no half of a character. -/
theorem assemble_control {byte : UInt8} (control : byte < 0x20) (pieces : List Piece) :
    assemble true (.unit byte.toNat :: pieces) =
      (assemble true pieces).map fun bytes => byte :: bytes := by
  have small : byte.toNat < 0x20 := UInt8.lt_iff_toNat_lt.1 control
  have noHalf : isLeading byte.toNat = false ∧ isTrailing byte.toNat = false := by
    simp [isLeading, isTrailing]
    omega
  have point : codePointBytes byte.toNat = [byte] := by
    rw [codePointBytes, if_pos (by omega), UInt8.ofNat_toNat]
  match pieces with
  | [] => simp [assemble, noHalf, point]
  | .byte next :: pieces =>
    simp only [assemble, noHalf, point]
    cases assemble true pieces <;> rfl
  | .unit next :: pieces =>
    simp only [assemble, noHalf, point]
    cases assemble true (.unit next :: pieces) <;> rfl

theorem assemble_pieces (bytes : Bytes) : assemble true (bytes.map Piece.ofByte) = some bytes := by
  induction bytes with
  | nil => rfl
  | cons byte bytes ih =>
    rw [List.map_cons, Piece.ofByte]
    split
    next control => rw [assemble_control control.2, ih, Option.map_some]
    next => simp only [assemble, ih, bind, Option.bind]

/-! ## Texts -/

/-- **A quoted text is read as the text that was written.** -/
theorem readText_quoteText (text : String) (rest : Bytes) :
    readText (quoteText text ++ rest) = .ok (text, rest) := by
  have quoted : readQuoted true (quoteText text ++ rest) = .ok (utf8 text, rest) := by
    have pieces := readPieces_quote (utf8 text) rest
    have opening : readMark quoteMark (quoteText text ++ rest) =
        .ok ((utf8 text).flatMap escape ++ quoteMark :: rest) := by
      rw [quoteText, quote, List.cons_append, List.cons_append, List.append_assoc]
      rfl
    simp only [readQuoted, opening, pieces, assemble_pieces, bind, Except.bind, Option.bind]
  simp only [readText, quoted, ofUtf8?_utf8, bind, Except.bind]

/-- Quoted texts are told apart, whatever follows them. -/
theorem quoteText_append_inj {first second : String} {rest after : Bytes}
    (same : quoteText first ++ rest = quoteText second ++ after) :
    first = second ∧ rest = after := by
  have read := readText_quoteText first rest
  rw [same, readText_quoteText second after] at read
  obtain ⟨text, remaining⟩ := Prod.mk.inj (Except.ok.inj read)
  exact ⟨text.symm, remaining.symm⟩

end Standby.Json
