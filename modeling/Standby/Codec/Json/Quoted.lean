import Standby.Codec.Json.Scan

/-!
# Quoted texts of JSON

A text stands between quotation marks. The mark itself, the backslash and control characters are
written as escapes, everything else as its UTF-8 bytes. A `\u` escape holds a unit of UTF-16, and
two of them in a row may form one character.

Texts are read strictly: control characters must be escaped, units must form characters and the
bytes must be valid UTF-8. A blob may be written as a quoted text too and is read without these
rules: its bytes are taken as they are, and a unit that is half a character takes three bytes.
-/

set_option autoImplicit false

namespace Standby.Json

/-! ## Writing -/

/-- A hexadecimal digit, as a byte. -/
def hexByte (digit : Nat) : UInt8 := UInt8.ofNat (if digit < 10 then 48 + digit else 87 + digit)

/-- The letter that stands for a control character after a backslash. -/
def escapeLetter? (byte : UInt8) : Option UInt8 :=
  if byte = 0x08 then some 0x62
  else if byte = 0x09 then some 0x74
  else if byte = 0x0a then some 0x6e
  else if byte = 0x0c then some 0x66
  else if byte = 0x0d then some 0x72
  else if byte = quoteMark then some quoteMark
  else if byte = backslash then some backslash
  else none

/-- A byte of a text as it stands between quotation marks. -/
def escape (byte : UInt8) : Bytes :=
  match escapeLetter? byte with
  | some letter => [backslash, letter]
  | none =>
    if byte < 0x20 then
      utf8 "\\u00" ++ [hexByte (byte.toNat / 16), hexByte (byte.toNat % 16)]
    else [byte]

/-- A quoted byte string. -/
def quote (bytes : Bytes) : Bytes := quoteMark :: bytes.flatMap escape ++ [quoteMark]

/-- A quoted text. -/
def quoteText (text : String) : Bytes := quote (utf8 text)

/-! ## Reading -/

/-- What a quoted text is made of. -/
inductive Piece where
  /-- A byte. -/
  | byte (byte : UInt8)
  /-- A unit of UTF-16. -/
  | unit (number : Nat)
  deriving DecidableEq

/-- The number of a hexadecimal digit. -/
def hexDigit? (byte : UInt8) : Option Nat :=
  if 0x30 ≤ byte ∧ byte ≤ 0x39 then some (byte.toNat - 0x30)
  else if 0x41 ≤ byte ∧ byte ≤ 0x46 then some (byte.toNat - 0x37)
  else if 0x61 ≤ byte ∧ byte ≤ 0x66 then some (byte.toNat - 0x57)
  else none

/-- The number of four hexadecimal digits. -/
def hexUnit? (first second third fourth : UInt8) : Option Nat := do
  let first ← hexDigit? first
  let second ← hexDigit? second
  let third ← hexDigit? third
  let fourth ← hexDigit? fourth
  some (((first * 16 + second) * 16 + third) * 16 + fourth)

/-- The byte that a letter after a backslash stands for. -/
def unescape? (letter : UInt8) : Option UInt8 :=
  if letter = 0x62 then some 0x08
  else if letter = 0x74 then some 0x09
  else if letter = 0x6e then some 0x0a
  else if letter = 0x66 then some 0x0c
  else if letter = 0x72 then some 0x0d
  else if letter = quoteMark then some quoteMark
  else if letter = backslash then some backslash
  else if letter = 0x2f then some 0x2f
  else none

/-- The pieces up to the closing quotation mark, and the bytes after it. A strict text has no bare
control characters. -/
def readPieces (strict : Bool) : Bytes → Option (List Piece × Bytes)
  | [] => none
  | byte :: rest =>
    if byte = quoteMark then some ([], rest)
    else if byte = backslash then
      match rest with
      | [] => none
      | letter :: rest =>
        if letter = 0x75 then
          match rest with
          | first :: second :: third :: fourth :: rest => do
            let unit ← hexUnit? first second third fourth
            let (pieces, rest) ← readPieces strict rest
            some (.unit unit :: pieces, rest)
          | _ => none
        else do
          let byte ← unescape? letter
          let (pieces, rest) ← readPieces strict rest
          some (.byte byte :: pieces, rest)
    else if strict && byte < 0x20 then none
    else do
      let (pieces, rest) ← readPieces strict rest
      some (.byte byte :: pieces, rest)

/-- Whether a unit is the first half of a character. -/
def isLeading (unit : Nat) : Bool := 0xd800 ≤ unit && unit < 0xdc00

/-- Whether a unit is the second half of a character. -/
def isTrailing (unit : Nat) : Bool := 0xdc00 ≤ unit && unit < 0xe000

/-- The bytes of a code point in the manner of UTF-8, which serves for halves of characters too. -/
def codePointBytes (point : Nat) : Bytes :=
  if point < 0x80 then [UInt8.ofNat point]
  else if point < 0x800 then [UInt8.ofNat (0xc0 + point / 64), UInt8.ofNat (0x80 + point % 64)]
  else if point < 0x10000 then
    [UInt8.ofNat (0xe0 + point / 4096), UInt8.ofNat (0x80 + point / 64 % 64),
      UInt8.ofNat (0x80 + point % 64)]
  else
    [UInt8.ofNat (0xf0 + point / 262144), UInt8.ofNat (0x80 + point / 4096 % 64),
      UInt8.ofNat (0x80 + point / 64 % 64), UInt8.ofNat (0x80 + point % 64)]

/-- The bytes that pieces stand for. A strict text has no halves of characters. -/
def assemble (strict : Bool) : List Piece → Option Bytes
  | [] => some []
  | .byte byte :: pieces => do
    let bytes ← assemble strict pieces
    some (byte :: bytes)
  | [.unit unit] =>
    if strict && (isLeading unit || isTrailing unit) then none else some (codePointBytes unit)
  | .unit unit :: .unit next :: pieces =>
    if isLeading unit && isTrailing next then do
      let bytes ← assemble strict pieces
      some (codePointBytes (0x10000 + (unit - 0xd800) * 1024 + (next - 0xdc00)) ++ bytes)
    else if strict && (isLeading unit || isTrailing unit) then none
    else do
      let bytes ← assemble strict (.unit next :: pieces)
      some (codePointBytes unit ++ bytes)
  | .unit unit :: .byte byte :: pieces =>
    if strict && (isLeading unit || isTrailing unit) then none
    else do
      let bytes ← assemble strict pieces
      some (codePointBytes unit ++ byte :: bytes)

/-- The bytes of a quoted text, its opening mark included. -/
def readQuoted (strict : Bool) (bytes : Bytes) : Except Fault (Bytes × Bytes) := do
  let rest ← readMark quoteMark bytes
  let read := do
    let (pieces, rest) ← readPieces strict rest
    let contents ← assemble strict pieces
    some (contents, rest)
  match read with
  | some result => .ok result
  | none => .error .malformed

/-- A quoted text. -/
def readText : Reader String := fun bytes => do
  let (contents, rest) ← readQuoted true bytes
  match ofUtf8? contents with
  | some text => .ok (text, rest)
  | none => .error .malformed

end Standby.Json
