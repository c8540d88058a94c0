import Standby.FieldMap
import Standby.Text.Utf8
import Standby.Value.Double

/-!
# The binary encoding

A codec writes a value as bytes and reads it off the front of a byte string, returning what is
left. Nothing is written between the parts of a value: a codec finds the end of what it wrote.

Unsigned numbers, lengths and the numbers of variants take one byte below 251; a greater one is
preceded by a byte that gives its width, 251 for two bytes, 252 for four and 253 for eight, least
significant byte first. A longer form than needed is read, one wider than the type is not. Signed
numbers are interleaved, zero first: 0, -1, 1, -2, and so on. Texts, blobs, lists and maps start
with their length.
-/

set_option autoImplicit false

namespace Standby.Binary

/-- A way to write values of a type and to read them. -/
structure Codec (α : Type) where
  /-- The bytes of a value. -/
  write : α → Bytes
  /-- The value at the front of a byte string and the bytes after it. -/
  read : Bytes → Option (α × Bytes)

namespace Codec

variable {α β : Type}

/-! ## Combining codecs -/

/-- Values written as other values, of which some stand for nothing. -/
def partialMap (codec : Codec β) (toRaw : α → β) (ofRaw? : β → Option α) : Codec α where
  write value := codec.write (toRaw value)
  read bytes := do
    let (raw, rest) ← codec.read bytes
    let value ← ofRaw? raw
    some (value, rest)

/-- Values written as other values. -/
def map (codec : Codec β) (toRaw : α → β) (ofRaw : β → α) : Codec α :=
  codec.partialMap toRaw fun raw => some (ofRaw raw)

/-- Two values, one after the other. -/
def pair (first : Codec α) (second : Codec β) : Codec (α × β) where
  write values := first.write values.1 ++ second.write values.2
  read bytes := do
    let (left, rest) ← first.read bytes
    let (right, rest) ← second.read rest
    some ((left, right), rest)

/-! ## Numbers -/

/-- The lowest bytes of a number, least significant first. -/
def writeLittle : Nat → Nat → Bytes
  | 0, _ => []
  | count + 1, number => UInt8.ofNat number :: writeLittle count (number / 256)

/-- The number in so many bytes, least significant first. -/
def readLittle : Nat → Bytes → Option (Nat × Bytes)
  | 0, bytes => some (0, bytes)
  | _ + 1, [] => none
  | count + 1, byte :: rest => do
    let (number, rest) ← readLittle count rest
    some (byte.toNat + 256 * number, rest)

/-- An unsigned number of at most eight bytes. -/
def writeUnsigned (number : Nat) : Bytes :=
  if number < 251 then [UInt8.ofNat number]
  else if number < UInt16.size then 251 :: writeLittle 2 number
  else if number < UInt32.size then 252 :: writeLittle 4 number
  else 253 :: writeLittle 8 number

/-- The width in bytes that a first byte announces, if it announces one. -/
def announcedWidth? (first : UInt8) : Option Nat :=
  if first = 251 then some 2
  else if first = 252 then some 4
  else if first = 253 then some 8
  else none

/-- An unsigned number of at most so many bytes. -/
def readUnsigned (widest : Nat) : Bytes → Option (Nat × Bytes)
  | [] => none
  | first :: rest =>
    if first < 251 then some (first.toNat, rest)
    else do
      let width ← announcedWidth? first
      if width ≤ widest then readLittle width rest else none

/-- Numbers below a power of 256. -/
def unsigned (widest : Nat) : Codec Nat := ⟨writeUnsigned, readUnsigned widest⟩

/-- Lengths of texts, blobs, lists and maps. -/
def length : Codec Nat := unsigned 8

/-- The numbers of variants. -/
def variantNumber : Codec Nat := unsigned 4

/-- Words of 64 bits. -/
def word64 : Codec UInt64 := (unsigned 8).map UInt64.toNat UInt64.ofNat

/-- The place of an integer in the row 0, -1, 1, -2, and so on. -/
def interleave (number : Int) : Nat :=
  if number < 0 then 2 * number.natAbs - 1 else 2 * number.natAbs

/-- The integer at a place of that row. -/
def separate (place : Nat) : Int :=
  if place % 2 = 0 then (place / 2 : Nat) else -((place / 2 : Nat) + 1 : Int)

/-- Signed numbers of 32 bits. -/
def int32 : Codec Int32 :=
  (unsigned 4).map (fun number => interleave number.toInt) fun place => Int32.ofInt (separate place)

/-- Signed numbers of 64 bits. -/
def int64 : Codec Int64 :=
  (unsigned 8).map (fun number => interleave number.toInt) fun place => Int64.ofInt (separate place)

/-- Doubles, as eight bytes. -/
def double : Codec Double where
  write value := writeLittle 8 value.bits.toNat
  read bytes := do
    let (number, rest) ← readLittle 8 bytes
    some (⟨UInt64.ofNat number⟩, rest)

/-- Truth values, as one byte. -/
def bool : Codec Bool where
  write value := [if value then 1 else 0]
  read
    | [] => none
    | byte :: rest =>
      if byte = 0 then some (false, rest) else if byte = 1 then some (true, rest) else none

/-! ## Sequences -/

/-- Blobs: their length and their bytes. -/
def blob : Codec Bytes where
  write bytes := length.write bytes.length ++ bytes
  read bytes := do
    let (count, rest) ← length.read bytes
    if count ≤ rest.length then some (rest.take count, rest.drop count) else none

/-- Texts: their UTF-8 bytes as a blob. -/
def text : Codec String := blob.partialMap utf8 ofUtf8?

/-- A value or nothing, told apart by a byte. -/
def option (codec : Codec α) : Codec (Option α) where
  write
    | none => [0]
    | some value => 1 :: codec.write value
  read
    | [] => none
    | byte :: rest =>
      if byte = 0 then some (none, rest)
      else if byte = 1 then do
        let (value, rest) ← codec.read rest
        some (some value, rest)
      else none

/-- So many values, one after the other. -/
def readMany (codec : Codec α) : Nat → Bytes → Option (List α × Bytes)
  | 0, bytes => some ([], bytes)
  | count + 1, bytes => do
    let (value, rest) ← codec.read bytes
    let (values, rest) ← readMany codec count rest
    some (value :: values, rest)

/-- Lists: their length and their items. -/
def list (codec : Codec α) : Codec (List α) where
  write values := length.write values.length ++ values.flatMap codec.write
  read bytes := do
    let (count, rest) ← length.read bytes
    readMany codec count rest

/-- The entries of a map, in whatever order they come. -/
def entries (codec : Codec α) : Codec (List (String × α)) := (text.pair codec).list

/-- Maps: their size and their entries. Of several entries for one name the last counts. -/
def fieldMap (codec : Codec α) : Codec (FieldMap α) :=
  codec.entries.map FieldMap.entries FieldMap.ofList

/-! ## Variants -/

/-- Values of a finite list, written as their place in it. -/
def enumeration (all : List α) (place : α → Nat) : Codec α :=
  variantNumber.partialMap place fun number => all[number]?

/-- Reads the contents of a variant. -/
def readAs (codec : Codec β) (make : β → α) (bytes : Bytes) : Option (α × Bytes) := do
  let (contents, rest) ← codec.read bytes
  some (make contents, rest)

end Codec

end Standby.Binary
