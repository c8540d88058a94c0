import Standby.Codec.Json.Number
import Standby.Codec.Json.Quoted

/-!
# Skipping values of JSON

A member that a record does not have is skipped with its value, which must be well formed but may
be nested without limit. The open lists and objects are kept on a stack. Numbers may be of any
size, and texts may hold halves of characters and bytes that are not UTF-8.
-/

set_option autoImplicit false

namespace Standby.Json

/-- An open list or object. -/
inductive Enclosure where
  | list
  | object
  deriving DecidableEq

/-- The mark that closes an enclosure. -/
def Enclosure.closing : Enclosure → UInt8
  | list => closeList
  | object => closeObject

/-- Skips a quoted text. -/
def skipQuoted (bytes : Bytes) : Except Fault Bytes := do
  let rest ← readMark quoteMark bytes
  match readPieces true rest with
  | some (_, rest) => .ok rest
  | none => .error .malformed

/-- Skips the name of a member and the colon after it. -/
def skipName (bytes : Bytes) : Except Fault Bytes := do
  readMark colon (← skipQuoted bytes)

/-- Skips a number. -/
def skipNumber (bytes : Bytes) : Except Fault Bytes :=
  let unsigned := match skipSpace bytes with
    | [] => []
    | mark :: rest => if mark = 0x2d then rest else mark :: rest
  let read := do
    let (_, rest) ← readWhole unsigned
    let (_, rest) ← readFraction rest
    let (_, rest) ← readExponent rest
    some rest
  match read with
  | some rest => .ok rest
  | none => .error .malformed

/-- Skips a value that encloses no others. -/
def skipScalar (bytes : Bytes) : Except Fault Bytes :=
  match skipSpace bytes with
  | [] => .error .malformed
  | first :: _ =>
    if first = quoteMark then skipQuoted bytes
    else if first = 0x6e then readWord "null" bytes
    else if first = 0x74 then readWord "true" bytes
    else if first = 0x66 then readWord "false" bytes
    else skipNumber bytes

/-- Goes on after a value: closes enclosures up to one that goes on with another value. Returns
the enclosures around that value, or none where the outermost value is over. -/
def leave : List Enclosure → Bytes → Except Fault (Option (List Enclosure) × Bytes)
  | [], bytes => .ok (none, bytes)
  | inner :: outer, bytes =>
    match skipSpace bytes with
    | [] => .error .malformed
    | mark :: rest =>
      if mark = comma then
        match inner with
        | .list => .ok (some (inner :: outer), rest)
        | .object => do .ok (some (inner :: outer), ← skipName rest)
      else if mark = inner.closing then leave outer rest
      else .error .malformed

/-- Opens the enclosure that starts at a byte string, if one does. -/
def enter? (bytes : Bytes) : Option (Enclosure × Bytes) :=
  match dropMark? openList bytes with
  | some rest => some (.list, rest)
  | none => (dropMark? openObject bytes).map fun rest => (.object, rest)

/-- Skips a value and what follows it up to the end of the outermost value. Every value takes at
least a byte, so the length of the input bounds their number. -/
def skipValues : Nat → List Enclosure → Bytes → Except Fault Bytes
  | 0, _, _ => .error .malformed
  | bound + 1, enclosures, bytes => do
    let (next, rest) ←
      match enter? bytes with
      | none => leave enclosures (← skipScalar bytes)
      | some (enclosure, rest) =>
        match dropMark? enclosure.closing rest with
        | some rest => leave enclosures rest
        | none =>
          match enclosure with
          | .list => .ok (some (enclosure :: enclosures), rest)
          | .object => do .ok (some (enclosure :: enclosures), ← skipName rest)
    match next with
    | none => .ok rest
    | some enclosures => skipValues bound enclosures rest

/-- Skips a value. -/
def skipValue (bytes : Bytes) : Except Fault Bytes := skipValues bytes.length [] bytes

end Standby.Json
