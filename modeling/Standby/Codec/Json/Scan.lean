import Standby.Error
import Standby.Text.Utf8

/-!
# Reading JSON: marks and blanks

A reader takes a value off the front of a byte string and returns what is left, or the first
fault it meets. Every reader starts by skipping blanks, which in JSON are the space, the tab, the
line feed and the carriage return.
-/

set_option autoImplicit false

namespace Standby.Json

/-- A way to take a value off the front of a byte string. -/
abbrev Reader (α : Type) := Bytes → Except Fault (α × Bytes)

/-- The bytes with a meaning of their own. -/
abbrev quoteMark : UInt8 := 0x22

abbrev backslash : UInt8 := 0x5c

abbrev comma : UInt8 := 0x2c

abbrev colon : UInt8 := 0x3a

abbrev openList : UInt8 := 0x5b

abbrev closeList : UInt8 := 0x5d

abbrev openObject : UInt8 := 0x7b

abbrev closeObject : UInt8 := 0x7d

/-- Whether a byte is a blank between tokens. -/
def isSpace (byte : UInt8) : Bool :=
  byte == 0x20 || byte == 0x09 || byte == 0x0a || byte == 0x0d

/-- The rest of a byte string after its leading blanks. -/
def skipSpace (bytes : Bytes) : Bytes := bytes.dropWhile isSpace

/-- The rest of a byte string after a given beginning. -/
def dropPrefix? : Bytes → Bytes → Option Bytes
  | [], bytes => some bytes
  | _ :: _, [] => none
  | expected :: more, byte :: rest => if byte = expected then dropPrefix? more rest else none

/-- One of the words of JSON. -/
def readWord (word : String) (bytes : Bytes) : Except Fault Bytes :=
  match dropPrefix? (utf8 word) (skipSpace bytes) with
  | some rest => .ok rest
  | none => .error .malformed

/-- One mark. -/
def readMark (mark : UInt8) (bytes : Bytes) : Except Fault Bytes :=
  match skipSpace bytes with
  | [] => .error .malformed
  | byte :: rest => if byte = mark then .ok rest else .error .malformed

/-- The rest of a byte string if, after blanks, it starts with a mark. -/
def dropMark? (mark : UInt8) (bytes : Bytes) : Option Bytes :=
  match skipSpace bytes with
  | [] => none
  | byte :: rest => if byte = mark then some rest else none

end Standby.Json
