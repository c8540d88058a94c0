import Standby.Codec.Storable
import Standby.Error

/-!
# Formats

A format turns values into bytes and back. The library has two, compact binary and JSON text, and
a store takes any other: a format may refuse a value, and its decoder may succeed without
producing one, which counts as a failure. Three such formats are here to try a store with.

What a format is asked to encode is one of a fixed list of contents.
-/

set_option autoImplicit false

namespace Standby

/-- What a format can be asked to encode. -/
inductive Content where
  | value
  | values
  | optionalValue
  | row
  | rows
  | page
  | keptPage
  | condition
  | conditions
  | texts
  | rangeQuery
  | operator
  | columnType
  | schema
  | location
  deriving DecidableEq

namespace Content

/-- The type of a content. -/
abbrev Carrier : Content → Type
  | value => Value
  | values => List Value
  | optionalValue => Option Value
  | row => Row
  | rows => List Row
  | page => Page
  | keptPage => KeptPage
  | condition => Condition
  | conditions => Conditions
  | texts => List String
  | rangeQuery => RangeQuery
  | operator => Operator
  | columnType => ColumnType
  | schema => Schema
  | location => Location

instance storable : (content : Content) → Storable content.Carrier
  | value => inferInstanceAs (Storable Value)
  | values => inferInstanceAs (Storable (List Value))
  | optionalValue => inferInstanceAs (Storable (Option Value))
  | row => inferInstanceAs (Storable (FieldMap Value))
  | rows => inferInstanceAs (Storable (List (FieldMap Value)))
  | page => inferInstanceAs (Storable Page)
  | keptPage => inferInstanceAs (Storable KeptPage)
  | condition => inferInstanceAs (Storable Condition)
  | conditions => inferInstanceAs (Storable (FieldMap (List Condition)))
  | texts => inferInstanceAs (Storable (List String))
  | rangeQuery => inferInstanceAs (Storable RangeQuery)
  | operator => inferInstanceAs (Storable Operator)
  | columnType => inferInstanceAs (Storable ColumnType)
  | schema => inferInstanceAs (Storable Schema)
  | location => inferInstanceAs (Storable Location)

/-- The binary encoding of a content. -/
def binary (content : Content) : Binary.Codec content.Carrier := content.storable.binary

/-- The JSON encoding of a content. -/
def json (content : Content) : Json.Codec content.Carrier := content.storable.json

end Content

/-- What tells formats apart. -/
inductive FormatId where
  | json
  | binary
  /-- A format from outside the library. -/
  | custom (name : String)
  deriving DecidableEq

/-- A way to turn values into bytes and back. -/
structure Format where
  id : FormatId
  /-- The bytes of a value. -/
  encode : (content : Content) → content.Carrier → Except FormatError Bytes
  /-- What a byte string stands for; success may come without a value. -/
  decode? : (content : Content) → Bytes → Except FormatError (Option content.Carrier)

namespace Format

/-- The value that a byte string stands for. -/
def decode (format : Format) (content : Content) (bytes : Bytes) :
    Except FormatError content.Carrier := do
  match ← format.decode? content bytes with
  | some value => .ok value
  | none => .error (.decoding .noValue)

/-! ## The formats of the library -/

/-- The value that a whole byte string stands for in the binary encoding. -/
def parseBinary (content : Content) (bytes : Bytes) : Except DecodeError content.Carrier :=
  match content.binary.read bytes with
  | none => .error (.fault .malformed)
  | some (value, []) => .ok value
  | some (_, rest) => .error (.trailing rest.length)

/-- The value that a whole byte string stands for in JSON. -/
def parseJson (content : Content) (bytes : Bytes) : Except DecodeError content.Carrier :=
  (content.json.parse bytes).mapError .fault

/-- The compact binary format. -/
def binary : Format where
  id := .binary
  encode content value := .ok (content.binary.write value)
  decode? content bytes := ((parseBinary content bytes).map some).mapError .decoding

/-- JSON text. -/
def json : Format where
  id := .json
  encode content value := .ok (content.json.write value)
  decode? content bytes := ((parseJson content bytes).map some).mapError .decoding

/-! ## Formats to try a store with -/

/-- A format that neither encodes nor decodes anything. -/
def refusing : Format where
  id := .custom "unencodable"
  encode _ _ := .error (.encoding "cannot encode")
  decode? _ _ := .error (.decoding (.refused "cannot decode"))

/-- JSON text whose decoder never produces a value. -/
def silent : Format where
  id := .custom "silent"
  encode := json.encode
  decode? _ _ := .ok none

/-- JSON text of at most so many bytes. -/
def limited (most : Nat) : Format where
  id := .custom "limit"
  encode content value := do
    let bytes ← json.encode content value
    if bytes.length ≤ most then .ok bytes else .error (.encoding "too long")
  decode? := json.decode?

end Format

/-! ## Keys -/

/-- The key of a row's standby entry. -/
def rowKey (format : Format) (entity : Entity) (row : Row) : Except FormatError Bytes :=
  format.encode .rows (keyParts entity row)

/-- The key of a page's standby entry. -/
def RangeQuery.key (format : Format) (query : RangeQuery) : Except FormatError Bytes :=
  format.encode .rangeQuery query

end Standby
