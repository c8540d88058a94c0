import Standby.Codec.Json.Skip
import Standby.FieldMap

/-!
# Codecs for JSON

A codec writes a value as compact JSON, without blanks, and reads it off the front of a byte
string. Lists become lists, maps and records become objects, nothing is `null`, and a variant is
its name, or an object whose only member has that name and the contents of the variant.

A record is read from an object, with its members in any order, or from a list of its members in
theirs. A member that occurs twice is a fault at its second name, before its value; a missing one
is a fault at the end of the object unless it has a value for that case. The members of a record
that is not closed to others are joined by any others, which are skipped.
-/

set_option autoImplicit false

namespace Standby.Json

/-- A way to write values of a type as JSON and to read them. -/
structure Codec (α : Type) where
  /-- The JSON text of a value. -/
  write : α → Bytes
  /-- The value at the front of a byte string and the bytes after it. -/
  read : Reader α

/-- Bytes between two marks, with commas between the parts. -/
def enclose (opening closing : UInt8) (parts : List Bytes) : Bytes :=
  opening :: (parts.intersperse [comma]).flatten ++ [closing]

/-- A member of an object. -/
def memberBytes (name : String) (contents : Bytes) : Bytes := quoteText name ++ colon :: contents

/-! ## Reading lists and objects -/

/-- Reads the items of a list that has at least one, up to its end. The bound is the length of the
input, of which every item takes a part. -/
def readItems {α : Type} (item : Reader α) : Nat → Reader (List α)
  | 0, _ => .error .malformed
  | bound + 1, bytes => do
    let (value, rest) ← item bytes
    match dropMark? comma rest with
    | some rest =>
      let (values, rest) ← readItems item bound rest
      .ok (value :: values, rest)
    | none => .ok ([value], ← readMark closeList rest)

/-- Reads a list. -/
def readList {α : Type} (item : Reader α) : Reader (List α) := fun bytes => do
  let rest ← readMark openList bytes
  match dropMark? closeList rest with
  | some rest => .ok ([], rest)
  | none => readItems item rest.length rest

/-- Takes in a member of an object: the name decides at once whether the member is welcome, and how
its contents are read. -/
abbrev MemberReader (σ : Type) := σ → String → Except Fault (Reader σ)

/-- Reads the members of an object that has at least one, up to its end. -/
def readMembers {σ : Type} (member : MemberReader σ) : Nat → σ → Reader σ
  | 0, _, _ => .error .malformed
  | bound + 1, state, bytes => do
    let (name, rest) ← readText bytes
    let contents ← member state name
    let (state, rest) ← contents (← readMark colon rest)
    match dropMark? comma rest with
    | some rest => readMembers member bound state rest
    | none => .ok (state, ← readMark closeObject rest)

/-- Reads the rest of an object after its opening mark. -/
def readObject {σ : Type} (member : MemberReader σ) (start : σ) : Reader σ := fun bytes =>
  match dropMark? closeObject bytes with
  | some rest => .ok (start, rest)
  | none => readMembers member bytes.length start bytes

namespace Codec

variable {α β : Type}

/-! ## Plain values -/

/-- Values written as other values, of which some stand for nothing. -/
def partialMap (codec : Codec β) (toRaw : α → β) (ofRaw? : β → Option α) : Codec α where
  write value := codec.write (toRaw value)
  read bytes := do
    let (raw, rest) ← codec.read bytes
    match ofRaw? raw with
    | some value => .ok (value, rest)
    | none => .error .malformed

/-- Values written as other values. -/
def map (codec : Codec β) (toRaw : α → β) (ofRaw : β → α) : Codec α :=
  codec.partialMap toRaw fun raw => some (ofRaw raw)

/-- Truth values. -/
def bool : Codec Bool where
  write value := utf8 (if value then "true" else "false")
  read bytes :=
    match dropPrefix? (utf8 "true") (skipSpace bytes) with
    | some rest => .ok (true, rest)
    | none => do .ok (false, ← readWord "false" bytes)

/-- Integers in a range. -/
def integer (least most : Int) : Codec Int := ⟨Decimal.intBytes, readInteger least most⟩

/-- Signed numbers of 32 bits. -/
def int32 : Codec Int32 :=
  (integer (-2147483648) 2147483647).map Int32.toInt Int32.ofInt

/-- Signed numbers of 64 bits. -/
def int64 : Codec Int64 :=
  (integer (-9223372036854775808) 9223372036854775807).map Int64.toInt Int64.ofInt

/-- Words of 64 bits. -/
def word64 : Codec UInt64 :=
  (integer 0 18446744073709551615).map (fun word => (word.toNat : Int)) fun number =>
    UInt64.ofNat number.toNat

/-- Bytes as numbers. -/
def byte : Codec UInt8 :=
  (integer 0 255).map (fun byte => (byte.toNat : Int)) fun number => UInt8.ofNat number.toNat

/-- Doubles. -/
def double : Codec Double := ⟨doubleBytes, readDouble⟩

/-- Texts. -/
def text : Codec String := ⟨quoteText, readText⟩

/-! ## Sequences -/

/-- Lists. -/
def list (codec : Codec α) : Codec (List α) where
  write values := enclose openList closeList (values.map codec.write)
  read := readList codec.read

/-- Blobs: written as lists of numbers, read from those and from quoted texts. -/
def blob : Codec Bytes where
  write := byte.list.write
  read bytes :=
    match dropMark? quoteMark bytes with
    | some _ => readQuoted false bytes
    | none => readList byte.read bytes

/-- A value or `null`. -/
def option (codec : Codec α) : Codec (Option α) where
  write
    | none => utf8 "null"
    | some value => codec.write value
  read bytes :=
    match dropMark? 0x6e bytes with
    | some _ => do .ok (none, ← readWord "null" bytes)
    | none => do
      let (value, rest) ← codec.read bytes
      .ok (some value, rest)

/-- Entries of a map, in whatever order they come. -/
def entries (codec : Codec α) : Codec (List (String × α)) where
  write values := enclose openObject closeObject
    (values.map fun entry => memberBytes entry.1 (codec.write entry.2))
  read bytes := do
    let rest ← readMark openObject bytes
    let member : MemberReader (List (String × α)) := fun before name => .ok fun bytes => do
      let (value, rest) ← codec.read bytes
      .ok ((name, value) :: before, rest)
    let (reversed, rest) ← readObject member [] rest
    .ok (reversed.reverse, rest)

/-- Maps. Of several entries for one name the last counts. -/
def fieldMap (codec : Codec α) : Codec (FieldMap α) :=
  codec.entries.map FieldMap.entries FieldMap.ofList

end Codec

/-! ## Variants -/

/-- A variant of a type, as it is read. -/
inductive Variant (α : Type) where
  /-- A variant without contents. -/
  | bare (name : String) (value : α)
  /-- A variant with contents. -/
  | loaded (name : String) (contents : Reader α)

namespace Variant

variable {α : Type}

/-- The name of a variant. -/
def name : Variant α → String
  | bare name _ => name
  | loaded name _ => name

/-- Reads the name of one of the variants. -/
def readName (variants : List (Variant α)) : Reader (Variant α) := fun bytes => do
  let (name, rest) ← readText bytes
  match variants.find? fun variant => variant.name == name with
  | some variant => .ok (variant, rest)
  | none => .error .unknownVariant

/-- Reads a value of one of the variants. -/
def read (variants : List (Variant α)) : Reader α := fun bytes =>
  match dropMark? openObject bytes with
  | none => do
    let (variant, rest) ← readName variants bytes
    match variant with
    | bare _ value => .ok (value, rest)
    | loaded _ _ => .error .malformed
  | some rest => do
    let (variant, rest) ← readName variants rest
    let rest ← readMark colon rest
    let (value, rest) ← match variant with
      | bare _ value => do .ok (value, ← readWord "null" rest)
      | loaded _ contents => contents rest
    .ok (value, ← readMark closeObject rest)

/-- A variant with contents that a codec reads. -/
def ofCodec {β : Type} (name : String) (codec : Codec β) (make : β → α) : Variant α :=
  loaded name fun bytes => do
    let (contents, rest) ← codec.read bytes
    .ok (make contents, rest)

end Variant

/-- A variant with contents, as it is written. -/
def loadedBytes (name : String) (contents : Bytes) : Bytes :=
  enclose openObject closeObject [memberBytes name contents]

/-- Values of a finite list, written as their names. -/
def Codec.enumeration {α : Type} (all : List α) (name : α → String) : Codec α where
  write value := quoteText (name value)
  read := Variant.read (all.map fun value => .bare (name value) value)

/-! ## Records -/

/-- The members of a record, in order. -/
inductive Members : Type → Type 1 where
  /-- No members. -/
  | nil : Members Unit
  /-- A member and those after it, with the value it takes where it is missing. -/
  | cons {α β : Type} (name : String) (codec : Codec α) (absent : Option α)
      (others : Members β) : Members (α × β)

namespace Members

/-- The members of a record read so far. -/
def Slots : {τ : Type} → Members τ → Type
  | _, nil => Unit
  | _, cons (α := α) _ _ _ others => Option α × others.Slots

/-- No member has been read. -/
def vacant : {τ : Type} → (members : Members τ) → members.Slots
  | _, nil => ()
  | _, cons _ _ _ others => (none, others.vacant)

/-- How a member is taken in, if the record has it. It may be taken in once. -/
def slot? : {τ : Type} → (members : Members τ) → members.Slots → String →
    Option (Except Fault (Reader members.Slots))
  | _, nil, _, _ => none
  | _, cons (α := α) name codec _ others, slots, wanted =>
    let (first, rest) : Option α × others.Slots := slots
    if wanted = name then
      some <| if first.isSome then .error .duplicateField else .ok fun bytes => do
        let (value, after) ← codec.read bytes
        .ok ((some value, rest), after)
    else
      (others.slot? rest wanted).map fun reader => reader.map fun read bytes => do
        let (rest, after) ← read bytes
        .ok ((first, rest), after)

/-- The record from its members, where missing ones may have a value. -/
def fill : {τ : Type} → (members : Members τ) → members.Slots → Except Fault τ
  | _, nil, _ => .ok ()
  | _, cons (α := α) _ _ absent others, slots =>
    let (first, rest) : Option α × others.Slots := slots
    match first.or absent with
    | some value => do .ok (value, ← others.fill rest)
    | none => .error .missingField

/-- The members of a record, written. -/
def parts : {τ : Type} → Members τ → τ → List Bytes
  | _, nil, _ => []
  | _, cons name codec _ others, (value, rest) =>
    memberBytes name (codec.write value) :: others.parts rest

/-- The values that the members take where all of them are missing. -/
def absentees? : {τ : Type} → Members τ → Option τ
  | _, nil => some ()
  | _, cons _ _ absent others => do some (← absent, ← others.absentees?)

/-- Reads members off a list, of which some have been read before. A list that may stop early
leaves the others missing. -/
def readInOrder (mayStop : Bool) : {τ : Type} → Members τ → (isFirst : Bool) → Reader τ
  | _, nil, _, bytes => do .ok ((), ← readMark closeList bytes)
  | _, cons name codec absent others, isFirst, bytes =>
    match dropMark? closeList bytes, mayStop, (cons name codec absent others).absentees? with
    | some rest, true, some values => .ok (values, rest)
    | some _, _, _ => .error .malformed
    | none, _, _ => do
      let rest ← if isFirst then .ok bytes else readMark comma bytes
      let (value, rest) ← codec.read rest
      let (values, rest) ← others.readInOrder mayStop false rest
      .ok ((value, values), rest)

end Members

/-- How strict a record is about its members. -/
inductive Strictness where
  /-- Other members are skipped, and a list must have all members. -/
  | open
  /-- Other members are a fault, and a list may stop early where the members left have values for
  that case. -/
  | closed
  deriving DecidableEq

/-- Records with the given members. -/
def Codec.record {τ : Type} (members : Members τ) (strictness : Strictness) : Codec τ where
  write values := enclose openObject closeObject (members.parts values)
  read bytes :=
    match dropMark? openList bytes with
    | some rest => members.readInOrder (strictness = .closed) true rest
    | none => do
      let member : MemberReader members.Slots := fun slots name =>
        match members.slot? slots name with
        | some reader => reader
        | none =>
          match strictness with
          | .closed => .error .unknownField
          | .open => .ok fun bytes => do .ok (slots, ← skipValue bytes)
      let (slots, rest) ← readObject member members.vacant (← readMark openObject bytes)
      .ok (← members.fill slots, rest)

/-! ## Whole texts -/

/-- The value that a whole text stands for, blanks around it aside. -/
def Codec.parse {α : Type} (codec : Codec α) (bytes : Bytes) : Except Fault α := do
  let (value, rest) ← codec.read bytes
  if skipSpace rest = [] then .ok value else .error .malformed

end Standby.Json
