import Standby.Decimal.Digits

/-!
# Errors

Encoding fails with a text of the format. Decoding fails at a fault of the input, at bytes left
over, because the format produced nothing, or with a text of the format. A store fails in one of
six ways, and the write of a standby entry because its key or its contents cannot be encoded or
because the store refuses it.
-/

set_option autoImplicit false

namespace Standby

/-- What is wrong with an input that does not decode, as told by its first fault. -/
inductive Fault where
  /-- The input does not have the form or the range it should have. -/
  | malformed
  /-- A variant is named that the type does not have. -/
  | unknownVariant
  /-- A member is named that the type does not have. -/
  | unknownField
  /-- A member is missing. -/
  | missingField
  /-- A member occurs twice. -/
  | duplicateField
  deriving DecidableEq

namespace Fault

/-- The fault in words. -/
def message : Fault → String
  | malformed => "malformed input"
  | unknownVariant => "unknown variant"
  | unknownField => "unknown field"
  | missingField => "missing field"
  | duplicateField => "duplicate field"

end Fault

/-- Why bytes do not decode to a value. -/
inductive DecodeError where
  /-- The bytes have a fault. -/
  | fault (fault : Fault)
  /-- Bytes are left after a value. -/
  | trailing (count : Nat)
  /-- The format succeeded without a value. -/
  | noValue
  /-- The format refused in its own words. -/
  | refused (text : String)
  deriving DecidableEq

/-- The cause in words. -/
def DecodeError.message : DecodeError → String
  | fault cause => cause.message
  | trailing count => Decimal.text count ++ " trailing bytes after value"
  | noValue => "format produced no value"
  | refused text => text

/-- A failure of a format. -/
inductive FormatError where
  | encoding (cause : String)
  | decoding (cause : DecodeError)
  deriving DecidableEq

/-- The failure in words. -/
def FormatError.message : FormatError → String
  | encoding cause => "encoding failed: " ++ cause
  | decoding cause => "decoding failed: " ++ cause.message

/-- A failure of a store. -/
inductive StoreError where
  /-- There is no such row. -/
  | notFound (what : String)
  /-- There is such a row already. -/
  | alreadyExists (what : String)
  /-- The store does not have the operation. -/
  | unsupported (operation : String)
  /-- The arguments make no sense to the store. -/
  | invalidArgument (text : String)
  /-- The store cannot be reached. -/
  | connection (text : String)
  /-- The store failed within. -/
  | internal (text : String)
  /-- A format failed within the store. -/
  | format (error : FormatError)
  deriving DecidableEq

namespace StoreError

/-- The failure in words. -/
def message : StoreError → String
  | notFound what => "not found: " ++ what
  | alreadyExists what => "already exists: " ++ what
  | unsupported operation => "operation `" ++ operation ++ "` is not supported by this connector"
  | invalidArgument text => "invalid argument: " ++ text
  | connection text => text
  | internal text => text
  | format error => error.message

/-- Whether a row was missing. -/
def isNotFound : StoreError → Bool
  | notFound _ => true
  | _ => false

end StoreError

/-- Why a standby entry was not written. -/
inductive WriteError where
  | key (cause : FormatError)
  | contents (cause : FormatError)
  | store (cause : StoreError)
  deriving DecidableEq

namespace WriteError

/-- The failed step in words. -/
def message : WriteError → String
  | key _ => "failed to derive cache key"
  | contents _ => "failed to encode cache value"
  | store _ => "fallback store write failed"

/-- The cause in words. -/
def cause : WriteError → String
  | key cause => cause.message
  | contents cause => cause.message
  | store cause => cause.message

/-- The failed step and its cause. -/
def trail (error : WriteError) : List String := [error.message, error.cause]

end WriteError

end Standby
