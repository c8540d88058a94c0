import Standby.Codec.Json.Codec
import Standby.Label
import Standby.Offload.Policy

/-!
# Settings as JSON text

How standby entries are written can be set by a text. Members may be left out, in which case they
take their defaults, but none may be added. Times are durations in words. The text written for
settings lists all members.
-/

set_option autoImplicit false

namespace Standby

/-- When standby entries are written. -/
inductive WriteMode where
  /-- Before an operation returns. -/
  | inline
  /-- By a background task. -/
  | background
  deriving DecidableEq

/-- What happens to a write over its time. -/
inductive Overtime where
  | cancel
  | warn
  deriving DecidableEq

/-- Settings of the pool for background writes. -/
structure PoolSettings where
  /-- The greatest number of writes at a time. -/
  slots : Option UInt64 := none
  /-- The time that a write may take. -/
  budget : Option Duration := none
  /-- What happens after that time. -/
  overtime : Overtime := .cancel
  deriving DecidableEq

/-- Settings of a fallback store. -/
structure Settings where
  mode : WriteMode := .background
  pool : PoolSettings := {}
  label : Option String := none
  deriving DecidableEq

/-- The limits that settings stand for. -/
def PoolSettings.limits (settings : PoolSettings) : PoolLimits where
  slots := settings.slots
  policy :=
    match settings.budget, settings.overtime with
    | none, _ => .none
    | some budget, .cancel => .cancel budget
    | some budget, .warn => .warn budget

/-! ## Names -/

/-- The name of a write mode. -/
def WriteMode.name : WriteMode → String
  | inline => "inline"
  | background => "background"

/-- The name of what happens to a write over its time. -/
def Overtime.name : Overtime → String
  | cancel => "cancel"
  | warn => "warn"

/-! ## JSON -/

/-- Durations, as texts. -/
def Duration.json : Json.Codec Duration := Json.Codec.text.partialMap text ofText?

/-- Write modes, as their names. -/
def WriteMode.json : Json.Codec WriteMode := .enumeration [inline, background] name

/-- What happens to a write over its time, as its name. -/
def Overtime.json : Json.Codec Overtime := .enumeration [cancel, warn] name

/-- Time policies: a name, and the time where there is one. -/
def TimePolicy.json : Json.Codec TimePolicy where
  write
    | none => Json.quoteText "none"
    | cancel budget => Json.loadedBytes "cancel" (Duration.json.write budget)
    | warn threshold => Json.loadedBytes "warn" (Duration.json.write threshold)
  read := Json.Variant.read
    [.bare "none" none, .ofCodec "cancel" Duration.json cancel,
      .ofCodec "warn" Duration.json warn]

/-- Settings of a pool. -/
def PoolSettings.json : Json.Codec PoolSettings :=
  let default : PoolSettings := {}
  let members : Json.Members (Option UInt64 × Option Duration × Overtime × Unit) :=
    .cons "max_concurrent_tasks" Json.Codec.word64.option (some default.slots) <|
    .cons "timeout" Duration.json.option (some default.budget) <|
    .cons "timeout_policy" Overtime.json (some default.overtime) .nil
  (Json.Codec.record members .closed).map
    (fun settings => (settings.slots, settings.budget, settings.overtime, ()))
    (fun (slots, budget, overtime, _) => ⟨slots, budget, overtime⟩)

/-- Settings of a fallback store. -/
def Settings.json : Json.Codec Settings :=
  let default : Settings := {}
  let members : Json.Members (WriteMode × PoolSettings × Option String × Unit) :=
    .cons "writes" WriteMode.json (some default.mode) <|
    .cons "offload" PoolSettings.json (some default.pool) <|
    .cons "label" Json.Codec.text.option (some default.label) .nil
  (Json.Codec.record members .closed).map
    (fun settings => (settings.mode, settings.pool, settings.label, ()))
    (fun (mode, pool, label, _) => ⟨mode, pool, label⟩)

/-- The settings that a text stands for. -/
def Settings.parse (text : String) : Except Fault Settings := Settings.json.parse (utf8 text)

/-- The text of settings. -/
def Settings.text (settings : Settings) : String :=
  (ofUtf8? (Settings.json.write settings)).getD ""

/-- The time policy that a text stands for. -/
def TimePolicy.parse (text : String) : Except Fault TimePolicy := TimePolicy.json.parse (utf8 text)

/-- The text of a time policy. -/
def TimePolicy.text (policy : TimePolicy) : String :=
  (ofUtf8? (TimePolicy.json.write policy)).getD ""

/-! ## What settings mean for a fallback store -/

/-- The label of a fallback store for which none is set. -/
def defaultFallbackLabel : Label := ⟨"fallback"⟩

/-- The label that settings give. -/
def Settings.labelOrDefault (settings : Settings) : Label :=
  (settings.label.map Label.mk).getD defaultFallbackLabel

/-- The limits of the pool for background writes, if settings ask for one. -/
def Settings.poolLimits? (settings : Settings) : Option PoolLimits :=
  match settings.mode with
  | .inline => none
  | .background => some settings.pool.limits

end Standby
