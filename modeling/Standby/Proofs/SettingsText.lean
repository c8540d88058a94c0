import Standby.Proofs.DurationText
import Standby.Proofs.Json.Records
import Standby.Proofs.Json.Texts
import Standby.Settings

/-!
# Settings read back from their texts

Settings and time policies are read from the texts that are written for them. Settings may also be
written with some of their members only, in any order and with blanks between the tokens: the
members that are there replace those of the default settings, in the object of the settings and in
that of the pool. A text goes wrong at the first name that is none of a member or has come before
(`Settings.Spoiled`), whatever stands behind it. All of this is one theorem,
`settings_read_as_written`.
-/

set_option autoImplicit false

namespace Standby

open Json

/-! ## Contents of members -/

namespace Json

/-- A number or none. -/
theorem reads_limit (limit : Option UInt64) :
    Reads Codec.word64.option.read [Codec.word64.option.write limit] limit := by
  have integers : Skips (Codec.integer 0 18446744073709551615).read := skips_integer _ _
  have skips : Skips Codec.word64.option.read := (integers.map _ _).option
  cases limit with
  | none => exact (takes_none _).reads_anywhere skips
  | some limit =>
    have avoids : Avoids 0x6e (Decimal.intBytes limit.toNat) := avoids_intBytes rfl (by decide) _
    exact ((takes_word64 limit).some avoids).reads skips

theorem isUtf8_limit (limit : Option UInt64) : IsUtf8 (Codec.word64.option.write limit) := by
  cases limit with
  | none => exact isUtf8_utf8 "null"
  | some limit => exact isUtf8_bytes limit.toNat

/-- A text or none. -/
theorem reads_label (label : Option String) :
    Reads Codec.text.option.read [Codec.text.option.write label] label :=
  (takes_token label).reads_anywhere (Skips.option skips_text)

theorem isUtf8_label (label : Option String) : IsUtf8 (Codec.text.option.write label) := by
  cases label with
  | none => exact isUtf8_utf8 "null"
  | some text => exact isUtf8_quoteText text

end Json

namespace Duration

/-- A text that stands for a duration. -/
structure Wording where
  text : String
  duration : Duration
  stands : ofText? text = some duration

/-- The text that is written for a duration. -/
def wording (duration : Duration) : Wording := ⟨duration.text, duration, ofText?_text duration⟩

theorem takes_wording (wording : Wording) :
    Takes Duration.json.read Anything (quoteText wording.text) wording.duration :=
  (takes_text wording.text).partialMap text wording.stands

theorem reads_wording (wording : Option Wording) : Reads Duration.json.option.read
    [Codec.text.option.write (wording.map Wording.text)] (wording.map Wording.duration) := by
  have skips : Skips Duration.json.option.read := (Skips.partialMap skips_text _ _).option
  cases wording with
  | none => exact (takes_none _).reads_anywhere skips
  | some wording =>
    have avoids : Avoids 0x6e (quoteText wording.text) := avoids_quoteText (by decide) _
    exact ((takes_wording wording).some avoids).reads_anywhere skips

end Duration

theorem WriteMode.reads (mode : WriteMode) : Reads WriteMode.json.read [quoteText mode.name] mode :=
  (takes_enumeration (by cases mode <;> decide)).reads_anywhere (skips_variant _)

theorem Overtime.reads (overtime : Overtime) :
    Reads Overtime.json.read [quoteText overtime.name] overtime :=
  (takes_enumeration (by cases overtime <;> decide)).reads_anywhere (skips_variant _)

/-! ## The pool -/

namespace PoolSettings

/-- The members of the settings of a pool. -/
def members : Members (Option UInt64 × Option Duration × Overtime × Unit) :=
  .cons "max_concurrent_tasks" Codec.word64.option (some none) <|
  .cons "timeout" Duration.json.option (some none) <|
  .cons "timeout_policy" Overtime.json (some .cancel) .nil

/-- A member of the settings of a pool as it may be written. -/
inductive Member where
  | slots (limit : Option UInt64)
  | budget (budget : Option Duration.Wording)
  | overtime (action : Overtime)

namespace Member

/-- The name of the member. -/
def name : Member → String
  | slots _ => "max_concurrent_tasks"
  | budget _ => "timeout"
  | overtime _ => "timeout_policy"

/-- The tokens of its contents. -/
def tokens : Member → List Bytes
  | slots limit => [Codec.word64.option.write limit]
  | budget wording => [Codec.text.option.write (wording.map Duration.Wording.text)]
  | overtime action => [quoteText action.name]

/-- The name and the tokens of the contents. -/
def binding (member : Member) : String × List Bytes := (member.name, member.tokens)

/-- Settings with the member in place of theirs. -/
def replace (settings : PoolSettings) : Member → PoolSettings
  | slots limit => { settings with slots := limit }
  | budget wording => { settings with budget := wording.map Duration.Wording.duration }
  | overtime action => { settings with overtime := action }

/-- The member as an entry of the record. -/
def entry : Member → members.Entry
  | slots limit => ⟨_, _, .first, limit, _, reads_limit limit⟩
  | budget wording => ⟨_, _, .later .first, _, _, Duration.reads_wording wording⟩
  | overtime action => ⟨_, _, .later (.later .first), action, _, action.reads⟩

end Member

/-- How settings of a pool are written member by member. -/
def form : members.Form PoolSettings Member where
  toRaw settings := (settings.slots, settings.budget, settings.overtime, ())
  ofRaw := fun (slots, budget, overtime, _) => ⟨slots, budget, overtime⟩
  defaults := (none, none, .cancel, ())
  filled := rfl
  distinct := by decide
  binding := Member.binding
  replace := Member.replace
  entry := Member.entry
  entry_binding member := by cases member <;> rfl
  entry_replace _ member := by cases member <;> rfl

/-- That is what their codec does. -/
theorem codec_form : form.codec = PoolSettings.json := rfl

/-- The tokens of settings that are written with some members. -/
def tokens (members : List Member) : List Bytes := objectTokens (members.map Member.binding)

theorem reads {members : List Member} (once : (members.map Member.name).Nodup) :
    Reads PoolSettings.json.read (tokens members) (members.foldl Member.replace {}) := by
  rw [← codec_form]
  exact form.reads once

/-- All members of settings. -/
def listing (settings : PoolSettings) : List Member :=
  [.slots settings.slots, .budget (settings.budget.map Duration.wording),
    .overtime settings.overtime]

theorem once_listing (settings : PoolSettings) : (settings.listing.map Member.name).Nodup :=
  form.distinct

theorem replace_listing (settings : PoolSettings) :
    settings.listing.foldl Member.replace {} = settings := by
  obtain ⟨slots, budget, overtime⟩ := settings
  cases budget <;> rfl

theorem flatten_listing (settings : PoolSettings) :
    (tokens settings.listing).flatten = PoolSettings.json.write settings := by
  have budget : Codec.text.option.write ((settings.budget.map Duration.wording).map
      Duration.Wording.text) = Duration.json.option.write settings.budget := by
    cases settings.budget <;> rfl
  rw [tokens, flatten_objectTokens]
  simp only [listing, List.map_cons, List.map_nil, Member.binding, Member.name, Member.tokens,
    List.flatten_singleton, budget]
  rfl

theorem isUtf8_tokens (members : List Member) : IsUtf8 (tokens members).flatten := by
  refine isUtf8_objectTokens fun binding among => ?_
  obtain ⟨member, -, rfl⟩ := List.mem_map.1 among
  rw [Member.binding]
  cases member with
  | slots limit => exact (isUtf8_limit limit).single
  | budget wording => exact (isUtf8_label (wording.map Duration.Wording.text)).single
  | overtime action => exact (isUtf8_quoteText action.name).single

end PoolSettings

/-! ## Settings -/

namespace Settings

/-- The members of settings. -/
def members : Members (WriteMode × PoolSettings × Option String × Unit) :=
  .cons "writes" WriteMode.json (some .background) <|
  .cons "offload" PoolSettings.json (some {}) <|
  .cons "label" Codec.text.option (some none) .nil

/-- A member of settings as it may be written. -/
inductive Member where
  | mode (chosen : WriteMode)
  /-- Some members of the settings of the pool, each of them once. -/
  | pool (members : List PoolSettings.Member) (once : (members.map PoolSettings.Member.name).Nodup)
  | label (text : Option String)

namespace Member

/-- The name of the member. -/
def name : Member → String
  | mode _ => "writes"
  | pool _ _ => "offload"
  | label _ => "label"

/-- The tokens of its contents. -/
def tokens : Member → List Bytes
  | mode chosen => [quoteText chosen.name]
  | pool members _ => PoolSettings.tokens members
  | label text => [Codec.text.option.write text]

/-- The name and the tokens of the contents. -/
def binding (member : Member) : String × List Bytes := (member.name, member.tokens)

/-- Settings with the member in place of theirs. -/
def replace (settings : Settings) : Member → Settings
  | mode chosen => { settings with mode := chosen }
  | pool members _ => { settings with pool := members.foldl PoolSettings.Member.replace {} }
  | label text => { settings with label := text }

/-- The member as an entry of the record. -/
def entry : Member → members.Entry
  | mode chosen => ⟨_, _, .first, chosen, _, chosen.reads⟩
  | pool _ once => ⟨_, _, .later .first, _, _, PoolSettings.reads once⟩
  | label text => ⟨_, _, .later (.later .first), text, _, reads_label text⟩

end Member

/-- How settings are written member by member. -/
def form : members.Form Settings Member where
  toRaw settings := (settings.mode, settings.pool, settings.label, ())
  ofRaw := fun (mode, pool, label, _) => ⟨mode, pool, label⟩
  defaults := (.background, {}, none, ())
  filled := rfl
  distinct := by decide
  binding := Member.binding
  replace := Member.replace
  entry := Member.entry
  entry_binding member := by cases member <;> rfl
  entry_replace _ member := by cases member <;> rfl

theorem codec_form : form.codec = Settings.json := rfl

/-- The tokens of settings that are written with some members. -/
def tokens (members : List Member) : List Bytes := objectTokens (members.map Member.binding)

theorem reads {members : List Member} (once : (members.map Member.name).Nodup) :
    Reads Settings.json.read (tokens members) (members.foldl Member.replace {}) := by
  rw [← codec_form]
  exact form.reads once

/-- All members of settings. -/
def listing (settings : Settings) : List Member :=
  [.mode settings.mode, .pool settings.pool.listing settings.pool.once_listing,
    .label settings.label]

theorem once_listing (settings : Settings) : (settings.listing.map Member.name).Nodup :=
  form.distinct

theorem replace_listing (settings : Settings) :
    settings.listing.foldl Member.replace {} = settings := by
  have pool := PoolSettings.replace_listing settings.pool
  obtain ⟨mode, settings, label⟩ := settings
  simp only [listing, List.foldl_cons, List.foldl_nil, Member.replace, pool]

theorem flatten_listing (settings : Settings) :
    (tokens settings.listing).flatten = Settings.json.write settings := by
  rw [tokens, flatten_objectTokens]
  simp only [listing, List.map_cons, List.map_nil, Member.binding, Member.name, Member.tokens,
    List.flatten_singleton, PoolSettings.flatten_listing]
  rfl

theorem isUtf8_tokens (members : List Member) : IsUtf8 (tokens members).flatten := by
  refine isUtf8_objectTokens fun binding among => ?_
  obtain ⟨member, -, rfl⟩ := List.mem_map.1 among
  rw [Member.binding]
  cases member with
  | mode chosen => exact (isUtf8_quoteText chosen.name).single
  | pool members once => exact PoolSettings.isUtf8_tokens members
  | label text => exact (isUtf8_label text).single

theorem parse_text (settings : Settings) : Settings.parse settings.text = .ok settings := by
  have isText : utf8 settings.text = (tokens settings.listing).flatten := by
    rw [Settings.text, ← flatten_listing, (isUtf8_tokens settings.listing).utf8_getD]
  have read := (reads settings.once_listing).parse (spaced_flatten (tokens settings.listing))
  rw [Settings.parse, isText, read, replace_listing]

/-- How a text may begin to go wrong, and the fault that it is: settings that are right so far are
followed by a name that is none of a member or has come before, at once or in the settings of the
pool. -/
inductive Spoiled : List Bytes → Fault → Prop where
  | here {front : List Member} (once : (front.map Member.name).Nodup) {name : String}
      {fault : Fault} (unwelcome : Members.Unwelcome members.names (front.map Member.name) name
        fault) : Spoiled (openingTokens (front.map Member.binding) ++ [quoteText name]) fault
  | inPool {front : List Member} (once : (front.map Member.name).Nodup)
      (new : "offload" ∉ front.map Member.name) {inner : List PoolSettings.Member}
      (innerOnce : (inner.map PoolSettings.Member.name).Nodup) {name : String} {fault : Fault}
      (unwelcome : Members.Unwelcome PoolSettings.members.names
        (inner.map PoolSettings.Member.name) name fault) :
      Spoiled (openingTokens (front.map Member.binding) ++ memberTokens ("offload",
        openingTokens (inner.map PoolSettings.Member.binding) ++ [quoteText name])) fault

theorem Spoiled.refuses {start : List Bytes} {fault : Fault} (spoiled : Spoiled start fault) :
    Refuses Settings.json.read start fault := by
  rw [← codec_form]
  cases spoiled with
  | here once unwelcome => exact form.refuses_name once unwelcome
  | inPool once new innerOnce unwelcome =>
    have inside := PoolSettings.form.refuses_name innerOnce unwelcome
    rw [PoolSettings.codec_form] at inside
    exact form.refuses_inside once (.later .first) new inside

end Settings

/-! ## Time policies -/

namespace TimePolicy

theorem takes (policy : TimePolicy) :
    Takes TimePolicy.json.read Anything (TimePolicy.json.write policy) policy := by
  cases policy with
  | none => exact takes_bare rfl
  | cancel budget => exact takes_ofCodec _ rfl (Duration.takes_wording budget.wording).before_end
  | warn threshold =>
    exact takes_ofCodec _ rfl (Duration.takes_wording threshold.wording).before_end

theorem isUtf8_write (policy : TimePolicy) : IsUtf8 (TimePolicy.json.write policy) := by
  have loaded (name : String) (duration : Duration) :
      IsUtf8 (loadedBytes name (Duration.json.write duration)) := by
    have tokens : loadedBytes name (Duration.json.write duration) =
        (objectTokens [(name, [quoteText duration.text])]).flatten := by
      rw [flatten_objectTokens, List.map_singleton, List.flatten_singleton]
      rfl
    rw [tokens]
    refine isUtf8_objectTokens fun binding among => ?_
    obtain rfl := List.mem_singleton.1 among
    exact (isUtf8_quoteText duration.text).single
  cases policy with
  | none => exact isUtf8_quoteText "none"
  | cancel budget => exact loaded "cancel" budget
  | warn threshold => exact loaded "warn" threshold

theorem parse_text (policy : TimePolicy) : TimePolicy.parse policy.text = .ok policy := by
  have reads := policy.takes.reads_anywhere (skips_variant _)
  have read := reads.parse (spaced_flatten [TimePolicy.json.write policy])
  rw [List.flatten_singleton] at read
  rw [TimePolicy.parse, TimePolicy.text, policy.isUtf8_write.utf8_getD, read]

end TimePolicy

/-! ## All texts -/

/-- **Settings are what their texts say.** Settings and time policies are read from their own
texts. Some members of settings, in any order and with any blanks, are read as the default settings
with just these replaced, and there is such a text. A name that is unknown or repeated is a fault,
in whatever text it stands. -/
theorem settings_read_as_written :
    (∀ settings : Settings, Settings.parse settings.text = .ok settings) ∧
    (∀ policy : TimePolicy, TimePolicy.parse policy.text = .ok policy) ∧
    (∀ members : List Settings.Member, (members.map Settings.Member.name).Nodup →
      (∃ text, Spaced (Settings.tokens members) (utf8 text)) ∧
        ∀ text, Spaced (Settings.tokens members) (utf8 text) →
          Settings.parse text = .ok (members.foldl Settings.Member.replace {})) ∧
    ∀ start fault, Settings.Spoiled start fault → ∀ others text,
      Spaced (start ++ others) (utf8 text) → Settings.parse text = .error fault := by
  refine ⟨Settings.parse_text, TimePolicy.parse_text, fun members once => ⟨?_, fun text spaced =>
    (Settings.reads once).parse spaced⟩, fun start fault spoiled others text spaced =>
      spoiled.refuses.parse spaced⟩
  obtain ⟨text, isText⟩ := Settings.isUtf8_tokens members
  exact ⟨text, isText ▸ spaced_flatten _⟩

/-- A time for the pool behind a blank, a label that comes twice and an unknown name in the pool. -/
theorem settings_read_as_written_in_part :
    Settings.parse "\n\x7b\"offload\":\x7b\"timeout\":\"90min\"\x7d\x7d" =
        .ok { pool := { budget := some ⟨5400000000000, by decide⟩ } } ∧
      Settings.parse "\x7b\"label\":null,\"label\":1\x7d" = .error .duplicateField ∧
      Settings.parse "\x7b\"offload\":\x7b\"mode\":1\x7d\x7d" = .error .unknownField := by
  obtain ⟨-, -, reads, refuses⟩ := settings_read_as_written
  refine ⟨?_, ?_, ?_⟩
  · let wording : Duration.Wording := ⟨"90min", ⟨5400000000000, by decide⟩, by decide +kernel⟩
    let members : List Settings.Member := [.pool [.budget (some wording)] (by decide)]
    have spaced : Spaced (Settings.tokens members) ([0x0a] ++ (Settings.tokens members).flatten) :=
      .cons (List.forall_mem_singleton.2 rfl) (spaced_flatten _)
    exact (reads members (by decide)).2 _ spaced
  · have spoiled : Settings.Spoiled (openingTokens [("label", [utf8 "null"])] ++
        [quoteText "label"]) .duplicateField :=
      @Settings.Spoiled.here [.label none] (by decide) _ _ (.repeated (by decide))
    exact refuses _ _ spoiled [utf8 ":1\x7d"] _ (spaced_flatten _)
  · have spoiled : Settings.Spoiled (openingTokens [] ++ memberTokens ("offload",
        openingTokens [] ++ [quoteText "mode"])) .unknownField :=
      @Settings.Spoiled.inPool [] .nil nofun [] .nil _ _ (.unknown (by decide))
    exact refuses _ _ spoiled [utf8 ":1\x7d\x7d"] _ (spaced_flatten _)

end Standby
