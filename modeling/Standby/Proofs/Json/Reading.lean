import Mathlib.Data.List.Forall2
import Mathlib.Data.List.TakeWhile
import Standby.Proofs.Json.Legible

/-!
# Reading values off JSON text

A reader takes a value from a byte string if it takes off just that string, wherever it stands
(`Takes`). Numbers end where something else begins, so they are taken only where an item may end;
whatever stands between marks is taken whatever follows it. A list is read from the texts of its
items (`takes_list`), an object from those of its members, each taken in by a state that has
room for it (`Accepts`), and a value of a variant from its name and its contents. So every codec
reads from what its parts are read from, however those are spelled.
-/

set_option autoImplicit false

namespace Standby.Json

/-! ## Marks at the front -/

/-- Whether a byte string starts with a byte that is no blank and not a given mark. -/
def Avoids (mark : UInt8) (bytes : Bytes) : Prop :=
  ∃ byte others, bytes = byte :: others ∧ isSpace byte = false ∧ byte ≠ mark

theorem skipSpace_cons {byte : UInt8} (noSpace : isSpace byte = false) (rest : Bytes) :
    skipSpace (byte :: rest) = byte :: rest := by
  rw [skipSpace, List.dropWhile_cons_of_neg (by rw [noSpace]; exact Bool.false_ne_true)]

/-- Blanks in front change nothing for what skips them. -/
theorem skipSpace_append {blanks : Bytes} (areBlank : ∀ byte ∈ blanks, isSpace byte)
    (rest : Bytes) : skipSpace (blanks ++ rest) = skipSpace rest := by
  rw [skipSpace, skipSpace, List.dropWhile_append_of_pos areBlank]

theorem skipSpace_eq_nil_iff {bytes : Bytes} :
    skipSpace bytes = [] ↔ ∀ byte ∈ bytes, isSpace byte := List.dropWhile_eq_nil_iff

theorem readMark_cons {mark : UInt8} (noSpace : isSpace mark = false) (rest : Bytes) :
    readMark mark (mark :: rest) = .ok rest := by
  rw [readMark, skipSpace_cons noSpace]
  exact if_pos rfl

theorem dropMark?_cons {mark : UInt8} (noSpace : isSpace mark = false) (rest : Bytes) :
    dropMark? mark (mark :: rest) = some rest := by
  rw [dropMark?, skipSpace_cons noSpace]
  exact if_pos rfl

theorem dropMark?_of_avoids {mark : UInt8} {bytes : Bytes} (avoids : Avoids mark bytes)
    (rest : Bytes) : dropMark? mark (bytes ++ rest) = none := by
  obtain ⟨byte, others, rfl, noSpace, other⟩ := avoids
  rw [List.cons_append, dropMark?, skipSpace_cons noSpace]
  exact if_neg other

theorem dropPrefix?_append (word rest : Bytes) : dropPrefix? word (word ++ rest) = some rest := by
  induction word with
  | nil => cases rest <;> rfl
  | cons byte word ih => simp only [List.cons_append, dropPrefix?, if_true, ih]

/-! ## Taking values -/

/-- Wherever these bytes stand before a rest of a kind, a reader takes off just them and makes this
value of them. -/
def Takes {α : Type} (reader : Reader α) (follows : Bytes → Prop) (bytes : Bytes) (value : α) :
    Prop :=
  ∀ rest, follows rest → reader (bytes ++ rest) = .ok (value, rest)

/-- Nothing is known of what follows. -/
abbrev Anything : Bytes → Prop := fun _ => True

variable {α β σ : Type} {follows : Bytes → Prop} {bytes : Bytes}

theorem Takes.before_end {reader : Reader α} {value : α}
    (takes : Takes reader Anything bytes value) : Takes reader Ends bytes value :=
  fun rest _ => takes rest trivial

/-- A value is taken where what it is made of is. -/
theorem Takes.partialMap {codec : Codec β} {raw : β} (takes : Takes codec.read follows bytes raw)
    (toRaw : α → β) {ofRaw? : β → Option α} {value : α} (found : ofRaw? raw = some value) :
    Takes (codec.partialMap toRaw ofRaw?).read follows bytes value := by
  intro rest fits
  simp only [Codec.partialMap, takes rest fits, bind, Except.bind, found]

theorem Takes.map {codec : Codec β} {raw : β} (takes : Takes codec.read follows bytes raw)
    (toRaw : α → β) (ofRaw : β → α) :
    Takes (codec.map toRaw ofRaw).read follows bytes (ofRaw raw) :=
  takes.partialMap toRaw rfl

theorem takes_text (text : String) : Takes Codec.text.read Anything (quoteText text) text :=
  fun rest _ => readText_quoteText text rest

/-- Nothing is read from `null`. -/
theorem takes_none (codec : Codec α) : Takes codec.option.read Anything (utf8 "null") none := by
  intro rest _
  have null : utf8 "null" = 0x6e :: utf8 "ull" := by decide
  have letter : dropMark? 0x6e (utf8 "null" ++ rest) = some (utf8 "ull" ++ rest) := by
    rw [null]
    exact dropMark?_cons (by decide) _
  have word : readWord "null" (utf8 "null" ++ rest) = .ok rest := by
    rw [readWord, show skipSpace (utf8 "null" ++ rest) = utf8 "null" ++ rest by
      rw [null]; exact skipSpace_cons (by decide) _, dropPrefix?_append]
  simp only [Codec.option, letter, word]
  rfl

theorem Takes.some {codec : Codec α} {value : α} (takes : Takes codec.read follows bytes value)
    (avoids : Avoids 0x6e bytes) : Takes codec.option.read follows bytes (some value) := by
  intro rest fits
  simp only [Codec.option, dropMark?_of_avoids avoids, takes rest fits]
  rfl

/-! ## Lists -/

theorem length_lt_length_furtherParts (closing : UInt8) (parts : List Bytes) (rest : Bytes) :
    parts.length < (furtherParts closing parts rest).length := by
  induction parts with
  | nil => exact Nat.succ_pos _
  | cons part parts ih =>
    rw [furtherParts_cons, List.length_cons, List.length_cons, List.length_append]
    omega

theorem dropMark?_furtherParts (closing : UInt8) (part : Bytes) (parts : List Bytes)
    (rest : Bytes) : dropMark? comma (furtherParts closing (part :: parts) rest) =
      some (part ++ furtherParts closing parts rest) := by
  rw [furtherParts_cons]
  exact dropMark?_cons (by decide) _

/-- Items are read one after the other up to the mark that closes the list. -/
theorem readItems_furtherParts {item : Reader α} {part : Bytes} {value : α}
    (takes : Takes item Ends part value) {parts : List Bytes} {values : List α}
    (others : List.Forall₂ (Takes item Ends) parts values) {bound : Nat}
    (enough : parts.length < bound) (rest : Bytes) :
    readItems item bound (part ++ furtherParts closeList parts rest) =
      .ok (value :: values, rest) := by
  obtain ⟨bound, rfl⟩ := Nat.exists_eq_succ_of_ne_zero (Nat.ne_of_gt (Nat.zero_lt_of_lt enough))
  induction others generalizing part value bound with
  | nil =>
    have first := takes _ (Closes.ends (.inl rfl) rest)
    simp only [readItems, furtherParts, List.flatMap_nil, List.nil_append, first]
    rfl
  | @cons next nextValue parts values nextTakes others ih =>
    have ends : Ends (furtherParts closeList (next :: parts) rest) :=
      ends_furtherParts (.inl rfl) (next :: parts)
    have first := takes _ ends
    obtain ⟨bound, rfl⟩ := Nat.exists_eq_succ_of_ne_zero
      (Nat.ne_of_gt (Nat.zero_lt_of_lt (Nat.lt_of_succ_lt_succ enough)))
    have further := ih nextTakes bound (Nat.lt_of_succ_lt_succ enough)
    rw [readItems]
    simp only [first, dropMark?_furtherParts, further, bind, Except.bind]

/-- **A list is read from the texts of its items.** -/
theorem takes_list {item : Reader α} {parts : List Bytes} {values : List α}
    (takes : List.Forall₂ (Takes item Ends) parts values)
    (avoid : ∀ part ∈ parts, Avoids closeList part) :
    Takes (readList item) Anything (enclose openList closeList parts) values := by
  intro rest _
  cases takes with
  | nil => rfl
  | @cons part value parts values first others =>
    have noEnd := dropMark?_of_avoids (avoid part List.mem_cons_self)
      (furtherParts closeList parts rest)
    have enough : parts.length < (part ++ furtherParts closeList parts rest).length := by
      rw [List.length_append]
      exact Nat.lt_add_left _ (length_lt_length_furtherParts _ _ _)
    have items := readItems_furtherParts first others enough rest
    rw [enclose_cons]
    simp only [readList, readMark_cons (by decide : isSpace openList = false), noEnd, items, bind,
      Except.bind]

/-! ## Objects -/

/-- Members taken in one after the other, from one state to another. -/
inductive Accepts (member : MemberReader σ) : σ → List (String × Bytes) → σ → Prop where
  | nil (state : σ) : Accepts member state [] state
  | cons {state next last : σ} {name : String} {contents : Bytes}
      {others : List (String × Bytes)} {reader : Reader σ}
      (welcome : member state name = .ok reader) (takes : Takes reader Ends contents next)
      (further : Accepts member next others last) :
      Accepts member state ((name, contents) :: others) last

/-- The texts of members. -/
abbrev memberTexts (bindings : List (String × Bytes)) : List Bytes :=
  bindings.map fun binding => memberBytes binding.1 binding.2

theorem readMembers_furtherParts {member : MemberReader σ} {state last : σ}
    {binding : String × Bytes} {bindings : List (String × Bytes)}
    (accepts : Accepts member state (binding :: bindings) last) {bound : Nat}
    (enough : bindings.length < bound) (rest : Bytes) :
    readMembers member bound state (memberBytes binding.1 binding.2 ++
      furtherParts closeObject (memberTexts bindings) rest) = .ok (last, rest) := by
  induction bindings generalizing binding state bound with
  | nil =>
    obtain ⟨bound, rfl⟩ := Nat.exists_eq_succ_of_ne_zero (Nat.ne_of_gt (Nat.zero_lt_of_lt enough))
    obtain - | ⟨welcome, takes, further⟩ := accepts
    cases further
    have contents := takes _ (Closes.ends (.inr rfl) rest)
    rw [Legible.memberBytes_append, readMembers, readText_quoteText]
    simp only [bind, Except.bind, welcome, readMark_cons (by decide : isSpace colon = false)]
    simp only [furtherParts, List.map_nil, List.flatMap_nil, List.nil_append, contents]
    rfl
  | cons next bindings ih =>
    obtain ⟨bound, rfl⟩ := Nat.exists_eq_succ_of_ne_zero (Nat.ne_of_gt (Nat.zero_lt_of_lt enough))
    obtain - | ⟨welcome, takes, further⟩ := accepts
    have ends : Ends (furtherParts closeObject (memberTexts (next :: bindings)) rest) :=
      ends_furtherParts (.inr rfl) _
    have contents := takes _ ends
    have members := ih further (Nat.lt_of_succ_lt_succ enough)
    rw [Legible.memberBytes_append, readMembers, readText_quoteText]
    simp only [bind, Except.bind, welcome, readMark_cons (by decide : isSpace colon = false),
      contents]
    have between :
        dropMark? comma (furtherParts closeObject (memberTexts (next :: bindings)) rest) = some _ :=
      dropMark?_furtherParts _ _ _ _
    simp only [between, members]

theorem Avoids.append {mark : UInt8} (avoids : Avoids mark bytes) (rest : Bytes) :
    Avoids mark (bytes ++ rest) := by
  obtain ⟨byte, others, rfl, noSpace, other⟩ := avoids
  exact ⟨byte, others ++ rest, rfl, noSpace, other⟩

theorem avoids_quoteText {mark : UInt8} (other : quoteMark ≠ mark) (text : String) :
    Avoids mark (quoteText text) := ⟨quoteMark, _, rfl, by decide, other⟩

/-- **An object is read from the texts of its members.** -/
theorem readObject_enclose {member : MemberReader σ} {state last : σ}
    {bindings : List (String × Bytes)} (accepts : Accepts member state bindings last)
    (rest : Bytes) : ∃ inner,
      enclose openObject closeObject (memberTexts bindings) ++ rest = openObject :: inner ∧
        readObject member state inner = .ok (last, rest) := by
  cases bindings with
  | nil =>
    cases accepts
    exact ⟨closeObject :: rest, rfl, rfl⟩
  | cons binding bindings =>
    refine ⟨_, enclose_cons _ _ _ _, ?_⟩
    have avoids : Avoids closeObject (memberBytes binding.1 binding.2) :=
      (avoids_quoteText (by decide) binding.1).append _
    simp only [readObject, dropMark?_of_avoids avoids]
    refine readMembers_furtherParts accepts ?_ rest
    have shorter := length_lt_length_furtherParts closeObject (memberTexts bindings) rest
    rw [List.length_map] at shorter
    rw [List.length_append]
    exact Nat.lt_add_left _ shorter

/-! ## Maps -/

/-- Takes in the entries of a map, the last one first. -/
def collect (codec : Codec α) : MemberReader (List (String × α)) := fun before name =>
  .ok fun bytes => do
    let (value, rest) ← codec.read bytes
    .ok ((name, value) :: before, rest)

theorem accepts_entries {codec : Codec α} {view : α → α} {listing : List (String × α)}
    (takes : ∀ entry ∈ listing, Takes codec.read Ends (codec.write entry.2) (view entry.2))
    (before : List (String × α)) : Accepts (collect codec) before
      (listing.map fun entry => (entry.1, codec.write entry.2))
      ((listing.map fun entry => (entry.1, view entry.2)).reverse ++ before) := by
  induction listing generalizing before with
  | nil => exact .nil before
  | cons entry listing ih =>
    have others := ih (fun other later => takes other (List.mem_cons_of_mem _ later))
      ((entry.1, view entry.2) :: before)
    rw [List.map_cons, List.map_cons, List.reverse_cons, List.append_assoc]
    refine .cons rfl (fun rest fits => ?_) others
    simp only [takes entry List.mem_cons_self rest fits, bind, Except.bind]

theorem takes_entries {codec : Codec α} {view : α → α} {listing : List (String × α)}
    (takes : ∀ entry ∈ listing, Takes codec.read Ends (codec.write entry.2) (view entry.2)) :
    Takes codec.entries.read Anything (codec.entries.write listing)
      (listing.map fun entry => (entry.1, view entry.2)) := by
  intro rest _
  obtain ⟨inner, text, read⟩ := readObject_enclose (accepts_entries takes []) rest
  rw [memberTexts, List.map_map] at text
  have written : codec.entries.write listing ++ rest = openObject :: inner := text
  have reads : codec.entries.read (openObject :: inner) =
    (readObject (collect codec) [] inner).bind fun found => .ok (found.1.reverse, found.2) := rfl
  rw [written, reads, read, List.append_nil]
  simp only [Except.bind, List.reverse_reverse]

/-- **A map is read from its entries, in any order.** Its values are what is read of each. -/
theorem takes_fieldMap {codec : Codec α} {view : α → α} {map : FieldMap α}
    {listing : List (String × α)} (lists : listing.Perm map.entries)
    (takes : ∀ entry ∈ map.entries, Takes codec.read Ends (codec.write entry.2) (view entry.2)) :
    Takes codec.fieldMap.read Anything (codec.entries.write listing) (map.mapValues view) := by
  have read := (takes_entries fun entry listed => takes entry (lists.mem_iff.1 listed)).map
    FieldMap.entries FieldMap.ofList
  have viewed : (listing.map fun entry => (entry.1, view entry.2)).Perm
      (map.mapValues view).entries := lists.map _
  rwa [FieldMap.ofList_of_perm viewed] at read

/-! ## Variants -/

/-- **A variant is read from its name and its contents.** -/
theorem takes_loaded {variants : List (Variant α)} {name : String} {contents : Bytes} {value : α}
    {reader : Reader α}
    (among : variants.find? (fun variant => variant.name == name) = some (.loaded name reader))
    (takes : Takes reader Ends contents value) :
    Takes (Variant.read variants) Anything (loadedBytes name contents) value := by
  intro rest _
  have text : loadedBytes name contents ++ rest =
      openObject :: (quoteText name ++ colon :: (contents ++ closeObject :: rest)) := by
    rw [loadedBytes, enclose_cons, Legible.memberBytes_append]
    rfl
  have read := takes _ (Closes.ends (.inr rfl) rest)
  rw [text]
  simp only [Variant.read, dropMark?_cons (by decide : isSpace openObject = false),
    Variant.readName, readText_quoteText, among, bind, Except.bind,
    readMark_cons (by decide : isSpace colon = false), read,
    readMark_cons (by decide : isSpace closeObject = false)]

/-- A variant without contents is read from its name. -/
theorem takes_bare {variants : List (Variant α)} {name : String} {value : α}
    (among : variants.find? (fun variant => variant.name == name) = some (.bare name value)) :
    Takes (Variant.read variants) Anything (quoteText name) value := by
  intro rest _
  have noObject : dropMark? openObject (quoteText name ++ rest) = none :=
    dropMark?_of_avoids (avoids_quoteText (by decide) name) rest
  simp only [Variant.read, noObject, Variant.readName, readText_quoteText, among, bind, Except.bind]

/-- Values of a finite list are read from their names. -/
theorem takes_enumeration {all : List α} {name : α → String} {value : α}
    (found : all.find? (fun other => name other == name value) = some value) :
    Takes (Codec.enumeration all name).read Anything (quoteText (name value)) value := by
  refine takes_bare ?_
  rw [List.find?_map]
  change (all.find? fun other => name other == name value).map _ = _
  rw [found]
  rfl

/-! ## Records -/

namespace Members

/-- The names of the members of a record. -/
def names : {τ : Type} → Members τ → List String
  | _, nil => []
  | _, cons name _ _ others => name :: others.names

/-- All members have been read. -/
def full : {τ : Type} → (members : Members τ) → τ → members.Slots
  | _, nil, _ => ()
  | _, cons _ _ _ others, values => (some values.1, others.full values.2)

theorem fill_full {τ : Type} (members : Members τ) (values : τ) :
    members.fill (members.full values) = .ok values := by
  induction members with
  | nil => rfl
  | cons name codec absent others ih => simp only [full, fill, Option.some_or, ih]; rfl

/-- Texts of all members of a record, in order, from which their values are read. -/
inductive Take : {τ : Type} → Members τ → List (String × Bytes) → τ → Prop where
  | nil : Take nil [] ()
  | cons {α β : Type} {name : String} {codec : Codec α} {absent : Option α} {others : Members β}
      {contents : Bytes} {value : α} {bindings : List (String × Bytes)} {values : β}
      (first : Takes codec.read Ends contents value) (further : others.Take bindings values) :
      Take (cons name codec absent others) ((name, contents) :: bindings) (value, values)

/-- Members are taken in by whatever takes in what the slots for them do. -/
theorem Take.accepts {τ : Type} {members : Members τ} {bindings : List (String × Bytes)}
    {values : τ} (take : members.Take bindings values) (distinct : members.names.Nodup)
    {member : MemberReader σ} (embed : members.Slots → σ)
    (lifts : ∀ slots, ∀ name ∈ members.names, ∀ reader,
      members.slot? slots name = some (.ok reader) →
        ∃ lifted, member (embed slots) name = .ok lifted ∧
          ∀ bytes next rest, reader bytes = .ok (next, rest) →
            lifted bytes = .ok (embed next, rest)) :
    Accepts member (embed members.vacant) bindings (embed (members.full values)) := by
  induction take with
  | nil => exact .nil _
  | @cons α β name codec absent others contents value bindings values first further ih =>
    obtain ⟨fresh, distinct⟩ := List.nodup_cons.1 distinct
    obtain ⟨lifted, welcome, reads⟩ :=
      lifts (none, others.vacant) name List.mem_cons_self _ (if_pos rfl)
    have later := ih distinct fun slots => embed (some value, slots)
    refine .cons welcome (fun rest ends => ?_) (later fun slots wanted among reader found => ?_)
    · refine reads _ _ _ ?_
      simp only [first rest ends, bind, Except.bind]
    · have other : wanted ≠ name := fun same => fresh (same ▸ among)
      have behind : (Members.cons name codec absent others).slot? (some value, slots) wanted =
          some (.ok fun bytes => (reader bytes).bind fun found =>
            .ok ((some value, found.1), found.2)) := by
        rw [slot?, if_neg other, found]
        rfl
      obtain ⟨lifted, welcome, reads⟩ :=
        lifts (some value, slots) wanted (List.mem_cons_of_mem _ among) _ behind
      refine ⟨lifted, welcome, fun bytes next rest read => reads _ _ _ ?_⟩
      simp only [read, Except.bind]

/-- Takes in a member of a record. -/
def taking {τ : Type} (members : Members τ) (strictness : Strictness) :
    MemberReader members.Slots := fun slots name =>
  match members.slot? slots name with
  | some reader => reader
  | none =>
    match strictness with
    | .closed => .error .unknownField
    | .open => .ok fun bytes => do .ok (slots, ← skipValue bytes)

/-- **A record is read from the texts of its members.** -/
theorem Take.takes {τ : Type} {members : Members τ} {bindings : List (String × Bytes)}
    {values : τ} (take : members.Take bindings values) (distinct : members.names.Nodup)
    (strictness : Strictness) :
    Takes (Codec.record members strictness).read Anything
      (enclose openObject closeObject (memberTexts bindings)) values := by
  intro rest _
  have accepts : Accepts (members.taking strictness) members.vacant bindings
      (members.full values) :=
    take.accepts distinct id fun slots name _ reader found =>
      ⟨reader, by simp only [taking, found, id], fun _ _ _ read => read⟩
  obtain ⟨inner, text, read⟩ := readObject_enclose accepts rest
  have reads : (Codec.record members strictness).read (openObject :: inner) =
    (readObject (members.taking strictness) members.vacant inner).bind fun found =>
      (members.fill found.1).bind fun values => .ok (values, found.2) := rfl
  rw [text, reads, read]
  simp only [Except.bind, fill_full]

end Members

end Standby.Json
