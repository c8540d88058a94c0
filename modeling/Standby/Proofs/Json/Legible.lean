import Standby.Codec.Storable
import Standby.Proofs.Json.Numbers
import Standby.Proofs.Json.Quoted
import Standby.Proofs.Maps

/-!
# What JSON text shows of a value

Within a list or an object a mark follows each item, so the texts of two items can be told apart
there even if the one begins with the other (`Delimited`). A way to write is legible if its texts
can be told apart in this way and say of a value just what a view of it does (`Legible`). Of most
values they show everything, of a double everything that is finite (`legible_double`), and lists,
maps and records show what their parts do.
-/

set_option autoImplicit false

namespace Standby

namespace Json

/-! ## Texts within a text -/

/-- Byte strings that differ cannot be taken for each other where an item may end behind them. -/
def Delimited (first second : Bytes) : Prop :=
  ∀ rest after, Ends rest → Ends after → first ++ rest = second ++ after → first = second

variable {rest after : Bytes}

theorem not_ends_cons {byte : UInt8} (plain : byte ∉ [comma, closeList, closeObject])
    (rest : Bytes) : ¬Ends (byte :: rest) := by
  intro ends
  simpa using plain (by simpa using ends byte rfl)

theorem not_ends_append {front : Bytes} (opens : ¬Ends front) (back : Bytes) :
    ¬Ends (front ++ back) := by
  intro ends
  refine opens fun byte first => ends byte ?_
  rw [List.head?_append, first]
  rfl

theorem ends_comma (rest : Bytes) : Ends (comma :: rest) := by
  rintro _ ⟨⟩
  exact .inl rfl

/-- A mark that closes a list or an object. -/
def Closes (mark : UInt8) : Prop := mark = closeList ∨ mark = closeObject

theorem Closes.ends {closing : UInt8} (closes : Closes closing) (rest : Bytes) :
    Ends (closing :: rest) := by
  rintro _ ⟨⟩
  exact .inr closes

/-- The parts behind a first one, with a comma before each, up to the closing mark. -/
def furtherParts (closing : UInt8) (parts : List Bytes) (rest : Bytes) : Bytes :=
  parts.flatMap (fun part => comma :: part) ++ closing :: rest

theorem ends_furtherParts {closing : UInt8} (closes : Closes closing) (parts : List Bytes) :
    Ends (furtherParts closing parts rest) := by
  cases parts with
  | nil => exact closes.ends rest
  | cons part parts => exact ends_comma _

theorem furtherParts_cons (closing : UInt8) (part : Bytes) (parts : List Bytes) :
    furtherParts closing (part :: parts) rest =
      comma :: (part ++ furtherParts closing parts rest) := by
  simp [furtherParts]

theorem enclose_nil (opening closing : UInt8) :
    enclose opening closing [] ++ rest = opening :: closing :: rest := rfl

theorem enclose_cons (opening closing : UInt8) (part : Bytes) (parts : List Bytes) :
    enclose opening closing (part :: parts) ++ rest =
      opening :: (part ++ furtherParts closing parts rest) := by
  have spaced : ((part :: parts).intersperse [comma]).flatten =
      part ++ parts.flatMap fun part => comma :: part := by
    induction parts generalizing part with
    | nil => rfl
    | cons next parts ih =>
      rw [List.intersperse_cons_cons, List.flatten_cons, List.flatten_cons, ih,
        List.flatMap_cons]
      rfl
  simp only [enclose, spaced, furtherParts, List.cons_append, List.append_assoc, List.nil_append]

theorem furtherParts_inj {closing : UInt8} (closes : Closes closing) {parts others : List Bytes}
    (delimited : ∀ pair ∈ parts.zip others, Delimited pair.1 pair.2)
    (same : furtherParts closing parts rest = furtherParts closing others after) :
    parts = others ∧ rest = after := by
  have noComma : closing ≠ comma := by rcases closes with rfl | rfl <;> decide
  induction parts generalizing others with
  | nil => cases others with
    | nil => exact ⟨rfl, List.tail_eq_of_cons_eq same⟩
    | cons other others =>
      rw [furtherParts_cons] at same
      exact absurd (List.head_eq_of_cons_eq same) noComma
  | cons part parts ih => cases others with
    | nil =>
      rw [furtherParts_cons] at same
      exact absurd (List.head_eq_of_cons_eq same).symm noComma
    | cons other others =>
      rw [furtherParts_cons, furtherParts_cons] at same
      have tail := List.tail_eq_of_cons_eq same
      obtain rfl : part = other := delimited (part, other) List.mem_cons_self _ _
        (ends_furtherParts closes parts) (ends_furtherParts closes others) tail
      obtain ⟨rfl, remaining⟩ := ih
        (fun pair member => delimited pair (List.mem_cons_of_mem _ member))
        (List.append_cancel_left tail)
      exact ⟨rfl, remaining⟩

/-! ## Parts of a text -/

/-- A way to split values into parts, whose texts can be told apart one by one and together show
what a view does. -/
structure PartsLegible {α β : Type} (parts : α → List Bytes) (view : α → β) : Prop where
  /-- No part is taken for the end of an item. -/
  opens : ∀ value, ∀ part ∈ parts value, ¬Ends part
  delimited : ∀ first second, ∀ pair ∈ (parts first).zip (parts second), Delimited pair.1 pair.2
  shows : ∀ first second, parts first = parts second ↔ view first = view second

/-- A way to write values, whose texts can be told apart and show what a view does. -/
structure Legible {α β : Type} (write : α → Bytes) (view : α → β) : Prop where
  /-- No text is taken for the end of an item. -/
  opens : ∀ value, ¬Ends (write value)
  delimited : ∀ first second, Delimited (write first) (write second)
  shows : ∀ first second, write first = write second ↔ view first = view second

variable {α β γ : Type}

/-- Parts between two marks are told apart, whatever follows the second. With a comma before the
first part too, all parts are alike. -/
theorem PartsLegible.enclose_inj {parts : α → List Bytes} {view : α → β}
    (legible : PartsLegible parts view) {opening closing : UInt8} (closes : Closes closing)
    {first second : α} (same : enclose opening closing (parts first) ++ rest =
      enclose opening closing (parts second) ++ after) :
    parts first = parts second ∧ rest = after := by
  have noEnd {part : Bytes} {tail others : Bytes} (opens : ¬Ends part) :
      part ++ tail ≠ closing :: others := by
    intro starts
    refine opens fun byte first => ?_
    cases part with
    | nil => cases first
    | cons head part =>
      cases first
      cases List.head_eq_of_cons_eq starts
      exact .inr closes
  have opens := legible.opens first
  have otherOpens := legible.opens second
  have delimited := legible.delimited first second
  generalize parts first = listed, parts second = otherListed at *
  cases listed with
  | nil => cases otherListed with
    | nil =>
      rw [enclose_nil, enclose_nil] at same
      exact ⟨rfl, List.tail_eq_of_cons_eq (List.tail_eq_of_cons_eq same)⟩
    | cons other others =>
      rw [enclose_nil, enclose_cons] at same
      exact absurd (List.tail_eq_of_cons_eq same).symm (noEnd (otherOpens other List.mem_cons_self))
  | cons part listed => cases otherListed with
    | nil =>
      rw [enclose_nil, enclose_cons] at same
      exact absurd (List.tail_eq_of_cons_eq same) (noEnd (opens part List.mem_cons_self))
    | cons other others =>
      rw [enclose_cons, enclose_cons] at same
      refine furtherParts_inj closes delimited ?_
      rw [furtherParts_cons, furtherParts_cons, List.tail_eq_of_cons_eq same]

/-- Parts between two marks are legible. -/
theorem PartsLegible.enclose {parts : α → List Bytes} {view : α → β}
    (legible : PartsLegible parts view) (opening closing : UInt8) (closes : Closes closing)
    (opens : opening ∉ [comma, closeList, closeObject]) :
    Legible (fun value => enclose opening closing (parts value)) view where
  opens _ := not_ends_cons opens _
  delimited _ _ _ _ _ _ same := by rw [(legible.enclose_inj closes same).1]
  shows first second := by
    rw [← legible.shows]
    constructor
    · intro same
      exact (legible.enclose_inj closes (congrArg (· ++ []) same)).1
    · intro same
      rw [same]

namespace Legible

variable {write : α → Bytes} {view : α → β}

/-- The view may be another one that tells the same values apart. -/
theorem of_view (legible : Legible write view) {other : α → γ}
    (same : ∀ first second, view first = view second ↔ other first = other second) :
    Legible write other :=
  { legible with shows := fun first second => (legible.shows first second).trans (same _ _) }

/-- Values may be written as others that are legible. -/
theorem comp (legible : Legible write view) (toRaw : γ → α) :
    Legible (fun value => write (toRaw value)) fun value => view (toRaw value) where
  opens value := legible.opens (toRaw value)
  delimited first second := legible.delimited (toRaw first) (toRaw second)
  shows first second := legible.shows (toRaw first) (toRaw second)

/-- A text that can be told from others is legible if it shows the view and what follows it. -/
theorem of_append_inj (opens : ∀ value, ¬Ends (write value))
    (told : ∀ first second rest after, Ends rest → Ends after →
      write first ++ rest = write second ++ after → view first = view second)
    (written : ∀ first second, view first = view second → write first = write second) :
    Legible write view where
  opens := opens
  delimited first second rest after ends otherEnds same :=
    written first second (told first second rest after ends otherEnds same)
  shows first second :=
    ⟨fun same => told first second [] [] ends_nil ends_nil (congrArg (· ++ []) same),
      written first second⟩

/-! ## Lists, maps and records -/

theorem partsLegible_map (legible : Legible write view) :
    PartsLegible (List.map write) (List.map view) where
  opens values part member := by
    obtain ⟨value, -, rfl⟩ := List.mem_map.1 member
    exact legible.opens value
  delimited values others pair member := by
    obtain ⟨isFirst, isSecond⟩ := List.of_mem_zip (a := pair.1) (b := pair.2) member
    obtain ⟨value, -, first⟩ := List.mem_map.1 isFirst
    obtain ⟨other, -, second⟩ := List.mem_map.1 isSecond
    rw [← first, ← second]
    exact legible.delimited value other
  shows values others := by
    induction values generalizing others with
    | nil => cases others <;> simp
    | cons value values ih => cases others with
      | nil => simp
      | cons other others => simp [legible.shows, ih]

theorem memberBytes_append (name : String) (contents : Bytes) :
    memberBytes name contents ++ rest = quoteText name ++ colon :: (contents ++ rest) := by
  rw [memberBytes, List.append_assoc, List.cons_append]

theorem not_ends_quoteText (text : String) (rest : Bytes) : ¬Ends (quoteText text ++ rest) := by
  rw [quoteText, quote, List.cons_append, List.cons_append]
  exact not_ends_cons (by decide) _

theorem memberBytes_append_inj {name otherName : String} {contents otherContents : Bytes}
    (same : memberBytes name contents ++ rest = memberBytes otherName otherContents ++ after) :
    name = otherName ∧ contents ++ rest = otherContents ++ after := by
  rw [memberBytes_append, memberBytes_append] at same
  obtain ⟨names, tail⟩ := quoteText_append_inj same
  exact ⟨names, List.tail_eq_of_cons_eq tail⟩

theorem memberBytes_inj {name otherName : String} {contents otherContents : Bytes} :
    memberBytes name contents = memberBytes otherName otherContents ↔
      name = otherName ∧ contents = otherContents := by
  constructor
  · intro same
    have members := memberBytes_append_inj (congrArg (· ++ []) same)
    rwa [List.append_nil, List.append_nil] at members
  · rintro ⟨rfl, rfl⟩
    rfl

/-- Members of the same name are delimited if their contents are. -/
theorem delimited_memberBytes {name otherName : String} {contents otherContents : Bytes}
    (delimited : name = otherName → Delimited contents otherContents) :
    Delimited (memberBytes name contents) (memberBytes otherName otherContents) := by
  intro rest after ends otherEnds same
  obtain ⟨rfl, tail⟩ := memberBytes_append_inj same
  rw [delimited rfl rest after ends otherEnds tail]

theorem list (codec : Codec α) (legible : Legible codec.write view) :
    Legible codec.list.write (List.map view) :=
  legible.partsLegible_map.enclose openList closeList (.inl rfl) (by decide)

theorem entry (legible : Legible write view) :
    Legible (fun entry : String × α => memberBytes entry.1 (write entry.2))
      fun entry => (entry.1, view entry.2) where
  opens entry := by
    rw [memberBytes]
    exact not_ends_quoteText _ _
  delimited first second :=
    delimited_memberBytes fun _ => legible.delimited first.2 second.2
  shows first second := by rw [memberBytes_inj, legible.shows, Prod.mk.injEq]

theorem fieldMap (codec : Codec α) (legible : Legible codec.write view) :
    Legible codec.fieldMap.write (FieldMap.mapValues view) := by
  have entries := legible.entry.partsLegible_map.enclose openObject closeObject (.inr rfl)
    (by decide)
  refine (entries.comp FieldMap.entries).of_view fun first second => ?_
  rw [FieldMap.mapValues, FieldMap.mapValues, FieldMap.mk.injEq]

theorem option (codec : Codec α) (legible : Legible codec.write view)
    (noNull : ∀ value, ∀ byte ∈ (codec.write value).head?, byte ≠ 0x6e) :
    Legible codec.option.write (Option.map view) := by
  have null : codec.option.write none = 0x6e :: utf8 "ull" := by
    change utf8 "null" = _
    decide
  have differs (value : α) (rest after : Bytes) :
      codec.option.write none ++ rest ≠ codec.write value ++ after := by
    intro same
    rw [null] at same
    cases text : codec.write value with
    | nil => exact legible.opens value (text ▸ ends_nil)
    | cons byte others =>
      rw [text] at same
      exact noNull value byte (by rw [text]; rfl) (List.head_eq_of_cons_eq same).symm
  refine of_append_inj (fun value => ?_) (fun first second rest after ends otherEnds same => ?_)
    fun first second same => ?_
  · cases value with
    | none => exact null ▸ not_ends_cons (by decide) _
    | some value => exact legible.opens value
  · match first, second with
    | none, none => rfl
    | none, some second => exact absurd same (differs second rest after)
    | some first, none => exact absurd same.symm (differs first after rest)
    | some first, some second =>
      have texts := legible.delimited first second rest after ends otherEnds same
      exact congrArg some ((legible.shows first second).1 texts)
  · match first, second with
    | none, none => rfl
    | some first, some second => exact (legible.shows first second).2 (Option.some.inj same)

end Legible

/-- A record without members shows nothing. -/
theorem partsLegible_nil : PartsLegible Members.nil.parts id where
  opens _ _ member := nomatch member
  delimited _ _ _ member := nomatch member
  shows _ _ := ⟨fun _ => rfl, fun _ => rfl⟩

/-- A record shows what its first member and its other members do. -/
theorem PartsLegible.cons {τ σ : Type} {others : Members τ} {codec : Codec α} {view : α → β}
    {otherView : τ → σ} (name : String) (absent : Option α) (first : Legible codec.write view)
    (rest : PartsLegible others.parts otherView) :
    PartsLegible (Members.cons name codec absent others).parts
      fun values => (view values.1, otherView values.2) where
  opens values part member := by
    rcases List.mem_cons.1 member with rfl | member
    · rw [memberBytes]
      exact Legible.not_ends_quoteText _ _
    · exact rest.opens values.2 part member
  delimited values otherValues pair member := by
    rcases List.mem_cons.1 member with rfl | member
    · exact Legible.delimited_memberBytes fun _ => first.delimited _ _
    · exact rest.delimited values.2 otherValues.2 pair member
  shows values otherValues := by
    change memberBytes name _ :: others.parts values.2 =
      memberBytes name _ :: others.parts otherValues.2 ↔ _
    rw [List.cons.injEq, Legible.memberBytes_inj, first.shows, rest.shows, Prod.mk.injEq]
    simp only [true_and]

/-- Records show what their members do. -/
theorem PartsLegible.record {τ σ : Type} {members : Members τ} {view : τ → σ}
    (legible : PartsLegible members.parts view) (strictness : Strictness) :
    Legible (Codec.record members strictness).write view :=
  legible.enclose openObject closeObject (.inr rfl) (by decide)

/-! ## Plain values -/

theorem legible_text : Legible Codec.text.write id := by
  refine .of_append_inj (fun text => ?_) (fun first second rest after _ _ same => ?_)
    fun first second same => ?_
  · rw [← List.append_nil (Codec.text.write text)]
    exact Legible.not_ends_quoteText text []
  · exact (quoteText_append_inj same).1
  · exact congrArg quoteText same

theorem legible_bool : Legible Codec.bool.write id := by
  have yes : Codec.bool.write true = 0x74 :: utf8 "rue" := by
    change utf8 "true" = _
    decide
  have no : Codec.bool.write false = 0x66 :: utf8 "alse" := by
    change utf8 "false" = _
    decide
  refine .of_append_inj (fun value => ?_) (fun first second rest after _ _ same => ?_)
    fun first second same => congrArg _ same
  · cases value with
    | true => exact yes ▸ not_ends_cons (by decide) _
    | false => exact no ▸ not_ends_cons (by decide) _
  · cases first <;> cases second
    · rfl
    · rw [yes, no] at same
      exact absurd (List.head_eq_of_cons_eq same) (by decide)
    · rw [yes, no] at same
      exact absurd (List.head_eq_of_cons_eq same) (by decide)
    · rfl

/-- The digits of a number do not end an item. -/
theorem not_ends_bytes (number : Nat) : ¬Ends (Decimal.bytes number) := by
  obtain ⟨digit, digits, are⟩ := List.exists_cons_of_ne_nil (Decimal.digits_ne_nil number)
  have isDigit : digit < 10 := Decimal.digit_lt_ten (are ▸ List.mem_cons_self)
  have plain : ∀ digit < 10, Decimal.digitByte digit ∉ [comma, closeList, closeObject] := by decide
  rw [Decimal.bytes, are, List.map_cons]
  exact not_ends_cons (plain digit isDigit) _

theorem bytes_append_ne_minus (number : Nat) (tail others : Bytes) :
    Decimal.bytes number ++ tail ≠ 0x2d :: others := by
  obtain ⟨digit, digits, are⟩ := List.exists_cons_of_ne_nil (Decimal.digits_ne_nil number)
  have isDigit : digit < 10 := Decimal.digit_lt_ten (are ▸ List.mem_cons_self)
  have noMinus : ∀ digit < 10, Decimal.digitByte digit ≠ 0x2d := by decide
  rw [Decimal.bytes, are, List.map_cons, List.cons_append]
  exact fun same => noMinus digit isDigit (List.head_eq_of_cons_eq same)

theorem bytes_append_inj {number other : Nat} (ends : Ends rest) (otherEnds : Ends after)
    (same : Decimal.bytes number ++ rest = Decimal.bytes other ++ after) : number = other := by
  have read := spanDigits_bytes number ends.noDigit
  rw [same, spanDigits_bytes other otherEnds.noDigit] at read
  rw [← Decimal.value_digits number, ← Decimal.value_digits other, (Prod.mk.inj read).1]

theorem legible_integer : Legible Decimal.intBytes id := by
  refine .of_append_inj (fun number => ?_) (fun first second rest after ends otherEnds same => ?_)
    fun first second same => congrArg _ same
  · rw [Decimal.intBytes]
    split
    · exact not_ends_cons (by decide) _
    · exact not_ends_bytes _
  · simp only [Decimal.intBytes] at same
    change first = second
    split at same <;> split at same
    next =>
      have magnitude := bytes_append_inj ends otherEnds (List.tail_eq_of_cons_eq same)
      omega
    next => exact absurd same.symm (bytes_append_ne_minus _ _ _)
    next => exact absurd same (bytes_append_ne_minus _ _ _)
    next =>
      have magnitude := bytes_append_inj ends otherEnds same
      omega

theorem legible_int32 : Legible Codec.int32.write id :=
  (legible_integer.comp Int32.toInt).of_view fun _ _ => Int32.toInt_inj

theorem legible_int64 : Legible Codec.int64.write id :=
  (legible_integer.comp Int64.toInt).of_view fun _ _ => Int64.toInt_inj

theorem legible_word64 : Legible Codec.word64.write id :=
  (legible_integer.comp fun word : UInt64 => (word.toNat : Int)).of_view fun _ _ =>
    Int.ofNat_inj.trans UInt64.toNat_inj

theorem legible_byte : Legible Codec.byte.write id :=
  (legible_integer.comp fun byte : UInt8 => (byte.toNat : Int)).of_view fun _ _ =>
    Int.ofNat_inj.trans UInt8.toNat_inj

theorem legible_blob : Legible Codec.blob.write id :=
  (Legible.list Codec.byte legible_byte).of_view fun _ _ => by simp

/-! ## Doubles -/

end Json

/-- What JSON text shows of a double: a number that is finite, and otherwise only that it is not. -/
def Double.shown (double : Double) : Double :=
  if double.isFinite then double else ⟨0x7ff8000000000000⟩

theorem Double.shown_eq_iff {first second : Double} :
    first.shown = second.shown ↔
      first = second ∨ first.isFinite = false ∧ second.isFinite = false := by
  have noNumber : (⟨0x7ff8000000000000⟩ : Double).isFinite = false := by decide
  rw [shown, shown]
  have isNumber {double : Double} (finite : double.isFinite = true) :
      double ≠ ⟨0x7ff8000000000000⟩ := by
    rintro rfl
    cases noNumber.symm.trans finite
  have differ {double other : Double} (finite : double.isFinite = true)
      (infinite : other.isFinite = false) : double ≠ other := by
    rintro rfl
    cases infinite.symm.trans finite
  cases finite : first.isFinite <;> cases otherFinite : second.isFinite
  · simp
  · simp [(isNumber otherFinite).symm, (differ otherFinite finite).symm]
  · simp [isNumber finite, differ finite otherFinite]
  · simp

namespace Json

theorem not_ends_take {bytes : Bytes} {count : Nat} (opens : ¬Ends bytes) (some : 0 < count) :
    ¬Ends (bytes.take count) := by
  intro ends
  refine opens fun byte first => ends byte ?_
  rwa [List.head?_take, if_neg (Nat.ne_of_gt some)]

theorem not_ends_scientificBytes (decimal : Decimal.Scientific) :
    ¬Ends (scientificBytes decimal) := by
  have opens := not_ends_bytes decimal.digits
  rw [scientificBytes]
  split
  · simp only [positional]
    split
    · exact not_ends_append (not_ends_append opens _) _
    · split
      next within => exact not_ends_append (not_ends_take opens (by omega)) _
      next =>
        have point : utf8 "0." = [0x30, 0x2e] := by decide
        exact not_ends_append (not_ends_append (point ▸ not_ends_cons (by decide) _) _) _
  · simp only [exponential]
    exact not_ends_append (not_ends_append (not_ends_append
      (not_ends_take opens (by decide)) _) _) _

theorem legible_double : Legible Codec.double.write Double.shown := by
  refine .of_append_inj (fun double => ?_) (fun first second rest after ends otherEnds same => ?_)
    fun first second same => ?_
  · change ¬Ends (doubleBytes double)
    rw [doubleBytes]
    split
    · split
      · exact not_ends_cons (by decide) _
      · exact not_ends_scientificBytes _
    · have null : utf8 "null" = 0x6e :: utf8 "ull" := by decide
      exact null ▸ not_ends_cons (by decide) _
  · exact Double.shown_eq_iff.2 (doubleBytes_append_inj ends otherEnds same).2
  · rcases Double.shown_eq_iff.1 same with rfl | ⟨infinite, otherInfinite⟩
    · rfl
    · change doubleBytes first = doubleBytes second
      simp [doubleBytes, infinite, otherInfinite]

end Json

end Standby
