import Standby.Proofs.Binary.SelfDelimiting
import Standby.Proofs.Json.ReadingNumbers
import Standby.Proofs.JsonKeys

/-!
# JSON text is read as what was written

The entries of a map have no order of their own, so a value has as many texts in JSON as its maps
have orders (`Content.IsText`). Each of them is read alike, provided the doubles in it are finite
and have texts that stand for them (`Content.ReadsBack`), and as the value itself if its timestamps
are regular. A text ends with the mark that closes it, so blanks around it change nothing and
anything else behind it is refused (`Format.json_standsAlone`).
-/

set_option autoImplicit false

namespace Standby

open Storable

/-- Whether the double in a value, if there is one, is read from its text. -/
def Value.ReadsBack (value : Value) : Prop := ∀ number, value = .double number → number.ReadsBack

namespace Json

variable {α β : Type}

/-! ## Values -/

theorem takes_bool (value : Bool) :
    Takes Codec.bool.read Anything (Codec.bool.write value) value := by
  intro rest _
  have yes : utf8 "true" = 0x74 :: utf8 "rue" := by decide
  have no : utf8 "false" = 0x66 :: utf8 "alse" := by decide
  cases value with
  | true =>
    have start : skipSpace (utf8 "true" ++ rest) = utf8 "true" ++ rest := by
      rw [yes]
      exact skipSpace_cons (by decide) _
    simp only [Codec.bool, if_true, start, dropPrefix?_append]
  | false =>
    have start : skipSpace (utf8 "false" ++ rest) = utf8 "false" ++ rest := by
      rw [no]
      exact skipSpace_cons (by decide) _
    have noTrue : dropPrefix? (utf8 "true") (utf8 "false" ++ rest) = none := by
      rw [yes, no]
      rfl
    simp only [Codec.bool, Bool.false_eq_true, if_false, start, noTrue, readWord,
      dropPrefix?_append]
    rfl

theorem takes_timestamp (timestamp : Timestamp) :
    Takes jsonTimestamp.read Anything (jsonTimestamp.write timestamp) timestamp.reread :=
  (takes_text timestamp.text).partialMap Timestamp.text (Timestamp.ofText?_text timestamp)

/-- The contents of a variant are read as a codec reads them. -/
theorem takes_ofCodec {variants : List (Variant α)} {name : String} {codec : Codec β}
    (make : β → α) {text : Bytes} {contents : β}
    (among : variants.find? (fun variant => variant.name == name) =
      some (.ofCodec name codec make))
    (takes : Takes codec.read Ends text contents) :
    Takes (Variant.read variants) Anything (loadedBytes name text) (make contents) := by
  refine takes_loaded among fun rest ends => ?_
  simp only [takes rest ends, bind, Except.bind]

theorem takes_value {value : Value} (readsBack : value.ReadsBack) :
    Takes jsonValue.read Anything (jsonValue.write value) value.reread := by
  cases value with
  | bool contents => exact takes_ofCodec Value.bool rfl (takes_bool contents).before_end
  | int32 contents => exact takes_ofCodec Value.int32 rfl (takes_int32 contents)
  | int64 contents => exact takes_ofCodec Value.int64 rfl (takes_int64 contents)
  | double contents => exact takes_ofCodec Value.double rfl (takes_double (readsBack contents rfl))
  | text contents => exact takes_ofCodec Value.text rfl (takes_text contents).before_end
  | blob contents => exact takes_ofCodec Value.blob rfl (takes_blob contents).before_end
  | timestamp contents =>
    exact takes_ofCodec Value.timestamp rfl (takes_timestamp contents).before_end

/-- The text of an object does not start as a list ends, nor as `null` starts. -/
theorem avoids_object {mark : UInt8} (other : openObject ≠ mark) (parts : List Bytes) :
    Avoids mark (enclose openObject closeObject parts) :=
  ⟨openObject, _, rfl, by decide, other⟩

theorem avoids_value (value : Value) : Avoids closeList (jsonValue.write value) := by
  rw [write_value]
  exact avoids_object (by decide) _

/-- Lists of values are read from the texts that the codec of the values writes. -/
theorem takes_viewedList {codec : Codec α} {view : α → α} {values : List α}
    (takes : ∀ value ∈ values, Takes codec.read Anything (codec.write value) (view value))
    (avoid : ∀ value, Avoids closeList (codec.write value)) :
    Takes codec.list.read Anything (codec.list.write values) (values.map view) := by
  refine takes_list (List.forall₂_map_left_iff.2 (List.forall₂_map_right_iff.2
    (List.forall₂_same.2 fun value member => (takes value member).before_end)))
    fun part member => ?_
  obtain ⟨value, -, rfl⟩ := List.mem_map.1 member
  exact avoid value

theorem takes_writtenList {codec : Codec α} {values : List α}
    (takes : ∀ value ∈ values, Takes codec.read Anything (codec.write value) value)
    (avoid : ∀ value, Avoids closeList (codec.write value)) :
    Takes codec.list.read Anything (codec.list.write values) values := by
  have read : Takes codec.list.read Anything (codec.list.write values) (values.map id) :=
    takes_viewedList takes avoid
  rwa [List.map_id] at read

theorem takes_token (token : Option String) :
    Takes Codec.text.option.read Anything (Codec.text.option.write token) token := by
  cases token with
  | none => exact takes_none _
  | some token =>
    exact (takes_text token).some (avoids_quoteText (by decide) token)

/-! ## Rows and pages -/

/-- The text of a row with its bindings in a given order. -/
def rowText (listing : Listing) : Bytes := (Codec.entries jsonValue).write listing

/-- The text of rows with the bindings of each in a given order. -/
def rowsText (listings : List Listing) : Bytes := (Codec.entries jsonValue).list.write listings

/-- The text of rows and a token, which is the member of a given name. -/
def pageText (tokenName : String) (listings : List Listing) (token : Option String) : Bytes :=
  enclose openObject closeObject
    [memberBytes "rows" (rowsText listings),
      memberBytes tokenName (Codec.text.option.write token)]

theorem takes_row {row : Row} {listing : Listing} (lists : row.Lists listing)
    (readsBack : ∀ entry ∈ row.entries, entry.2.ReadsBack) :
    Takes Content.row.json.read Anything (rowText listing) row.reread :=
  takes_fieldMap lists fun entry member => (takes_value (readsBack entry member)).before_end

theorem takes_rows {rows : List Row} {listings : List Listing}
    (lists : List.Forall₂ Row.Lists rows listings)
    (readsBack : ∀ row ∈ rows, ∀ entry ∈ row.entries, entry.2.ReadsBack) :
    Takes Content.rows.json.read Anything (rowsText listings) (rows.map Row.reread) := by
  refine takes_list (List.forall₂_map_left_iff.2 ?_) fun part member => ?_
  · induction lists with
    | nil => exact .nil
    | cons first _ ih =>
      exact .cons (takes_row first (readsBack _ List.mem_cons_self)).before_end
        (ih fun row member => readsBack row (List.mem_cons_of_mem _ member))
  · obtain ⟨listing, -, rfl⟩ := List.mem_map.1 member
    exact avoids_object (by decide) _

/-- The members of a page, of which the token is called differently in kept pages. -/
theorem takes_pageMembers {rows : List Row} {listings : List Listing} (tokenName : String)
    (token : Option String) (other : tokenName ≠ "rows")
    (lists : List.Forall₂ Row.Lists rows listings)
    (readsBack : ∀ row ∈ rows, ∀ entry ∈ row.entries, entry.2.ReadsBack) :
    Takes (Codec.record (.cons "rows" Content.rows.json none
        (.cons tokenName Codec.text.option (some none) .nil)) .open).read Anything
      (pageText tokenName listings token) (rows.map Row.reread, token, ()) :=
  (Members.Take.cons (takes_rows lists readsBack).before_end
    (.cons (takes_token token).before_end .nil)).takes
      (by simpa [Members.names] using other.symm) .open

/-! ## Conditions and queries -/

theorem takes_operator (operator : Operator) :
    Takes Content.operator.json.read Anything (Content.operator.json.write operator) operator :=
  takes_enumeration (by cases operator <;> rfl)

theorem takes_condition {condition : Condition} (readsBack : condition.value.ReadsBack) :
    Takes Content.condition.json.read Anything (Content.condition.json.write condition)
      condition.reread :=
  ((Members.Take.cons (takes_operator condition.operator).before_end
    (.cons (takes_value readsBack).before_end .nil)).takes (by decide) .open).map
      (fun condition : Condition => (condition.operator, condition.value, ())) fun found =>
        ⟨found.1, found.2.1⟩

/-- The text of conditions with the columns in a given order. -/
def conditionsText (listing : List (String × List Condition)) : Bytes :=
  (Codec.entries (json : Codec (List Condition))).write listing

theorem takes_conditions {conditions : Conditions} {listing : List (String × List Condition)}
    (lists : listing.Perm conditions.entries)
    (readsBack : ∀ entry ∈ conditions.entries, ∀ condition ∈ entry.2, condition.value.ReadsBack) :
    Takes Content.conditions.json.read Anything (conditionsText listing) conditions.reread :=
  takes_fieldMap lists fun entry member =>
    (takes_viewedList (fun condition among =>
      takes_condition (readsBack entry member condition among))
      fun _ => avoids_object (by decide) _).before_end

/-- The text of a query with the columns of its conditions in a given order. -/
def queryText (listing : List (String × List Condition)) (token : Option String)
    (limit : UInt64) : Bytes :=
  enclose openObject closeObject
    [memberBytes "conditions" (conditionsText listing),
      memberBytes "token" (Codec.text.option.write token),
      memberBytes "limit" (Codec.word64.write limit)]

theorem takes_query {query : RangeQuery} {listing : List (String × List Condition)}
    (lists : listing.Perm query.conditions.entries)
    (readsBack : ∀ entry ∈ query.conditions.entries, ∀ condition ∈ entry.2,
      condition.value.ReadsBack) :
    Takes Content.rangeQuery.json.read Anything (queryText listing query.token query.limit)
      query.reread :=
  ((Members.Take.cons (takes_conditions lists readsBack).before_end
    (.cons (takes_token query.token).before_end
      (.cons (takes_word64 query.limit).of_halts .nil))).takes (by decide) .open).map
        (fun query : RangeQuery => (query.conditions, query.token, query.limit, ())) fun found =>
          ⟨found.1, found.2.1, found.2.2.1⟩

/-! ## Entities -/

theorem takes_columnType (type : ColumnType) :
    Takes Content.columnType.json.read Anything (Content.columnType.json.write type) type :=
  takes_enumeration (by cases type <;> rfl)

theorem takes_location (location : Location) :
    Takes Content.location.json.read Anything (Content.location.json.write location) location :=
  ((Members.Take.cons (takes_text location.scope).before_end
    (.cons (takes_text location.namePrefix).before_end
      (.cons (takes_int32 location.version) .nil))).takes (by decide) .open).map
        (fun location : Location => (location.scope, location.namePrefix, location.version, ()))
          fun found => ⟨found.1, found.2.1, found.2.2.1⟩

theorem takes_texts (texts : List String) :
    Takes Content.texts.json.read Anything (Content.texts.json.write texts) texts :=
  takes_writtenList (fun text _ => takes_text text) fun text => avoids_quoteText (by decide) text

theorem takes_clusteringColumn (column : ClusteringColumn) :
    Takes (json : Codec ClusteringColumn).read Anything
      ((json : Codec ClusteringColumn).write column) column :=
  ((Members.Take.cons (takes_text column.name).before_end
    (.cons (takes_bool column.descending).before_end .nil)).takes (by decide) .open).map
      (fun column : ClusteringColumn => (column.name, column.descending, ())) fun found =>
        ⟨found.1, found.2.1⟩

theorem takes_primaryKey (key : PrimaryKey) :
    Takes (json : Codec PrimaryKey).read Anything ((json : Codec PrimaryKey).write key) key :=
  ((Members.Take.cons (takes_texts key.partition).before_end
    (.cons (takes_writtenList (fun column _ => takes_clusteringColumn column)
      fun _ => avoids_object (by decide) _).before_end .nil)).takes (by decide) .open).map
        (fun key : PrimaryKey => (key.partition, key.clustering, ())) fun found =>
          ⟨found.1, found.2.1⟩

theorem takes_column (column : Column) :
    Takes (json : Codec Column).read Anything ((json : Codec Column).write column) column :=
  ((Members.Take.cons (takes_text column.name).before_end
    (.cons (takes_columnType column.type).before_end .nil)).takes (by decide) .open).map
      (fun column : Column => (column.name, column.type, ())) fun found => ⟨found.1, found.2.1⟩

theorem takes_schema (schema : Schema) :
    Takes Content.schema.json.read Anything (Content.schema.json.write schema) schema :=
  ((Members.Take.cons (takes_text schema.name).before_end
    (.cons (takes_primaryKey schema.key).before_end
      (.cons (takes_writtenList (fun column _ => takes_column column)
        fun _ => avoids_object (by decide) _).before_end .nil))).takes (by decide) .open).map
          (fun schema : Schema => (schema.name, schema.key, schema.columns, ())) fun found =>
            ⟨found.1, found.2.1, found.2.2.1⟩

/-! ## Blanks in front -/

/-- Whether blanks in front of what is read change nothing. -/
def Skips (reader : Reader α) : Prop :=
  ∀ blanks bytes, (∀ byte ∈ blanks, isSpace byte) → reader (blanks ++ bytes) = reader bytes

theorem dropMark?_blanks {blanks : Bytes} (areBlank : ∀ byte ∈ blanks, isSpace byte)
    (mark : UInt8) (bytes : Bytes) : dropMark? mark (blanks ++ bytes) = dropMark? mark bytes := by
  rw [dropMark?, dropMark?, skipSpace_append areBlank]

theorem readMark_blanks {blanks : Bytes} (areBlank : ∀ byte ∈ blanks, isSpace byte)
    (mark : UInt8) (bytes : Bytes) : readMark mark (blanks ++ bytes) = readMark mark bytes := by
  rw [readMark, readMark, skipSpace_append areBlank]

theorem skips_integer (least most : Int) : Skips (readInteger least most) := by
  intro blanks bytes areBlank
  rw [readInteger, readInteger, readNumber, readNumber, skipSpace_append areBlank]

theorem skips_text : Skips readText := by
  intro blanks bytes areBlank
  rw [readText, readText, readQuoted, readQuoted, readMark_blanks areBlank]

theorem skips_variant (variants : List (Variant α)) : Skips (Variant.read variants) := by
  intro blanks bytes areBlank
  simp only [Variant.read, Variant.readName, dropMark?_blanks areBlank,
    skips_text blanks bytes areBlank]

theorem skips_list (codec : Codec α) : Skips codec.list.read := by
  intro blanks bytes areBlank
  simp only [Codec.list, readList, readMark_blanks areBlank]

theorem skips_entries (codec : Codec α) : Skips codec.entries.read := by
  intro blanks bytes areBlank
  simp only [Codec.entries, readMark_blanks areBlank]

theorem skips_record {τ : Type} (members : Members τ) (strictness : Strictness) :
    Skips (Codec.record members strictness).read := by
  intro blanks bytes areBlank
  simp only [Codec.record, dropMark?_blanks areBlank, readMark_blanks areBlank]

theorem Skips.partialMap {codec : Codec β} (skips : Skips codec.read) (toRaw : α → β)
    (ofRaw? : β → Option α) : Skips (codec.partialMap toRaw ofRaw?).read := by
  intro blanks bytes areBlank
  simp only [Codec.partialMap, skips blanks bytes areBlank]

theorem Skips.map {codec : Codec β} (skips : Skips codec.read) (toRaw : α → β) (ofRaw : β → α) :
    Skips (codec.map toRaw ofRaw).read := skips.partialMap toRaw _

theorem Skips.option {codec : Codec α} (skips : Skips codec.read) : Skips codec.option.read := by
  intro blanks bytes areBlank
  simp only [Codec.option, dropMark?_blanks areBlank, readWord, skipSpace_append areBlank,
    skips blanks bytes areBlank]

end Json

namespace Content

theorem skips : (content : Content) → Json.Skips content.json.read
  | value => Json.skips_variant _
  | values => Json.skips_list _
  | optionalValue => (Json.skips_variant _).option
  | row => (Json.skips_entries _).map _ _
  | rows => Json.skips_list _
  | page => (Json.skips_record _ _).map _ _
  | keptPage => (Json.skips_record _ _).map _ _
  | condition => (Json.skips_record _ _).map _ _
  | conditions => (Json.skips_entries _).map _ _
  | texts => Json.skips_list _
  | rangeQuery => (Json.skips_record _ _).map _ _
  | operator => Json.skips_variant _
  | columnType => Json.skips_variant _
  | schema => (Json.skips_record _ _).map _ _
  | location => (Json.skips_record _ _).map _ _

/-! ## Texts of contents -/

/-- Whether every double in a content is finite and read from its text. -/
def ReadsBack (content : Content) (item : content.Carrier) : Prop :=
  ∀ value ∈ content.valuesIn item, value.ReadsBack

/-- Whether a JSON text stands for a value: it is that of its encoding, with the entries of every
map in some order. -/
def IsText : (content : Content) → content.Carrier → Bytes → Prop
  | row, item, text => ∃ listing, Row.Lists item listing ∧ text = Json.rowText listing
  | rows, items, text => ∃ listings, List.Forall₂ Row.Lists items listings ∧
      text = Json.rowsText listings
  | page, item, text => ∃ listings, List.Forall₂ Row.Lists item.rows listings ∧
      text = Json.pageText "next_token" listings item.next
  | keptPage, item, text => ∃ listings, List.Forall₂ Row.Lists item.rows listings ∧
      text = Json.pageText "token_next" listings item.next
  | conditions, item, text => ∃ listing, listing.Perm item.entries ∧
      text = Json.conditionsText listing
  | rangeQuery, item, text => ∃ listing, listing.Perm item.conditions.entries ∧
      text = Json.queryText listing item.token item.limit
  | content, item, text => text = content.json.write item

/-- The entries of every map may be in the order of their names. -/
theorem isText_write (content : Content) (item : content.Carrier) :
    content.IsText item (content.json.write item) := by
  have rowsWrite (items : List Row) :
      Content.rows.json.write items = Json.rowsText (items.map FieldMap.entries) := by
    change Json.enclose _ _ _ = Json.enclose _ _ _
    rw [List.map_map]
    rfl
  cases content with
  | row => exact ⟨_, lists_entries item, rfl⟩
  | rows => exact ⟨_, forall₂_lists_entries item, rowsWrite item⟩
  | page =>
    refine ⟨_, forall₂_lists_entries item.rows, ?_⟩
    rw [Json.pageText, ← rowsWrite]
    rfl
  | keptPage =>
    refine ⟨_, forall₂_lists_entries item.rows, ?_⟩
    rw [Json.pageText, ← rowsWrite]
    rfl
  | conditions => exact ⟨_, .refl _, rfl⟩
  | rangeQuery => exact ⟨_, .refl _, rfl⟩
  | _ => rfl

/-- What holds of the values in all items holds of those in each of them. -/
theorem readsBack_of_mem {α β : Type} {items : List α} {parts : α → List β} {toValue : β → Value}
    (readsBack : ∀ value ∈ items.flatMap (fun item => (parts item).map toValue), value.ReadsBack) :
    ∀ item ∈ items, ∀ part ∈ parts item, (toValue part).ReadsBack :=
  fun _ among _ member => readsBack _ (List.mem_flatMap_of_mem among (List.mem_map_of_mem member))

/-- **Every text of a value is read alike**, whatever follows it. -/
theorem IsText.takes {content : Content} {item : content.Carrier} {text : Bytes}
    (isText : content.IsText item text) (readsBack : content.ReadsBack item) :
    Json.Takes content.json.read Json.Anything text (content.reread item) := by
  cases content with
  | value =>
    cases isText
    exact Json.takes_value (readsBack item List.mem_cons_self)
  | values =>
    cases isText
    exact Json.takes_viewedList (fun value member => Json.takes_value (readsBack value member))
      Json.avoids_value
  | optionalValue =>
    cases isText
    cases item with
    | none => exact Json.takes_none _
    | some value =>
      refine (Json.takes_value (readsBack value (List.mem_singleton.2 rfl))).some ?_
      rw [Json.write_value]
      exact Json.avoids_object (by decide) _
  | row =>
    obtain ⟨listing, lists, rfl⟩ := isText
    exact Json.takes_row lists fun entry member => readsBack _ (List.mem_map_of_mem member)
  | rows =>
    obtain ⟨listings, lists, rfl⟩ := isText
    exact Json.takes_rows lists (readsBack_of_mem readsBack)
  | page =>
    obtain ⟨listings, lists, rfl⟩ := isText
    exact (Json.takes_pageMembers "next_token" item.next (by decide) lists
      (readsBack_of_mem readsBack)).map (fun page : Page => (page.rows, page.next, ()))
        fun found => ⟨found.1, found.2.1⟩
  | keptPage =>
    obtain ⟨listings, lists, rfl⟩ := isText
    exact (Json.takes_pageMembers "token_next" item.next (by decide) lists
      (readsBack_of_mem readsBack)).map (fun page : KeptPage => (page.rows, page.next, ()))
        fun found => ⟨found.1, found.2.1⟩
  | condition =>
    cases isText
    exact Json.takes_condition (readsBack item.value List.mem_cons_self)
  | conditions =>
    obtain ⟨listing, lists, rfl⟩ := isText
    exact Json.takes_conditions lists (readsBack_of_mem readsBack)
  | texts =>
    cases isText
    exact Json.takes_texts item
  | rangeQuery =>
    obtain ⟨listing, lists, rfl⟩ := isText
    exact Json.takes_query lists (readsBack_of_mem readsBack)
  | operator =>
    cases isText
    exact Json.takes_operator item
  | columnType =>
    cases isText
    exact Json.takes_columnType item
  | schema =>
    cases isText
    exact Json.takes_schema item
  | location =>
    cases isText
    exact Json.takes_location item

end Content

/-! ## The JSON format -/

namespace Format

theorem decode_json_eq (content : Content) (bytes : Bytes) :
    Format.json.decode content bytes = (parseJson content bytes).mapError .decoding := by
  change (((parseJson content bytes).map some).mapError _).bind _ = _
  cases parseJson content bytes <;> rfl

/-- A text stands for a value by itself: blanks around it make no difference, and with anything
else behind it the text is refused. -/
structure StandsAlone (content : Content) (value : content.Carrier) (text : Bytes) : Prop where
  decodes : Format.json.decode content text = .ok value
  ignoresBlanks : ∀ front back, (∀ byte ∈ front, Json.isSpace byte) →
    (∀ byte ∈ back, Json.isSpace byte) →
      Format.json.decode content (front ++ text ++ back) = .ok value
  refusesMore : ∀ more, (∃ byte ∈ more, Json.isSpace byte = false) →
    Format.json.decode content (text ++ more) = .error (.decoding (.fault .malformed))

theorem standsAlone_of_takes {content : Content} {value : content.Carrier} {text : Bytes}
    (takes : Json.Takes content.json.read Json.Anything text value) :
    StandsAlone content value text := by
  have decode (rest : Bytes) : Format.json.decode content (text ++ rest) =
      if Json.skipSpace rest = [] then .ok value
      else .error (.decoding (.fault .malformed)) := by
    rw [decode_json_eq, parseJson, Json.Codec.parse, takes rest trivial]
    simp only [bind, Except.bind]
    split <;> rfl
  have inFront {front : Bytes} (areBlank : ∀ byte ∈ front, Json.isSpace byte) (bytes : Bytes) :
      Format.json.decode content (front ++ bytes) = Format.json.decode content bytes := by
    rw [decode_json_eq, decode_json_eq, parseJson, parseJson, Json.Codec.parse, Json.Codec.parse,
      content.skips front bytes areBlank]
  have behind {back : Bytes} (areBlank : ∀ byte ∈ back, Json.isSpace byte) :
      Format.json.decode content (text ++ back) = .ok value := by
    rw [decode, if_pos (Json.skipSpace_eq_nil_iff.2 areBlank)]
  refine ⟨?_, fun front back frontBlank backBlank => ?_, fun more isMore => ?_⟩
  · rw [← List.append_nil text]
    exact behind (List.forall_mem_nil _)
  · rw [List.append_assoc, inFront frontBlank, behind backBlank]
  · obtain ⟨byte, member, noSpace⟩ := isMore
    rw [decode, if_neg fun blank => ?_]
    cases noSpace.symm.trans (Json.skipSpace_eq_nil_iff.1 blank byte member)

/-- **JSON decodes what it encodes.** Every value whose doubles are finite and read from their
texts is encoded, and all its texts, the entries of each map in any order, stand alone for the value
that is read where it was written. This is the value itself just if its timestamps are regular. -/
theorem json_standsAlone (content : Content) (value : content.Carrier)
    (readsBack : content.ReadsBack value) :
    (∃ text, Format.json.encode content value = .ok text ∧ content.IsText value text) ∧
      (∀ text, content.IsText value text → StandsAlone content (content.reread value) text) ∧
      (content.reread value = value ↔ content.IsRegular value) :=
  ⟨⟨_, rfl, content.isText_write value⟩,
    fun _ isText => standsAlone_of_takes (isText.takes readsBack), content.reread_eq_self_iff⟩

/-- A page of one row, with a double, a quotation mark and a control character in a text, and a leap
second at the end of a minute. -/
theorem json_standsAlone_page_listed_backwards :
    let listing : Listing := [("seen", .timestamp ⟨59, 1500000000, by decide, by decide⟩),
      ("ratio", .double ⟨0x4004000000000000⟩), ("note", .text "\"\n")]
    let page : Page := ⟨[.ofList listing], some "1"⟩
    Content.page.ReadsBack page ∧ Content.page.IsRegular page ∧
      Content.page.IsText page (Json.pageText "next_token" [listing] (some "1")) ∧
      StandsAlone .page page (Json.pageText "next_token" [listing] (some "1")) := by
  intro listing page
  have number : Double.ReadsBack ⟨0x4004000000000000⟩ := ⟨by decide, by decide +kernel⟩
  have readsBack : Content.page.ReadsBack page := by
    have only : ∀ value ∈ Content.page.valuesIn page, value.columnType = .double →
        value = .double ⟨0x4004000000000000⟩ := by decide +kernel
    intro value member found isDouble
    cases (only value member (isDouble ▸ rfl)).symm.trans isDouble
    exact number
  have regular : Content.page.IsRegular page := by decide +kernel
  have isText : Content.page.IsText page (Json.pageText "next_token" [listing] (some "1")) :=
    ⟨[listing], .cons (by decide +kernel) .nil, rfl⟩
  have ⟨_, standsAlone, exact⟩ := json_standsAlone .page page readsBack
  have pageStandsAlone := standsAlone _ isText
  rw [exact.2 regular] at pageStandsAlone
  exact ⟨readsBack, regular, isText, pageStandsAlone⟩

/-- **A leap second in the middle of a minute is decoded as the next second.** -/
theorem decode_json_leap :
    let text := Content.value.json.write (.timestamp Sample.leap)
    Format.json.encode .value (.timestamp Sample.leap) = .ok text ∧
      Format.json.decode .value text = .ok (.timestamp Sample.next) ∧
      Value.timestamp Sample.next ≠ .timestamp Sample.leap := by
  have readsBack : Content.value.ReadsBack (.timestamp Sample.leap) := by
    intro value member found isDouble
    cases (List.mem_singleton.1 member).symm.trans isDouble
  have takes := (Content.isText_write .value (.timestamp Sample.leap)).takes readsBack
  exact ⟨rfl, (standsAlone_of_takes takes).decodes, by decide⟩

end Format

end Standby
