import Mathlib.Data.List.Forall2
import Standby.Proofs.Binary.Steadiness

/-!
# The binary encoding delimits itself

The entries of a row have no order of their own, so a row has as many spellings in bytes as its
entries have orders, and a page has those of its rows (`Content.Spells`). Whatever follows a
spelling, reading takes off just the spelling and gives what is read where the value was written
(`Content.Spells.reads`).

The binary format therefore finds the end of a value by itself (`Format.binary_delimits`): it
decodes every spelling alike, refuses bytes behind one and says how many they are, and refuses
every proper beginning of one. A value with regular timestamps only is decoded as it was.
-/

set_option autoImplicit false

namespace Standby

/-! ## Reading spellings -/

namespace Binary.Codec

variable {α β : Type}

/-- Reading so many mapped values is mapping so many values that were read. -/
theorem readMany_map (codec : Codec β) (toRaw : α → β) (ofRaw : β → α) (count : Nat)
    (bytes : Bytes) : (codec.map toRaw ofRaw).readMany count bytes =
      (codec.readMany count bytes).map fun found => (found.1.map ofRaw, found.2) := by
  induction count generalizing bytes with
  | zero => rfl
  | succ count ih =>
    change ((codec.read bytes).bind _).bind _ = ((codec.read bytes).bind _).map _
    cases codec.read bytes with
    | none => rfl
    | some found =>
      change ((codec.map toRaw ofRaw).readMany count found.2).bind _ =
        ((codec.readMany count found.2).bind _).map _
      rw [ih]
      cases codec.readMany count found.2 <;> rfl

/-- A list of values is read where a list of what they are made of is. -/
theorem Reads.list_map {codec : Codec β} {bytes : Bytes} {raws : List β}
    (reads : codec.list.Reads bytes raws) (toRaw : α → β) (ofRaw : β → α) :
    (codec.map toRaw ofRaw).list.Reads bytes (raws.map ofRaw) := by
  intro rest
  have whole := reads rest
  change (length.read (bytes ++ rest)).bind _ = _ at whole ⊢
  cases count : length.read (bytes ++ rest) with
  | none => rw [count] at whole; cases whole
  | some found =>
    rw [count] at whole
    change codec.readMany found.1 found.2 = _ at whole
    change (codec.map toRaw ofRaw).readMany found.1 found.2 = _
    rw [readMany_map, whole]
    rfl

end Binary.Codec

/-! ## Spellings of rows and of what holds rows -/

open Binary Storable

/-- Bindings in some order, as a row keeps them. -/
abbrev Listing : Type := List (String × Value)

/-- The codec of rows as they are kept. -/
def listingCodec : Codec Listing := Codec.entries binaryValue

/-- The bindings that are read where bindings were written. -/
def Listing.reread (listing : Listing) : Listing := listing.map (Prod.map id Value.reread)

theorem rereads_listingCodec : listingCodec.Rereads Listing.reread :=
  .list (.pair Codec.exact_text Rereadable.rereads) (.pair Codec.visible_text)

theorem visible_listingCodec : listingCodec.Visible := Codec.visible_list _

/-- Whether a listing has the bindings of a row. -/
def Row.Lists (row : Row) (listing : Listing) : Prop := listing.Perm row.entries

instance (row : Row) (listing : Listing) : Decidable (row.Lists listing) :=
  inferInstanceAs (Decidable (listing.Perm row.entries))

/-- Whether bytes stand for a value: those of its binary encoding with the bindings of each row in
some order. -/
def Content.Spells : (content : Content) → content.Carrier → Bytes → Prop
  | .row, item, bytes => ∃ listing, Row.Lists item listing ∧ bytes = listingCodec.write listing
  | .rows, items, bytes => ∃ listings, List.Forall₂ Row.Lists items listings ∧
      bytes = listingCodec.list.write listings
  | .page, item, bytes => ∃ listings, List.Forall₂ Row.Lists item.rows listings ∧
      bytes = listingCodec.list.write listings ++ Codec.text.option.write item.next
  | .keptPage, item, bytes => ∃ listings, List.Forall₂ Row.Lists item.rows listings ∧
      bytes = listingCodec.list.write listings ++ Codec.text.option.write item.next
  | content, item, bytes => bytes = content.binary.write item

namespace Content

theorem lists_entries (row : Row) : row.Lists row.entries := .refl _

theorem forall₂_lists_entries (rows : List Row) :
    List.Forall₂ Row.Lists rows (rows.map FieldMap.entries) :=
  List.forall₂_map_right_iff.2 (List.forall₂_same.2 fun row _ => lists_entries row)

/-- The bindings of each row may be in the order of their names. -/
theorem spells_write (content : Content) (item : content.Carrier) :
    content.Spells item (content.binary.write item) := by
  have rowsWrite (rows : List Row) : Content.rows.binary.write rows =
      listingCodec.list.write (rows.map FieldMap.entries) := by
    change Codec.length.write rows.length ++ rows.flatMap _ =
      Codec.length.write (rows.map FieldMap.entries).length ++ _
    rw [List.length_map, List.flatMap_map]
    rfl
  cases content with
  | row => exact ⟨_, lists_entries item, rfl⟩
  | rows => exact ⟨_, forall₂_lists_entries item, rowsWrite item⟩
  | page =>
    refine ⟨_, forall₂_lists_entries item.rows, ?_⟩
    rw [← rowsWrite, ← List.append_nil (Codec.text.option.write item.next)]
    rfl
  | keptPage =>
    refine ⟨_, forall₂_lists_entries item.rows, ?_⟩
    rw [← rowsWrite, ← List.append_nil (Codec.text.option.write item.next)]
    rfl
  | _ => rfl

/-- A row is collected from its bindings in any order. -/
theorem ofList_reread {row : Row} {listing : Listing} (lists : row.Lists listing) :
    FieldMap.ofList listing.reread = row.reread :=
  FieldMap.ofList_of_perm (lists.map _)

theorem reads_row {row : Row} {listing : Listing} (lists : row.Lists listing)
    (fits : (listingCodec.write listing).length < UInt64.size) :
    Content.row.binary.Reads (listingCodec.write listing) row.reread :=
  (rereads_listingCodec.reads listing fits).map FieldMap.entries FieldMap.ofList
    (ofList_reread lists)

theorem reads_rows {rows : List Row} {listings : List Listing}
    (lists : List.Forall₂ Row.Lists rows listings)
    (fits : (listingCodec.list.write listings).length < UInt64.size) :
    Content.rows.binary.Reads (listingCodec.list.write listings) (rows.map Row.reread) := by
  have reads : listingCodec.list.Reads (listingCodec.list.write listings)
      (listings.map Listing.reread) :=
    (rereads_listingCodec.list visible_listingCodec).reads listings fits
  have collected : (listings.map Listing.reread).map FieldMap.ofList = rows.map Row.reread := by
    clear reads fits
    induction lists with
    | nil => rfl
    | cons first _ ih => rw [List.map_cons, List.map_cons, ofList_reread first, ih, List.map_cons]
  have mapped := reads.list_map FieldMap.entries FieldMap.ofList
  rwa [collected] at mapped

/-- Rows and a token behind them make a page of either kind. -/
theorem reads_page {rows : List Row} {listings : List Listing} (next : Option String)
    (lists : List.Forall₂ Row.Lists rows listings)
    (fits : (listingCodec.list.write listings ++ Codec.text.option.write next).length <
      UInt64.size) :
    Content.page.binary.Reads
        (listingCodec.list.write listings ++ Codec.text.option.write next)
          (Page.reread ⟨rows, next⟩) ∧
      Content.keptPage.binary.Reads
        (listingCodec.list.write listings ++ Codec.text.option.write next)
          (KeptPage.reread ⟨rows, next⟩) := by
  rw [List.length_append] at fits
  have rowsRead := reads_rows lists (by omega)
  have tokenReads : Codec.text.option.Reads (Codec.text.option.write next) next := by
    have reads := Codec.exact_text.option.reads next (by omega)
    rwa [Option.map_id] at reads
  have nothing : Layout.nil.binaryCodec.Reads [] () := fun _ => rfl
  have members := rowsRead.pair (tokenReads.pair nothing)
  rw [List.append_nil] at members
  exact ⟨members.map (fun page : Page => (page.rows, page.next, ()))
      (fun found => ⟨found.1, found.2.1⟩) rfl,
    members.map (fun kept : KeptPage => (kept.rows, kept.next, ()))
      (fun found => ⟨found.1, found.2.1⟩) rfl⟩

/-- **Every spelling of a value is read alike.** -/
theorem Spells.reads {content : Content} {item : content.Carrier} {bytes : Bytes}
    (spells : content.Spells item bytes) (fits : bytes.length < UInt64.size) :
    content.binary.Reads bytes (content.reread item) := by
  cases content with
  | row =>
    obtain ⟨listing, lists, rfl⟩ := spells
    exact reads_row lists fits
  | rows =>
    obtain ⟨listings, lists, rfl⟩ := spells
    exact reads_rows lists fits
  | page =>
    obtain ⟨listings, lists, rfl⟩ := spells
    exact (reads_page item.next lists fits).1
  | keptPage =>
    obtain ⟨listings, lists, rfl⟩ := spells
    exact (reads_page item.next lists fits).2
  | _ =>
    cases spells
    exact (rereads _).reads item fits

end Content

/-! ## The binary format -/

namespace Format

/-- A format finds the end of a value in its bytes: it decodes just these bytes, neither more of
them nor fewer. -/
structure Delimits (format : Format) (content : Content) (value : content.Carrier)
    (bytes : Bytes) : Prop where
  decodes : format.decode content bytes = .ok value
  refusesMore : ∀ more, more ≠ [] → ∃ cause,
    format.decode content (bytes ++ more) = .error (.decoding cause) ∧
      cause.message = toString more.length ++ " trailing bytes after value"
  refusesFewer : ∀ front, front <+: bytes → front ≠ bytes → ∃ cause,
    format.decode content front = .error (.decoding cause)

theorem delimits_of_reads {content : Content} {value : content.Carrier} {bytes : Bytes}
    (reads : content.binary.Reads bytes value) : Format.binary.Delimits content value bytes where
  decodes := by
    have whole := reads []
    rw [List.append_nil] at whole
    rw [decode_binary_eq, parseBinary, whole]
    rfl
  refusesMore more some := by
    obtain ⟨byte, others, rfl⟩ := List.exists_cons_of_ne_nil some
    refine ⟨.trailing (byte :: others).length, ?_, ?_⟩
    · rw [decode_binary_eq, parseBinary, reads]
      rfl
    · rw [DecodeError.message, Decimal.text_eq_toString]
  refusesFewer front isPrefix cut := by
    obtain ⟨back, rfl⟩ := isPrefix
    have behind : back ≠ [] := by
      rintro rfl
      exact cut (List.append_nil front).symm
    have whole := reads []
    rw [List.append_nil] at whole
    refine ⟨.fault .malformed, ?_⟩
    rw [decode_binary_eq, parseBinary, content.steady.read_eq_none whole behind]
    rfl

/-- **The binary format delimits itself and is exact for regular timestamps.** It encodes every
value, and all spellings of a value decode to the value that is read where it was written and to
nothing else, with bytes behind them counted and refused, and bytes missing from them noticed. This
is the value itself just if its timestamps are regular. A byte string has a word of 64 bits for its
length. -/
theorem binary_delimits (content : Content) (value : content.Carrier) :
    (∃ bytes, Format.binary.encode content value = .ok bytes ∧ content.Spells value bytes) ∧
      (∀ bytes, content.Spells value bytes → bytes.length < UInt64.size →
        Format.binary.Delimits content (content.reread value) bytes) ∧
      (content.reread value = value ↔ content.IsRegular value) :=
  ⟨⟨_, rfl, content.spells_write value⟩,
    fun _ spells fits => delimits_of_reads (spells.reads fits), content.reread_eq_self_iff⟩

/-- A page whose row lists its columns from the last name to the first, among them a leap second
at the end of a minute. -/
theorem binary_delimits_page_listed_backwards :
    let listing : Listing := [("seen", .timestamp ⟨59, 1500000000, by decide, by decide⟩),
      ("due", .double ⟨0x7ff8000000000001⟩), ("count", .int32 (-126))]
    let page : Page := ⟨[.ofList listing], some "1"⟩
    let bytes := listingCodec.list.write [listing] ++ Codec.text.option.write (some "1")
    Content.page.Spells page bytes ∧ bytes.length < UInt64.size ∧ Content.page.IsRegular page ∧
      Format.binary.Delimits .page page bytes := by
  intro listing page bytes
  have spells : Content.page.Spells page bytes :=
    ⟨[listing], .cons (by decide +kernel) .nil, rfl⟩
  have fits : bytes.length < UInt64.size := by decide +kernel
  have regular : Content.page.IsRegular page := by decide +kernel
  have ⟨_, delimits, exact⟩ := binary_delimits .page page
  have delimitsPage := delimits bytes spells fits
  rw [exact.2 regular] at delimitsPage
  exact ⟨spells, fits, regular, delimitsPage⟩

/-- **A leap second in the middle of a minute is decoded as the next second.** -/
theorem decode_binary_leap :
    let bytes := Content.value.binary.write (.timestamp Sample.leap)
    Format.binary.encode .value (.timestamp Sample.leap) = .ok bytes ∧
      Format.binary.decode .value bytes = .ok (.timestamp Sample.next) ∧
      Value.timestamp Sample.next ≠ .timestamp Sample.leap :=
  ⟨rfl, decode_binary (by decide +kernel), by decide⟩

end Format

end Standby
