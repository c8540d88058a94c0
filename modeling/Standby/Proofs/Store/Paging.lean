import Standby.Proofs.Store.Parts
import Standby.Proofs.Store.Ledger
import Standby.Proofs.TimestampText

/-!
# Paging loses and repeats nothing

Who wants all rows of a range asks for a first page, without a token, and then for one page after
another with the token of the page before, until there is none (`Walk`). For every limit above zero
such a walk ends after as many calls as it takes to hand out the rows, one at least, and its pages
put together are just the listed rows in their order. That is so for both stores, and a store in
memory counts each call (`paging_loses_nothing`).

A token is a number of rows. What else it may be is settled by how it is written
(`Page.offset?_eq_some_iff`): an optional plus sign, decimal digits and a value that a word of 64
bits holds. Everything else is refused, and what is not refused ends within the words of 64 bits.
Those count the rows of a store, so there are no more of them.
-/

set_option autoImplicit false

namespace Standby

/-! ## Tokens -/

namespace Decimal

theorem digitChar_of_ofChar? {char : Char} {digit : Nat} (isDigit : ofChar? char = some digit) :
    digitChar digit = char ∧ digit < 10 := by
  rw [ofChar?] at isDigit
  split at isDigit
  next between =>
    obtain ⟨first, last⟩ := between
    have low : 48 ≤ char.toNat := first
    have high : char.toNat ≤ 57 := last
    cases isDigit
    refine ⟨?_, by omega⟩
    rw [digitChar, Nat.add_sub_cancel' low, Char.ofNat_toNat]
  next => cases isDigit

/-- Splitting off digits takes a text apart at a place before which there are digits only. -/
theorem eq_of_spanChars_eq {chars rest : List Char} {digits : List Nat}
    (split : spanChars chars = (digits, rest)) :
    chars = digits.map digitChar ++ rest ∧ ∀ digit ∈ digits, digit < 10 := by
  induction chars generalizing digits with
  | nil =>
    cases split
    exact ⟨rfl, by simp⟩
  | cons char chars ih =>
    rw [spanChars] at split
    cases isDigit : ofChar? char with
    | none =>
      rw [isDigit] at split
      cases split
      exact ⟨rfl, by simp⟩
    | some digit =>
      rw [isDigit] at split
      cases split
      obtain ⟨same, small⟩ := ih rfl
      obtain ⟨isChar, isSmall⟩ := digitChar_of_ofChar? isDigit
      refine ⟨?_, List.forall_mem_cons.2 ⟨isSmall, small⟩⟩
      rw [List.map_cons, List.cons_append, isChar, ← same]

/-- Of characters that are all digits nothing is left. -/
theorem spanChars_map_digitChar {digits : List Nat} (small : ∀ digit ∈ digits, digit < 10) :
    spanChars (digits.map digitChar) = (digits, []) := by
  have noMore : NoDigitAhead [] := by simp [NoDigitAhead]
  simpa using spanChars_digits small noMore

end Decimal

namespace Page

open Decimal

/-- Whether a token is written as a number of rows: an optional plus sign, then decimal digits that
stand for a number which a word of 64 bits holds. -/
def IsToken (token : String) (offset : Nat) : Prop :=
  ∃ (sign : List Char) (digits : List Nat), (sign = [] ∨ sign = ['+']) ∧ digits ≠ [] ∧
    (∀ digit ∈ digits, digit < 10) ∧ token.toList = sign ++ digits.map digitChar ∧
    value digits = offset ∧ offset < UInt64.size

/-- The characters of a number without its sign. -/
def unsigned (token : String) : List Char :=
  match token.toList with
  | '+' :: rest => rest
  | chars => chars

theorem unsigned_eq_iff {token : String} {digits : List Nat} (nonempty : digits ≠ [])
    (small : ∀ digit ∈ digits, digit < 10) : unsigned token = digits.map digitChar ↔
      ∃ sign : List Char, (sign = [] ∨ sign = ['+']) ∧
        token.toList = sign ++ digits.map digitChar := by
  have noSign (rest : List Char) : digits.map digitChar ≠ '+' :: rest := by
    cases digits with
    | nil => exact absurd rfl nonempty
    | cons digit digits =>
      intro same
      have plus : digitChar digit = '+' := (List.cons.inj same).1
      have isDigit := ofChar?_digitChar (small digit List.mem_cons_self)
      rw [plus] at isDigit
      exact absurd isDigit (by simp [ofChar?])
  rw [unsigned]
  split
  next rest signed =>
    rw [signed]
    constructor
    · rintro rfl
      exact ⟨['+'], .inr rfl, rfl⟩
    · rintro ⟨sign, rfl | rfl, same⟩
      · exact absurd same.symm (noSign rest)
      · exact (List.cons.inj same).2
  next chars unsigned =>
    constructor
    · exact fun same => ⟨[], .inl rfl, same⟩
    · rintro ⟨sign, rfl | rfl, same⟩
      · exact same
      · exact absurd same (unsigned _)

/-- The word that leading digits stand for, unless something follows them. -/
def wordOf? : List Nat × List Char → Option UInt64
  | (digits, []) =>
    if digits ≠ [] ∧ value digits < UInt64.size then some (UInt64.ofNat (value digits)) else none
  | _ => none

theorem word?_eq (token : String) : word? token = wordOf? (spanChars (unsigned token)) := rfl

/-- **Tokens.** A token is read as a number just if it is written as that number. -/
theorem offset?_eq_some_iff {token : String} {offset : Nat} :
    offset? (some token) = some offset ↔ IsToken token offset := by
  rw [offset?, word?_eq]
  constructor
  · intro found
    unfold wordOf? at found
    split at found
    next digits split =>
      split at found
      next valid =>
        obtain ⟨nonempty, fits⟩ := valid
        obtain ⟨same, small⟩ := eq_of_spanChars_eq split
        rw [List.append_nil] at same
        obtain ⟨sign, isSign, isText⟩ := (unsigned_eq_iff nonempty small).1 same
        rw [Option.map_some, UInt64.toNat_ofNat_of_lt' fits] at found
        cases found
        exact ⟨sign, digits, isSign, nonempty, small, isText, rfl, fits⟩
      next => cases found
    next => cases found
  · rintro ⟨sign, digits, isSign, nonempty, small, isText, rfl, fits⟩
    rw [(unsigned_eq_iff nonempty small).2 ⟨sign, isSign, isText⟩, spanChars_map_digitChar small,
      wordOf?, if_pos ⟨nonempty, fits⟩, Option.map_some, UInt64.toNat_ofNat_of_lt' fits]

/-- Whether a page is asked for that starts after so many rows. The first page has no token. -/
def StartsAt : Option String → Nat → Prop
  | none, offset => offset = 0
  | some token, offset => IsToken token offset

theorem offset?_eq_some_iff_startsAt {token : Option String} {offset : Nat} :
    offset? token = some offset ↔ StartsAt token offset := by
  cases token with
  | none => simp [offset?, StartsAt, eq_comm]
  | some token => exact offset?_eq_some_iff

theorem offset?_eq_none_iff {token : Option String} :
    offset? token = none ↔ ∃ text ∈ token, ∀ offset, ¬IsToken text offset := by
  cases token with
  | none => simp [offset?]
  | some token => simp [Option.eq_none_iff_forall_ne_some, offset?_eq_some_iff]

theorem offset?_lt {token : Option String} {offset : Nat} (isOffset : offset? token = some offset) :
    offset < UInt64.size := by
  cases token with
  | none => cases isOffset; decide
  | some token =>
    obtain ⟨_, _, _, _, _, _, _, fits⟩ := offset?_eq_some_iff.1 isOffset
    exact fits

theorem toList_text (number : Nat) :
    (Decimal.text number).toList = (digits number).map digitChar := by
  rw [Decimal.text, String.toList_ofList, chars]

/-- The token that a page comes with is written as a number of rows. -/
theorem offset?_text {offset : Nat} (fits : offset < UInt64.size) :
    offset? (some (Decimal.text offset)) = some offset :=
  offset?_eq_some_iff.2 ⟨[], digits offset, .inl rfl, digits_ne_nil offset,
    fun _ => digit_lt_ten, toList_text offset, value_digits offset, fits⟩

/-- It is read as that number if it is read at all. -/
theorem eq_of_offset?_text {number offset : Nat}
    (isOffset : offset? (some (Decimal.text number)) = some offset) : offset = number := by
  obtain ⟨sign, others, isSign, nonempty, small, isText, isValue, -⟩ :=
    offset?_eq_some_iff.1 isOffset
  have isSmall : ∀ digit ∈ digits number, digit < 10 := fun _ => digit_lt_ten
  have sameChars := (unsigned_eq_iff nonempty small).2 ⟨sign, isSign, isText⟩
  rw [(unsigned_eq_iff (digits_ne_nil number) isSmall).2 ⟨[], .inl rfl, toList_text number⟩]
    at sameChars
  have sameDigits := congrArg spanChars sameChars
  rw [spanChars_map_digitChar isSmall, spanChars_map_digitChar small] at sameDigits
  rw [← isValue, ← (Prod.mk.inj sameDigits).1, value_digits]

/-! ## Pages of a list -/

/-- The rows of a list, page by page, with at most so many rows on a page; there is at least one
page. -/
def parts (most : Nat) (rows : List Row) : List (List Row) :=
  if 0 < most ∧ most < rows.length then rows.take most :: parts most (rows.drop most) else [rows]
termination_by rows.length
decreasing_by
  next more =>
    rw [List.length_drop]
    omega

theorem flatten_parts (most : Nat) (rows : List Row) : (parts most rows).flatten = rows := by
  fun_induction parts most rows with
  | case1 rows more ih => rw [List.flatten_cons, ih, List.take_append_drop]
  | case2 rows => simp

/-- There are as many pages as it takes to hand out the rows, and at least one. -/
theorem length_parts {most : Nat} (positive : 0 < most) (rows : List Row) :
    (parts most rows).length = max 1 ((rows.length + most - 1) / most) := by
  fun_induction parts most rows with
  | case1 rows more ih =>
    have one_less :
        (rows.length - most + most - 1) / most + 1 = (rows.length + most - 1) / most := by
      rw [← Nat.add_div_right _ positive]
      congr 1
      omega
    have atLeastOne : 1 ≤ (rows.length - most + most - 1) / most :=
      (Nat.one_le_div_iff positive).2 (by omega)
    rw [List.length_cons, ih, List.length_drop]
    omega
  | case2 rows last =>
    have fits : rows.length ≤ most := by simpa [positive] using last
    have atMostOne : (rows.length + most - 1) / most < 2 :=
      (Nat.div_lt_iff_lt_mul positive).2 (by omega)
    rw [List.length_singleton]
    omega

/-- A page that is not the last one is full. -/
theorem slice_of_more {rows : List Row} {offset most : Nat} (positive : 0 < most)
    (more : most < (rows.drop offset).length) : slice rows offset most =
      ⟨(rows.drop offset).take most, some (Decimal.text (offset + most))⟩ := by
  have full : ((rows.drop offset).take most).length = most := List.length_take_of_le more.le
  have before : offset + most < rows.length := by
    rw [List.length_drop] at more
    omega
  have nonempty : (rows.drop offset).take most ≠ [] :=
    List.ne_nil_of_length_pos (by rw [full]; exact positive)
  simp only [slice, full]
  rw [if_pos ⟨before, nonempty⟩]

/-- The last page holds what is left. -/
theorem slice_of_rest {rows : List Row} {offset most : Nat}
    (rest : (rows.drop offset).length ≤ most) :
    slice rows offset most = ⟨rows.drop offset, none⟩ := by
  have whole : (rows.drop offset).take most = rows.drop offset := List.take_of_length_le rest
  have noMore : ¬(offset + (rows.drop offset).length < rows.length ∧ rows.drop offset ≠ []) := by
    rw [List.length_drop]
    omega
  simp only [slice, whole]
  rw [if_neg noMore]

/-- What a page leaves starts after its rows. -/
theorem slice_append (rows : List Row) (offset most : Nat) :
    (slice rows offset most).rows ++ rows.drop (offset + (slice rows offset most).rows.length) =
      rows.drop offset := by
  rw [← List.drop_drop]
  exact List.prefix_iff_eq_append.1 (List.take_prefix most _)

/-- The token of the next page counts the rows up to there. -/
theorem next_slice {rows : List Row} {offset most : Nat} {next : String}
    (isNext : (slice rows offset most).next = some next) :
    next = Decimal.text (offset + (slice rows offset most).rows.length) := by
  simp only [slice] at isNext
  split at isNext
  next => exact (Option.some.inj isNext).symm
  next => cases isNext

/-- A page ends within its list or holds no rows. -/
theorem length_rows_slice (rows : List Row) (offset most : Nat) :
    offset + (slice rows offset most).rows.length ≤ max offset rows.length := by
  simp only [slice, List.length_take, List.length_drop]
  omega

end Page

/-! ## Walks -/

section Walks

variable {S : Type}

/-- Pages that are asked for one after another, each with the token of the one before it, until
there is none: the rows of each page, and what has become of the store. -/
inductive Walk (ask : Option String → S → Except StoreError Page × S) :
    Option String → S → List (List Row) → S → Prop where
  | last {token : Option String} {state after : S} {page : Page}
      (asked : ask token state = (.ok page, after)) (isLast : page.next = none) :
      Walk ask token state [page.rows] after
  | more {token : Option String} {next : String} {state between after : S} {page : Page}
      {pages : List (List Row)} (asked : ask token state = (.ok page, between))
      (isNext : page.next = some next) (others : Walk ask (some next) between pages after) :
      Walk ask token state (page.rows :: pages) after

/-- There is one way to walk. -/
theorem Walk.unique {ask : Option String → S → Except StoreError Page × S} {token : Option String}
    {state after otherAfter : S} {pages otherPages : List (List Row)}
    (walk : Walk ask token state pages after) (other : Walk ask token state otherPages otherAfter) :
    otherPages = pages ∧ otherAfter = after := by
  induction walk generalizing otherPages otherAfter with
  | last asked isLast =>
    cases other with
    | last askedToo =>
      cases asked.symm.trans askedToo
      exact ⟨rfl, rfl⟩
    | more askedToo isNext =>
      cases asked.symm.trans askedToo
      cases isLast.symm.trans isNext
  | more asked isNext _ ih =>
    cases other with
    | last askedToo isLast =>
      cases asked.symm.trans askedToo
      cases isLast.symm.trans isNext
    | more askedToo isNextToo others =>
      cases asked.symm.trans askedToo
      cases isNext.symm.trans isNextToo
      obtain ⟨rfl, rfl⟩ := ih others
      exact ⟨rfl, rfl⟩

/-- What a store that is asked for pages hands out, whatever the limit and the token. -/
structure HandsOut (ask : UInt64 → Option String → S → Except StoreError Page × S) (state : S)
    (rows : List Row) (after : Nat → S) : Prop where
  /-- A walk with a limit above zero ends after as many calls as it takes, and its pages are the
  rows. -/
  complete (limit : UInt64) (positive : 0 < limit) : ∃ pages : List (List Row),
    (∀ others final, Walk (ask limit) none state others final ↔
      others = pages ∧ final = after pages.length) ∧
    pages.length = max 1 ((rows.length + limit.toNat - 1) / limit.toNat) ∧ pages.flatten = rows
  /-- Whatever the limit, only tokens that are no numbers are refused, -/
  refused (limit : UInt64) (token : Option String) (error : StoreError) :
    (ask limit token state).1 = .error error ↔
      error = .invalidToken token ∧ ∃ text ∈ token, ∀ offset, ¬Page.IsToken text offset
  /-- and a page ends within the words of 64 bits. -/
  counted (limit : UInt64) (token : Option String) (page : Page)
    (asked : (ask limit token state).1 = .ok page) :
    ∃ offset, Page.StartsAt token offset ∧ offset + page.rows.length < UInt64.size

variable {ask : UInt64 → Option String → S → Except StoreError Page × S} {after : Nat → S}
  {listed : List Row} {entity : Entity} {selection : Selection}

/-- The rest of a list is handed out from where a token points. -/
theorem walk_parts (counted : listed.length < UInt64.size)
    (asked : ∀ limit token count, ask limit token (after count) =
      (Ledger.page listed entity selection token limit, after (count + 1)))
    {limit : UInt64} (positive : 0 < limit) (rest : List Row) {token : Option String} {offset : Nat}
    (isOffset : Page.offset? token = some offset) (isRest : listed.drop offset = rest)
    (count : Nat) :
    Walk (ask limit) token (after count)
      ((Page.parts limit.toNat rest).map (·.map (Ledger.shown selection entity)))
      (after (count + (Page.parts limit.toNat rest).length)) := by
  have positiveToo : 0 < limit.toNat := positive
  have isPage := asked limit token count
  simp only [Ledger.page, isOffset] at isPage
  fun_induction Page.parts limit.toNat rest generalizing token offset count with
  | case1 rest more ih =>
    subst isRest
    rw [Page.slice_of_more positiveToo more.2] at isPage
    have fits : offset + limit.toNat < UInt64.size := by
      have := more.2
      rw [List.length_drop] at this
      omega
    have isNext := Page.offset?_text fits
    have others := ih isNext (List.drop_drop ..).symm (count + 1) (by
      rw [asked, Ledger.page, isNext])
    rw [List.length_cons, Nat.add_comm _ 1, ← Nat.add_assoc]
    exact .more isPage rfl others
  | case2 rest isLast =>
    subst isRest
    rw [Page.slice_of_rest (by simpa [positiveToo] using isLast)] at isPage
    exact .last isPage rfl

/-- A store that answers with parts of a list hands out that list. -/
theorem handsOut_of_asked (counted : listed.length < UInt64.size)
    (asked : ∀ limit token count, ask limit token (after count) =
      (Ledger.page listed entity selection token limit, after (count + 1))) :
    HandsOut ask (after 0) (listed.map (Ledger.shown selection entity)) after where
  complete limit positive := by
    have first : Page.offset? none = some 0 := rfl
    have walk := walk_parts counted asked positive listed first List.drop_zero 0
    rw [Nat.zero_add] at walk
    let shown := Ledger.shown selection entity
    refine ⟨(Page.parts limit.toNat listed).map (·.map shown), fun others final => ?_, ?_, ?_⟩
    · rw [List.length_map]
      constructor
      · exact walk.unique
      · rintro ⟨rfl, rfl⟩
        exact walk
    · rw [List.length_map, List.length_map]
      have positiveToo : 0 < limit.toNat := positive
      exact Page.length_parts positiveToo listed
    · rw [← List.map_flatten, Page.flatten_parts]
  refused limit token error := by
    rw [asked, Ledger.page, ← Page.offset?_eq_none_iff]
    cases Page.offset? token <;> simp [eq_comm]
  counted limit token page isPage := by
    rw [asked, Ledger.page] at isPage
    cases isOffset : Page.offset? token with
    | none => simp [isOffset] at isPage
    | some offset =>
      simp only [isOffset, Except.ok.injEq] at isPage
      subst isPage
      refine ⟨offset, Page.offset?_eq_some_iff_startsAt.1 isOffset, ?_⟩
      have fits := Page.offset?_lt isOffset
      have within := Page.length_rows_slice listed offset limit.toNat
      rw [Page.mapRows, List.length_map]
      omega

end Walks

/-! ## The two stores -/

theorem Conditions.hold_empty (row : Row) : Conditions.hold .empty row := rfl

namespace Memory

/-- A store in memory that was asked for some more pages. -/
def paged (memory : Memory) (count : Nat) : Memory :=
  { memory with calls := { memory.calls with ranges := memory.calls.ranges + count } }

theorem length_listing_le (memory : Memory) (entity : Entity) (conditions : Conditions) :
    (memory.listing entity conditions).length ≤ memory.rows.size := by
  rw [(memory.listing_perm entity conditions).length_eq, List.length_map]
  exact List.length_filter_le _ _

/-- All rows of an entity are listed if there are no conditions. -/
theorem listing_empty (memory : Memory) (entity : Entity) :
    memory.listing entity .empty = memory.rowsOf entity :=
  List.filter_eq_self.2 fun row _ => Conditions.hold_empty row

theorem step_range {memory : Memory} (isAvailable : memory.isAvailable) (entity : Entity)
    (conditions : Conditions) (selection : Selection) (token : Option String) (limit : UInt64)
    (count : Nat) :
    step (.range entity conditions selection token limit) (memory.paged count) =
      (Ledger.page (memory.listing entity conditions) entity selection token limit,
        memory.paged (count + 1)) := by
  have still : (memory.paged count).isAvailable := isAvailable
  rw [step, if_pos (answers_of_isAvailable still _), serve, page_eq]
  rfl

theorem step_scan {memory : Memory} (isAvailable : memory.isAvailable) (entity : Entity)
    (selection : Selection) (token : Option String) (limit : UInt64) (count : Nat) :
    step (.scan entity selection token limit) (memory.paged count) =
      (Ledger.page (memory.rowsOf entity) entity selection token limit,
        memory.paged (count + 1)) := by
  have still : (memory.paged count).isAvailable := isAvailable
  rw [step, if_pos (answers_of_isAvailable still _), serve, page_eq, ← listing_empty]
  rfl

/-- An available store hands out the rows of an entity that satisfy the conditions. -/
theorem handsOut_range {memory : Memory} (isAvailable : memory.isAvailable)
    (fits : memory.rows.size < UInt64.size) (entity : Entity) (conditions : Conditions)
    (selection : Selection) :
    HandsOut (fun limit token => step (.range entity conditions selection token limit)) memory
      ((memory.listing entity conditions).map (Ledger.shown selection entity)) memory.paged := by
  have counted := (memory.length_listing_le entity conditions).trans_lt fits
  exact handsOut_of_asked counted fun limit token count =>
    step_range isAvailable entity conditions selection token limit count

/-- An available store hands out all rows of an entity. -/
theorem handsOut_scan {memory : Memory} (isAvailable : memory.isAvailable)
    (fits : memory.rows.size < UInt64.size) (entity : Entity) (selection : Selection) :
    HandsOut (fun limit token => step (.scan entity selection token limit)) memory
      ((memory.rowsOf entity).map (Ledger.shown selection entity)) memory.paged := by
  have counted := (memory.length_listing_le entity .empty).trans_lt fits
  rw [listing_empty] at counted
  exact handsOut_of_asked counted fun limit token count =>
    step_scan isAvailable entity selection token limit count

end Memory

namespace Bounded

/-- Rows under their encoded keys that are just those which a bounded store has under a text, in
ascending order of the keys. -/
structure IsListing (bounded : Bounded) (text : String) (bindings : List (Bytes × Row)) : Prop where
  ascending : bindings.Pairwise fun earlier later => compare earlier.1 later.1 = .lt
  mem_iff (key : Bytes) (row : Row) : (key, row) ∈ bindings ↔
    (bounded.rows.get? ⟨text, key⟩).map (·.row) = some row

/-- Whether an entry comes no later than another in the order of encoded keys. -/
def keyLE (first second : Address × BoundedRow) : Bool :=
  compare first.1.key second.1.key != .gt

theorem keyLE_iff {first second : Address × BoundedRow} :
    keyLE first second ↔ (compare first.1.key second.1.key).isLE := by
  rw [Ordering.isLE_iff_ne_gt, keyLE, bne_iff_ne]

/-- The entries of an entity in the order of their encoded keys. -/
def entriesOf (bounded : Bounded) (entity : Entity) : List (Address × BoundedRow) :=
  (bounded.rows.keep fun address _ => address.entity == entity.text).entries.mergeSort keyLE

theorem mem_entriesOf {bounded : Bounded} {entity : Entity} {entry : Address × BoundedRow} :
    entry ∈ bounded.entriesOf entity ↔
      entry.1.entity = entity.text ∧ bounded.rows.get? entry.1 = some entry.2 := by
  rw [entriesOf, (List.mergeSort_perm _ _).mem_iff, ← Table.get?_eq_some_iff, Table.get?_keep,
    Option.filter_eq_some_iff, beq_iff_eq, and_comm]

theorem entriesOf_ascending (bounded : Bounded) (entity : Entity) :
    (bounded.entriesOf entity).Pairwise fun earlier later =>
      compare earlier.1.key later.1.key = .lt := by
  have sorted : (bounded.entriesOf entity).Pairwise fun first second => keyLE first second :=
    pairwise_sorted (compareOn fun entry : Address × BoundedRow => entry.1.key) _
  have distinct : (bounded.entriesOf entity).Pairwise fun first second => first.1 ≠ second.1 := by
    let kept := bounded.rows.keep fun address _ => address.entity == entity.text
    have reordered := (List.mergeSort_perm kept.entries keyLE).map (·.1)
    exact List.pairwise_map.1 (reordered.nodup_iff.2 kept.distinct)
  refine (sorted.and distinct).imp_of_mem ?_
  rintro ⟨⟨text, key⟩, first⟩ ⟨⟨otherText, otherKey⟩, second⟩ isFirst isSecond ⟨before, apart⟩
  obtain ⟨rfl, -⟩ := mem_entriesOf.1 isFirst
  obtain ⟨rfl, -⟩ := mem_entriesOf.1 isSecond
  cases order : compare key otherKey with
  | lt => rfl
  | eq => exact absurd (congrArg _ (Std.LawfulEqCmp.eq_of_compare order)) apart
  | gt =>
    rw [keyLE_iff, order] at before
    cases before

/-- The listed rows are those under their keys. -/
theorem exists_isListing (bounded : Bounded) (entity : Entity) :
    ∃ bindings, bounded.IsListing entity.text bindings ∧
      bounded.rowsOf entity = bindings.map (·.2) := by
  let binding (entry : Address × BoundedRow) : Bytes × Row := (entry.1.key, entry.2.row)
  refine ⟨(bounded.entriesOf entity).map binding, ⟨?_, fun key row => ?_⟩, ?_⟩
  · exact List.pairwise_map.2 (bounded.entriesOf_ascending entity)
  · rw [List.mem_map, Option.map_eq_some_iff]
    constructor
    · rintro ⟨⟨⟨text, _⟩, found⟩, member, same⟩
      obtain ⟨rfl, rfl⟩ := Prod.mk.inj same
      obtain ⟨rfl, isFound⟩ := mem_entriesOf.1 member
      exact ⟨found, isFound, rfl⟩
    · rintro ⟨found, isFound, rfl⟩
      exact ⟨(⟨entity.text, key⟩, found), mem_entriesOf.2 ⟨rfl, isFound⟩, rfl⟩
  · rw [List.map_map]
    rfl

theorem length_rowsOf_le (bounded : Bounded) (entity : Entity) :
    (bounded.rowsOf entity).length ≤ bounded.rows.size := by
  rw [rowsOf, List.length_map, List.length_mergeSort]
  exact List.length_filter_le _ _

theorem step_scan (bounded : Bounded) (entity : Entity) (selection : Selection)
    (token : Option String) (limit : UInt64) :
    step (.scan entity selection token limit) bounded =
      (Ledger.page (bounded.rowsOf entity) entity selection token limit, bounded) := by
  have sameColumns : selection.project entity = Ledger.shown selection entity :=
    funext (Memory.project_eq_shown selection entity)
  rw [step, page, sameColumns]
  rfl

/-- A bounded store hands out all rows of an entity. -/
theorem handsOut_scan {bounded : Bounded} (fits : bounded.rows.size < UInt64.size)
    (entity : Entity) (selection : Selection) :
    HandsOut (fun limit token => step (.scan entity selection token limit)) bounded
      ((bounded.rowsOf entity).map (Ledger.shown selection entity)) fun _ => bounded := by
  have counted := (bounded.length_rowsOf_le entity).trans_lt fits
  exact handsOut_of_asked counted fun limit token _ =>
    bounded.step_scan entity selection token limit

end Bounded

/-- **Paging loses and repeats nothing.** A store in memory hands out the rows of an entity that
satisfy the conditions, as wholes, in the order in which it lists its rows, and shows the selected
columns of each. A bounded store hands out all rows of an entity in the order of their encoded keys.
Nothing but the count of calls changes meanwhile. -/
theorem paging_loses_nothing {memory : Memory} (isAvailable : memory.isAvailable)
    (fits : memory.rows.size < UInt64.size) {bounded : Bounded}
    (fitsToo : bounded.rows.size < UInt64.size) (entity : Entity) (conditions : Conditions)
    (selection : Selection) :
    HandsOut (fun limit token => Memory.step (.range entity conditions selection token limit))
      memory (((memory.rowsOf entity).filter conditions.hold).map (Ledger.shown selection entity))
      memory.paged ∧
    HandsOut (fun limit token => Memory.step (.scan entity selection token limit))
      memory ((memory.rowsOf entity).map (Ledger.shown selection entity)) memory.paged ∧
    ∃ bindings, bounded.IsListing entity.text bindings ∧
      HandsOut (fun limit token => Bounded.step (.scan entity selection token limit))
        bounded (bindings.map fun binding => Ledger.shown selection entity binding.2)
        fun _ => bounded := by
  refine ⟨Memory.handsOut_range isAvailable fits entity conditions selection,
    Memory.handsOut_scan isAvailable fits entity selection, ?_⟩
  obtain ⟨bindings, isListing, areRows⟩ := bounded.exists_isListing entity
  have handsOut := Bounded.handsOut_scan fitsToo entity selection
  rw [areRows, List.map_map] at handsOut
  exact ⟨bindings, isListing, handsOut⟩

/-- Of five accounts three are open. They take two pages of two rows, and all five take three pages,
each asked for with the token of the one before. -/
theorem paging_loses_nothing_of_five :
    let entity := Sample.accounts
    let account (id : Int32) (isOpen : Bool) : Row := .ofList [("id", .int32 id),
      ("open", .bool isOpen)]
    let rows := [account 1 true, account 2 false, account 3 true, account 4 false, account 5 true]
    let memory : Memory := rows.foldl (fun memory row =>
      (Memory.step (.upsert entity row) memory).2) {}
    let bounded : Bounded := rows.foldl (fun bounded row =>
      (Bounded.step (.upsert entity row) bounded).2) {}
    let areOpen : Conditions := .ofList [("open", [⟨.eq, .bool true⟩])]
    let shown (id : Int32) : Row := .ofList [("id", .int32 id)]
    memory.isAvailable ∧ memory.rows.size < UInt64.size ∧ bounded.rows.size < UInt64.size ∧
    (∃ pages, Walk (fun token => Memory.step (.range entity areOpen (.only []) token 2)) none memory
        pages (memory.paged 2) ∧
      pages.length = 2 ∧ pages.flatten = [shown 1, shown 3, shown 5]) ∧
    (∃ pages, Walk (fun token => Memory.step (.scan entity (.only []) token 2)) none memory
        pages (memory.paged 3) ∧
      pages.length = 3 ∧ pages.flatten = [shown 1, shown 2, shown 3, shown 4, shown 5]) ∧
    ∃ bindings pages, bounded.IsListing entity.text bindings ∧
      Walk (fun token => Bounded.step (.scan entity (.only []) token 2)) none bounded pages
        bounded ∧
      pages.flatten = bindings.map fun binding => Ledger.shown (.only []) entity binding.2 := by
  intro entity account rows memory bounded areOpen shown
  have isAvailable : memory.isAvailable := by decide +kernel
  have fits : memory.rows.size < UInt64.size := by decide +kernel
  have fitsToo : bounded.rows.size < UInt64.size := by decide +kernel
  have listed : memory.rowsOf entity = rows := by
    rw [Memory.rowsOf, List.mergeSort_of_pairwise (by decide +kernel)]
    decide +kernel
  have ⟨ofRange, ofScan, bindings, isListing, ofBounded⟩ :=
    paging_loses_nothing isAvailable fits fitsToo entity areOpen (.only [])
  rw [listed] at ofRange ofScan
  obtain ⟨openPages, openWalks, openCount, openRows⟩ := ofRange.complete 2 (by decide)
  obtain ⟨pages, walks, count, allRows⟩ := ofScan.complete 2 (by decide)
  obtain ⟨boundedPages, boundedWalks, -, boundedRows⟩ := ofBounded.complete 2 (by decide)
  have twoPages : openPages.length = 2 := openCount.trans (by decide +kernel)
  have threePages : pages.length = 3 := count.trans (by decide +kernel)
  refine ⟨isAvailable, fits, fitsToo, ⟨openPages, ?_, twoPages, openRows.trans (by decide +kernel)⟩,
    ⟨pages, ?_, threePages, allRows.trans (by decide +kernel)⟩,
    bindings, boundedPages, isListing, (boundedWalks _ _).2 ⟨rfl, rfl⟩, boundedRows⟩
  · exact (openWalks _ _).2 ⟨rfl, by rw [twoPages]⟩
  · exact (walks _ _).2 ⟨rfl, by rw [threePages]⟩

end Standby
