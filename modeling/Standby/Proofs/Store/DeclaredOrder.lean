import Standby.Proofs.Store.KeyOrder
import Standby.Proofs.Store.Paging

/-!
# Listings and the declared order of rows

A schema says of each clustering column whether rows are arranged from greater to smaller values of
it. A store in memory does not look at that: it lists rows from smaller to greater values of every
key column. So rows are listed in the declared order just if no two of them first differ in a column
that is declared as descending (`listed_in_key_order`), and otherwise they are not: scores which are
declared as descending are listed in ascending order (`scores_listed_ascending`).

That holds of every page, whatever it is asked for with, and of the pages that are handed out one
after another. They show parts of what the store lists, in the same order, and key columns are
always shown.
-/

set_option autoImplicit false

namespace Standby

/-- The key columns in the order in which they count. Partition columns are ascending. -/
def PrimaryKey.arrangement (key : PrimaryKey) : List ClusteringColumn :=
  key.partition.map (⟨·, false⟩) ++ key.clustering

theorem PrimaryKey.map_name_arrangement (key : PrimaryKey) :
    key.arrangement.map (·.name) = key.names := by
  rw [arrangement, names, List.map_append, List.map_map]
  exact congrArg (· ++ _) (List.map_id _)

/-- Key columns are always shown. -/
theorem Ledger.get?_shown {entity : Entity} {name : String} (isKey : name ∈ entity.keyNames)
    (selection : Selection) (row : Row) :
    (Ledger.shown selection entity row).get? name = row.get? name := by
  ext value
  rw [Ledger.shown, FieldMap.get?_filter, Option.filter_eq_some_iff]
  simp [isKey]

namespace Memory

/-! ## Directions -/

/-- How two rows compare by columns that have directions, the first of which counts most. -/
def compareDirected : List ClusteringColumn → Row → Row → Ordering
  | [], _, _ => .eq
  | column :: columns, first, second =>
    let ascending := compareColumn (first.get? column.name) (second.get? column.name)
    (if column.descending then ascending.swap else ascending).then
      (compareDirected columns first second)

/-- Whether the first column in which two rows differ is a descending one. -/
def partDescending : List ClusteringColumn → Row → Row → Bool
  | [], _, _ => false
  | column :: columns, first, second =>
    match compareColumn (first.get? column.name) (second.get? column.name) with
    | .eq => partDescending columns first second
    | _ => column.descending

/-- **Directions.** A row that comes no later than another by ascending columns comes later by their
directions just if the rows part at a descending column. -/
theorem compareDirected_ne_gt_iff {columns : List ClusteringColumn} {first second : Row}
    (before : compareKeys (columns.map (·.name)) first second ≠ .gt) :
    compareDirected columns first second ≠ .gt ↔ ¬partDescending columns first second := by
  induction columns with
  | nil => simp [compareDirected, partDescending]
  | cons column columns ih =>
    rw [List.map_cons, compareKeys] at before
    rw [compareDirected, partDescending]
    cases order : compareColumn (first.get? column.name) (second.get? column.name) with
    | eq =>
      rw [order] at before
      simpa using ih before
    | lt => cases column.descending <;> simp
    | gt =>
      rw [order] at before
      exact absurd rfl before

theorem not_partDescending {columns : List ClusteringColumn}
    (ascending : ∀ column ∈ columns, column.descending = false) (first second : Row) :
    ¬partDescending columns first second := by
  induction columns with
  | nil => simp [partDescending]
  | cons column columns ih =>
    obtain ⟨here, later⟩ := List.forall_mem_cons.1 ascending
    rw [partDescending]
    split
    next => exact ih later
    next => simp [here]

/-! ## What is shown -/

theorem compareKeys_congr {columns : List String} {first second other another : Row}
    (same : ∀ column ∈ columns, first.get? column = other.get? column)
    (sameToo : ∀ column ∈ columns, second.get? column = another.get? column) :
    compareKeys columns first second = compareKeys columns other another := by
  induction columns with
  | nil => rfl
  | cons column columns ih =>
    obtain ⟨here, later⟩ := List.forall_mem_cons.1 same
    obtain ⟨hereToo, laterToo⟩ := List.forall_mem_cons.1 sameToo
    rw [compareKeys, compareKeys, here, hereToo, ih later laterToo]

/-- Rows compare by key columns as what is shown of them does. -/
theorem compareKeys_shown (entity : Entity) (selection : Selection) (first second : Row) :
    compareKeys entity.keyNames (Ledger.shown selection entity first)
      (Ledger.shown selection entity second) = compareKeys entity.keyNames first second :=
  compareKeys_congr (fun _ isKey => Ledger.get?_shown isKey selection first)
    (fun _ isKey => Ledger.get?_shown isKey selection second)

/-- Whether rows are what is shown of a part of listed ones, in the same order. -/
def ShowsPart (entity : Entity) (selection : Selection) (listed rows : List Row) : Prop :=
  ∃ part : List Row, part.Sublist listed ∧ rows = part.map (Ledger.shown selection entity)

/-! ## What is listed -/

variable {entity : Entity} {conditions : Conditions} {selection : Selection}
  {token : Option String} {limit : UInt64}

/-- A page is a part of the listed rows from where its token points, and rows stay as they are. -/
theorem exists_slice {memory after : Memory} {page : Page}
    (asked : step (.range entity conditions selection token limit) memory = (.ok page, after)) :
    ∃ offset, Page.offset? token = some offset ∧
      page = (Page.slice (memory.listing entity conditions) offset limit.toNat).mapRows
        (Ledger.shown selection entity) ∧ after.rows = memory.rows := by
  have isPage : (step (.range entity conditions selection token limit) memory).1 = .ok page := by
    rw [asked]
  have sameRows : (step (.range entity conditions selection token limit) memory).2.rows =
      memory.rows := by
    rw [rows_step]
    split <;> rfl
  rw [asked] at sameRows
  rw [result_range, Ledger.page] at isPage
  split at isPage
  next =>
    split at isPage
    next => cases isPage
    next offset isOffset => exact ⟨offset, isOffset, (Except.ok.inj isPage).symm, sameRows⟩
  next => cases isPage

theorem showsPart_of_page {memory : Memory} {page : Page}
    (asked : (step (.range entity conditions selection token limit) memory).1 = .ok page) :
    ShowsPart entity selection (memory.listing entity conditions) page.rows := by
  obtain ⟨offset, -, rfl, -⟩ := exists_slice (Prod.ext asked rfl)
  exact ⟨_, (List.take_sublist limit.toNat _).trans (List.drop_sublist offset _), rfl⟩

/-- Pages that are asked for one after another show a part of the listed rows from where the first
token points. -/
theorem exists_offset_of_walk {memory after : Memory} {pages : List (List Row)}
    (walk : Walk (fun token => step (.range entity conditions selection token limit)) token memory
      pages after) :
    ∃ offset, Page.offset? token = some offset ∧
      ShowsPart entity selection ((memory.listing entity conditions).drop offset)
        pages.flatten := by
  induction walk with
  | @last token memory after page asked isLast =>
    obtain ⟨offset, isOffset, rfl, -⟩ := exists_slice asked
    refine ⟨offset, isOffset, _, List.take_sublist limit.toNat _, ?_⟩
    rw [List.flatten_singleton]
    rfl
  | @more token next memory between after page pages asked isNext others ih =>
    obtain ⟨offset, isOffset, rfl, sameRows⟩ := exists_slice asked
    obtain ⟨later, isLater, rest, isRest, areRest⟩ := ih
    have sameListing : between.listing entity conditions = memory.listing entity conditions := by
      rw [listing, listing, rowsOf, rowsOf, sameRows]
    rw [Page.next_slice isNext] at isLater
    rw [Page.eq_of_offset?_text isLater, sameListing] at isRest
    let here := Page.slice (memory.listing entity conditions) offset limit.toNat
    refine ⟨offset, isOffset, here.rows ++ rest, ?_, ?_⟩
    · rw [← Page.slice_append _ offset limit.toNat]
      exact (List.Sublist.refl _).append isRest
    · rw [List.flatten_cons, areRest, List.map_append]
      rfl

theorem showsPart_of_walk {memory after : Memory} {pages : List (List Row)}
    (walk : Walk (fun token => step (.range entity conditions selection token limit)) token memory
      pages after) :
    ShowsPart entity selection (memory.listing entity conditions) pages.flatten := by
  obtain ⟨offset, -, part, isPart, areRows⟩ := exists_offset_of_walk walk
  exact ⟨part, isPart.trans (List.drop_sublist offset _), areRows⟩

/-- Rows that a store lists for an entity: those of a page, or those of pages that are asked for one
after another, from any token on. -/
inductive Lists (memory : Memory) (entity : Entity) : List Row → Prop where
  | range {conditions : Conditions} {selection : Selection} {token : Option String} {limit : UInt64}
      {page : Page}
      (asked : (step (.range entity conditions selection token limit) memory).1 = .ok page) :
      Lists memory entity page.rows
  | scan {selection : Selection} {token : Option String} {limit : UInt64} {page : Page}
      (asked : (step (.scan entity selection token limit) memory).1 = .ok page) :
      Lists memory entity page.rows
  | ranges {conditions : Conditions} {selection : Selection} {token : Option String}
      {limit : UInt64} {pages : List (List Row)} {after : Memory}
      (walk : Walk (fun token => step (.range entity conditions selection token limit)) token memory
        pages after) :
      Lists memory entity pages.flatten
  | scans {selection : Selection} {token : Option String} {limit : UInt64}
      {pages : List (List Row)} {after : Memory}
      (walk : Walk (fun token => step (.scan entity selection token limit)) token memory
        pages after) :
      Lists memory entity pages.flatten

/-- All rows that are listed show a part of one listing, which for a scan is the one without
conditions. -/
theorem Lists.showsPart {memory : Memory} {rows : List Row} (lists : memory.Lists entity rows) :
    ∃ conditions selection, ShowsPart entity selection (memory.listing entity conditions) rows := by
  cases lists with
  | range asked => exact ⟨_, _, showsPart_of_page asked⟩
  | scan asked => exact ⟨.empty, _, showsPart_of_page asked⟩
  | ranges walk => exact ⟨_, _, showsPart_of_walk walk⟩
  | scans walk => exact ⟨.empty, _, showsPart_of_walk walk⟩

/-- Listed rows ascend by their key columns. -/
theorem Lists.ascending {memory : Memory} {rows : List Row} (lists : memory.Lists entity rows)
    (noNaN : memory.LacksNaN entity) :
    rows.Pairwise fun earlier later => compareKeys entity.keyNames earlier later ≠ .gt := by
  obtain ⟨conditions, selection, part, isPart, rfl⟩ := lists.showsPart
  refine List.pairwise_map.2 (((listing_pairwise noNaN conditions).sublist isPart).imp ?_)
  intro earlier later before
  rwa [compareKeys_shown]

end Memory

namespace Entity

/-- Whether rows are in the order that an entity declares: no row comes after one that is greater by
partition columns in ascending order and clustering columns in their directions. -/
def InDeclaredOrder (entity : Entity) (rows : List Row) : Prop :=
  rows.Pairwise fun earlier later =>
    Memory.compareDirected entity.schema.key.arrangement earlier later ≠ .gt

instance (entity : Entity) (rows : List Row) : Decidable (entity.InDeclaredOrder rows) :=
  inferInstanceAs (Decidable (rows.Pairwise fun earlier later =>
    Memory.compareDirected entity.schema.key.arrangement earlier later ≠ .gt))

end Entity

/-- Rows that ascend are in the declared order just if no two of them part at a descending column.
-/
theorem Entity.inDeclaredOrder_iff {entity : Entity} {rows : List Row}
    (ascending : rows.Pairwise fun earlier later =>
      Memory.compareKeys entity.keyNames earlier later ≠ .gt) :
    entity.InDeclaredOrder rows ↔ rows.Pairwise fun earlier later =>
      ¬Memory.partDescending entity.schema.key.arrangement earlier later := by
  rw [Entity.keyNames, ← PrimaryKey.map_name_arrangement] at ascending
  constructor
  · exact fun declared => (ascending.and declared).imp fun ⟨before, ordered⟩ =>
      (Memory.compareDirected_ne_gt_iff before).1 ordered
  · exact fun apart => (ascending.and apart).imp fun ⟨before, notParted⟩ =>
      (Memory.compareDirected_ne_gt_iff before).2 notParted

/-- **Rows are listed in ascending order of their key columns**, unless one of those may hold a
not-a-number. That is the declared order just if no two listed rows part at a descending column. So
all listings are in the declared order of an entity without such columns. -/
theorem listed_in_key_order {memory : Memory} {entity : Entity} (noNaN : memory.LacksNaN entity)
    {rows : List Row} (lists : memory.Lists entity rows) :
    (rows.Pairwise fun earlier later =>
      Memory.compareKeys entity.keyNames earlier later ≠ .gt) ∧
    (entity.InDeclaredOrder rows ↔ rows.Pairwise fun earlier later =>
      ¬Memory.partDescending entity.schema.key.arrangement earlier later) ∧
    ((∀ column ∈ entity.schema.key.clustering, column.descending = false) →
      entity.InDeclaredOrder rows) := by
  have ascending := lists.ascending noNaN
  have declared := Entity.inDeclaredOrder_iff ascending
  refine ⟨ascending, declared, fun noneDescends => declared.2 ?_⟩
  refine List.pairwise_of_forall fun earlier later => Memory.not_partDescending ?_ earlier later
  intro column isColumn
  rcases List.mem_append.1 isColumn with isPartition | isClustering
  · obtain ⟨name, -, rfl⟩ := List.mem_map.1 isPartition
    rfl
  · exact noneDescends column isClustering

/-- Scores of two players are listed in the declared order: they part at the column of players. -/
theorem listed_in_key_order_of_players :
    let entity := Sample.scores
    let rows : List Row := [.ofList [("id", .int32 1), ("score", .double ⟨0x3ff0000000000000⟩)],
      .ofList [("id", .int32 2), ("score", .double ⟨0x4000000000000000⟩)]]
    let memory : Memory := rows.foldl
      (fun memory row => (Memory.step (.upsert entity row) memory).2) {}
    memory.LacksNaN entity ∧ memory.Lists entity rows ∧ entity.InDeclaredOrder rows := by
  intro entity rows memory
  have noNaN : memory.LacksNaN entity := by decide +kernel
  have listing : memory.rowsOf entity = rows := by
    rw [Memory.rowsOf, List.mergeSort_of_pairwise (by decide +kernel)]
    decide +kernel
  have asked : (Memory.step (.range entity .empty .all none 10) memory).1 = .ok ⟨rows, none⟩ := by
    rw [Memory.result_range, Memory.listing_empty, listing]
    rfl
  have lists : memory.Lists entity rows := .range asked
  exact ⟨noNaN, lists, (listed_in_key_order noNaN lists).2.1.2 (by decide +kernel)⟩

/-- Scores that are declared as descending are listed in ascending order. -/
theorem scores_listed_ascending :
    let entity := Sample.scores
    let one := Sample.score ⟨0x3ff0000000000000⟩
    let two := Sample.score ⟨0x4000000000000000⟩
    let memory : Memory := [one, two].foldl
      (fun memory row => (Memory.step (.upsert entity row) memory).2) {}
    memory.LacksNaN entity ∧
      (Memory.step (.range entity .empty .all none 10) memory).1 = .ok ⟨[one, two], none⟩ ∧
      ¬entity.InDeclaredOrder [one, two] := by
  intro entity one two memory
  have noNaN : memory.LacksNaN entity := by decide +kernel
  refine ⟨noNaN, ?_, by decide +kernel⟩
  have listing : memory.rowsOf entity = [one, two] := by
    rw [Memory.rowsOf, List.mergeSort_of_pairwise (by decide +kernel)]
    decide +kernel
  rw [Memory.result_range, Memory.listing_empty, listing]
  rfl

end Standby
