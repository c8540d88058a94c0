import Standby.Decimal.Digits
import Standby.FieldMap
import Standby.Value.Basic

/-!
# Entities: what a store keeps rows of

An entity has a location, which says where its rows live, and a schema, which says what they
look like. The location is a scope, a name prefix and a version. The schema names the entity,
its columns and its primary key: the partition columns and after them the clustering columns.
-/

set_option autoImplicit false

namespace Standby

/-- A row, or a part of one: values by column name. -/
abbrev Row := FieldMap Value

/-- Where the rows of an entity live. -/
structure Location where
  scope : String
  namePrefix : String
  version : Int32
  deriving DecidableEq

/-- A key column by which the rows of a partition are arranged. -/
structure ClusteringColumn where
  name : String
  /-- Whether rows are arranged from greater to smaller values. -/
  descending : Bool
  deriving DecidableEq

/-- The columns that identify a row. -/
structure PrimaryKey where
  /-- The columns that choose a partition. -/
  partition : List String
  /-- The columns that choose a row of the partition. -/
  clustering : List ClusteringColumn
  deriving DecidableEq

/-- A column and the type of its values. -/
structure Column where
  name : String
  type : ColumnType
  deriving DecidableEq

/-- What the rows of an entity look like. -/
structure Schema where
  name : String
  key : PrimaryKey
  columns : List Column
  deriving DecidableEq

/-- A kind of rows: their location and their schema. -/
structure Entity where
  location : Location
  schema : Schema
  deriving DecidableEq

/-- The written form of a location: `scope.prefix:vN`. -/
def Location.text (location : Location) : String :=
  location.scope ++ "." ++ location.namePrefix ++ ":v" ++ Decimal.intText location.version.toInt

/-- The names of the key columns, partition columns first, as often as they are declared. -/
def PrimaryKey.names (key : PrimaryKey) : List String :=
  key.partition ++ key.clustering.map (·.name)

/-- The types of the columns; of several columns of one name the last counts. -/
def Schema.columnTypes (schema : Schema) : FieldMap ColumnType :=
  .ofList (schema.columns.map fun column => (column.name, column.type))

/-- The names of a list in ascending order, each once. -/
def distinctNames (names : List String) : List String :=
  (FieldMap.ofList (names.map fun name => (name, ()))).names

namespace Entity

/-- The name of an entity. -/
def name (entity : Entity) : String := entity.schema.name

/-- The written form of an entity: its location and its name. -/
def text (entity : Entity) : String := entity.location.text ++ "/" ++ entity.name

/-- The names of the key columns as they are declared. -/
def keyNames (entity : Entity) : List String := entity.schema.key.names

/-- The names of the key columns in ascending order, each once. -/
def keySet (entity : Entity) : List String := distinctNames entity.keyNames

/-- The values of the key columns as they are declared, or the first one that the row lacks. -/
def keyValues (entity : Entity) (row : Row) : Except String (List Value) :=
  entity.keyNames.mapM fun name =>
    match row.get? name with
    | some value => .ok value
    | none => .error name

/-! ## The entity of standby entries -/

/-- The column that holds the key of a standby entry. -/
def keyColumn : String := "key"

/-- The column that holds the contents of a standby entry. -/
def valueColumn : String := "value"

/-- The entity under which standby entries of an entity are stored: the same location and name
with a blob for the key and a blob for the contents. -/
def standby (entity : Entity) : Entity where
  location := entity.location
  schema :=
    { name := entity.name
      key := ⟨[keyColumn], []⟩
      columns := [⟨keyColumn, .blob⟩, ⟨valueColumn, .blob⟩] }

end Entity

end Standby
