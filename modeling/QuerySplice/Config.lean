import QuerySplice.Setting

/-!
# Configurations

A configuration is read from a document of four sections. Three of them are records with known
entries, each with a default; an entry that is not known is a fault. The section on the data
source keeps whatever entries it holds besides the type of the source. Entries are taken as they
are, without a check of their types: whoever uses an entry reads it as the type it needs.
-/

namespace QuerySplice

open Text

structure LogsConfig where
  defaultLimit : Value
  timeColumn : Value
  sortOrder : Value
  autoOrderBy : Value

structure ContextConfig where
  limit : Value
  filterColumns : Value

structure SourceConfig where
  kind : Value
  entries : List (Text × Value)

structure LoggingConfig where
  level : Value
  structured : Value
  logFile : Value

structure Config where
  logs : LogsConfig
  context : ContextConfig
  source : SourceConfig
  logging : LoggingConfig

namespace Config

/-- An entry of a section, or its default. -/
def entry (fields : List (Text × Value)) (name : String) (default : Value) : Value :=
  (Value.field? fields name.toList).getD default

/-- The names of the entries of a section. -/
def entryNames : Section → List String
  | .logs => ["default_limit", "time_column", "sort_order", "auto_order_by"]
  | .context => ["limit", "filter_columns"]
  | .logging => ["level", "structured", "log_file"]

/-- The section's name in a document. -/
def sectionName : Section → Text
  | .logs => "logs".toList
  | .context => "context".toList
  | .logging => "logging".toList

def logsOf (fields : List (Text × Value)) : LogsConfig where
  defaultLimit := entry fields "default_limit" (.int 1000)
  timeColumn := entry fields "time_column" (.text "timestamp".toList)
  sortOrder := entry fields "sort_order" (.text "descending".toList)
  autoOrderBy := entry fields "auto_order_by" (.bool true)

def contextOf (fields : List (Text × Value)) : ContextConfig where
  limit := entry fields "limit" (.int 100)
  filterColumns := entry fields "filter_columns" (.list [])

def loggingOf (fields : List (Text × Value)) : LoggingConfig where
  level := entry fields "level" (.text "INFO".toList)
  structured := entry fields "structured" (.bool false)
  logFile := entry fields "log_file" .null

/-- The source without a section of its own: a database in memory. -/
def defaultSource : SourceConfig where
  kind := .text "duckdb".toList
  entries := [("path".toList, .text ":memory:".toList), ("read_only".toList, .bool false)]

/-- The configuration of an empty document. -/
def default : Config := ⟨logsOf [], contextOf [], defaultSource, loggingOf []⟩

/-- The entries of a section with known names. A section that is missing has none. -/
def sectionFields (document : List (Text × Value)) (part : Section) :
    Except Fault (List (Text × Value)) :=
  match Value.field? document (sectionName part) with
  | none => .ok []
  | some (.record fields) =>
    match fields.find? fun f => !(entryNames part).any fun name => name.toList == f.1 with
    | some f =>
      .error (if f.1 = "self".toList then .reservedEntry part else .unknownEntry part f.1)
    | none => .ok fields
  | some v => .error (.sectionNotRecord part v.typeName)

/-- The text under which a field is kept. -/
def fieldText : Value → Text
  | .null => "null".toList
  | .bool b => if b then "true".toList else "false".toList
  | v => v.shown

/-- The name and the value that the item at `index` of a list of pairs stands for. -/
def pairField (index : Nat) (pair : Value) : Except Fault (Value × Value) :=
  match pair.items with
  | .error _ => .error (.pairNotSequence index)
  | .ok [name, v] => do return (← name.checkedName, v)
  | .ok parts => .error (.pairLength index parts.length)

/-- Sets a field. One that is there already keeps the name under which it was set first. -/
def setPair (name v : Value) : List (Value × Value) → List (Value × Value)
  | [] => [(name, v)]
  | f :: fields => if f.1.sameName name then (f.1, v) :: fields else f :: setPair name v fields

/-- The fields of a list of pairs, a later pair of one name replacing the value of an earlier
one. -/
def fieldsOfPairs (index : Nat) (fields : List (Value × Value)) :
    List Value → Except Fault (List (Value × Value))
  | [] => .ok fields
  | pair :: pairs => do
    let f ← pairField index pair
    fieldsOfPairs (index + 1) (setPair f.1 f.2 fields) pairs

/-- The section on the data source: a record, or a list of pairs. -/
def sourceFields (v : Value) : Except Fault (List (Text × Value)) :=
  match v with
  | .record fields => .ok fields
  | v => do
    let fields ← fieldsOfPairs 0 [] (← v.items)
    return fields.map fun f => (fieldText f.1, f.2)

def sourceOf (document : List (Text × Value)) : Except Fault SourceConfig :=
  match Value.field? document "datasource".toList with
  | none => .ok defaultSource
  | some v => do
    let fields ← sourceFields v
    return {
      kind := entry fields "type" (.text "duckdb".toList)
      entries := fields.filter fun f => f.1 != "type".toList }

/-- The configuration that a document holds. A document that is not set counts as empty. -/
def ofDocument (document : Value) : Except Fault Config :=
  match document with
  | .record fields => do
    let logs ← sectionFields fields .logs
    let context ← sectionFields fields .context
    let logging ← sectionFields fields .logging
    let source ← sourceOf fields
    return ⟨logsOf logs, contextOf context, source, loggingOf logging⟩
  | v => if v.isSet then .error (.documentNotRecord v.typeName) else .ok default

end Config

end QuerySplice
