import Textmate.Toml.Value

/-!
# Tables under construction

The lines of a TOML text name tables by headers and entries by keys with several parts. What may
still be added to a table depends on how it came about, so a table under construction knows that: a
table with a header of its own gets no second one, and keys of other tables cannot add to it; a
table that only headers further inside named may get a header; a table that keys with several parts
named can be added to by such keys only.

Main statement: a header for each table can be given once (`openTable_openTable`).
-/

namespace Textmate.Toml

/-- How a table came about. -/
inductive Origin where
  /-- By a header of its own. -/
  | header
  /-- By the header of a table inside. -/
  | inner
  /-- By a key with several parts. -/
  | key
  deriving Repr, DecidableEq

/-- What stands at a key of a table under construction. -/
inductive Node where
  | value (value : Value)
  | table (origin : Origin) (nodes : List (String × Node))
  /-- Tables under one header: those before the last one, and the last one. -/
  | tables (before : List (List (String × Node))) (last : List (String × Node))

abbrev Nodes := List (String × Node)

namespace Nodes

/-- The table with a value at a key, whose first parts name tables inside. `mayHold` says whether
the table at hand may get the value. -/
def assign (mayHold : Bool) : List String → String → Value → Nodes → Option Nodes
  | [], key, value, nodes =>
    -- A key gets one value.
    if mayHold && !Dict.contains key nodes then some (Dict.insert key (.value value) nodes)
    else none
  | part :: path, key, value, nodes =>
    let put (node : Nodes → Node) (inside : Option Nodes) : Option Nodes :=
      inside.map fun inside => Dict.insert part (node inside) nodes
    match Dict.find? part nodes with
    -- Tables on the way are made, and the key may go on adding to them.
    | none => put (.table .key) (assign true path key value [])
    -- A table with a header of its own is closed to the keys of other tables.
    | some (.table .header _) => none
    | some (.table origin inside) =>
      put (.table origin) (assign (origin = .key) path key value inside)
    | some (.tables before last) => put (.tables before) (assign false path key value last)
    | some (.value _) => none

/-- The table with a change to the table that a header leads to; tables on the way are made. Of
several tables under one header the way leads through the last one. -/
def within (change : Nodes → Option Nodes) : List String → Nodes → Option Nodes
  | [], nodes => change nodes
  | part :: path, nodes =>
    let put (node : Nodes → Node) (inside : Option Nodes) : Option Nodes :=
      inside.map fun inside => Dict.insert part (node inside) nodes
    match Dict.find? part nodes with
    | none => put (.table .inner) (within change path [])
    | some (.table origin inside) => put (.table origin) (within change path inside)
    | some (.tables before last) => put (.tables before) (within change path last)
    | some (.value _) => none

/-- The table with a header for one of its tables. -/
def openTable (key : String) (nodes : Nodes) : Option Nodes :=
  match Dict.find? key nodes with
  | none => some (Dict.insert key (.table .header []) nodes)
  -- What headers further inside have added stays.
  | some (.table .inner inside) => some (Dict.insert key (.table .header inside) nodes)
  | some _ => none

/-- The table with a further table under a header that may stand several times. -/
def openItem (key : String) (nodes : Nodes) : Option Nodes :=
  match Dict.find? key nodes with
  | none => some (Dict.insert key (.tables [] []) nodes)
  | some (.tables before last) => some (Dict.insert key (.tables (before ++ [last]) []) nodes)
  | some _ => none

/-- A header for each table can be given once. -/
theorem openTable_openTable {key : String} {nodes nodes' : Nodes}
    (h : nodes.openTable key = some nodes') : nodes'.openTable key = none := by
  -- A table that has its header gets no second one.
  have header (inside : Nodes) :
      openTable key (Dict.insert key (.table .header inside) nodes) = none := by
    simp [openTable, Dict.find?_insert]
  unfold openTable at h
  split at h
  · cases h
    exact header []
  · cases h
    exact header _
  · cases h

end Nodes

namespace Node

mutual

/-- The value of a node. -/
def toValue : Node → Value
  | .value v => v
  | .table _ nodes => .table (toEntries nodes)
  -- The last table comes behind those before it.
  | .tables before last => .array (toItems before ++ [.table (toEntries last)])

def toEntries : List (String × Node) → List (String × Value)
  | [] => []
  | (key, node) :: nodes => (key, node.toValue) :: toEntries nodes

def toItems : List (List (String × Node)) → List Value
  | [] => []
  | nodes :: rest => .table (toEntries nodes) :: toItems rest

end

end Node

end Textmate.Toml
