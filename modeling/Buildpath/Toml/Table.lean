import Buildpath.Toml.Value

/-! Tables under construction. An entry is closed if it was written as a value;
otherwise it is a table or a list of tables that later lines may add to, within rules
that depend on what brought it into being. Keys keep the order in which they came up. -/
namespace Buildpath.Toml

inductive Origin where
  /-- Opened by a header of its own. -/
  | header
  /-- Came up inside the name of another header. -/
  | implied
  /-- Came up inside a dotted key. -/
  | dotted
deriving DecidableEq, Repr

inductive Entry where
  | value (v : Value)
  | table (origin : Origin) (entries : List (String × Entry))
  | tables (members : List (List (String × Entry)))

abbrev Entries := List (String × Entry)

mutual
def Entry.toValue : Entry → Value
  | .value v => v
  | .table _ entries => .table (entryValues entries)
  | .tables members => .array (memberValues members)

def entryValues : List (String × Entry) → List (String × Value)
  | [] => []
  | (key, e) :: rest => (key, e.toValue) :: entryValues rest

def memberValues : List (List (String × Entry)) → List Value
  | [] => []
  | m :: rest => .table (entryValues m) :: memberValues rest
end

namespace Entries

/-- Changes the entry of a key in its place; a new key goes to the end. -/
def alter (key : String) (change : Option Entry → Option Entry) : Entries → Option Entries
  | [] => (change none).map fun e => [(key, e)]
  | (k, e) :: rest =>
    if k = key then (change (some e)).map fun e => (k, e) :: rest
    else (alter key change rest).map ((k, e) :: ·)

/-- Changes the last table of a list. -/
def alterLast (change : Entries → Option Entries) (members : List Entries) : Option (List Entries) :=
  match members.getLast? with
  | some last => (change last).map fun last => members.dropLast ++ [last]
  | none => none

/-- Adds a value under a dotted key. Tables on the way must have come up in dotted keys
too; a table that a header only implied may be passed through, but not added to. -/
def insert (key : String) (v : Value) : List String → Entries → Option Entries
  | [] => alter key fun
    | none => some (.value v)
    | some _ => none
  | step :: path => alter step fun
    | none => (insert key v path []).map (.table .dotted)
    | some (.table .dotted inner) => (insert key v path inner).map (.table .dotted)
    | some (.table .implied inner) =>
      if path = [] then none else (insert key v path inner).map (.table .implied)
    | some (.tables members) =>
      if path = [] then none else (alterLast (insert key v path) members).map .tables
    | some _ => none

/-- Changes the table in which the last key of a header stands. -/
def alterAt (change : Entries → Option Entries) : List String → Entries → Option Entries
  | [] => change
  | step :: path => alter step fun
    | none => (alterAt change path []).map (.table .implied)
    | some (.table origin inner) => (alterAt change path inner).map (.table origin)
    | some (.tables members) => (alterLast (alterAt change path) members).map .tables
    | some (.value _) => none

abbrev Pair := (List String × String) × Value

def insertAll (pairs : List Pair) (entries : Entries) : Option Entries :=
  pairs.foldlM (fun entries ((path, key), v) => insert key v path entries) entries

/-- Opens the table of a header and fills it. A table that was only implied so far
keeps its entries and moves behind its siblings. -/
def openTable (key : String) (pairs : List Pair) (entries : Entries) : Option Entries :=
  match entries.lookup key with
  | none => (insertAll pairs []).map fun body => entries ++ [(key, .table .header body)]
  | some (.table .implied inner) => (insertAll pairs inner).map fun body =>
    entries.filter (·.1 ≠ key) ++ [(key, .table .header body)]
  | some _ => none

/-- Adds one more table to a list of tables. -/
def openMember (key : String) (pairs : List Pair) (entries : Entries) : Option Entries :=
  alter key (fun
    | none => (insertAll pairs []).map fun body => .tables [body]
    | some (.tables members) => (insertAll pairs []).map fun body => .tables (members ++ [body])
    | some _ => none) entries

end Entries
end Buildpath.Toml
