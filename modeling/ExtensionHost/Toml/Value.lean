/-!
# `ExtensionHost.Toml.Value`: values of a configuration file

A value is a scalar, an array, or a table. How a table came into being
decides who may add to it later, so each table remembers that: `enter`
walks along keys and creates the tables that are missing, and it refuses
to go through a table that the file has already closed.

Floating-point numbers and times can be written, but no setting uses them,
so what they are is not kept.
-/

set_option autoImplicit false

namespace ExtensionHost.Toml

/-- How a table came into being. -/
inductive TableOrigin
  /-- It has a header, or it is the whole file. -/
  | header
  /-- The header of a table inside it named it. -/
  | implied
  /-- A dotted key named it. -/
  | dotted
  /-- It was written between braces. -/
  | inline
deriving DecidableEq, Repr

/-- A value. -/
inductive Value
  | text (value : String)
  | integer (value : Int)
  | real
  | truth (value : Bool)
  | time
  | array (items : List Value)
  | table (origin : TableOrigin) (entries : List (String × Value))
  /-- Tables under headers of the same name. -/
  | tables (items : List (List (String × Value)))
deriving Repr

/-- The entries of a table, in the order in which they were added. -/
abbrev Entries := List (String × Value)

namespace Entries

/-- The value under a key. -/
def get? (entries : Entries) (key : String) : Option Value := entries.lookup key

/-- The entries with another value under a key. -/
def put (entries : Entries) (key : String) (value : Value) : Entries :=
  if (entries.get? key).isSome then
    entries.map fun (k, v) => if k = key then (k, value) else (k, v)
  else entries ++ [(key, value)]

end Entries

namespace TableOrigin

/-- Whether a table that came into being as `origin` may be gone through
by a key that makes tables of the origin `made`. -/
def admits (origin made : TableOrigin) : Bool :=
  match origin with
  | inline => false
  | header => made ≠ dotted
  | implied | dotted => true

end TableOrigin

/-- A change of a table. -/
abbrev TableChange := TableOrigin → Entries → Option (TableOrigin × Entries)

/-- Changes the table that keys lead to. A key without a value gets a new
table of the origin `made`, and where there are many tables under a key
the last one is meant. -/
def enter (made : TableOrigin) (change : TableChange) : List String → TableChange
  | [], origin, entries => change origin entries
  | key :: path, origin, entries =>
    match entries.get? key with
    | none => do
      let (o, inner) ← enter made change path made []
      some (origin, entries.put key (.table o inner))
    | some (.table o inner) =>
      if o.admits made then do
        let (o, inner) ← enter made change path o inner
        some (origin, entries.put key (.table o inner))
      else none
    | some (.tables items) => do
      let (_, inner) ← enter made change path .header (← items.getLast?)
      some (origin, entries.put key (.tables (items.dropLast ++ [inner])))
    | some _ => none

/-- Adds an entry. The key must be new. A table that a dotted key named
takes entries by dotted keys only, and another table takes none of
them. -/
def addEntry (isDotted : Bool) (key : String) (value : Value) : TableChange :=
  fun origin entries =>
    if (origin = .dotted) = isDotted ∧ (entries.get? key).isNone then
      some (origin, entries ++ [(key, value)])
    else none

/-- Adds an entry under the last of several keys. -/
def addPath (path : List String) (key : String) (value : Value) : TableChange :=
  enter .dotted (addEntry (!path.isEmpty) key value) path

/-- Opens the table of a header. It may have been named by the header of a
table inside it, but by nothing else. -/
def openTable (key : String) : TableChange := fun origin entries =>
  match entries.get? key with
  | none => some (origin, entries.put key (.table .header []))
  | some (.table .implied inner) => some (origin, entries.put key (.table .header inner))
  | some _ => none

/-- Opens another one of the tables of a header. -/
def openTables (key : String) : TableChange := fun origin entries =>
  match entries.get? key with
  | none => some (origin, entries.put key (.tables [[]]))
  | some (.tables items) => some (origin, entries.put key (.tables (items ++ [[]])))
  | some _ => none

end ExtensionHost.Toml
