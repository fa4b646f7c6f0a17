import TableCompiler.Number

/-!
# TOML values

The configuration file of the compiler is written in TOML.

* `Toml` — values; a table remembers how it came to be, because that decides how it may still be
  extended;
* `Toml.assign?` — a table with the value of a dotted key;
* `Toml.descend?` — a table in which a header has its effect.
-/

namespace TableCompiler

/-- How a table came to be. -/
inductive TomlTable where
  /-- A header named a table inside it. -/
  | implied
  /-- A header named it. -/
  | headed
  /-- A dotted key named a value inside it. -/
  | dotted
  /-- It was written inside braces, and is complete. -/
  | complete
deriving DecidableEq

/-- A TOML value. -/
inductive Toml where
  | text (s : String)
  | integer (n : Int)
  | float (x : Number)
  | boolean (b : Bool)
  /-- A date, a time of day or both. -/
  | moment
  | array (items : List Toml)
  | table (kind : TomlTable) (entries : List (String × Toml))
  /-- An array of tables with headers: all but the last one, in order, and the last one. -/
  | tables (earlier : List Toml) (last : List (String × Toml))

namespace Toml

/-- A list of entries with a value under a key, in place of the one that is there. -/
def put (key : String) (value : Toml) : List (String × Toml) → List (String × Toml)
  | [] => [(key, value)]
  | entry :: rest => if entry.1 = key then (key, value) :: rest else entry :: put key value rest

/-! ### Keys -/

/-- A table with the value of a dotted key.  No value is replaced, and the tables on the way must
not have headers of their own.  The table that takes the value must come from dotted keys alone;
further up, a table that headers imply will do, and so will the last one of an array of tables. -/
def assign? (value : Toml) : List String → List (String × Toml) → Option (List (String × Toml))
  | [], _ => none
  | [key], entries => if (entries.lookup key).isSome then none else some (put key value entries)
  | key :: next :: rest, entries =>
    match entries.lookup key with
    | none =>
      (assign? value (next :: rest) []).map fun inner => put key (.table .dotted inner) entries
    | some (.table .dotted inner) =>
      (assign? value (next :: rest) inner).map fun inner => put key (.table .dotted inner) entries
    | some (.table .implied inner) =>
      if rest.isEmpty then none
      else (assign? value (next :: rest) inner).map fun inner =>
        put key (.table .implied inner) entries
    | some (.tables earlier last) =>
      if rest.isEmpty then none
      else (assign? value (next :: rest) last).map fun last => put key (.tables earlier last) entries
    | some _ => none

/-! ### Headers -/

/-- A table in which the header of the given path changes what is under its last key by `leaf`.
On the way, an array of tables stands for its last one. -/
def descend? (leaf : Option Toml → Option Toml) :
    List String → List (String × Toml) → Option (List (String × Toml))
  | [], _ => none
  | [key], entries => (leaf (entries.lookup key)).map fun value => put key value entries
  | key :: rest, entries =>
    match entries.lookup key with
    | none => (descend? leaf rest []).map fun inner => put key (.table .implied inner) entries
    | some (.table kind inner) =>
      if kind = .complete then none
      else (descend? leaf rest inner).map fun inner => put key (.table kind inner) entries
    | some (.tables earlier last) =>
      (descend? leaf rest last).map fun last => put key (.tables earlier last) entries
    | some _ => none

/-- The effect of a header on its last key: a table can have one header. -/
def openTable? : Option Toml → Option Toml
  | none => some (.table .headed [])
  | some (.table .implied entries) => some (.table .headed entries)
  | some _ => none

/-- The effect of the header of an array on its last key: a further table. -/
def pushTable? : Option Toml → Option Toml
  | none => some (.tables [] [])
  | some (.tables earlier last) => some (.tables (earlier ++ [.table .headed last]) [])
  | some _ => none

/-- The effect of a dotted key under a header on the last key of the header. -/
def assignWithin? (key : List String) (value : Toml) : Option Toml → Option Toml
  | some (.table kind entries) => (assign? value key entries).map (.table kind)
  | some (.tables earlier last) => (assign? value key last).map (.tables earlier)
  | _ => none

/-- The document with the value of a dotted key under a header. -/
def assignUnder? (header key : List String) (value : Toml) (root : List (String × Toml)) :
    Option (List (String × Toml)) :=
  match header with
  | [] => assign? value key root
  | _ => descend? (assignWithin? key value) header root

end Toml

end TableCompiler
