import Tradebook.Toml

/-!
# The tables of a settings file

Headings and keys with dots name places in a tree of tables. A place that is not
there yet is made on the way. No place is given two values, no table has two
headings, and a table that was written out is not extended by a key with dots.
Behind a repeated heading the last table of that heading is meant.
-/

namespace Tradebook.Toml

/-- The entries with the one of a name changed. -/
def replace (name : String) (value : Toml) : Entries → Entries
  | [] => [(name, value)]
  | (other, old) :: entries =>
    if other = name then (name, value) :: entries else (other, old) :: replace name value entries

/-- Puts a value at a place below a table. `opened` tells whether the table reached so far may take
it, which is one that keys with dots have made, and the one where the path began. -/
def putValue (key : String) (value : Toml) (opened : Bool) : List String → Entries → Option Entries
  | [], entries =>
    if opened ∧ entries.lookup key = none then some (entries ++ [(key, value)]) else none
  | name :: path, entries =>
    match entries.lookup name with
    | none =>
      (putValue key value true path []).map fun inner => entries ++ [(name, .table .dotted inner)]
    | some (.table .dotted inner) =>
      (putValue key value true path inner).map fun inner =>
        replace name (.table .dotted inner) entries
    | some (.table .implied inner) =>
      (putValue key value false path inner).map fun inner =>
        replace name (.table .implied inner) entries
    | some (.tables items) =>
      match items.getLast? with
      | some last =>
        (putValue key value false path last).map fun inner =>
          replace name (.tables (items.dropLast ++ [inner])) entries
      | none => none
    | some _ => none

/-- Changes the table at a place. -/
def changeAt (change : Entries → Option Entries) : List String → Entries → Option Entries
  | [], entries => change entries
  | name :: path, entries =>
    match entries.lookup name with
    | none => (changeAt change path []).map fun inner => entries ++ [(name, .table .implied inner)]
    | some (.table .inline _) => none
    | some (.table form inner) =>
      (changeAt change path inner).map fun inner => replace name (.table form inner) entries
    | some (.tables items) =>
      match items.getLast? with
      | some last =>
        (changeAt change path last).map fun inner =>
          replace name (.tables (items.dropLast ++ [inner])) entries
      | none => none
    | some _ => none

/-- The tree while it is read: what stands under the headings before, and the table of the last
heading with its place; `repeated` tells whether its heading may be repeated. -/
structure Draft where
  root : Entries
  path : List String
  repeated : Bool
  entries : Entries

namespace Draft

/-- Nothing read yet. -/
def empty : Draft :=
  ⟨[], [], false, []⟩

/-- Adds a value to the table of the last heading. -/
def put (path : List String) (key : String) (value : Toml) (d : Draft) : Option Draft :=
  (putValue key value true path d.entries).map fun entries => { d with entries }

/-- Ends the table of the last heading. -/
def finish (d : Draft) : Option Entries :=
  match d.path.getLast? with
  | none => some d.entries
  | some name =>
    changeAt (fun parent =>
      if d.repeated then
        match parent.lookup name with
        | none => some (parent ++ [(name, .tables [d.entries])])
        | some (.tables items) => some (replace name (.tables (items ++ [d.entries])) parent)
        | some _ => none
      else some (replace name (.table .written d.entries) parent)) d.path.dropLast d.root

/-- The table at a place, if it may have a heading: nothing, or what other headings implied. -/
def beforeHeading? (root : Entries) : List String → Option Entries
  | [] => none
  | [name] =>
    match root.lookup name with
    | none => some []
    | some (.table .implied inner) => some inner
    | some _ => none
  | name :: path =>
    match root.lookup name with
    | none => some []
    | some (.table .inline _) => none
    | some (.table _ inner) => beforeHeading? inner path
    | some (.tables items) => (items.getLast?).bind (beforeHeading? · path)
    | some _ => none

/-- Whether the table at a place may have a heading that is repeated: nothing or such tables are
there. -/
def mayRepeat (root : Entries) : List String → Bool
  | [] => false
  | [name] =>
    match root.lookup name with
    | none => true
    | some (.tables _) => true
    | some _ => false
  | name :: path =>
    match root.lookup name with
    | none => true
    | some (.table .inline _) => false
    | some (.table _ inner) => mayRepeat inner path
    | some (.tables items) => (items.getLast?).any (mayRepeat · path)
    | some _ => false

/-- Goes on under a heading. -/
def heading (path : List String) (d : Draft) : Option Draft := do
  let root ← d.finish
  return ⟨root, path, false, ← beforeHeading? root path⟩

/-- Goes on under a heading that may be repeated. -/
def repeatedHeading (path : List String) (d : Draft) : Option Draft := do
  let root ← d.finish
  if mayRepeat root path then return ⟨root, path, true, []⟩ else none

end Draft

end Tradebook.Toml
