/-!
# Settings files

The values of a settings file. A table remembers how it came about, since a table
that was written out may not be extended, and one that only a longer name implied
may. Of numbers and dates nothing but their kind is kept: no setting is one.
-/

namespace Tradebook

/-- How a table came about: by a heading of its own, by the heading of a table inside it, by a key
with dots, or by braces. -/
inductive TableForm where
  | written
  | implied
  | dotted
  | inline
  deriving DecidableEq, Repr

/-- A value of a settings file. -/
inductive Toml where
  | string (text : String)
  | integer
  | float
  | bool (value : Bool)
  | moment
  | array (items : List Toml)
  | table (form : TableForm) (entries : List (String × Toml))
  /-- Tables with one heading, each begun by repeating it. -/
  | tables (items : List (List (String × Toml)))
  deriving Repr

instance : Inhabited Toml := ⟨.integer⟩

/-- The entries of a table. -/
abbrev Toml.Entries := List (String × Toml)

end Tradebook
