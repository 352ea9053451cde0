import TaxonomyPress.Toml.Moment

/-!
# TOML documents of texts

Settings are texts, moments, lists and tables; a document with any other value is no settings
document, so no other value is represented.

* `Toml` : a value. A table remembers how it came to be, which decides what may be added to it;
* `Toml.define` : a key with a value; no key is defined twice;
* `Toml.openTable` : a table header; no table has two;
* `Toml.update` : a change inside an open table.
-/

namespace TaxonomyPress

/-- What made a table. -/
inductive TableOrigin where
  /-- A header with its name. -/
  | header
  /-- A header of one of its subtables. -/
  | implied
  /-- A key with dots. -/
  | dotted
  /-- A value in braces, to which nothing can be added. -/
  | inline
deriving DecidableEq

inductive Toml where
  | text (value : String)
  | moment (value : Moment)
  | list (items : List Toml)
  | table (origin : TableOrigin) (entries : List (String × Toml))

namespace Toml

abbrev Entries := List (String × Toml)

/-- The value at `key`. -/
def get? (key : String) (entries : Entries) : Option Toml :=
  (entries.find? (·.1 = key)).map (·.2)

/-- The entries with `value` at `key`, which keeps its place. -/
def put (key : String) (value : Toml) : Entries → Entries
  | [] => [(key, value)]
  | (k, v) :: rest => if k = key then (k, value) :: rest else (k, v) :: put key value rest

/-- Defines the key `path` as `value`; the tables on the way are those of dotted keys. -/
def define (value : Toml) : List String → Entries → Option Entries
  | [], _ => none
  | [key], entries => if (get? key entries).isSome then none else some (put key value entries)
  | key :: path, entries =>
    match get? key entries with
    | none => (define value path []).map fun inner => put key (.table .dotted inner) entries
    | some (.table .dotted inner) =>
      (define value path inner).map fun inner => put key (.table .dotted inner) entries
    | some _ => none

/-- Opens the table `path` by its header. -/
def openTable : List String → Entries → Option Entries
  | [], _ => none
  | [key], entries =>
    match get? key entries with
    | none => some (put key (.table .header []) entries)
    | some (.table .implied inner) => some (put key (.table .header inner) entries)
    | some _ => none
  | key :: path, entries =>
    match get? key entries with
    | none => (openTable path []).map fun inner => put key (.table .implied inner) entries
    | some (.table .inline _) => none
    | some (.table origin inner) =>
      (openTable path inner).map fun inner => put key (.table origin inner) entries
    | some _ => none

/-- Changes the entries of the table `path`. -/
def update (change : Entries → Option Entries) : List String → Entries → Option Entries
  | [], entries => change entries
  | key :: path, entries =>
    match get? key entries with
    | some (.table origin inner) =>
      (update change path inner).map fun inner => put key (.table origin inner) entries
    | _ => none

end Toml

end TaxonomyPress
