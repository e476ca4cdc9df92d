/-
# TOML values

A project file is a TOML table.  Tables keep the order of their keys.  Dates
and times are only recognised, not computed with, so they are kept as written.

`descend` changes a table somewhere below: it follows a path of keys, opens a
new table where a key is missing, and goes on in the last element of a list
where it may.

Source: the tables that `idlforge.core.config` (`load_config`) reads.
-/

import AnchorIdl.Decimal.Binary64
import AnchorIdl.Ordered
import AnchorIdl.Text.Basic

namespace AnchorIdl
namespace Toml

/-- A TOML value. -/
inductive Value
  | text (value : Text)
  | integer (value : Int)
  | float (value : Binary64)
  | boolean (value : Bool)
  | moment (written : Text)
  | array (items : List Value)
  | table (entries : List (Text × Value))

/-- The entries of a table, in order. -/
abbrev Table := Ordered Text Value

/-- A path of keys. -/
abbrev Key := List Text

namespace Table

/-- Change the table at the end of a path, through the last elements of lists if `lists`; fails
where the path meets anything else. -/
def descend (lists : Bool) (act : Table → Option Table) : Key → Table → Option Table
  | [], t => act t
  | key :: rest, t =>
    match t.get? key with
    | none => (descend lists act rest []).map fun inner => Ordered.put key (.table inner) t
    | some (.table inner) =>
      (descend lists act rest inner).map fun inner => Ordered.put key (.table inner) t
    | some (.array items) =>
      match lists, items.getLast? with
      | true, some (.table inner) =>
        (descend lists act rest inner).map fun inner =>
          Ordered.put key (.array (items.dropLast ++ [.table inner])) t
      | _, _ => none
    | some _ => none

/-- Add a key that the table does not have. -/
def add (key : Text) (value : Value) (t : Table) : Option Table :=
  match t.get? key with
  | none => some (t.put key value)
  | some _ => none

/-- Add an empty table to the list at a key, or start the list. -/
def addItem (key : Text) (t : Table) : Option Table :=
  match t.get? key with
  | none => some (Ordered.put key (.array [.table []]) t)
  | some (.array items) => some (Ordered.put key (.array (items ++ [.table []])) t)
  | some _ => none

end Table
end Toml
end AnchorIdl
