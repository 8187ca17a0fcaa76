/-!
# Configuration files: values and tables

A configuration file is a table of keys and values. It is built statement by statement; how a table
came about decides what may still be added to it (`TableKind`).
-/

namespace SpiritHost.Toml

/-- A finished value. Floats and points in time are kept as written. -/
inductive Value where
  | string (text : String)
  | integer (value : Int)
  | float (text : String)
  | boolean (value : Bool)
  | time (text : String)
  | array (items : List Value)
  | table (entries : List (String × Value))
deriving Repr

/-- How a table came about. -/
inductive TableKind where
  /-- It has a header of its own. -/
  | header
  /-- It lies on the way to a header. -/
  | implicit
  /-- It lies on the way of a dotted key. -/
  | dotted
  /-- It was written in braces and is complete. -/
  | inline
deriving DecidableEq, Repr

/-- A value in the making. -/
inductive Node where
  | string (text : String)
  | integer (value : Int)
  | float (text : String)
  | boolean (value : Bool)
  | time (text : String)
  /-- An array written in brackets, which is complete. -/
  | array (items : List Node)
  | table (kind : TableKind) (entries : List (String × Node))
  /-- The tables of a repeated header, the newest first. -/
  | tables (newest : TableKind × List (String × Node)) (earlier : List Node)
deriving Repr

/-- A table in the making. -/
abbrev Table := TableKind × List (String × Node)

namespace Table

/-- The node of a key. -/
def get? (t : Table) (key : String) : Option Node := t.2.lookup key

/-- The table with a key's node replaced, or added after all others. -/
def set (t : Table) (key : String) (node : Node) : Table :=
  if t.2.any (·.1 == key) then
    (t.1, t.2.map fun (k, n) => if k == key then (k, node) else (k, n))
  else (t.1, t.2 ++ [(key, node)])

/-- Changes the table at the end of a path. Tables that are not there yet are made on the way: by a
dotted key or by a header. A dotted key does not go through a table that has a header, except for
the newest of a repeated one; nothing goes through a complete one. -/
def update (byDottedKey : Bool) (change : Table → Option Table) : List String → Table → Option Table
  | [], t => change t
  | key :: rest, t => do
    match t.get? key with
    | none =>
      let kind := if byDottedKey then .dotted else .implicit
      let (kind, entries) ← update byDottedKey change rest (kind, [])
      some (t.set key (.table kind entries))
    | some (.table kind entries) =>
      if kind = .inline ∨ (byDottedKey ∧ kind = .header) then none
      let (kind, entries) ← update byDottedKey change rest (kind, entries)
      some (t.set key (.table kind entries))
    | some (.tables newest earlier) =>
      let newest ← update byDottedKey change rest newest
      some (t.set key (.tables newest earlier))
    | some _ => none

/-- Adds a key that is not there yet. The table that takes the last part of a dotted key must not
have a header, and cannot get one any more. -/
def insert (path : List String) (key : String) (node : Node) (t : Table) : Option Table :=
  t.update true (fun sub =>
    if (sub.get? key).isSome then none
    else if path.isEmpty then some (sub.set key node)
    else if sub.1 = .implicit ∨ sub.1 = .dotted then some (Table.set (.dotted, sub.2) key node)
    else none) path

/-- Opens the table of a header: a new one, or one that so far only lay on the way to others. -/
def openHeader (path : List String) (key : String) (t : Table) : Option Table :=
  t.update false (fun sub =>
    match sub.get? key with
    | none => some (sub.set key (.table .header []))
    | some (.table .implicit entries) => some (sub.set key (.table .header entries))
    | some _ => none) path

/-- Opens one more table under a repeated header. -/
def openRepeated (path : List String) (key : String) (t : Table) : Option Table :=
  t.update false (fun sub =>
    match sub.get? key with
    | none => some (sub.set key (.tables (.header, []) []))
    | some (.tables (kind, entries) earlier) =>
      some (sub.set key (.tables (.header, []) (.table kind entries :: earlier)))
    | some _ => none) path

end Table

end SpiritHost.Toml
