import EchoLog.Toml.Value
/-!
# Tables under construction

A document defines its tables piecemeal: by headers, by the dotted keys inside them, and by the
headers of their subtables.  A draft remembers how each table came about, because that decides what
may still be added to it.  A key is never defined twice.
-/

namespace EchoLog.Toml

/-- How a table came about. -/
inductive Origin where
  /-- It has a header of its own. -/
  | header
  /-- It is only named on the way to a header's table. -/
  | implied
  /-- It is named by a dotted key. -/
  | dotted
deriving DecidableEq, Repr

/-- A value, a table or an array of tables under construction; the newest table of an array stands
first. -/
inductive Draft where
  | value (v : Value)
  | table (origin : Origin) (entries : List (String × Draft))
  | tables (newestFirst : List (List (String × Draft)))

/-- The entries of a table under construction. -/
abbrev Entries := List (String × Draft)

mutual

/-- The finished value of a draft. -/
def Draft.finish : Draft → Value
  | .value v => v
  | .table _ entries => .table (finishEntries entries)
  | .tables newestFirst => .array (finishTables newestFirst).reverse

/-- The finished entries of a table. -/
def finishEntries : List (String × Draft) → List (String × Value)
  | [] => []
  | entry :: rest => finishEntry entry :: finishEntries rest

/-- A finished entry. -/
def finishEntry : String × Draft → String × Value
  | (key, d) => (key, d.finish)

/-- The finished tables of an array. -/
def finishTables : List (List (String × Draft)) → List Value
  | [] => []
  | entries :: rest => .table (finishEntries entries) :: finishTables rest

end

namespace Entries

/-- Adds an entry under a new key. -/
def add (entries : Entries) (key : String) (d : Draft) : Option Entries :=
  if entries.any (·.1 == key) then none else some (entries ++ [(key, d)])

/-- Puts another draft under a key that is there. -/
def update (entries : Entries) (key : String) (d : Draft) : Entries :=
  entries.map fun e => if e.1 = key then (key, d) else e

/-- Adds a value under a dotted key.  `reached` is how the table at hand came about: the one that
takes the value must itself come from dotted keys, and a table with a header is not entered. -/
def addDotted : (path : List String) → (reached : Origin) → Entries → String → Value → Option Entries
  | [], reached, entries, key, v =>
    if reached = .dotted then Entries.add entries key (.value v) else none
  | part :: path, _, entries, key, v =>
    match entries.lookup part with
    | none => (addDotted path .dotted [] key v).map fun sub => entries ++ [(part, .table .dotted sub)]
    | some (.value _) => none
    | some (.tables []) => none
    | some (.tables (newest :: older)) =>
      (addDotted path .header newest key v).map fun sub =>
        Entries.update entries part (.tables (sub :: older))
    | some (.table .header _) => none
    | some (.table origin sub) =>
      (addDotted path origin sub key v).map fun sub => Entries.update entries part (.table origin sub)

/-- Adds a value under a key of one part or more. -/
def addPair (entries : Entries) (path : List String) (key : String) (v : Value) : Option Entries :=
  if path.isEmpty then entries.add key (.value v) else addDotted path .header entries key v

/-- Changes the table that a header's path leads to.  Missing tables on the way are implied, and an
array of tables stands for its newest. -/
def change (f : Entries → Option Entries) : (path : List String) → Entries → Option Entries
  | [], entries => f entries
  | part :: path, entries =>
    match entries.lookup part with
    | none => (change f path []).map fun sub => entries ++ [(part, .table .implied sub)]
    | some (.value _) => none
    | some (.tables []) => none
    | some (.tables (newest :: older)) =>
      (change f path newest).map fun sub => Entries.update entries part (.tables (sub :: older))
    | some (.table origin sub) =>
      (change f path sub).map fun sub => Entries.update entries part (.table origin sub)

/-- The table that a header's path leads to. -/
def at? : (path : List String) → Entries → Option Entries
  | [], entries => some entries
  | part :: path, entries =>
    match entries.lookup part with
    | some (.table _ sub) => at? path sub
    | some (.tables (newest :: _)) => at? path newest
    | _ => none

end Entries

/-- Where the entries of the current section go. -/
inductive Place where
  /-- The document itself. -/
  | root
  /-- A table with a header. -/
  | table (path : List String) (key : String)
  /-- One more table of an array. -/
  | element (path : List String) (key : String)

/-- A document under construction: the sections that are done and the current one. -/
structure Builder where
  root : Entries := []
  place : Place := .root
  current : Entries := []

namespace Builder

/-- Adds a pair to the current section. -/
def pair (b : Builder) (path : List String) (key : String) (v : Value) : Option Builder :=
  (b.current.addPair path key v).map fun current => { b with current := current }

/-- The document with the current section put in its place. -/
def close (b : Builder) : Option Entries :=
  match b.place with
  | .root => some b.current
  | .table path key => Entries.change (Entries.add · key (.table .header b.current)) path b.root
  | .element path key =>
    Entries.change (fun parent =>
      match parent.lookup key with
      | none => some (parent ++ [(key, .tables [b.current])])
      | some (.tables ts) => some (Entries.update parent key (.tables (b.current :: ts)))
      | some _ => none) path b.root

/-- Starts the section of a table.  A table that was only implied is taken up again. -/
def openTable (b : Builder) (path : List String) (key : String) : Option Builder := do
  let root ← Entries.change some path (← b.close)
  let parent ← Entries.at? path root
  match parent.lookup key with
  | none => return ⟨root, .table path key, []⟩
  | some (.table .implied entries) =>
    let root ← Entries.change (fun es => some (es.filter (·.1 ≠ key))) path root
    return ⟨root, .table path key, entries⟩
  | some _ => none

/-- Starts the section of one more table of an array. -/
def openElement (b : Builder) (path : List String) (key : String) : Option Builder := do
  let root ← Entries.change some path (← b.close)
  let parent ← Entries.at? path root
  match parent.lookup key with
  | none => return ⟨root, .element path key, []⟩
  | some (.tables _) => return ⟨root, .element path key, []⟩
  | some _ => none

end Builder

end EchoLog.Toml
