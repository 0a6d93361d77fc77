import SignatureLine.Toml.Value

/-!
# Building tables

How the keys and headers of a document grow its tables, and what they may not do: name a key twice,
or add to a table that was written in another way.
-/

namespace SignatureLine.Toml

/-- A key with the keys of the tables on the way to it. -/
structure KeyPath where
  parents : List Text
  key : Text
  deriving Repr, DecidableEq

/-- A key path and the value written for it. -/
structure Entry where
  path : KeyPath
  value : Value

/-- What a header opens. -/
inductive HeaderKind where
  | table
  /-- One more table of an array of tables. -/
  | element
  deriving Repr, DecidableEq

structure Section where
  kind : HeaderKind
  path : KeyPath
  entries : List Entry

namespace Table

/-- Whether a key path may enter a table: a dotted key enters only tables that neither a header nor
braces opened, a header all but those in braces. -/
def mayEnter (dotted : Bool) : Origin → Bool
  | .inline => false
  | .header => !dotted
  | .supertable => true
  | .dotted => true

/-- Changes the table at the end of a path by `change`. Missing tables on the way are added, and of
an array of tables the last one is entered. -/
def changeAt (dotted : Bool) : List Text → (Table → Option Table) → Table → Option Table
  | [], change, t => change t
  | key :: path, change, t =>
      match t.find? key with
      | none => do
          let child := empty (if dotted then .dotted else .supertable)
          return t.append key (.table (← changeAt dotted path change child))
      | some (.table child) => do
          guard (mayEnter dotted child.origin)
          return t.replace key (.table (← changeAt dotted path change child))
      | some (.tables ts) => do
          let last ← ts.getLast?
          return t.replace key (.tables (ts.dropLast ++ [← changeAt dotted path change last]))
      | some _ => none

/-- Adds an entry. A dotted key adds only to a table that dotted keys made, a plain one only to
another. -/
def addEntry (t : Table) (e : Entry) : Option Table :=
  t.changeAt true e.path.parents fun target => do
    guard ((target.origin == .dotted) != e.path.parents.isEmpty)
    guard (target.find? e.path.key).isNone
    return target.append e.path.key e.value

def addEntries (t : Table) (es : List Entry) : Option Table :=
  es.foldlM addEntry t

/-- What the table of a header starts with: the entries it got as a supertable. A table that was
opened before is not opened again. -/
def openable? (parent : Table) (key : Text) : Option Table :=
  match parent.find? key with
  | none => some (empty .header)
  | some (.table ⟨.supertable, entries⟩) => some ⟨.header, entries⟩
  | some _ => none

/-- Adds the table or the element that a header opens. A table comes after all other entries of its
parent, even if it was a supertable before. -/
def addSection (root : Table) (s : Section) : Option Table :=
  root.changeAt false s.path.parents fun parent => do
    let key := s.path.key
    match s.kind with
    | .table =>
        let t ← (← openable? parent key).addEntries s.entries
        return (parent.erase key).append key (.table t)
    | .element =>
        let t ← (empty .header).addEntries s.entries
        match parent.find? key with
        | none => return parent.append key (.tables [t])
        | some (.tables ts) => return parent.replace key (.tables (ts ++ [t]))
        | some _ => failure

end Table

end SignatureLine.Toml
