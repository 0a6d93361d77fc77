import SignatureLine.Text.Split

/-!
# Paths

A path as a text, and what can be said of it without looking at any file: its segments, its parent,
and the chain of its ancestors.
-/

namespace SignatureLine

/-- A path as it is written. -/
abbrev Path := Text

namespace Path

/-- The parts of a path between slashes. An absolute path has an empty first one. -/
def segments (p : Path) : List Text :=
  Text.splitOn ['/'] p

/-- Whether a segment after the first one says nothing: it is empty, or a single dot. -/
def isIdle (segment : Text) : Bool :=
  segment == [] || segment == ['.']

def join (directory : Path) (name : Text) : Path :=
  match directory.getLast? with
  | none => name
  | some '/' => directory ++ name
  | some _ => directory ++ '/' :: name

def ofSegments (segments : List Text) : Path :=
  ['/'].intercalate segments

/-- The path without its last component, idle segments around that component left out; two dots are
a component like any other. Neither the root nor the empty path has a parent. -/
def parent? (p : Path) : Option Path :=
  match segments p with
  | [] => none
  | first :: rest =>
      match dropEndWhile isIdle rest with
      | [] => if first.isEmpty then none else some []
      | components =>
          match dropEndWhile isIdle components.dropLast with
          | [] => some (if first.isEmpty then ['/'] else first)
          | above => some (ofSegments (first :: above))

/-- The path and the first `limit` of its ancestors, from the nearest on. -/
def ancestorsUpTo : Nat → Path → List Path
  | 0, p => [p]
  | limit + 1, p =>
      p :: match parent? p with
        | some q => ancestorsUpTo limit q
        | none => []

/-- The path and all its ancestors, from the nearest on. A parent is shorter than its path, so the
length bounds their number. -/
def ancestors (p : Path) : List Path :=
  ancestorsUpTo p.length p

end Path

end SignatureLine
