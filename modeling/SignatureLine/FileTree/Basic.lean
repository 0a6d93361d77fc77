import SignatureLine.FileTree.Path

/-!
# File trees

A state of a file system of directories and regular files, how paths are resolved in it, and the
operations that change it.
-/

namespace SignatureLine

/-- Why the text of a file cannot be had. -/
inductive AccessError where
  | notFound
  /-- The path goes through a file. -/
  | notDirectory
  | isDirectory
  /-- The bytes of the file are not UTF-8. -/
  | invalidData
  deriving Repr, DecidableEq

def AccessError.message : AccessError → Text
  | .notFound => "No such file or directory (os error 2)".toList
  | .notDirectory => "Not a directory (os error 20)".toList
  | .isDirectory => "Is a directory (os error 21)".toList
  | .invalidData => "stream did not contain valid UTF-8".toList

/-- A place in a file tree: the names on the way to it from the top, the innermost first. Unlike a
path it is spelled in one way only. -/
abbrev Location := List Text

/-- What lies at a location. -/
inductive FileEntry where
  | directory
  | file (bytes : ByteArray)

structure FileTree where
  /-- What lies at each location; at the top there always is a directory. -/
  entry? : Location → Option FileEntry
  /-- Where relative paths start. -/
  workingDirectory : Location := []
  /-- Whatever lies below the top lies in a directory. -/
  entry?_parent : ∀ name l, entry? (name :: l) ≠ none → l = [] ∨ entry? l = some .directory

namespace FileTree

/-- The tree with nothing but its top. -/
def empty : FileTree where
  entry? _ := none
  entry?_parent _ _ h := absurd rfl h

/-- What lies at a location. -/
def find? (t : FileTree) : Location → Option FileEntry
  | [] => some .directory
  | l => t.entry? l

theorem find?_cons (t : FileTree) (name : Text) (l : Location) :
    t.find? (name :: l) = t.entry? (name :: l) := rfl

theorem find?_eq_directory_iff {t : FileTree} {l : Location} :
    t.find? l = some .directory ↔ l = [] ∨ t.entry? l = some .directory := by
  cases l with
  | nil => exact iff_of_true rfl (.inl rfl)
  | cons name l => simp [find?_cons]

/-- Whatever there is lies in a directory. -/
theorem find?_parent {t : FileTree} {name : Text} {l : Location} (h : t.find? (name :: l) ≠ none) :
    t.find? l = some .directory :=
  find?_eq_directory_iff.mpr (t.entry?_parent name l h)

/-! ## Resolving paths -/

/-- Follows one segment of a path from a location, which has to be a directory. Two dots lead to the
directory above, which for the top is the top. -/
def follow (t : FileTree) (l : Location) (segment : Text) : Except AccessError Location :=
  match t.find? l with
  | none => .error .notFound
  | some (.file _) => .error .notDirectory
  | some .directory =>
      if Path.isIdle segment then .ok l
      else if segment = ['.', '.'] then .ok l.tail
      else if (t.find? (segment :: l)).isSome then .ok (segment :: l)
      else .error .notFound

/-- Where the first segment of a path is followed from. -/
def start (t : FileTree) (p : Path) : Location :=
  if p.head? = some '/' then [] else t.workingDirectory

/-- The location that a path denotes, where something lies. -/
def resolve (t : FileTree) (p : Path) : Except AccessError Location :=
  if p.isEmpty then .error .notFound
  else p.segments.foldlM t.follow (t.start p)

def pathExists (t : FileTree) (p : Path) : Bool :=
  (t.resolve p).isOk

def isFile (t : FileTree) (p : Path) : Bool :=
  match t.resolve p with
  | .ok l => match t.find? l with
    | some (.file _) => true
    | _ => false
  | .error _ => false

/-- The text of a file in UTF-8. -/
def readText (t : FileTree) (p : Path) : Except AccessError Text := do
  match t.find? (← t.resolve p) with
  | some (.file bytes) => match String.fromUTF8? bytes with
    | some s => .ok s.toList
    | none => .error .invalidData
  | some .directory => .error .isDirectory
  | none => .error .notFound

/-! ## Changing a tree -/

theorem entry?_parent_put (t : FileTree) {l : Location} {name : Text} (e : FileEntry)
    (hl : t.find? l = some .directory) (hname : t.find? (name :: l) ≠ some .directory)
    (name' : Text) (l' : Location)
    (h : (if name' :: l' = name :: l then some e else t.entry? (name' :: l')) ≠ none) :
    l' = [] ∨ (if l' = name :: l then some e else t.entry? l') = some .directory := by
  -- nothing lies below the entry, since no directory is replaced
  have hdirectory : t.find? l' = some .directory := by
    by_cases heq : name' :: l' = name :: l
    · rw [(List.cons.inj heq).2]
      exact hl
    · rw [if_neg heq] at h
      exact t.find?_parent h
  have hne : l' ≠ name :: l := by
    rintro rfl
    exact hname hdirectory
  rw [if_neg hne]
  exact find?_eq_directory_iff.mp hdirectory

theorem entry?_parent_remove (t : FileTree) (l : Location) (name' : Text) (l' : Location)
    (h : (if l.isSuffixOf (name' :: l') then none else t.entry? (name' :: l')) ≠ none) :
    l' = [] ∨ (if l.isSuffixOf l' then none else t.entry? l') = some .directory := by
  -- what is left below a location leaves the location too
  by_cases hkeep : l.isSuffixOf (name' :: l') = true
  · rw [if_pos hkeep] at h
    exact absurd rfl h
  · have hkeep' : ¬ l.isSuffixOf l' = true := by
      intro hsuffix
      apply hkeep
      have hl' : l <:+ l' := List.isSuffixOf_iff_suffix.mp hsuffix
      exact List.isSuffixOf_iff_suffix.mpr (hl'.trans (List.suffix_cons name' l'))
    rw [if_neg hkeep] at h
    rw [if_neg hkeep']
    exact t.entry?_parent name' l' h

/-- Puts an entry into a directory, in place of the file of this name if there is one. -/
def put (t : FileTree) (l : Location) (name : Text) (e : FileEntry) : Except AccessError FileTree :=
  match hl : t.find? l, hname : t.find? (name :: l) with
  | some .directory, some .directory => .error .isDirectory
  | some .directory, none | some .directory, some (.file _) => .ok {
      entry? := fun l' => if l' = name :: l then some e else t.entry? l'
      workingDirectory := t.workingDirectory
      entry?_parent := t.entry?_parent_put e hl (by simp [hname]) }
  | _, _ => .error .notDirectory

section Put

variable {t t' : FileTree} {l : Location} {name : Text} {e : FileEntry}

theorem find?_of_put (h : t.put l name e = .ok t') :
    t.find? l = some .directory ∧ t.find? (name :: l) ≠ some .directory := by
  unfold put at h
  split at h
  · cases h
  · next hl hname => exact ⟨hl, by simp [hname]⟩
  · next hl hname => exact ⟨hl, by simp [hname]⟩
  · cases h

theorem find?_put (h : t.put l name e = .ok t') (l' : Location) :
    t'.find? l' = if l' = name :: l then some e else t.find? l' := by
  have hentry : t'.entry? = fun l' => if l' = name :: l then some e else t.entry? l' := by
    unfold put at h
    split at h
    · cases h
    · rw [← Except.ok.inj h]
    · rw [← Except.ok.inj h]
    · cases h
  cases l' with
  | nil => rfl
  | cons name' l' => rw [find?_cons, hentry, find?_cons]

theorem workingDirectory_put (h : t.put l name e = .ok t') :
    t'.workingDirectory = t.workingDirectory := by
  unfold put at h
  split at h
  · cases h
  · rw [← Except.ok.inj h]
  · rw [← Except.ok.inj h]
  · cases h

end Put

/-- Follows one segment of a path, making the directory that it names if nothing is there. -/
def followMaking (place : FileTree × Location) (segment : Text) :
    Except AccessError (FileTree × Location) :=
  let (t, l) := place
  match t.follow l segment with
  | .ok l' => .ok (t, l')
  | .error .notFound => do return (← t.put l segment .directory, segment :: l)
  | .error e => .error e

def makeDirectories (t : FileTree) (p : Path) : Except AccessError FileTree := do
  let (t, l) ← p.segments.foldlM followMaking (t, t.start p)
  match t.find? l with
  | some .directory => return t
  | _ => .error .notDirectory

/-- Writes a file, making the directories above it. -/
def write (t : FileTree) (p : Path) (bytes : ByteArray) : Except AccessError FileTree := do
  let (t, l) ← p.segments.dropLast.foldlM followMaking (t, t.start p)
  let name := p.segments.getLast?.getD []
  if Path.isIdle name ∨ name = ['.', '.'] then .error .isDirectory
  else t.put l name (.file bytes)

/-- Removes a file, or a directory with all that is in it. -/
def remove (t : FileTree) (p : Path) : Except AccessError FileTree := do
  let l ← t.resolve p
  return {
    entry? := fun l' => if l.isSuffixOf l' then none else t.entry? l'
    workingDirectory := t.workingDirectory
    entry?_parent := t.entry?_parent_remove l }

end FileTree

end SignatureLine
