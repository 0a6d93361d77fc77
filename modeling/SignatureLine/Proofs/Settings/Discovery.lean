import SignatureLine.Proofs.FileTree.Walking
import SignatureLine.Settings.Load

/-!
# Where settings are found

The candidates for a directory lie where its path and the ancestors of this path lead.  On the way
from the directory of the nearest file the rest of the path leads to the directory itself, and it
leads down as long as it has no two dots.  With two dots it may lead up, and then a file below the
directory is found.
-/

namespace SignatureLine

open SignatureLine.Path (up)

namespace FileTree

variable {t : FileTree} {p : Path}

/-- The bytes of the regular file at a path. -/
def contents? (t : FileTree) (p : Path) : Option ByteArray :=
  match t.resolve p with
  | .ok l => match t.find? l with
    | some (.file bytes) => some bytes
    | _ => none
  | .error _ => none

theorem contents?_eq_some_iff {bytes : ByteArray} :
    t.contents? p = some bytes ↔ ∃ l, t.resolve p = .ok l ∧ t.find? l = some (.file bytes) := by
  unfold contents?
  cases t.resolve p with
  | error e => simp
  | ok l =>
    cases hl : t.find? l with
    | none => simp [hl]
    | some entry => cases entry <;> simp [hl]

theorem isFile_eq (t : FileTree) (p : Path) : t.isFile p = (t.contents? p).isSome := by
  unfold isFile contents?
  cases t.resolve p with
  | error e => rfl
  | ok l =>
    dsimp only
    cases t.find? l with
    | none => rfl
    | some entry => cases entry <;> rfl

end FileTree

namespace Settings

variable {t : FileTree} {directory c : Path}

/-! ## Candidates -/

theorem mem_candidates_iff :
    c ∈ candidates directory ↔ ∃ q ∈ directory.ancestors, c = q.join fileName := by
  simp [candidates, eq_comm]

theorem resolve_candidate_eq_ok_iff {q : Path} {m : Location} :
    t.resolve (q.join fileName) = .ok m ↔
      ∃ l, t.Enters q l ∧ m = fileName :: l ∧ t.find? m ≠ none :=
  FileTree.resolve_join_eq_ok_iff (by decide) (by decide) (by decide)

/-- What is in the file at a candidate, by the location that the path of its directory leads to. -/
theorem contents?_candidate_eq_some_iff {q : Path} {bytes : ByteArray} :
    t.contents? (q.join fileName) = some bytes ↔
      ∃ l, t.Enters q l ∧ t.find? (fileName :: l) = some (.file bytes) := by
  rw [FileTree.contents?_eq_some_iff]
  constructor
  · rintro ⟨m, hm, hfile⟩
    obtain ⟨l, hl, rfl, -⟩ := resolve_candidate_eq_ok_iff.mp hm
    exact ⟨l, hl, hfile⟩
  · rintro ⟨l, hl, hfile⟩
    refine ⟨fileName :: l, resolve_candidate_eq_ok_iff.mpr ⟨l, hl, rfl, ?_⟩, hfile⟩
    simp [hfile]

-- A candidate has the same contents in two trees if its directory is entered in both or in neither
-- and if the files are the same.
theorem contents?_candidate_congr {t' : FileTree} {q q' : Path}
    (henters : ∀ l, t.Enters q l ↔ t'.Enters q' l)
    (hfiles : ∀ l, t.Enters q l → t.find? (fileName :: l) = t'.find? (fileName :: l)) :
    t.contents? (q.join fileName) = t'.contents? (q'.join fileName) := by
  ext bytes
  rw [contents?_candidate_eq_some_iff, contents?_candidate_eq_some_iff]
  apply exists_congr
  intro l
  rw [← henters]
  apply and_congr_right
  intro hl
  rw [hfiles l hl]

/-! ## The directory of the nearest file -/

/-- A found file lies in a directory to which the first names of the path lead, and from there the
names behind them lead to where the path itself leads.  Unless two dots are among these, the
directory of the file is the one that was asked about or lies above it. -/
theorem resolve_discover? {d : Location} (hd : t.resolve directory = .ok d)
    (h : discover? t directory = some c) :
    ∃ q ∈ directory.ancestors, ∃ l behind, c = q.join fileName ∧ t.resolve c = .ok (fileName :: l) ∧
      directory.names = q.names ++ behind ∧ t.walk l behind = .ok d ∧ (up ∉ behind → l <:+ d) := by
  obtain ⟨q, hq, rfl⟩ := mem_candidates_iff.mp (List.mem_of_find?_eq_some h)
  have hfile : (t.contents? (q.join fileName)).isSome := by
    rw [← FileTree.isFile_eq]
    exact List.find?_some h
  obtain ⟨bytes, hbytes⟩ := Option.isSome_iff_exists.mp hfile
  obtain ⟨l, hl, hfind⟩ := contents?_candidate_eq_some_iff.mp hbytes
  obtain ⟨⟨behind, hnames⟩, habs⟩ := Path.names_of_mem_ancestors hq
  have hresolve : t.resolve (q.join fileName) = .ok (fileName :: l) :=
    resolve_candidate_eq_ok_iff.mpr ⟨l, hl, rfl, by simp [hfind]⟩
  -- both walks start at the same place, and the longer one goes on where the shorter one ends
  have hwalk : t.walk (t.start directory) directory.names = .ok d := by
    have hne : directory ≠ [] := by
      rintro rfl
      cases hd
    rw [FileTree.resolve_eq hne] at hd
    exact FileTree.walk_filter hd
  rw [← hnames, FileTree.walk_append_eq_ok_iff] at hwalk
  obtain ⟨l', hl', hbehind⟩ := hwalk
  have heq : t.walk (t.start directory) q.names = .ok l := by
    rw [← FileTree.start_eq_start habs]
    exact hl.1
  obtain rfl : l' = l := Except.ok.inj (hl'.symm.trans heq)
  exact ⟨q, hq, l', behind, rfl, hresolve, hnames.symm, hbehind, FileTree.suffix_of_walk hbehind⟩

/-- A directory `a` with a directory `b` and a settings file in it, whose one byte is no text. -/
def sampleTree : FileTree where
  entry? l :=
    if l = [['a']] ∨ l = [['b'], ['a']] then some .directory
    else if l = [fileName, ['a']] then some (.file ⟨#[0xFF]⟩)
    else none
  entry?_parent name l h := by
    split at h
    · next heq =>
      rcases heq with heq | heq
      · exact .inl (List.cons.inj heq).2
      · rw [(List.cons.inj heq).2]
        exact .inr rfl
    · split at h
      · next heq =>
        rw [(List.cons.inj heq).2]
        exact .inr rfl
      · exact absurd rfl h

-- Two dots before the directory of the file do no harm.
theorem resolve_discover?_dots :
    sampleTree.resolve "a/../a/b".toList = .ok [['b'], ['a']] ∧
      discover? sampleTree "a/../a/b".toList = some "a/../a/sigparse.toml".toList ∧
      ∃ l, sampleTree.resolve "a/../a/sigparse.toml".toList = .ok (fileName :: l) ∧
        l <:+ [['b'], ['a']] := by
  have hd : sampleTree.resolve "a/../a/b".toList = .ok [['b'], ['a']] := by decide +kernel
  have hc : discover? sampleTree "a/../a/b".toList = some "a/../a/sigparse.toml".toList := by
    decide +kernel
  obtain ⟨q, hq, l, behind, hjoin, hl, hnames, -, hsuffix⟩ := resolve_discover? hd hc
  have hfront : ∀ q ∈ Path.ancestors "a/../a/b".toList,
      "a/../a/sigparse.toml".toList = Path.join q fileName → q.names = [['a'], up, ['a']] := by
    decide +kernel
  have hall : Path.names "a/../a/b".toList = [['a'], up, ['a']] ++ [['b']] := by decide +kernel
  rw [hfront q hq hjoin, hall] at hnames
  obtain rfl := List.append_cancel_left hnames
  exact ⟨hd, hc, l, hl, hsuffix (by decide)⟩

/-- Two dots at the end lead up, and the file found lies below the directory asked about. -/
theorem not_forall_suffix_of_discover? :
    ¬ ∀ (t : FileTree) (directory c : Path) (d l : Location), t.resolve directory = .ok d →
      t.find? d = some .directory → discover? t directory = some c →
        t.resolve c = .ok (fileName :: l) → l <:+ d := by
  intro h
  have hchild := h sampleTree "a/..".toList "a/sigparse.toml".toList [] [['a']] (by decide +kernel)
    rfl (by decide +kernel) (by decide +kernel)
  exact absurd hchild (by decide)

end Settings

end SignatureLine
