import Mathlib.Data.List.Find
import SignatureLine.Proofs.FileTree.Spelling
import SignatureLine.Proofs.Settings.Discovery

/-!
# The nearest settings file

The search for a settings file looks into the directory that a path spells and goes on with the
lexical parent of the path.  Its outcome depends on the names in the path, on the directories on the
way of these names and on the candidates, and on nothing else.
-/

namespace SignatureLine

open SignatureLine.Path (Respelling SameNames)

namespace Settings

variable {t t' : FileTree} {directory directory' c : Path}

/-! ## One step of the search -/

theorem candidates_eq (directory : Path) :
    candidates directory =
      directory.join fileName :: (directory.parent?.map candidates).getD [] := by
  rw [candidates, Path.ancestors_eq, List.map_cons]
  cases directory.parent? <;> rfl

theorem discover?_eq (t : FileTree) (directory : Path) :
    discover? t directory =
      if t.isFile (directory.join fileName) then some (directory.join fileName)
      else directory.parent?.bind (discover? t) := by
  rw [discover?, candidates_eq, List.find?_cons]
  cases t.isFile (directory.join fileName) with
  | true => rfl
  | false =>
    cases directory.parent? <;> rfl

theorem isFile_of_directory {l : Location} (h : t.resolve c = .ok l)
    (hl : t.find? l = some .directory) : t.isFile c = false := by
  simp only [FileTree.isFile, h, hl]

/-! ## Paths with the same names -/

theorem enters_iff_of_sameNames (h : SameNames directory directory') (l : Location) :
    t.Enters directory l ↔ t.Enters directory' l := by
  rw [FileTree.Enters, FileTree.Enters, h.names, FileTree.start_eq_start h.absolute]

theorem isFile_candidate_of_sameNames (h : SameNames directory directory') :
    t.isFile (directory.join fileName) = t.isFile (directory'.join fileName) := by
  rw [FileTree.isFile_eq, FileTree.isFile_eq,
    contents?_candidate_congr (enters_iff_of_sameNames h) fun _ _ => rfl]

-- A path without names has no ancestors but such paths.
theorem discover?_eq_none_of_names_eq_nil (hnames : directory.names = [])
    (hfile : t.isFile (directory.join fileName) = false) : discover? t directory = none := by
  rw [discover?, List.find?_eq_none]
  intro c hc
  obtain ⟨q, hq, rfl⟩ := mem_candidates_iff.mp hc
  obtain ⟨hfront, habs⟩ := Path.names_of_mem_ancestors hq
  rw [hnames, List.prefix_nil] at hfront
  rw [isFile_candidate_of_sameNames ⟨hfront.trans hnames.symm, habs⟩, hfile]
  exact Bool.false_ne_true

/-- Nothing is found from either path, or the same file is. -/
def SameOutcome (t : FileTree) (directory directory' : Path) : Prop :=
  (discover? t directory = none ∧ discover? t directory' = none) ∨
    ∃ c c' l bytes, discover? t directory = some c ∧ discover? t directory' = some c' ∧
      t.resolve c = .ok l ∧ t.resolve c' = .ok l ∧ t.find? l = some (.file bytes)

theorem sameOutcome_of_sameNames (h : SameNames directory directory') :
    SameOutcome t directory directory' := by
  -- from each path to its parent, as long as there are names
  induction hn : directory.length using Nat.strong_induction_on
      generalizing directory directory' with
  | h n ih =>
    have hcandidate := isFile_candidate_of_sameNames (t := t) h
    cases hfile : t.isFile (directory.join fileName) with
    | true =>
      rw [hfile] at hcandidate
      rw [FileTree.isFile_eq] at hfile
      obtain ⟨bytes, hbytes⟩ := Option.isSome_iff_exists.mp hfile
      obtain ⟨l, hl, hfind⟩ := contents?_candidate_eq_some_iff.mp hbytes
      have hsome : t.find? (fileName :: l) ≠ none := by simp [hfind]
      refine .inr ⟨_, _, fileName :: l, bytes, ?_, ?_,
        resolve_candidate_eq_ok_iff.mpr ⟨l, hl, rfl, hsome⟩,
        resolve_candidate_eq_ok_iff.mpr ⟨l, (enters_iff_of_sameNames h l).mp hl, rfl, hsome⟩, hfind⟩
      · rw [discover?_eq, FileTree.isFile_eq, hfile, if_pos rfl]
      · rw [discover?_eq, ← hcandidate, if_pos rfl]
    | false =>
      rw [hfile] at hcandidate
      by_cases hnames : directory.names = []
      · exact .inl ⟨discover?_eq_none_of_names_eq_nil hnames hfile,
          discover?_eq_none_of_names_eq_nil (h.names ▸ hnames) hcandidate.symm⟩
      · obtain ⟨q, hq⟩ := Path.exists_parent? hnames
        obtain ⟨q', hq'⟩ := Path.exists_parent? (h.names ▸ hnames)
        have hparents := ih q.length (hn ▸ Path.length_parent?_lt hq) (h.parent? hq hq') rfl
        rw [SameOutcome, discover?_eq t directory, discover?_eq t directory', hfile, ← hcandidate,
          hq, hq']
        exact hparents

/-! ## Trees with the same way -/

theorem discover?_congr (h : t.SameWay t' directory)
    (hfiles : ∀ q ∈ directory.ancestors, ∀ l, t.Enters q l →
      t.find? (fileName :: l) = t'.find? (fileName :: l)) :
    discover? t directory = discover? t' directory := by
  rw [discover?, discover?]
  apply List.find?_congr
  intro c hc
  obtain ⟨q, hq, rfl⟩ := mem_candidates_iff.mp hc
  obtain ⟨hnames, habs⟩ := Path.names_of_mem_ancestors hq
  rw [FileTree.isFile_eq, FileTree.isFile_eq,
    contents?_candidate_congr (fun _ => h.enters_iff hnames habs) (hfiles q hq)]

/-! ## The search as a whole -/

/-- The search for a settings file, by one step of it and by what its outcome depends on.  It ends
at the first candidate that is a regular file; the lexical parent has all names but the last,
whatever this is; spellings of one path find one file; and two trees with the same directories on
the way and the same candidates give the same outcome. -/
theorem discover?_nearest (t : FileTree) (directory : Path) :
    (discover? t directory =
        if t.isFile (directory.join fileName) then some (directory.join fileName)
        else directory.parent?.bind (discover? t)) ∧
      (∀ q, directory.parent? = some q → q.names = directory.names.dropLast ∧
        (q.head? = some '/' ↔ directory.head? = some '/')) ∧
      (directory.parent? = none ↔
        directory.names = [] ∧ (directory = [] ∨ directory.head? = some '/')) ∧
      (∀ c, discover? t directory = some c → ∃ near far,
        candidates directory = near ++ c :: far ∧ t.isFile c = true ∧
          ∀ c' ∈ near, t.isFile c' = false) ∧
      (∀ l, t.resolve (directory.join fileName) = .ok l → t.find? l = some .directory →
        discover? t directory = directory.parent?.bind (discover? t)) ∧
      (∀ directory', Relation.EqvGen Respelling directory directory' →
        SameOutcome t directory directory') ∧
      ∀ t', t.SameWay t' directory →
        (∀ q ∈ directory.ancestors, ∀ l, t.Enters q l →
          t.find? (fileName :: l) = t'.find? (fileName :: l)) →
        discover? t directory = discover? t' directory := by
  refine ⟨discover?_eq t directory, fun q => Path.names_parent?, Path.parent?_eq_none_iff, ?_, ?_,
    fun directory' h => sameOutcome_of_sameNames (Path.sameNames_of_respellings h),
    fun t' => discover?_congr⟩
  · intro c hc
    obtain ⟨hfile, near, far, hcandidates, hnear⟩ := List.find?_eq_some_iff_append.mp hc
    exact ⟨near, far, hcandidates, hfile, fun c' hc' => by simpa using hnear c' hc'⟩
  · intro l hl hdirectory
    rw [discover?_eq, isFile_of_directory hl hdirectory]
    rfl

-- A directory with the name of a settings file is skipped, slashes and dots are left out of
-- account, and a new directory next to the way makes no difference.
theorem discover?_nearest_respelled :
    ∃ t t', sampleTree.put [['b'], ['a']] fileName .directory = .ok t ∧
      t.put [] ['d'] .directory = .ok t' ∧
      (∃ near far, candidates "a/b".toList = near ++ "a/sigparse.toml".toList :: far ∧
        ∀ c ∈ near, t.isFile c = false) ∧
      discover? t "a/b".toList = discover? t "a".toList ∧
      SameOutcome t "a/b".toList "a/./b//".toList ∧
      discover? t "a/b".toList = discover? t' "a/b".toList := by
  obtain ⟨t, t', ht, ht', hstart, hfound, hresolve, hdirectory⟩ :
      ∃ t t', sampleTree.put [['b'], ['a']] fileName .directory = .ok t ∧
        t.put [] ['d'] .directory = .ok t' ∧ t.workingDirectory = [] ∧
        discover? t "a/b".toList = some "a/sigparse.toml".toList ∧
        t.resolve (Path.join "a/b".toList fileName) = .ok [fileName, ['b'], ['a']] ∧
        t.find? [fileName, ['b'], ['a']] = some .directory :=
    ⟨_, _, rfl, rfl, rfl, by decide +kernel, by decide +kernel, rfl⟩
  obtain ⟨-, -, -, hnear, hskip, hspelling, hway⟩ := discover?_nearest t "a/b".toList
  refine ⟨t, t', ht, ht', ?_, hskip _ hresolve hdirectory, hspelling "a/./b//".toList ?_,
    hway t' ?_ ?_⟩
  · obtain ⟨near, far, hcandidates, -, hnone⟩ := hnear _ hfound
    exact ⟨near, far, hcandidates, hnone⟩
  · have hdot : Respelling "a/./b".toList "a/b".toList := .dot ['a'] ['b']
    have hslash : Respelling "a/./b/".toList "a/./b".toList :=
      .lastSlash (p := "a/./b".toList) (by decide)
    have hslashes : Respelling "a/./b//".toList "a/./b/".toList :=
      .lastSlash (p := "a/./b/".toList) (by decide)
    have hplain := Relation.EqvGen.trans _ _ _ (.rel _ _ hslash) (.rel _ _ hdot)
    exact .symm _ _ (.trans _ _ _ (.rel _ _ hslashes) hplain)
  · refine .of_put ht' ?_ fun front name k hfront _ => ?_
    · rw [show t.start "a/b".toList = t.workingDirectory from rfl, hstart]
      nofun
    · have hnames : Path.names "a/b".toList = [['a'], ['b']] := by decide +kernel
      rw [hnames] at hfront
      have hmem : name ∈ [['a'], ['b']] := hfront.subset (by simp)
      have hname : name = ['a'] ∨ name = ['b'] := by simpa using hmem
      rcases hname with rfl | rfl <;> simp [FileTree.enter, Path.up]
  · intro q _ l _
    have hname : fileName ≠ ['d'] := by decide
    rw [FileTree.find?_put ht', if_neg fun heq => hname (List.cons.inj heq).1]

end Settings

end SignatureLine
