import SignatureLine.FileTree.Basic
import SignatureLine.Proofs.FileTree.Names

/-!
# Walking through a tree

Resolving a path is a walk from directory to directory.  It comes down to the names in the path,
and where no name is two dots it only leads down.
-/

namespace SignatureLine.FileTree

open SignatureLine.Path (up)

variable {t : FileTree} {l m : Location} {segment : Text} {segments : List Text} {e : AccessError}

/-- Follows segments one after the other. -/
def walk (t : FileTree) (l : Location) (segments : List Text) : Except AccessError Location :=
  segments.foldlM t.follow l

/-! ## One segment -/

theorem follow_of_directory (hl : t.find? l = some .directory) (segment : Text) :
    t.follow l segment =
      if Path.isIdle segment then .ok l
      else if segment = up then .ok l.tail
      else if (t.find? (segment :: l)).isSome then .ok (segment :: l)
      else .error .notFound := by
  rw [follow, hl]
  rfl

theorem find?_of_follow_eq_ok (h : t.follow l segment = .ok m) : t.find? l = some .directory := by
  unfold follow at h
  split at h
  · cases h
  · cases h
  · next hl => exact hl

-- All that following a segment can do.
theorem follow_cases (h : t.follow l segment = .ok m) :
    t.find? l = some .directory ∧
      ((Path.isIdle segment = true ∧ m = l) ∨ (segment = up ∧ m = l.tail) ∨
        (Path.isIdle segment = false ∧ segment ≠ up ∧ m = segment :: l ∧ t.find? m ≠ none)) := by
  have hl := find?_of_follow_eq_ok h
  refine ⟨hl, ?_⟩
  rw [follow_of_directory hl] at h
  split at h
  · next hidle => exact .inl ⟨hidle, (Except.ok.inj h).symm⟩
  · next hidle =>
    split at h
    · next hup => exact .inr (.inl ⟨hup, (Except.ok.inj h).symm⟩)
    · next hup =>
      split at h
      · next hsome =>
        obtain rfl := Except.ok.inj h
        exact .inr (.inr ⟨by simpa using hidle, hup, rfl, Option.isSome_iff_ne_none.mp hsome⟩)
      · cases h

theorem walk_cons :
    t.walk l (segment :: segments) = t.follow l segment >>= (t.walk · segments) := by
  rw [walk, List.foldlM_cons]
  rfl

theorem walk_cons_eq_ok_iff :
    t.walk l (segment :: segments) = .ok m ↔
      ∃ k, t.follow l segment = .ok k ∧ t.walk k segments = .ok m := by
  rw [walk_cons]
  cases t.follow l segment with
  | error e => simp [bind, Except.bind]
  | ok k => simp [bind, Except.bind]

theorem walk_append_eq_ok_iff {first second : List Text} :
    t.walk l (first ++ second) = .ok m ↔ ∃ k, t.walk l first = .ok k ∧ t.walk k second = .ok m := by
  induction first generalizing l with
  | nil => simp [walk, pure, Except.pure]
  | cons segment first ih =>
    simp only [List.cons_append, walk_cons_eq_ok_iff, ih]
    exact ⟨fun ⟨k, hk, j, hj, hm⟩ => ⟨j, ⟨k, hk, hj⟩, hm⟩,
      fun ⟨j, ⟨k, hk, hj⟩, hm⟩ => ⟨k, hk, j, hj, hm⟩⟩

-- A walk that goes on starts in a directory.
theorem find?_of_walk (h : t.walk l segments = .ok m) (hm : t.find? m = some .directory) :
    t.find? l = some .directory := by
  cases segments with
  | nil =>
    obtain rfl : l = m := Except.ok.inj h
    exact hm
  | cons segment segments =>
    obtain ⟨k, hk, -⟩ := walk_cons_eq_ok_iff.mp h
    exact find?_of_follow_eq_ok hk

-- What says nothing can be left out of a walk.
theorem walk_filter (h : t.walk l segments = .ok m) :
    t.walk l (segments.filter (!Path.isIdle ·)) = .ok m := by
  induction segments generalizing l with
  | nil => exact h
  | cons segment segments ih =>
    obtain ⟨k, hk, hwalk⟩ := walk_cons_eq_ok_iff.mp h
    by_cases hidle : Path.isIdle segment = true
    · have hl := find?_of_follow_eq_ok hk
      rw [follow_of_directory hl, if_pos hidle] at hk
      obtain rfl := Except.ok.inj hk
      rw [List.filter_cons_of_neg (by simp [hidle])]
      exact ih hwalk
    · rw [List.filter_cons_of_pos (by simpa using hidle), walk_cons_eq_ok_iff]
      exact ⟨k, hk, ih hwalk⟩

-- And it can be put into one from directory to directory.
theorem walk_of_walk_filter (h : t.walk l (segments.filter (!Path.isIdle ·)) = .ok m)
    (hm : t.find? m = some .directory) : t.walk l segments = .ok m := by
  induction segments generalizing l with
  | nil => exact h
  | cons segment segments ih =>
    rw [walk_cons_eq_ok_iff]
    by_cases hidle : Path.isIdle segment = true
    · rw [List.filter_cons_of_neg (by simp [hidle])] at h
      refine ⟨l, ?_, ih h⟩
      rw [follow_of_directory (find?_of_walk h hm), if_pos hidle]
    · rw [List.filter_cons_of_pos (by simpa using hidle), walk_cons_eq_ok_iff] at h
      obtain ⟨k, hk, hwalk⟩ := h
      exact ⟨k, hk, ih hwalk⟩

/-- A walk without two dots never leads up. -/
theorem suffix_of_walk (h : t.walk l segments = .ok m) (hup : up ∉ segments) : l <:+ m := by
  induction segments generalizing l with
  | nil =>
    obtain rfl : l = m := Except.ok.inj h
    exact List.suffix_rfl
  | cons segment segments ih =>
    obtain ⟨k, hk, hwalk⟩ := walk_cons_eq_ok_iff.mp h
    have hrest := ih hwalk (List.not_mem_of_not_mem_cons hup)
    obtain ⟨-, ⟨-, rfl⟩ | ⟨rfl, -⟩ | ⟨-, -, rfl, -⟩⟩ := follow_cases hk
    · exact hrest
    · exact absurd List.mem_cons_self hup
    · exact (List.suffix_cons segment l).trans hrest

/-! ## Resolving -/

theorem resolve_eq {p : Path} (hp : p ≠ []) : t.resolve p = t.walk (t.start p) p.segments := by
  rw [resolve, if_neg (by simpa using hp)]
  rfl

/-- The names of a path lead from the start of it to a directory.  The empty path, too, leads
somewhere, although nothing can be found under it. -/
def Enters (t : FileTree) (p : Path) (l : Location) : Prop :=
  t.walk (t.start p) p.names = .ok l ∧ t.find? l = some .directory

theorem start_eq_start {p q : Path} (h : q.head? = some '/' ↔ p.head? = some '/') :
    t.start q = t.start p := by
  by_cases hp : p.head? = some '/'
  · rw [start, if_pos (h.mpr hp), start, if_pos hp]
  · rw [start, if_neg (mt h.mp hp), start, if_neg hp]

/-- A name in a directory is found where the path of the directory leads. -/
theorem resolve_join_eq_ok_iff {q : Path} {name : Text} (hslash : '/' ∉ name)
    (hidle : Path.isIdle name = false) (hup : name ≠ up) :
    t.resolve (q.join name) = .ok m ↔
      ∃ l, t.Enters q l ∧ m = name :: l ∧ t.find? m ≠ none := by
  obtain ⟨front, hs, hnames⟩ := Path.segments_join q hslash
  have hne : q.join name ≠ [] := by
    -- the empty path has no segment that says something
    intro hnil
    rw [hnil, Path.segments_of_not_mem List.not_mem_nil] at hs
    have hlast : some [] = some name := by simpa using congrArg List.getLast? hs
    rw [← Option.some.inj hlast] at hidle
    cases hidle
  have hhead : name.head? ≠ some '/' := fun h => hslash (List.mem_of_mem_head? h)
  rw [resolve_eq hne, hs, start_eq_start (Path.head?_join q hhead), walk_append_eq_ok_iff]
  constructor
  · rintro ⟨l, hfront, hlast⟩
    obtain ⟨m', hm', hnil⟩ := walk_cons_eq_ok_iff.mp hlast
    obtain rfl : m' = m := Except.ok.inj hnil
    obtain ⟨hl, ⟨hidle', -⟩ | ⟨hup', -⟩ | ⟨-, -, hm, hfind⟩⟩ := follow_cases hm'
    · rw [hidle] at hidle'
      cases hidle'
    · exact absurd hup' hup
    · exact ⟨l, ⟨hnames ▸ walk_filter hfront, hl⟩, hm, hfind⟩
  · rintro ⟨l, ⟨hwalk, hl⟩, rfl, hfind⟩
    refine ⟨l, walk_of_walk_filter (hnames ▸ hwalk) hl, walk_cons_eq_ok_iff.mpr ⟨_, ?_, rfl⟩⟩
    rw [follow_of_directory hl, if_neg (by simp [hidle]), if_neg hup,
      if_pos (Option.isSome_iff_ne_none.mpr hfind)]

/-! ## Directories on the way -/

/-- The location that a segment which says something leads to from a directory. -/
def enter (l : Location) (segment : Text) : Location :=
  if segment = up then l.tail else segment :: l

-- One more segment leads to a directory from a directory only.
theorem walk_concat_directory_iff {front : List Text} (hidle : Path.isIdle segment = false) :
    t.walk l (front ++ [segment]) = .ok m ∧ t.find? m = some .directory ↔
      ∃ k, (t.walk l front = .ok k ∧ t.find? k = some .directory) ∧
        m = enter k segment ∧ t.find? m = some .directory := by
  have hstep : ∀ k, t.walk k [segment] = t.follow k segment := by
    intro k
    rw [walk_cons]
    cases t.follow k segment <;> rfl
  simp only [walk_append_eq_ok_iff, hstep]
  constructor
  · rintro ⟨⟨k, hfront, hk⟩, hm⟩
    refine ⟨k, ⟨hfront, find?_of_follow_eq_ok hk⟩, ?_, hm⟩
    obtain ⟨-, ⟨hidle', -⟩ | ⟨hup, rfl⟩ | ⟨-, hup, rfl, -⟩⟩ := follow_cases hk
    · rw [hidle] at hidle'
      cases hidle'
    · rw [enter, if_pos hup]
    · rw [enter, if_neg hup]
  · rintro ⟨k, ⟨hfront, hk⟩, rfl, hm⟩
    refine ⟨⟨k, hfront, ?_⟩, hm⟩
    rw [follow_of_directory hk, if_neg (by simp [hidle]), enter]
    by_cases hup : segment = up
    · rw [if_pos hup, if_pos hup]
    · rw [enter, if_neg hup] at hm
      rw [if_neg hup, if_neg hup, if_pos (by simp [hm])]

/-- The trees have the same directories on the way on which the names of a path lead, as far as
there are directories in the first tree. -/
structure SameWay (t t' : FileTree) (p : Path) : Prop where
  workingDirectory : t.workingDirectory = t'.workingDirectory
  start : t.find? (t.start p) = some .directory ↔ t'.find? (t.start p) = some .directory
  next (front : List Text) (name : Text) (l : Location) : front ++ [name] <+: p.names →
    t.walk (t.start p) front = .ok l → t.find? l = some .directory →
      (t.find? (enter l name) = some .directory ↔ t'.find? (enter l name) = some .directory)

namespace SameWay

variable {t' : FileTree} {p q : Path}

-- An entry that is put somewhere else is no change of the way.
theorem of_put {name : Text} {entry : FileEntry} (h : t.put l name entry = .ok t')
    (hstart : t.start p ≠ name :: l)
    (hnext : ∀ front segment k, front ++ [segment] <+: p.names →
      t.walk (t.start p) front = .ok k → enter k segment ≠ name :: l) : SameWay t t' p where
  workingDirectory := (workingDirectory_put h).symm
  start := by rw [find?_put h, if_neg hstart]
  next front segment k hprefix hk _ := by
    rw [find?_put h, if_neg (hnext front segment k hprefix hk)]

theorem walk_iff (h : SameWay t t' p) {names : List Text} (hnames : names <+: p.names) :
    t.walk (t.start p) names = .ok m ∧ t.find? m = some .directory ↔
      t'.walk (t.start p) names = .ok m ∧ t'.find? m = some .directory := by
  -- from one name to the next one
  induction names using List.reverseRecOn generalizing m with
  | nil =>
    constructor
    · rintro ⟨hm, hdirectory⟩
      obtain rfl : t.start p = m := Except.ok.inj hm
      exact ⟨rfl, h.start.mp hdirectory⟩
    · rintro ⟨hm, hdirectory⟩
      obtain rfl : t.start p = m := Except.ok.inj hm
      exact ⟨rfl, h.start.mpr hdirectory⟩
  | append_singleton front name ih =>
    have hidle : Path.isIdle name = false := by
      have hmem : name ∈ p.names := hnames.subset (by simp)
      simpa using (List.mem_filter.mp hmem).2
    rw [walk_concat_directory_iff hidle, walk_concat_directory_iff hidle]
    apply exists_congr
    intro k
    rw [← ih ((List.prefix_append front [name]).trans hnames)]
    apply and_congr_right
    rintro ⟨hk, hdirectory⟩
    apply and_congr_right
    rintro rfl
    exact h.next front name k hnames hk hdirectory

/-- What is entered on the way is the same in the two trees. -/
theorem enters_iff (h : SameWay t t' p) (hnames : q.names <+: p.names)
    (habs : q.head? = some '/' ↔ p.head? = some '/') : t.Enters q l ↔ t'.Enters q l := by
  have hstart : t'.start p = t.start p := by rw [FileTree.start, FileTree.start, h.workingDirectory]
  rw [Enters, Enters, start_eq_start habs, start_eq_start habs, hstart]
  exact h.walk_iff hnames

end SameWay

/-- The trees differ in nothing but regular files, which may be in one of them only. -/
structure SameDirectories (t t' : FileTree) : Prop where
  workingDirectory : t.workingDirectory = t'.workingDirectory
  directory_iff (l : Location) : t.find? l = some .directory ↔ t'.find? l = some .directory

namespace SameDirectories

variable {t' : FileTree}

theorem of_put {name : Text} {bytes : ByteArray} (h : t.put l name (.file bytes) = .ok t') :
    SameDirectories t t' where
  workingDirectory := (workingDirectory_put h).symm
  directory_iff l' := by
    rw [find?_put h]
    by_cases heq : l' = name :: l
    · rw [if_pos heq, heq]
      exact iff_of_false (find?_of_put h).2 nofun
    · rw [if_neg heq]

theorem sameWay (h : SameDirectories t t') (p : Path) : SameWay t t' p where
  workingDirectory := h.workingDirectory
  start := h.directory_iff _
  next _ name l _ _ _ := h.directory_iff (enter l name)

theorem enters_iff (h : SameDirectories t t') {p : Path} : t.Enters p l ↔ t'.Enters p l :=
  (h.sameWay p).enters_iff List.prefix_rfl Iff.rfl

end SameDirectories

end SignatureLine.FileTree
