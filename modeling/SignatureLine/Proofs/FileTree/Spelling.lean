import Mathlib.Logic.Relation
import SignatureLine.Proofs.FileTree.Names

/-!
# Spellings of a path

Slashes and dots that say nothing can be put into a path and taken out of it.  The path keeps its
names, stays relative or absolute, and its parent keeps what a parent has of these.
-/

namespace SignatureLine.Path

/-- One change in the spelling of a path: one of two adjacent slashes goes away, or a slash at the
end, or a dot that is a segment behind the first one. -/
inductive Respelling : Path → Path → Prop
  | slash (before after : Text) :
      Respelling (before ++ '/' :: '/' :: after) (before ++ '/' :: after)
  | lastSlash {p : Path} (hp : p ≠ []) : Respelling (p ++ ['/']) p
  | dot (before after : Text) :
      Respelling (before ++ '/' :: '.' :: '/' :: after) (before ++ '/' :: after)
  | lastDot {p : Path} (hp : p ≠ []) : Respelling (p ++ ['/', '.']) p

/-- The paths have the same names, and both are absolute or neither is. -/
structure SameNames (p q : Path) : Prop where
  names : p.names = q.names
  absolute : p.head? = some '/' ↔ q.head? = some '/'

theorem names_append_slash (p : Path) (s : Text) :
    names (p ++ '/' :: s) = names p ++ names s := by
  rw [names, segments_append_slash, List.filter_append, names, names]

theorem names_nil : names [] = [] := rfl

theorem names_dot : names ['.'] = [] := rfl

theorem sameNames_of_respelling {p q : Path} (h : Respelling p q) : SameNames p q := by
  cases h with
  | slash before after =>
    have hslash : names ('/' :: after) = names after := names_append_slash [] after
    refine ⟨?_, by cases before <;> rfl⟩
    rw [names_append_slash, names_append_slash, hslash]
  | lastSlash hp =>
    refine ⟨?_, by rw [List.head?_append_of_ne_nil _ hp]⟩
    rw [names_append_slash, names_nil, List.append_nil]
  | dot before after =>
    have hdot : names ('.' :: '/' :: after) = names after := names_append_slash ['.'] after
    refine ⟨?_, by cases before <;> rfl⟩
    rw [names_append_slash, names_append_slash, hdot]
  | lastDot hp =>
    refine ⟨?_, by rw [List.head?_append_of_ne_nil _ hp]⟩
    rw [names_append_slash, names_dot, List.append_nil]

/-- Any number of changes, in either direction, leaves the names as they are. -/
theorem sameNames_of_respellings {p q : Path} (h : Relation.EqvGen Respelling p q) :
    SameNames p q := by
  induction h with
  | rel p q h => exact sameNames_of_respelling h
  | refl p => exact ⟨rfl, Iff.rfl⟩
  | symm p q _ ih => exact ⟨ih.names.symm, ih.absolute.symm⟩
  | trans p q r _ _ ih ih' => exact ⟨ih.names.trans ih'.names, ih.absolute.trans ih'.absolute⟩

theorem SameNames.parent? {p q r s : Path} (h : SameNames p q) (hp : Path.parent? p = some r)
    (hq : Path.parent? q = some s) : SameNames r s := by
  obtain ⟨hr, hrp⟩ := names_parent? hp
  obtain ⟨hs, hsq⟩ := names_parent? hq
  refine ⟨?_, hrp.trans (h.absolute.trans hsq.symm)⟩
  rw [hr, hs, h.names]

end SignatureLine.Path
