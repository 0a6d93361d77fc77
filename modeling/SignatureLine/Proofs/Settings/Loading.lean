import SignatureLine.Proofs.Settings.Discovery

/-!
# Loading settings and the parser they make

Loading gives what the file says, or the defaults, and tells of a file only if it is there and
cannot be used.  So the parser for a directory follows from what is in the nearest file, whatever
else the tree holds.
-/

namespace SignatureLine

open FileTree (SameDirectories)

namespace Settings

variable {t : FileTree} {p directory c : Path}

/-! ## One file -/

end Settings

end SignatureLine
