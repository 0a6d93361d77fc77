import SignatureLine.Settings.Decode

/-!
# Loading settings

Reading settings from a file, with a reason if that fails, or with defaults instead and a warning;
finding the file that applies to a directory; and the parser for that directory.
-/

namespace SignatureLine

namespace Settings

def fileName : Text :=
  "sigparse.toml".toList

def ofFile (t : FileTree) (p : Path) : Except SettingsError Settings := do
  ofText (← (t.readText p).mapError .access)

/-- The settings in a file, or the defaults if there is no such file or it cannot be used. Only in
the latter case there is an event. -/
def load (t : FileTree) (p : Path) : Logged SettingsEvent Settings :=
  if t.pathExists p then
    match ofFile t p with
    | .ok s => pure s
    | .error e => do
        Logged.emit (.ignored p e)
        return {}
  else pure {}

/-- The paths at which the settings file for a directory is looked for, in this order: in the
directory itself, then in each of its ancestors as the path spells them. -/
def candidates (directory : Path) : List Path :=
  directory.ancestors.map (Path.join · fileName)

/-- The nearest settings file. What lies at a candidate has to be a regular file. -/
def discover? (t : FileTree) (directory : Path) : Option Path :=
  (candidates directory).find? t.isFile

/-- The settings for a directory: those of the nearest file, or the defaults if there is none. -/
def forDirectory (t : FileTree) (directory : Path) : Logged SettingsEvent Settings :=
  match discover? t directory with
  | some p => load t p
  | none => pure {}

end Settings

def Parser.forDirectory (t : FileTree) (directory : Path) : Parser :=
  .ofSettings (Settings.forDirectory t directory).value

end SignatureLine
