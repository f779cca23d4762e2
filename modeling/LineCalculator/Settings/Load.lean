import LineCalculator.Folder
import LineCalculator.Settings.Environment

/-!
# Loading settings

Settings come from the defaults, from a file, and from the environment, of which the later ones win.
The file may be named; otherwise the file with the usual name is taken if the folder has one.
-/

namespace LineCalculator.Settings

/-- The name that a file of settings usually has. -/
def fileName : String := "calcula.toml"

/-- The settings that the content at a path gives, if there is anything. -/
def ofContent? [Limits] (path : String) : Content → Option (Except LoadFailure Settings)
  | .missing => none
  | .folder => some (.error .isFolder)
  | .unreadable => some (.error .unreadable)
  | .tooLong => some (.error .pathTooLong)
  | .file text => some (ofFile path text)

/-- The settings from the named file, or else from the usual one if it is there. -/
def base [Limits] (folder : Folder) : Option String → Except LoadFailure Settings
  | some path =>
    (ofContent? (plainPath path) (folder.content path)).getD
      (.error (.rejected (.missingFile (plainPath path))))
  | none => (ofContent? (folder.location ++ "/" ++ fileName) (folder.content fileName)).getD (.ok {})

/-- The settings from all sources, and what is told about them. -/
def load [Limits] (folder : Folder) (env : Environment) (path : Option String) :
    Except LoadFailure Settings × List Record :=
  env.apply (base folder path)

end LineCalculator.Settings
