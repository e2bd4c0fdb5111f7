import ContractWorks.Settings.Ini
import ContractWorks.Settings.Json5
import ContractWorks.Settings.Ron
import ContractWorks.Settings.Shape
import ContractWorks.Settings.Toml
import ContractWorks.Settings.Variable
import ContractWorks.Settings.Yaml
import ContractWorks.Storage.Disk

namespace ContractWorks.Settings

/-- A file format is how settings are written in a file. -/
inductive FileFormat where
  | toml
  | json
  | yaml
  | ini
  | ron
  | json5
  deriving DecidableEq, Repr

namespace FileFormat

/-- This list gives the extensions of files with the formats that they stand for. -/
def extensions : List (String × FileFormat) :=
  [("toml", .toml), ("json", .json), ("yaml", .yaml), ("yml", .yaml),
   ("ini", .ini), ("ron", .ron), ("json5", .json5)]

/-- This function finds the format by the extension of a file. -/
def ofExtension? (extension : String) : Option FileFormat :=
  extensions.lookup extension

/-- This function reads settings. -/
def read (format : FileFormat) (text : String) : Option SettingTree :=
  match format with
  | .json => (Json.read text).map SettingTree.ofJson
  | .toml => Toml.read text
  | .yaml => Yaml.read text
  | .ini => Ini.read text
  | .ron => Ron.read text
  | .json5 => Json5.read text

end FileFormat

/-- This function gives the text of a file, if there is one. -/
def fileText? (disk : Disk) (path : String) : Option String :=
  match disk.read path with
  | .ok content => String.fromUTF8? content
  | .error _ => none

/-- This test asks whether a path leads to a file. A path with a slash at its end leads to a directory only. -/
def isFile (disk : Disk) (path : String) : Bool :=
  Path.withoutEnd path = path && disk.exists? path && !disk.isDirectory path

/-- This function gives the paths with an extension that a path may stand for. A path that ends in a name for the
directory above stands for none. -/
def candidates (path : String) : List (FileFormat × String) :=
  match Path.fileName? path with
  | none => []
  | some name =>
    if name = ".." then []
    else
      let bare := Path.withoutEnd path
      FileFormat.extensions.map fun entry => (entry.2, bare ++ "." ++ entry.1)

/-- This function finds the file of a path with its format. If the path leads to no file, it may lead to one
with an extension. -/
def findFile (disk : Disk) (path : String) : Option (FileFormat × String) :=
  if isFile disk path then
    (((Path.fileName? path).bind Path.extension?).bind FileFormat.ofExtension?).map fun format =>
      (format, path)
  else
    (candidates path).find? fun candidate => isFile disk candidate.2

/-- This function gives the settings of a file. A file that is missing sets nothing, and one that cannot be
understood has no settings. -/
def ofFile (disk : Disk) (path : String) : Option (List (String × SettingTree)) :=
  match findFile disk path with
  | none => some []
  | some (format, path) =>
    match fileText? disk path with
    | none => some []
    | some text =>
      match format.read text with
      | some (.group members) => some members
      | _ => none

/-- This function loads the settings of the service: variables go over the file, and the file over what is set
from the start. -/
def load (temporary : String) (disk : Disk) (path : Option String)
    (environment : List (String × String)) : Option ServiceConfig := do
  let members ← match path with
    | none => some []
    | some path => ofFile disk path
  let start := SettingTree.ofJson (ServiceConfig.default temporary).encode
  ((start.overlay members).withEnvironment environment |>.toConfig temporary).toOption

end ContractWorks.Settings
