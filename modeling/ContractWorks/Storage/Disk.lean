import ContractWorks.Storage.Path
import ContractWorks.Table

namespace ContractWorks

/-- A place in a file system is a row of file names that starts at its top. -/
abbrev Place := List FileName

/-- An entry of a file system is a directory or a file. -/
inductive DiskEntry where
  | directory
  | file (content : ByteArray)

/-- A disk tells what stands at which place; the top is always a directory. -/
structure Disk where
  entries : Table Place DiskEntry

/-- This type gives the reasons why an operation on a disk fails. -/
inductive DiskError where
  | missing
  | notDirectory
  | isDirectory
  | taken
  | badName
  | longPath
  | zeroOctet
  deriving DecidableEq, Repr

/-- This function words a failure. The wording belongs to the operating system and is left open, unless the path
never comes to it. -/
def DiskError.message : DiskError → String
  | .zeroOctet => "file name contained an unexpected NUL byte"
  | _ => "<os error>"

namespace Disk

/-- An empty disk has nothing but its top. -/
def empty : Disk := ⟨[]⟩

/-- This function gives what stands at a place. -/
def at? (disk : Disk) (place : Place) : Option DiskEntry :=
  if place = [] then some .directory else Table.get? place disk.entries

/-- A file name fits when it has at most 255 octets. -/
def fits (name : FileName) : Bool :=
  name.text.utf8ByteSize ≤ 255

/-- This function gives the parts of a path, which has at most 4095 octets and no zero among them. -/
def partsOf (path : String) : Except DiskError (List PathPart) :=
  if path.toList.contains '\x00' then .error .zeroOctet
  else if path.utf8ByteSize ≤ 4095 then .ok (Path.parts path)
  else .error .longPath

/-- This function walks from one place along parts; all places but the last one have to be directories. -/
def walk (disk : Disk) : Place → List PathPart → Except DiskError Place
  | place, [] => .ok place
  | place, part :: rest =>
    match disk.at? place with
    | none => .error .missing
    | some (.file _) => .error .notDirectory
    | some .directory =>
      match part with
      | .up => walk disk place.dropLast rest
      | .into name => if fits name then walk disk (place ++ [name]) rest else .error .badName

/-- This function gives the place that a path leads to. -/
def resolve (disk : Disk) (path : String) : Except DiskError Place := do
  disk.walk [] (← partsOf path)

/-- This function gives what a path leads to. -/
def find (disk : Disk) (path : String) : Except DiskError (Place × DiskEntry) := do
  let place ← disk.resolve path
  match disk.at? place with
  | some entry => return (place, entry)
  | none => throw .missing

/-- This test asks for a directory. -/
def isDirectory (disk : Disk) (path : String) : Bool :=
  match disk.find path with
  | .ok (_, .directory) => true
  | _ => false

/-- This test asks for a file or a directory. -/
def exists? (disk : Disk) (path : String) : Bool :=
  match disk.find path with
  | .ok _ => true
  | .error _ => false

/-- This function reads a file. -/
def read (disk : Disk) (path : String) : Except DiskError ByteArray := do
  match ← disk.find path with
  | (_, .file content) => return content
  | (_, .directory) => throw .isDirectory

/-- This function writes a file into a directory that exists. -/
def write (disk : Disk) (path : String) (content : ByteArray) : Except DiskError Disk := do
  let place ← disk.resolve path
  match disk.at? place with
  | some .directory => throw .isDirectory
  | some (.file _) => return ⟨Table.insert place (.file content) disk.entries⟩
  | none =>
    match disk.at? place.dropLast with
    | some .directory => return ⟨Table.insert place (.file content) disk.entries⟩
    | some (.file _) => throw .notDirectory
    | none => throw .missing

/-- This function makes the directories along parts that do not exist yet. -/
def makeAlong (disk : Disk) : Place → List PathPart → Except DiskError Disk
  | _, [] => .ok disk
  | place, .up :: rest => makeAlong disk place.dropLast rest
  | place, .into name :: rest =>
    if fits name then
      let next := place ++ [name]
      match disk.at? next with
      | some .directory => makeAlong disk next rest
      | some (.file _) => .error (if rest = [] then .taken else .notDirectory)
      | none => makeAlong ⟨Table.insert next .directory disk.entries⟩ next rest
    else .error .badName

/-- This function makes a directory and those above it. -/
def makeDirectories (disk : Disk) (path : String) : Except DiskError Disk := do
  disk.makeAlong [] (← partsOf path)

/-- This function makes one new directory inside another. -/
def makeDirectory (disk : Disk) (path : String) : Except DiskError Disk := do
  let place ← disk.resolve path
  match disk.at? place, disk.at? place.dropLast with
  | some _, _ => throw .taken
  | none, some .directory => return ⟨Table.insert place .directory disk.entries⟩
  | none, some (.file _) => throw .notDirectory
  | none, none => throw .missing

/-- This function removes a file. -/
def removeFile (disk : Disk) (path : String) : Except DiskError Disk := do
  match ← disk.find path with
  | (place, .file _) => return ⟨Table.erase place disk.entries⟩
  | (_, .directory) => throw .isDirectory

/-- This function removes a directory and all that is in it. -/
def removeTree (disk : Disk) (path : String) : Except DiskError Disk := do
  match ← disk.find path with
  | (_, .file _) => throw .notDirectory
  | (place, .directory) =>
    return ⟨disk.entries.filter fun entry => !place.isPrefixOf entry.1⟩

/-- This function moves a file over another one or to a new place. -/
def rename (disk : Disk) (source target : String) : Except DiskError Disk := do
  match ← disk.find source with
  | (_, .directory) => throw .isDirectory
  | (place, .file content) =>
    let disk ← disk.write target content
    let targetPlace ← disk.resolve target
    if targetPlace = place then return disk
    else return ⟨Table.erase place disk.entries⟩

/-- This function gives the name of a place directly inside another one. -/
def childName (parent place : Place) : Option FileName :=
  if parent.isPrefixOf place && place.length = parent.length + 1 then place.getLast? else none

/-- This function lists the names in a directory in the order of their characters. -/
def list (disk : Disk) (path : String) : Except DiskError (List String) := do
  match ← disk.find path with
  | (_, .file _) => throw .notDirectory
  | (place, .directory) =>
    let names := disk.entries.filterMap fun entry => (childName place entry.1).map FileName.text
    return names.mergeSort fun first second => decide (first ≤ second)

/-- This function lists all files below a directory by their paths from there. -/
def filesBelow (disk : Disk) (path : String) : Except DiskError (List (String × ByteArray)) := do
  let (place, _) ← disk.find path
  return disk.entries.filterMap fun entry =>
    match entry.2 with
    | .directory => none
    | .file content =>
      if place.isPrefixOf entry.1 then
        some ("/".intercalate ((entry.1.drop place.length).map FileName.text), content)
      else none

end Disk

end ContractWorks
