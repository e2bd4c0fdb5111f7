import ContractWorks.Job.Artifact
import ContractWorks.Storage.JsonFile

namespace ContractWorks

/-- An artifact store keeps artifacts in memory, or as files in a directory. -/
inductive ArtifactStore where
  | memory (artifacts : Table ArtifactId Artifact)
  | file (directory : String)

namespace ArtifactStore

/-- Only letters, digits and hyphens of ASCII may stand in an id that names a file. -/
def isSafeId (id : ArtifactId) : Bool :=
  id ≠ "" && id.toList.all fun character => character.isAlphanum || character = '-'

/-- This function gives the path of the file of an artifact. -/
def artifactPath (directory : String) (id : ArtifactId) : String :=
  Path.join directory (id ++ ".json")

/-- This function stores an artifact under its id. -/
def put (store : ArtifactStore) (artifact : Artifact) (fault : Option StoreFault) (disk : Disk) :
    Disk × ArtifactStore × Except StoreError Unit :=
  match fault with
  | some (.refused text) => (disk, store, .error (.io text))
  | fault =>
    match store with
    | .memory artifacts =>
      if fault.isSome then (disk, store, .error (JsonFile.failure .badName))
      else (disk, .memory (Table.insert artifact.id artifact artifacts), .ok ())
    | .file directory =>
      let (disk, saved) :=
        JsonFile.save (artifactPath directory artifact.id) artifact.encode fault disk
      (disk, store, saved)

/-- This function looks up an artifact. -/
def get (store : ArtifactStore) (id : ArtifactId) (fault : Option StoreFault) (disk : Disk) :
    Except StoreError (Option Artifact) :=
  match fault with
  | some (.refused text) => .error (.io text)
  | _ =>
    match store with
    | .memory artifacts => .ok (Table.get? id artifacts)
    | .file directory =>
      if isSafeId id then JsonFile.load Artifact.decode (artifactPath directory id) disk
      else .ok none

/-- This function opens the store in a directory, which is made if it is not there. -/
def openAt (directory : String) (disk : Disk) : Disk × Except StoreError ArtifactStore :=
  match disk.makeDirectories directory with
  | .error error => (disk, .error (JsonFile.failure error))
  | .ok disk => (disk, .ok (.file directory))

/-- This function opens the store below a directory. -/
def openBelow (dataDirectory : String) (disk : Disk) : Disk × Except StoreError ArtifactStore :=
  openAt (Path.join dataDirectory "artifacts") disk

/-- This function opens a store once more; what is kept in memory is still there. -/
def reopen (store : ArtifactStore) (disk : Disk) : Disk × Except StoreError ArtifactStore :=
  match store with
  | .memory artifacts => (disk, .ok (.memory artifacts))
  | .file directory => openAt directory disk

end ArtifactStore

end ContractWorks
