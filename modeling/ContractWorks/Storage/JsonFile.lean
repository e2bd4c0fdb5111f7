import ContractWorks.Json.Decode
import ContractWorks.Json.Printer
import ContractWorks.Queue.Error
import ContractWorks.Storage.Disk
import ContractWorks.Text.Utf8

namespace ContractWorks

/-- A fault keeps a store from doing what it is asked for: the call is refused with a text, or one of its two
writes to the disk fails. -/
inductive StoreFault where
  | refused (text : String)
  | write
  | move
  deriving DecidableEq, Repr

namespace JsonFile

/-- This function gives the name of the file that a value is first written to. -/
def temporary (path : String) : String :=
  Path.changeExtension path "tmp"

/-- This function reports a failure of the disk. -/
def failure (error : DiskError) : StoreError :=
  .io error.message

/-- This function writes a value to a file of its own and then moves that file into place. -/
def save (path : String) (value : Json) (fault : Option StoreFault) (disk : Disk) :
    Disk × Except StoreError Unit :=
  if fault = some .write then (disk, .error (failure .badName))
  else
    match disk.write (temporary path) value.indented.toUTF8 with
    | .error error => (disk, .error (failure error))
    | .ok written =>
      if fault = some .move then (written, .error (failure .badName))
      else
        match written.rename (temporary path) path with
        | .error error => (written, .error (failure error))
        | .ok moved => (moved, .ok ())

/-- This function reads the value of a file as the value that a decoder makes of it, if there is a file. -/
def load {α : Type} (decode : Decoder α) (path : String) (disk : Disk) :
    Except StoreError (Option α) :=
  match disk.read path with
  | .error .missing => .ok none
  | .error error => .error (failure error)
  | .ok content =>
    match String.fromUTF8? content with
    | none => .error .serialization
    | some text =>
      match decode (Draft.read text) with
      | .ok value => .ok (some value)
      | .error _ => .error .serialization

end JsonFile

end ContractWorks
