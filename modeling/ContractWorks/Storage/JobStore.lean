import ContractWorks.Storage.JsonFile

namespace ContractWorks

/-- A job store keeps its records in memory, or also as files in a directory. -/
inductive JobStore where
  | memory (records : Table JobId JobRecord)
  | file (directory : String) (records : Table JobId JobRecord)

namespace JobStore

/-- This function gives the records of a store by their ids. -/
def records : JobStore → Table JobId JobRecord
  | .memory records => records
  | .file _ records => records

/-- This function puts other records into a store. -/
def withRecords (store : JobStore) (records : Table JobId JobRecord) : JobStore :=
  match store with
  | .memory _ => .memory records
  | .file directory _ => .file directory records

/-- This function gives the path of the file of a record. -/
def recordPath (directory : String) (id : JobId) : String :=
  Path.join directory (id ++ ".json")

/-- This function sets a record; where records are kept as files, the file is written first. -/
def put (store : JobStore) (id : JobId) (record : JobRecord) (fault : Option StoreFault)
    (disk : Disk) : Disk × JobStore × Except StoreError Unit :=
  let stored := store.withRecords (Table.insert id record store.records)
  match store with
  | .memory _ =>
    if fault.isSome then (disk, store, .error (JsonFile.failure .badName)) else (disk, stored, .ok ())
  | .file directory _ =>
    match JsonFile.save (recordPath directory id) record.encode fault disk with
    | (disk, .ok ()) => (disk, stored, .ok ())
    | (disk, .error error) => (disk, store, .error error)

/-- This function adds the record of a new job. -/
def insert (store : JobStore) (record : JobRecord) (fault : Option StoreFault) (disk : Disk) :
    Disk × JobStore × Except StoreError Unit :=
  match fault with
  | some (.refused text) => (disk, store, .error (.io text))
  | fault =>
    if (Table.get? record.id store.records).isSome then (disk, store, .error (.duplicate record.id))
    else store.put record.id record fault disk

/-- This function looks up a record. -/
def get (store : JobStore) (id : JobId) (fault : Option StoreFault) :
    Except StoreError (Option JobRecord) :=
  match fault with
  | some (.refused text) => .error (.io text)
  | _ => .ok (Table.get? id store.records)

/-- This function orders records by age; records of the same age keep their order. -/
def oldestFirst (records : List JobRecord) : List JobRecord :=
  records.mergeSort fun first second => first.createdAt.order ≤ second.createdAt.order

/-- This function lists all records, the oldest first. -/
def list (store : JobStore) (fault : Option StoreFault) : Except StoreError (List JobRecord) :=
  match fault with
  | some (.refused text) => .error (.io text)
  | _ => .ok (oldestFirst (store.records.map Prod.snd))

/-- This function lists the records in a state, the oldest first. -/
def listByState (store : JobStore) (state : JobState) (fault : Option StoreFault) :
    Except StoreError (List JobRecord) :=
  (store.list fault).map fun records => records.filter fun record => record.status = state

/-- This function takes a job one step on, if its state allows it, and gives the record after the step. -/
def transition (store : JobStore) (id : JobId) (transition : Transition) (now : Time.Instant)
    (fault : Option StoreFault) (disk : Disk) : Disk × JobStore × Except StoreError JobRecord :=
  match fault with
  | some (.refused text) => (disk, store, .error (.io text))
  | fault =>
    match Table.get? id store.records with
    | none => (disk, store, .error (.notFound id))
    | some record =>
      match record.apply now transition with
      | .error refusal => (disk, store, .error (.invalidTransition refusal))
      | .ok next =>
        match store.put id next fault disk with
        | (disk, store, .ok ()) => (disk, store, .ok next)
        | (disk, store, .error error) => (disk, store, .error error)

/-- This function adds the record of a file to those that were read before; a file that cannot be read adds
none. -/
def loadOne (directory : String) (disk : Disk) (records : Table JobId JobRecord) (name : String) :
    Table JobId JobRecord :=
  if Path.extension? name = some "json" then
    match JsonFile.load JobRecord.decode (Path.join directory name) disk with
    | .ok (some record) => Table.insert record.id record records
    | _ => records
  else records

/-- This function reads the records of a directory. -/
def load (directory : String) (disk : Disk) : Except StoreError JobStore :=
  match disk.list directory with
  | .error error => .error (JsonFile.failure error)
  | .ok names => .ok (.file directory (names.foldl (loadOne directory disk) []))

/-- This function opens the store in a directory, which is made if it is not there. -/
def openAt (directory : String) (disk : Disk) : Disk × Except StoreError JobStore :=
  match disk.makeDirectories directory with
  | .error error => (disk, .error (JsonFile.failure error))
  | .ok disk => (disk, load directory disk)

/-- This function opens the store below a directory. -/
def openBelow (dataDirectory : String) (disk : Disk) : Disk × Except StoreError JobStore :=
  openAt (Path.join dataDirectory "jobs") disk

/-- This function opens a store once more; what is kept in memory is still there. -/
def reopen (store : JobStore) (disk : Disk) : Disk × Except StoreError JobStore :=
  match store with
  | .memory records => (disk, .ok (.memory records))
  | .file directory _ => openAt directory disk

/-- This function gives the record that outlives the process: what stands in memory, or in the file of its id. -/
def durable? (store : JobStore) (disk : Disk) (id : JobId) : Option JobRecord :=
  match store with
  | .memory records => Table.get? id records
  | .file directory _ =>
    match JsonFile.load JobRecord.decode (recordPath directory id) disk with
    | .ok found => found
    | .error _ => none

end JobStore

end ContractWorks
