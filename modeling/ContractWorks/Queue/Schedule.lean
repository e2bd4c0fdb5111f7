import ContractWorks.Queue.Step
import ContractWorks.Text.Hex

namespace ContractWorks

/-- This type names the operations of the stores. -/
inductive StoreMethod where
  | insert
  | get
  | list
  | start
  | finish
  | artifactPut
  | artifactGet
  deriving DecidableEq, Repr

/-- A schedule runs a world one step after another. It gives out times and names in order, lets the first calls
of store operations fail, and keeps compilers from going on until they are released. -/
structure Schedule where
  setting : Setting
  world : World
  clock : Time.Instant
  names : Nat := 0
  faults : Table StoreMethod Nat := []
  faultText : String := "store unavailable"
  holds : JobInput → Bool := fun _ => false
  released : List String := []

namespace Schedule

/-- This function writes a number as a name of the form that generated ids have. -/
def nameOf (number : Nat) : String :=
  let digits := Nat.toDigits 16 number
  "00000000-0000-4000-8000-" ++ String.ofList (List.replicate (12 - digits.length) '0' ++ digits)

/-- This function gives out a name. -/
def freshName (schedule : Schedule) : String × Schedule :=
  (nameOf (schedule.names + 1), { schedule with names := schedule.names + 1 })

/-- This function gives the time and moves the clock. -/
def tick (schedule : Schedule) : Time.Instant × Schedule :=
  (schedule.clock, { schedule with clock := schedule.clock.nextSecond })

/-- This function calls a store operation: it tells whether the call fails, and counts it. -/
def callStore (schedule : Schedule) (method : StoreMethod) : Option StoreFault × Schedule :=
  match Table.get? method schedule.faults with
  | some (count + 1) =>
    (some (.refused schedule.faultText),
      { schedule with faults := Table.insert method count schedule.faults })
  | _ => (none, schedule)

/-- This function tells which store operation the next step of a task calls. -/
def methodOf : Task → Option StoreMethod
  | .submit (.reserved _) => some .insert
  | .start (.listing _) => some .list
  | .start (.failing (_ :: _) _) => some .finish
  | .start (.relisting _) => some .list
  | .status (.looking _ _) => some .get
  | .status (.fetching _ _) => some .artifactGet
  | .worker (.claimed _) => some .start
  | .worker (.storing _ _) => some .artifactPut
  | .worker (.finishing _ _) => some .finish
  | _ => none

/-- This function gives the chance of the next step of a task. -/
def chanceOf (schedule : Schedule) (task : Task) : Chance × Schedule :=
  let (name, schedule) := schedule.freshName
  let (now, schedule) := schedule.tick
  match methodOf task with
  | none => ({ name, now }, schedule)
  | some method =>
    let (fault, schedule) := schedule.callStore method
    ({ name, now, fault }, schedule)

/-- A compiler is held as long as its input says so and its contract has not been released. -/
def isHeld (schedule : Schedule) : Task → Bool
  | .worker (.running record _ _) =>
    schedule.holds record.input && !schedule.released.contains record.input.contractName
  | _ => false

/-- This test holds of tasks that only time moves on. -/
def sleeps : Task → Bool
  | .retry _ false => true
  | _ => false

/-- This function takes the next step of a task, if it need not wait. -/
def advance? (schedule : Schedule) (number : Nat) (task : Task) : Option Schedule :=
  if schedule.isHeld task then none
  else
    let (chance, after) := schedule.chanceOf task
    match World.stepTask schedule.setting schedule.world number chance task with
    | some world => some { after with world }
    | none => none

/-- This function takes a step of the first task of a kind that need not wait. -/
def advanceFirst? (schedule : Schedule) (eligible : Task → Bool) : Option Schedule :=
  schedule.world.tasks.findSome? fun entry =>
    if eligible entry.2 then schedule.advance? entry.1 entry.2 else none

/-- This bound is the number of steps after which a schedule is given up. -/
def patience : Nat := 1000000

/-- This function takes steps until all tasks wait. A task that sleeps wakes when nothing else moves. -/
def settleFor : Nat → Schedule → Schedule
  | 0, schedule => schedule
  | steps + 1, schedule =>
    match schedule.advanceFirst? fun task => !sleeps task with
    | some next => settleFor steps next
    | none =>
      match schedule.advanceFirst? sleeps with
      | some next => settleFor steps next
      | none => schedule

/-- This function takes steps until all tasks wait. -/
def settle (schedule : Schedule) : Schedule :=
  settleFor patience schedule

/-- This function takes steps of one task until it ends or waits. -/
def finishTaskFor : Nat → Schedule → Nat → Schedule
  | 0, schedule, _ => schedule
  | steps + 1, schedule, number =>
    match Table.get? number schedule.world.tasks with
    | none => schedule
    | some task =>
      match schedule.advance? number task with
      | some next => finishTaskFor steps next number
      | none => schedule

/-- This function gives the answer to the call that began as the task with a number. -/
def answerOf (schedule : Schedule) (number : Nat) : Option Answer :=
  schedule.world.history.findSome? fun event =>
    match event with
    | .answered task answer => if task = number then some answer else none
    | _ => none

/-- This function makes a call and takes its steps, and those of all others only if the call waits. -/
def call (schedule : Schedule) (call : Call) : Option Answer × Schedule :=
  let number := schedule.world.nextTask
  let schedule := { schedule with world := World.beginCall schedule.setting schedule.world call }
  let schedule := finishTaskFor patience schedule number
  match schedule.answerOf number with
  | some answer => (some answer, schedule)
  | none =>
    let schedule := schedule.settle
    (schedule.answerOf number, schedule)

/-- This function loses the process and begins a new one over given stores. -/
def reopen (schedule : Schedule) (jobs : JobStore) (artifacts : ArtifactStore) (disk : Disk) :
    Schedule :=
  { schedule with world := World.crash schedule.setting schedule.world jobs artifacts disk }

/-- This function lets the compilers of a contract go on. -/
def release (schedule : Schedule) (contractName : String) : Schedule :=
  { schedule with released := contractName :: schedule.released }

/-- This test asks whether a compiler of a contract is held. -/
def holdsContract (schedule : Schedule) (contractName : String) : Bool :=
  schedule.world.tasks.any fun entry =>
    match entry.2 with
    | .worker (.running record _ _) =>
      record.input.contractName = contractName && schedule.isHeld entry.2
    | _ => false

/-- This function takes steps until all tasks wait, unless a condition holds already. -/
def settleUnless (schedule : Schedule) (condition : Schedule → Bool) : Schedule :=
  if condition schedule then schedule else schedule.settle

/-- A job is over when its record is terminal and its live entry is gone. -/
def isOver (id : JobId) (schedule : Schedule) : Bool :=
  let terminal :=
    match Table.get? id schedule.world.jobs.records with
    | some record => record.status.isTerminal
    | none => false
  terminal && (Table.get? id schedule.world.live).isNone

/-- This function puts a record into the store without a job being offered to the workers. -/
def insertRecord (schedule : Schedule) (record : JobRecord) : Except StoreError Unit × Schedule :=
  let (fault, schedule) := schedule.callStore .insert
  let (disk, jobs, result) := schedule.world.jobs.insert record fault schedule.world.disk
  (result, { schedule with world := { schedule.world with disk, jobs } })

/-- This function looks up a record. -/
def record? (schedule : Schedule) (id : JobId) : Except StoreError (Option JobRecord) × Schedule :=
  let (fault, schedule) := schedule.callStore .get
  (schedule.world.jobs.get id fault, schedule)

/-- This function lists all records. -/
def records (schedule : Schedule) : Except StoreError (List JobRecord) × Schedule :=
  let (fault, schedule) := schedule.callStore .list
  (schedule.world.jobs.list fault, schedule)

/-- This function lists the records in a state. -/
def recordsIn (schedule : Schedule) (state : JobState) : Except StoreError (List JobRecord) × Schedule :=
  let (fault, schedule) := schedule.callStore .list
  (schedule.world.jobs.listByState state fault, schedule)

/-- This function takes a job one step on, past the workers. -/
def moveRecord (schedule : Schedule) (id : JobId) (transition : Transition) :
    Except StoreError JobRecord × Schedule :=
  let (now, schedule) := schedule.tick
  let (fault, schedule) :=
    schedule.callStore (if transition.target = .running then .start else .finish)
  let (disk, jobs, result) :=
    schedule.world.jobs.transition id transition now fault schedule.world.disk
  (result, { schedule with world := { schedule.world with disk, jobs } })

/-- This function keeps an artifact. -/
def putArtifact (schedule : Schedule) (artifact : Artifact) : Except StoreError Unit × Schedule :=
  let (fault, schedule) := schedule.callStore .artifactPut
  let (disk, artifacts, result) := schedule.world.artifacts.put artifact fault schedule.world.disk
  (result, { schedule with world := { schedule.world with disk, artifacts } })

/-- This function looks up an artifact. -/
def artifact? (schedule : Schedule) (id : ArtifactId) :
    Except StoreError (Option Artifact) × Schedule :=
  let (fault, schedule) := schedule.callStore .artifactGet
  (schedule.world.artifacts.get id fault schedule.world.disk, schedule)

end Schedule

end ContractWorks
