import ContractWorks.Queue.World

namespace ContractWorks.World

/-- This function gives the error that clients see of a failed job; what is not theirs stays hidden. -/
def shownError (error : Option ErrorRecord) : ErrorRecord :=
  match error with
  | some error => if error.code = .infra then .infra else error
  | none => .infra

/-- This function gives the status of a job that has a record but no artifact to be read. A job that runs
without a live entry belongs to nobody and counts as failed. -/
def statusOf (record : JobRecord) (live : Option LiveJob) : JobStatus :=
  match record.status, live with
  | .queued, _ => { id := record.id, state := .pending, progress := Progress.queued }
  | .running, some live => { id := record.id, state := .processing, progress := live.progress }
  | .running, none =>
    { id := record.id, state := .failed, progress := Progress.terminal, error := some .infra }
  | .completed, _ => { id := record.id, state := .completed, progress := Progress.terminal }
  | .failed, _ =>
    { id := record.id, state := .failed, progress := Progress.terminal,
      error := some (shownError record.error) }

/-- This function gives the status of a completed job with its artifact. -/
def statusWithResult (record : JobRecord) (id : ArtifactId) (artifact : Option Artifact) :
    JobStatus :=
  { id := record.id, state := .completed, progress := Progress.terminal,
    result := some
      { artifactId := id, contractName := record.input.contractName,
        warnings := (artifact.map Artifact.warnings).getD [] } }

/-- This function gives the status of a job that has a live entry but no record. -/
def statusOfLive (id : JobId) (live : LiveJob) : JobStatus :=
  { id, state := live.state.external, progress := live.progress }

/-- This function reads the record of a job and looks at it together with the live entry. -/
def lookAt (world : World) (number : Nat) (chance : Chance) (id : JobId) (live : Option LiveJob) :
    World :=
  match world.jobs.get id chance.fault, live with
  | .error error, _ => world.answer number (.status (.error (.store error)))
  | .ok none, none => world.answer number (.status (.ok none))
  | .ok none, some live => world.answer number (.status (.ok (some (statusOfLive id live))))
  | .ok (some record), live =>
    match record.status, record.artifactId with
    | .completed, some artifact => world.goOn number (.status (.fetching record artifact))
    | _, _ => world.answer number (.status (.ok (some (statusOf record live))))

/-- This function reads the artifact of a completed job. -/
def fetch (world : World) (number : Nat) (chance : Chance) (record : JobRecord)
    (id : ArtifactId) : World :=
  match world.artifacts.get id chance.fault world.disk with
  | .error error => world.answer number (.status (.error (.store error)))
  | .ok artifact =>
    world.answer number (.status (.ok (some (statusWithResult record id artifact))))

/-- This function takes the next step of a look at a job. -/
def stepStatus (world : World) (number : Nat) (chance : Chance) : StatusStep → World
  | .reading id => world.goOn number (.status (.looking id (Table.get? id world.live)))
  | .looking id live => world.lookAt number chance id live
  | .fetching record artifact => world.fetch number chance record artifact

end ContractWorks.World
