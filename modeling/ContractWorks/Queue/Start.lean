import ContractWorks.Queue.World

namespace ContractWorks.World

/-- This record says that a job ran when its process ended. -/
def orphanError : ErrorRecord :=
  ⟨.infra, "job orphaned by restart", none⟩

/-- A start that fails loses the receiver. -/
def failStart (world : World) (number : Nat) (error : QueueError) : World :=
  { world with channel := world.channel.lose }.answer number (.started (.error error))

/-- This function fails one job that ran. -/
def failOrphan (world : World) (number : Nat) (chance : Chance) (id : JobId) (ids : List JobId)
    (report : RecoveryReport) : World :=
  match world.jobs.transition id (.fail orphanError) chance.now chance.fault world.disk with
  | (disk, jobs, .ok _) =>
    { world with disk, jobs }.goOn number
      (.start (.failing ids { report with orphaned := report.orphaned ++ [id] }))
  | (disk, jobs, .error (.invalidTransition _)) =>
    { world with disk, jobs }.goOn number (.start (.failing ids report))
  | (disk, jobs, .error error) => { world with disk, jobs }.failStart number (.store error)

/-- This function removes the workspaces that an earlier process left. -/
def sweep (setting : Setting) (world : World) (number : Nat) (report : RecoveryReport) : World :=
  match Workspace.sweep setting.workspaces world.disk with
  | (disk, .ok removed) =>
    { world with disk }.goOn number
      (.start (.relisting { report with workspacesRemoved := removed }))
  | (disk, .error _) => { world with disk }.goOn number (.start (.relisting report))

/-- This function offers the jobs that wait to the workers to come. -/
def offerAll (world : World) (number : Nat) (report : RecoveryReport) : World :=
  if report.requeued = [] then world.goOn number (.start (.spawning report))
  else if world.channel.senderOpen then
    (world.spawn (.offer report.requeued)).goOn number (.start (.spawning report))
  else world.failStart number .closed

/-- This function adds workers. -/
def spawnWorkers : Nat → World → World
  | 0, world => world
  | count + 1, world =>
    spawnWorkers count
      { world.spawn (.worker .idle) with pool := world.pool ++ [world.nextTask] }

/-- This function takes the next step of a start. -/
def stepStart (setting : Setting) (world : World) (number : Nat) (chance : Chance) :
    StartStep → World
  | .waiting =>
    if world.channel.receiver = .free then
      { world with channel := { world.channel with receiver := .taken } }.goOn number
        (.start (.listing {}))
    else world.answer number (.started (.error .alreadyStarted))
  | .listing report =>
    match world.jobs.listByState .running chance.fault with
    | .error error => world.failStart number (.store error)
    | .ok records => world.goOn number (.start (.failing (records.map JobRecord.id) report))
  | .failing [] report => world.goOn number (.start (.sweeping report))
  | .failing (id :: ids) report => world.failOrphan number chance id ids report
  | .sweeping report => sweep setting world number report
  | .relisting report =>
    match world.jobs.listByState .queued chance.fault with
    | .error error => world.failStart number (.store error)
    | .ok records => world.goOn number (.start (.checking (records.map JobRecord.id) report))
  | .checking [] report => world.goOn number (.start (.offering report))
  | .checking (id :: ids) report =>
    if (Table.get? id world.live).isSome then world.goOn number (.start (.checking ids report))
    else world.goOn number (.start (.entering id ids report))
  | .entering id ids report =>
    { world with live := world.live.queued id }.goOn number
      (.start (.checking ids { report with requeued := report.requeued ++ [id] }))
  | .offering report => world.offerAll number report
  | .spawning report =>
    (spawnWorkers setting.workerCount
      { world with channel := { world.channel with receiver := .shared } }).answer number
        (.started (.ok report))

end ContractWorks.World
