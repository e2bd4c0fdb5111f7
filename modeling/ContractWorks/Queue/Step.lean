import ContractWorks.Queue.Look
import ContractWorks.Queue.Start
import ContractWorks.Queue.Submit
import ContractWorks.Queue.Worker

namespace ContractWorks.World

/-- This function takes the next step of a shutdown, if it need not wait. -/
def stepShutdown (world : World) (number : Nat) : ShutdownStep → Option World
  | .closing =>
    if world.tasks.any fun entry => holdsPlace entry.2 then none
    else
      some ({ world with channel := { world.channel with senderOpen := false } }.goOn number
        (.shutdown .collecting))
  | .collecting =>
    some ({ world with pool := [] }.goOn number (.shutdown (.joining world.pool)))
  | .joining workers =>
    if workers.any fun worker => (Table.get? worker world.tasks).isSome then none
    else some (world.answer number .stopped)

/-- This function sends the first id of an offer, if there is room; nobody takes offers when the receiver is
gone. -/
def stepOffer (world : World) (number : Nat) : List JobId → Option World
  | [] => some (world.endTask number)
  | id :: ids =>
    if world.channel.receiver = .gone then some (world.endTask number)
    else if !world.channel.hasRoom then none
    else
      let world := { world with channel := world.channel.push id }
      some (if ids = [] then world.endTask number else world.goOn number (.offer ids))

/-- This function wakes a retry, or sends its id if there is room. -/
def stepRetry (world : World) (number : Nat) (id : JobId) (awake : Bool) : Option World :=
  if !awake then some (world.goOn number (.retry id true))
  else if world.channel.receiver = .gone then some (world.endTask number)
  else if !world.channel.hasRoom then none
  else some ({ world with channel := world.channel.push id }.endTask number)

/-- This function takes the next step of a task. -/
def stepTask (setting : Setting) (world : World) (number : Nat) (chance : Chance) :
    Task → Option World
  | .submit step => some (world.stepSubmit number chance step)
  | .start step => some (stepStart setting world number chance step)
  | .shutdown step => world.stepShutdown number step
  | .status step => some (world.stepStatus number chance step)
  | .worker step => stepWorker setting world number chance step
  | .offer ids => world.stepOffer number ids
  | .retry id awake => world.stepRetry number id awake

/-- This function takes the next step of the task with a number, if there is one and it need not wait. -/
def step? (setting : Setting) (world : World) (number : Nat) (chance : Chance) : Option World :=
  match Table.get? number world.tasks with
  | none => none
  | some task => stepTask setting world number chance task

/-- This function begins a call as the task with the next number. -/
def beginCall (setting : Setting) (world : World) (call : Call) : World :=
  let number := world.nextTask
  let world := { world with nextTask := number + 1 }.note (.called number call)
  match call with
  | .request submission =>
    match submission.resolve with
    | .error error => world.answer number (.submitted (.error error))
    | .ok (kind, input) => beginSubmit setting world number kind input
  | .submit kind input => beginSubmit setting world number kind input
  | .start => world.goOn number (.start .waiting)
  | .shutdown => world.goOn number (.shutdown .closing)
  | .status id => world.goOn number (.status (.reading id))

/-- This function loses the process and begins a new one over the same stores, which are opened again. -/
def restart? (setting : Setting) (world : World) : Option World :=
  match world.jobs.reopen world.disk with
  | (_, .error _) => none
  | (disk, .ok jobs) =>
    match world.artifacts.reopen disk with
    | (_, .error _) => none
    | (disk, .ok artifacts) => some (crash setting world jobs artifacts disk)

/-- A move is a call that begins, a step of a task, an id that comes on the channel from nowhere, or the loss of
the process, after which a new one begins. -/
inductive Move where
  | call (call : Call)
  | step (number : Nat) (chance : Chance)
  | deliver (id : JobId)
  | restart

/-- This function makes a move, if it can be made now. -/
def move? (setting : Setting) (world : World) : Move → Option World
  | .call call => some (beginCall setting world call)
  | .step number chance => step? setting world number chance
  | .deliver id => some { world with channel := world.channel.push id }
  | .restart => restart? setting world

/-- This function makes a move, or leaves the world as it is when the move cannot be made. -/
def move (setting : Setting) (world : World) (move : Move) : World :=
  (move? setting world move).getD world

/-- This function makes one move after another. -/
def run (setting : Setting) (world : World) (moves : List Move) : World :=
  moves.foldl (move setting) world

/-- This function gives the worlds that come one after another in a run. -/
def visited (setting : Setting) (world : World) (moves : List Move) : List World :=
  moves.scanl (move setting) world

end ContractWorks.World
