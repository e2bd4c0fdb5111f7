import ContractWorks.Queue.World

namespace ContractWorks.World

/-- This function begins a submission; a source that the gate refuses is answered at once. -/
def beginSubmit (setting : Setting) (world : World) (number : Nat) (kind : JobKind)
    (input : JobInput) : World :=
  let outcome := setting.gate kind input
  if outcome.valid then world.goOn number (.submit (.waiting kind input))
  else
    world.answer number
      (.submitted (.error
        (.validation (outcome.code.getD .invalidInput) (outcome.error.getD ""))))

/-- This function takes a place on the channel, if it is open and has one. -/
def reserve (world : World) (number : Nat) (chance : Chance) (kind : JobKind) (input : JobInput) :
    World :=
  if !world.channel.senderOpen || world.channel.receiver = .gone then
    world.answer number (.submitted (.error .closed))
  else if !world.channel.hasRoom then world.answer number (.submitted (.error .full))
  else
    { world with channel := world.channel.reserve }.goOn number
      (.submit (.reserved (.new chance.name chance.now kind input)))

/-- This function stores the record of a submission; if that fails, the place is given back. -/
def insertRecord (world : World) (number : Nat) (chance : Chance) (record : JobRecord) : World :=
  match world.jobs.insert record chance.fault world.disk with
  | (disk, jobs, .ok ()) =>
    { world with disk, jobs }.goOn number (.submit (.inserted record.id))
  | (disk, jobs, .error error) =>
    { world with disk, jobs, channel := world.channel.release }.answer number
      (.submitted (.error (.store error)))

/-- This function takes the next step of a submission. -/
def stepSubmit (world : World) (number : Nat) (chance : Chance) : SubmitStep → World
  | .waiting kind input => world.reserve number chance kind input
  | .reserved record => world.insertRecord number chance record
  | .inserted id =>
    { world with live := world.live.queued id }.goOn number (.submit (.announced id))
  | .announced id =>
    { world with channel := world.channel.release.push id }.answer number (.submitted (.ok id))

end ContractWorks.World
