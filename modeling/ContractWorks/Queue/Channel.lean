import ContractWorks.Job.Record

namespace ContractWorks

/-- The receiving end of a channel is free until a start takes it, is then shared by the workers, and is gone
when a start has failed. -/
inductive Receiver where
  | free
  | taken
  | shared
  | gone
  deriving DecidableEq, Repr

/-- A channel holds ids up to its capacity; a reserved place counts as held. -/
structure Channel where
  capacity : Nat
  ids : List JobId := []
  reserved : Nat := 0
  senderOpen : Bool := true
  receiver : Receiver := .free
  deriving DecidableEq, Repr

namespace Channel

/-- This function makes a channel with room for at least one id. -/
def new (capacity : Nat) : Channel :=
  { capacity := max 1 capacity }

/-- This test asks for a free place. -/
def hasRoom (channel : Channel) : Bool :=
  channel.ids.length + channel.reserved < channel.capacity

/-- This function takes a free place. -/
def reserve (channel : Channel) : Channel :=
  { channel with reserved := channel.reserved + 1 }

/-- This function gives a place back. -/
def release (channel : Channel) : Channel :=
  { channel with reserved := channel.reserved - 1 }

/-- This function puts an id behind the others, unless nobody will take it. -/
def push (channel : Channel) (id : JobId) : Channel :=
  if channel.receiver = .gone then channel else { channel with ids := channel.ids ++ [id] }

/-- This function loses the receiving end and all ids with it. -/
def lose (channel : Channel) : Channel :=
  { channel with receiver := .gone, ids := [] }

end Channel

end ContractWorks
