import ContractWorks.Json.Decode

namespace ContractWorks

/-- A job is queued, then running, and ends as completed or failed. -/
inductive JobState where
  | queued
  | running
  | completed
  | failed
  deriving DecidableEq, Repr

/-- This type holds the states as clients see them. -/
inductive ExternalState where
  | pending
  | processing
  | completed
  | failed
  deriving DecidableEq, Repr

namespace ExternalState

/-- This function gives the name of a state. -/
def name : ExternalState → String
  | .pending => "pending"
  | .processing => "processing"
  | .completed => "completed"
  | .failed => "failed"

/-- This decoder reads a state by its name. -/
def decode : Decoder ExternalState :=
  Decode.oneOf ([.pending, .processing, .completed, .failed].map fun state => ([name state], state))

/-- This function encodes a state. -/
def encode (state : ExternalState) : Json :=
  .text state.name

end ExternalState

namespace JobState

/-- This function gives the name of a state. -/
def name : JobState → String
  | .queued => "queued"
  | .running => "running"
  | .completed => "completed"
  | .failed => "failed"

/-- A job in a terminal state does not change any more. -/
def isTerminal : JobState → Bool
  | .completed => true
  | .failed => true
  | _ => false

/-- This test holds of the steps that a job may take. -/
def canBecome : JobState → JobState → Bool
  | .queued, .running => true
  | .running, .completed => true
  | .running, .failed => true
  | _, _ => false

/-- This function gives the state that clients see. -/
def external : JobState → ExternalState
  | .queued => .pending
  | .running => .processing
  | .completed => .completed
  | .failed => .failed

/-- This decoder reads a state by its name. -/
def decode : Decoder JobState :=
  Decode.oneOf ([.queued, .running, .completed, .failed].map fun state => ([name state], state))

/-- This function encodes a state. -/
def encode (state : JobState) : Json :=
  .text state.name

end JobState

end ContractWorks
