import ContractWorks.Job.Record

namespace ContractWorks

/-- This type gives the reasons why a store refuses an operation. -/
inductive StoreError where
  | notFound (id : JobId)
  | invalidTransition (refusal : InvalidTransition)
  | duplicate (id : JobId)
  | io (text : String)
  | serialization
  deriving DecidableEq, Repr

/-- This function words the reason. -/
def StoreError.message : StoreError → String
  | .notFound id => "job not found: " ++ id
  | .invalidTransition refusal => refusal.message
  | .duplicate id => "job already exists: " ++ id
  | .io text => "io error: " ++ text
  | .serialization => "serialization error"

/-- This function names the reason. -/
def StoreError.name : StoreError → String
  | .notFound _ => "JobNotFound"
  | .invalidTransition _ => "InvalidTransition"
  | .duplicate _ => "Duplicate"
  | .io _ => "Io"
  | .serialization => "Serialization"

/-- This type gives the reasons why a queue refuses an operation. -/
inductive QueueError where
  | invalidInput (reason : String)
  | validation (code : ErrorCode) (message : String)
  | full
  | closed
  | alreadyStarted
  | store (error : StoreError)
  deriving DecidableEq, Repr

namespace QueueError

/-- This function words the reason. -/
def message : QueueError → String
  | .invalidInput reason => "invalid input: " ++ reason
  | .validation _ message => message
  | .full => "job queue is full"
  | .closed => "job queue is shut down"
  | .alreadyStarted => "worker pool already started"
  | .store error => error.message

/-- This function names the reason. -/
def name : QueueError → String
  | .invalidInput _ => "InvalidInput"
  | .validation _ _ => "Validation"
  | .full => "Full"
  | .closed => "Closed"
  | .alreadyStarted => "AlreadyStarted"
  | .store error => error.name

/-- This function gives the code that programs read. -/
def code : QueueError → ErrorCode
  | .invalidInput _ => .invalidInput
  | .validation code _ => code
  | _ => .infra

end QueueError

end ContractWorks
