import ContractWorks.Queue.Error

namespace ContractWorks

/-- This type gives the reasons why a request is refused. -/
inductive ApiError where
  | notFound (what : String)
  | invalidInput (reason : String)
  | validation (code : ErrorCode) (message : String)
  | unavailable (reason : String)
  | internal
  deriving DecidableEq, Repr

namespace ApiError

/-- This function words the reason. -/
def message : ApiError → String
  | .notFound what => "Not found: " ++ what
  | .invalidInput reason => "Invalid input: " ++ reason
  | .validation _ message => message
  | .unavailable reason => "Service unavailable: " ++ reason
  | .internal => "Internal error"

/-- This function gives the status of the response. -/
def status : ApiError → Nat
  | .notFound _ => 404
  | .invalidInput _ => 400
  | .validation _ _ => 422
  | .unavailable _ => 503
  | .internal => 500

/-- This function gives the code that programs read. -/
def code : ApiError → String
  | .notFound _ => "NOT_FOUND"
  | .invalidInput _ => ErrorCode.invalidInput.name
  | .validation code _ => code.name
  | .unavailable _ => "UNAVAILABLE"
  | .internal => ErrorCode.infra.name

/-- This function gives the body of the response. -/
def body (error : ApiError) : Json :=
  .object [("error", .text error.message), ("code", .text error.code)]

/-- This function shows a client what it may know of a queue error. -/
def ofQueue : QueueError → ApiError
  | .invalidInput reason => .invalidInput reason
  | .validation code message => .validation code message
  | .full => .unavailable QueueError.full.message
  | .closed => .unavailable QueueError.closed.message
  | .alreadyStarted => .internal
  | .store _ => .internal

/-- A client may know nothing of a store error. -/
def ofStore (_ : StoreError) : ApiError :=
  .internal

end ApiError

/-- This type gives the reasons why the service does not run. -/
inductive ServiceError where
  | config (reason : String)
  | server (reason : String)
  | storage (error : StoreError)
  | queue (error : QueueError)
  | io (text : String)
  deriving DecidableEq, Repr

/-- This function words the reason. -/
def ServiceError.message : ServiceError → String
  | .config reason => "Configuration error: " ++ reason
  | .server reason => "Server error: " ++ reason
  | .storage error => "Storage error: " ++ error.message
  | .queue error => "Queue error: " ++ error.message
  | .io text => "IO error: " ++ text

/-- This function names the reason. -/
def ServiceError.name : ServiceError → String
  | .config _ => "Config"
  | .server _ => "Server"
  | .storage _ => "Storage"
  | .queue _ => "Queue"
  | .io _ => "Io"

end ContractWorks
