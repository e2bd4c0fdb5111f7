import ContractWorks.Job.ErrorRecord

namespace ContractWorks

/-- This type gives the reasons why a workspace cannot be used. -/
inductive WorkspaceError where
  | notReady
  | resource (path text : String)
  deriving DecidableEq, Repr

/-- This function words the reason. -/
def WorkspaceError.message : WorkspaceError → String
  | .notReady => "workspace not ready"
  | .resource path text => "workspace resource error at " ++ path ++ ": " ++ text

/-- This function names the reason. -/
def WorkspaceError.name : WorkspaceError → String
  | .notReady => "NotReady"
  | .resource _ _ => "Resource"

/-- This type gives the reasons why a compiler run makes no artifact. -/
inductive ToolchainError where
  | failed (message stderr : String)
  | parse (detail : String)
  | timeout (seconds : Nat)
  | spawn (program text : String)
  | workspace (error : WorkspaceError)
  | io (text : String)
  deriving DecidableEq, Repr

namespace ToolchainError

/-- This function words the reason. -/
def message : ToolchainError → String
  | .failed message _ => message
  | .parse detail => "unparsable compiler output: " ++ detail
  | .timeout seconds => "compilation timed out after " ++ toString seconds ++ "s"
  | .spawn program text => "failed to spawn " ++ program ++ ": " ++ text
  | .workspace error => error.message
  | .io text => "io error: " ++ text

/-- This function names the reason. -/
def name : ToolchainError → String
  | .failed _ _ => "Failed"
  | .parse _ => "Parse"
  | .timeout _ => "Timeout"
  | .spawn _ _ => "Spawn"
  | .workspace error => "Workspace." ++ error.name
  | .io _ => "Io"

/-- This test holds when the cause lies with the host and not with the source. -/
def isInfra : ToolchainError → Bool
  | .spawn _ _ => true
  | _ => false

/-- This function gives the record of a job that failed for this reason. -/
def record : ToolchainError → ErrorRecord
  | .failed message stderr => .toolchain message stderr
  | .parse detail => .toolchain "unparsable compiler output" detail
  | .timeout seconds => .timeout seconds
  | .spawn _ _ => .infra
  | .workspace error => .resource error.message
  | .io text => .resource ("workspace io error: " ++ text)

end ToolchainError

end ContractWorks
