import ContractWorks.Job.Record
import ContractWorks.Table

namespace ContractWorks

/-- A live entry tells how far a job of this process has come. -/
structure LiveJob where
  state : JobState
  progress : UInt8
  deriving DecidableEq, Repr

/-- A live table holds the entries of the jobs that this process has not finished. -/
abbrev LiveTable := Table JobId LiveJob

namespace Progress

/-- A job waits. -/
def queued : UInt8 := 0

/-- A job has its workspace. -/
def workspaceReady : UInt8 := 10

/-- The compiler of a job runs. -/
def toolchainStarted : UInt8 := 30

/-- The compiler of a job has ended well. -/
def outputCollected : UInt8 := 90

/-- A job has ended. -/
def terminal : UInt8 := 100

end Progress

namespace LiveTable

/-- This function enters a job that waits. -/
def queued (live : LiveTable) (id : JobId) : LiveTable :=
  Table.insert id ⟨.queued, Progress.queued⟩ live

/-- This function enters a job that runs; its progress never decreases. -/
def running (live : LiveTable) (id : JobId) (progress : UInt8) : LiveTable :=
  match Table.get? id live with
  | none => Table.insert id ⟨.running, progress⟩ live
  | some entry => Table.insert id ⟨.running, max entry.progress progress⟩ live

/-- This function removes a job. -/
def finish (live : LiveTable) (id : JobId) : LiveTable :=
  Table.erase id live

end LiveTable

end ContractWorks
