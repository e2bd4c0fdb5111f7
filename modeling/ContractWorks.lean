import ContractWorks.Digest.Blake3
import ContractWorks.Json.Record
import ContractWorks.Json.Printer
import ContractWorks.Number.Binary64
import ContractWorks.Text.Blank
import ContractWorks.Text.Quoted
import ContractWorks.Text.Search
import ContractWorks.Text.Utf8
import ContractWorks.Time.Reader
import ContractWorks.Contract.Block.Wire
import ContractWorks.Contract.Target
import ContractWorks.Job.Artifact
import ContractWorks.Source.Generated
import ContractWorks.Queue.Status
import ContractWorks.Queue.Submission
import ContractWorks.Service.Config
import ContractWorks.Service.Error
import ContractWorks.Storage.Disk
import ContractWorks.Toolchain.Error
import ContractWorks.Toolchain.Cargo
import ContractWorks.Toolchain.Playback
import ContractWorks.Toolchain.Solc
import ContractWorks.Toolchain.Workspace
import ContractWorks.Toolchain.Shell.Run
import ContractWorks.Storage.ArtifactStore
import ContractWorks.Storage.JobStore
import ContractWorks.Queue.Step
import ContractWorks.Queue.Schedule
import ContractWorks.Toolchain.Scripted
import ContractWorks.Service.Serve
import ContractWorks.Settings.Load
import ContractWorks.Contract.Plan.Wire
import ContractWorks.Service.CommandLine
import ContractWorks.Main
import ContractWorks.Proofs.Text.Digits
import ContractWorks.Proofs.Time.Reading
import ContractWorks.Proofs.Storage.Refinement
import ContractWorks.Proofs.Queue.Lossless
import ContractWorks.Proofs.Queue.Once
import ContractWorks.Proofs.Queue.Look
import ContractWorks.Proofs.Queue.Owner
import ContractWorks.Proofs.Queue.Polling
import ContractWorks.Proofs.Queue.Leak
import ContractWorks.Proofs.Queue.Orphan
import ContractWorks.Proofs.Job.Artifact
import ContractWorks.Proofs.Queue.Aside
import ContractWorks.Proofs.Queue.Deed
import ContractWorks.Proofs.Queue.Delivery
import ContractWorks.Proofs.Queue.Lodging
import ContractWorks.Proofs.Queue.Mending
import ContractWorks.Proofs.Queue.Rescue
import ContractWorks.Proofs.Source.Agreement
import ContractWorks.Proofs.Source.Composition
import ContractWorks.Proofs.Source.Inclusion
import ContractWorks.Proofs.Queue.Wire
import ContractWorks.Proofs.Storage.LastPut
import ContractWorks.Proofs.Service.Compile
import ContractWorks.Proofs.Service.Preview
import ContractWorks.Proofs.Toolchain.Naming
import ContractWorks.Proofs.Toolchain.Blind
import ContractWorks.Proofs.Queue.Gate
import ContractWorks.Proofs.Queue.Answering
import ContractWorks.Proofs.Service.Hiding
import ContractWorks.Proofs.Source.Stability
import ContractWorks.Proofs.Source.Placeholder
import ContractWorks.Proofs.Source.InitialMint
import ContractWorks.Proofs.Queue.Defunct
import ContractWorks.Proofs.Source.Nesting
import ContractWorks.Proofs.Toolchain.Ending
import ContractWorks.Proofs.Source.Acceptance
import ContractWorks.Proofs.Toolchain.Package
import ContractWorks.Proofs.Toolchain.Warning
import ContractWorks.Proofs.Toolchain.Lifecycle
import ContractWorks.Proofs.Source.Flaw
import ContractWorks.Proofs.Queue.Naming
import ContractWorks.Proofs.Job.Life
import ContractWorks.Proofs.Storage.ArtifactIds
import ContractWorks.Proofs.Settings.Verbatim
