import ContractWorks.Proofs.Queue.Alike
import ContractWorks.Proofs.Toolchain.Errand

namespace ContractWorks

variable {α : Type} {edit : Place → ByteArray → ByteArray} {disk disk' : Disk} {storage : StorageConfig}

/-- Hosts are alike under an edit of files when a command ends in the same way on both and leaves the same files, on
disks that have the same files after the edit. -/
def Host.Alike (edit : Place → ByteArray → ByteArray) (host other : Host) : Prop :=
  ∀ command {disk disk' : Disk}, disk'.edited edit = disk.edited edit →
    (other command disk').1.edited edit = (host command disk).1.edited edit ∧
      (other command disk').2 = (host command disk).2

theorem Budget.run_alike {host other : Host} (hosts : host.Alike edit other) (budget : Budget) (command : Command)
    (same : disk'.edited edit = disk.edited edit) :
    (budget.run other command disk').1.edited edit = (budget.run host command disk).1.edited edit ∧
      (budget.run other command disk').2 = (budget.run host command disk).2 := by
  obtain ⟨disks, endings⟩ := hosts command same
  rw [Budget.run, Budget.run]
  split
  · exact ⟨disks, congrArg (budget.judge command.program) endings⟩
  · exact ⟨same, rfl⟩

/-- What is attempted on disks that have the same files after an edit goes on alike. -/
theorem Disk.attempt_alike {operation : Disk → Except DiskError Disk}
    {first second : Disk → Disk × Except ToolchainError α}
    (same : disk'.edited edit = disk.edited edit)
    (commutes : ∀ disk, operation (disk.edited edit) = (operation disk).map (Disk.edited edit))
    (further : ∀ {next next' : Disk}, next'.edited edit = next.edited edit →
      (second next').1.edited edit = (first next).1.edited edit ∧ (second next').2 = (first next).2) :
    (disk'.attempt operation second).1.edited edit = (disk.attempt operation first).1.edited edit ∧
      (disk'.attempt operation second).2 = (disk.attempt operation first).2 := by
  have done := commutes disk
  rw [← same, commutes disk'] at done
  rw [attempt, attempt]
  cases result : operation disk with
  | error error =>
    cases result' : operation disk' with
    | error error' =>
      rw [result, result'] at done
      obtain rfl : error' = error := Except.error.inj done
      exact ⟨same, rfl⟩
    | ok next' => rw [result, result'] at done; cases done
  | ok next =>
    cases result' : operation disk' with
    | error error' => rw [result, result'] at done; cases done
    | ok next' =>
      rw [result, result'] at done
      exact further (Except.ok.inj done)

/-- An errand does the same on alike hosts, if no file that it uses is edited. -/
theorem Errand.perform_alike {host other : Host} (hosts : host.Alike edit other) (budget : Budget) :
    ∀ {errand : Errand α}, (∀ path, errand.Uses path → edit (Path.place path) = id) → ∀ {disk disk' : Disk},
      disk'.edited edit = disk.edited edit →
        (errand.perform budget other disk').1.edited edit = (errand.perform budget host disk).1.edited edit ∧
          (errand.perform budget other disk').2 = (errand.perform budget host disk).2 := by
  intro errand
  induction errand with
  | done result => exact fun _ _ _ same => ⟨same, rfl⟩
  | makeDirectories path next inductionHypothesis =>
    intro bare disk disk' same
    exact Disk.attempt_alike same (fun disk => Disk.makeDirectories_edited ..) fun alike =>
      inductionHypothesis (fun path uses => bare path (.inr uses)) alike
  | write path content next inductionHypothesis =>
    intro bare disk disk' same
    refine Disk.attempt_alike same (fun disk => ?_) fun alike =>
      inductionHypothesis (fun path uses => bare path (.inr uses)) alike
    have written := Disk.write_edited edit disk path content
    rwa [bare path (.inl rfl)] at written
  | ask command next inductionHypothesis =>
    intro bare disk disk' same
    obtain ⟨disks, endings⟩ := budget.run_alike hosts command same
    rw [Errand.perform, Errand.perform]
    generalize budget.run host command disk = ran at disks endings ⊢
    generalize budget.run other command disk' = ran' at disks endings ⊢
    obtain ⟨left, result⟩ := ran
    obtain ⟨left', result'⟩ := ran'
    obtain rfl : result' = result := endings
    cases result' with
    | error error => exact ⟨disks, rfl⟩
    | ok output => exact inductionHypothesis output (fun path uses => bare path ⟨output, uses⟩) disks
  | read path next inductionHypothesis =>
    intro bare disk disk' same
    have found (disk : Disk) : (disk.edited edit).read path = disk.read path := by
      rw [Disk.read_edited, bare path (.inl rfl)]
      cases disk.read path <;> rfl
    have read : disk'.read path = disk.read path := by rw [← found, same, found]
    rw [Errand.perform, Errand.perform, read]
    exact inductionHypothesis _ (fun path uses => bare path (.inr ⟨_, uses⟩)) same

/-- No file of a workspace is hidden, when the workspaces lie apart from the data. -/
theorem StorageConfig.veil_of_below {workspaces : WorkspaceConfig} {name path : String}
    (apart : ∀ data, storage = .file data → workspaces.Apart data) (named : workspaces.Names name)
    (below : Path.Below (Path.join workspaces.root name) path) : storage.veil (Path.place path) = id := by
  cases storage with
  | memory => rfl
  | file data =>
    obtain ⟨first, others, place⟩ := below.place
    rw [veil, if_neg]
    rw [place, List.dropLast_append_of_ne_nil (List.cons_ne_nil _ _)]
    intro folder
    refine apart data rfl name named _ (.inr ?_) ⟨_, folder⟩
    rw [Path.place_join_text]
    exact List.prefix_append _ _

/-- A toolchain runs alike on hosts that are alike, if no file below its directory is edited. -/
theorem Toolchain.run_alike {config : ToolchainConfig} {host other : Host}
    (proper : Path.isProper config.wasmTarget = true) {directory : String} (hosts : host.Alike edit other)
    (bare : ∀ path, Path.Below directory path → edit (Path.place path) = id) (kind : JobKind) (input : JobInput)
    (stamp : Stamp) (same : disk'.edited edit = disk.edited edit) :
    let toolchain := Toolchain.forKind config kind
    (toolchain.run config.budget other directory input stamp disk').1.edited edit =
        (toolchain.run config.budget host directory input stamp disk).1.edited edit ∧
      (toolchain.run config.budget other directory input stamp disk').2 =
        (toolchain.run config.budget host directory input stamp disk).2 := by
  cases kind with
  | evm =>
    have kept := Solc.errand_keptIn config.solcPath config.defaultOptimizerRuns directory input stamp
    dsimp only [forKind]
    rw [Solc.run_eq_perform, Solc.run_eq_perform]
    exact Errand.perform_alike hosts config.budget (fun path uses => bare path (kept.below path uses)) same
  | stellar =>
    have kept := Cargo.errand_keptIn config.cargoPath config.sorobanSdkVersion directory proper input stamp
    dsimp only [forKind]
    rw [Cargo.run_eq_perform, Cargo.run_eq_perform]
    exact Errand.perform_alike hosts config.budget (fun path uses => bare path (kept.below path uses)) same

/-- The compilers of a service are alike on hosts that are alike under what is hidden, when its workspaces lie apart
from its data. -/
theorem ToolchainConfig.alike {config : ToolchainConfig} {host other : Host}
    (proper : Path.isProper config.wasmTarget = true) (hosts : host.Alike storage.veil other) {queue : QueueConfig}
    {workspaces : WorkspaceConfig} (apart : ∀ data, storage = .file data → workspaces.Apart data) :
    Setting.Alike storage ⟨queue, workspaces, config.compiler host⟩ ⟨queue, workspaces, config.compiler other⟩ where
  config := rfl
  workspaces := rfl
  compilers kind name input chance chance' disk disk' named chances same := by
    have stamp : (⟨chance'.name, chance'.now⟩ : Stamp) = ⟨chance.name, chance.now⟩ :=
      (congrArg (fun chance : Chance => Stamp.mk chance.name chance.now) chances : _)
    obtain ⟨disks, results⟩ := Toolchain.run_alike proper hosts
      (fun path below => StorageConfig.veil_of_below apart named below) kind input ⟨chance.name, chance.now⟩ same
    dsimp only [ToolchainConfig.compiler]
    rw [stamp]
    generalize Toolchain.run _ _ host _ _ _ disk = ran at disks results ⊢
    generalize Toolchain.run _ _ other _ _ _ disk' = ran' at disks results ⊢
    obtain ⟨left, result⟩ := ran
    obtain ⟨left', result'⟩ := ran'
    obtain rfl : result' = result := results
    cases result' <;> exact ⟨disks, rfl⟩

end ContractWorks
