import ContractWorks.Proofs.Toolchain.Ready
import ContractWorks.Proofs.Toolchain.Selection

namespace ContractWorks.Toolchain

/-- This function gives the disk that the process of a run leaves, and how it ends. A run whose files cannot be written
comes to no process, and a command with a zero octet to none that is spawned. -/
def process (toolchain : Toolchain) (host : Host) (directory : String) (input : JobInput) (disk : Disk) :
    Option (Disk × ProcessEnd) :=
  match toolchain.prepare directory input disk with
  | (_, .error _) => none
  | (ready, .ok command) => some (if command.isClean then host command ready else (ready, .notSpawned))

section Process

variable {toolchain : Toolchain} {budget : Budget} {host : Host} {directory : String} {input : JobInput} {stamp : Stamp}
  {disk left : Disk} {code : Option Nat} {stdout stderr : ByteArray} {millis : Nat}

theorem process_eq_none (unprepared : toolchain.process host directory input disk = none) :
    ∃ ready error, toolchain.prepare directory input disk = (ready, .error error) := by
  rw [process] at unprepared
  split at unprepared
  · next ready error failed => exact ⟨ready, error, failed⟩
  · simp at unprepared

/-- The process of a run is that of a command that was prepared, unless the command has a zero octet. -/
theorem process_eq_some {ending : ProcessEnd}
    (ran : toolchain.process host directory input disk = some (left, ending)) :
    ∃ ready command, toolchain.prepare directory input disk = (ready, .ok command) ∧
      (command.isClean = true ∧ host command ready = (left, ending) ∨
        command.isClean = false ∧ ready = left ∧ ending = .notSpawned) := by
  rw [process] at ran
  split at ran
  · simp at ran
  · next ready command prepared =>
    refine ⟨ready, command, prepared, ?_⟩
    have same := Option.some.inj ran
    split at same
    · next clean => exact .inl ⟨clean, same⟩
    · next unclean => exact .inr ⟨Bool.not_eq_true _ ▸ unclean, (Prod.mk.inj same).1, (Prod.mk.inj same).2.symm⟩

theorem run_of_notSpawned (ran : toolchain.process host directory input disk = some (left, .notSpawned)) :
    ∃ program text, toolchain.run budget host directory input stamp disk = (left, .error (.spawn program text)) := by
  obtain ⟨ready, command, prepared, ⟨clean, same⟩ | ⟨unclean, rfl, -⟩⟩ := process_eq_some ran
  · refine ⟨command.program, DiskError.missing.message, ?_⟩
    simp only [run, prepared, Budget.run, clean, if_true, same, Budget.judge]
  · refine ⟨command.program, "nul byte found in provided data", ?_⟩
    simp only [run, prepared, Budget.run, unclean, Bool.false_eq_true, if_false]

/-- A process that ends is judged by its time, and what it leaves within its time is collected. -/
theorem run_of_ended
    (ran : toolchain.process host directory input disk = some (left, .ended code stdout stderr millis)) :
    toolchain.run budget host directory input stamp disk =
      if budget.covers millis then
        toolchain.collect directory input stamp
          ⟨code, Text.Utf8.decodeLossy stdout, Text.Utf8.decodeLossy stderr⟩ left
      else (left, .error (.timeout budget.seconds)) := by
  obtain ⟨ready, command, prepared, ⟨clean, same⟩ | ⟨-, -, never⟩⟩ := process_eq_some ran
  · simp only [run, prepared, Budget.run, clean, if_true, same, Budget.judge]
    cases within : budget.covers millis <;> rfl
  · simp at never

theorem run_of_within
    (ran : toolchain.process host directory input disk = some (left, .ended code stdout stderr millis))
    (within : budget.covers millis = true) :
    toolchain.run budget host directory input stamp disk =
      toolchain.collect directory input stamp ⟨code, Text.Utf8.decodeLossy stdout, Text.Utf8.decodeLossy stderr⟩
        left := by
  rw [run_of_ended ran, if_pos within]

theorem run_of_late
    (ran : toolchain.process host directory input disk = some (left, .ended code stdout stderr millis))
    (late : budget.covers millis = false) :
    toolchain.run budget host directory input stamp disk = (left, .error (.timeout budget.seconds)) := by
  rw [run_of_ended ran, if_neg (Bool.not_eq_true _ ▸ late)]

end Process

section Collect

variable {directory : String} {input : JobInput} {stamp : Stamp} {output : ProcessOutput} {disk : Disk}
  {error : ToolchainError} {made : ToolchainOutput}

theorem attempt_error {α : Type} {operation : Disk → Except DiskError Disk}
    {further : Disk → Disk × Except ToolchainError α}
    (failed : (disk.attempt operation further).2 = .error error) :
    (∃ reason, error = .ofDisk reason) ∨ ∃ next, (further next).2 = .error error := by
  rw [Disk.attempt] at failed
  split at failed
  · next next _ => exact .inr ⟨next, failed⟩
  · next reason _ => exact .inl ⟨reason, (Except.error.inj failed).symm⟩

/-- A toolchain heeds its compiler when it fails before the compiler runs for the disk only, shows what a compiler that
fails complains of, and never takes what the compiler leaves for a fault of the host. -/
structure Heeds (toolchain : Toolchain) : Prop where
  prepares : ∀ {directory input disk error}, (toolchain.prepare directory input disk).2 = .error error →
    ∃ reason, error = .ofDisk reason
  refuses : ∀ {directory input stamp} output {disk}, output.exitCode ≠ some 0 →
    ∃ message, toolchain.collect directory input stamp output disk = (disk, .error (.failed message output.stderr))
  collects : ∀ {directory input stamp output disk error},
    (toolchain.collect directory input stamp output disk).2 = .error error → error.isInfra = false

theorem success_eq_false (nonzero : output.exitCode ≠ some 0) : output.success = false :=
  decide_eq_false nonzero

theorem isInfra_of_parse {stdout fileName contractName : String}
    (failed : Solc.parse stdout fileName contractName = .error error) : error.isInfra = false := by
  rw [Solc.parse] at failed
  split at failed
  · rw [← Except.error.inj failed]
    rfl
  · rw [Solc.select] at failed
    split at failed
    · rw [← Except.error.inj failed]
      rfl
    · split at failed
      · rw [← Except.error.inj failed]
        rfl
      · split at failed
        · rw [← Except.error.inj failed]
          rfl
        · simp at failed

theorem solc_prepare_error (binary : String) (runs : UInt32)
    (failed : (Solc.prepare binary runs directory input disk).2 = .error error) : ∃ reason, error = .ofDisk reason := by
  rw [Solc.prepare] at failed
  rcases attempt_error failed with ofDisk | ⟨_, never⟩
  · exact ofDisk
  · simp at never

theorem solc_collect_error (failed : (Solc.collect directory input stamp output disk).2 = .error error) :
    error.isInfra = false := by
  rw [Solc.collect] at failed
  split at failed
  · rw [← Except.error.inj failed]
    rfl
  · dsimp only at failed
    split at failed
    · next parsing =>
      rw [← Except.error.inj failed]
      exact isInfra_of_parse parsing
    · rcases attempt_error failed with ⟨_, rfl⟩ | ⟨_, failed⟩
      · rfl
      · rcases attempt_error failed with ⟨_, rfl⟩ | ⟨_, failed⟩
        · rfl
        · rcases attempt_error failed with ⟨_, rfl⟩ | ⟨_, never⟩
          · rfl
          · simp at never

theorem solc_refuses (nonzero : output.exitCode ≠ some 0) :
    Solc.collect directory input stamp output disk =
      (disk, .error (.failed ("solc exited with status " ++ Solc.statusText output.exitCode) output.stderr)) := by
  rw [Solc.collect, success_eq_false nonzero, Bool.not_false, if_pos rfl]

theorem solc_heeds (binary : String) (runs : UInt32) : Heeds (Solc.toolchain binary runs) := by
  refine ⟨fun failed => ?_, fun output disk nonzero => ?_, fun failed => ?_⟩
  · simp only [Solc.toolchain] at failed
    exact solc_prepare_error binary runs failed
  · simp only [Solc.toolchain]
    exact ⟨_, solc_refuses nonzero⟩
  · simp only [Solc.toolchain] at failed
    exact solc_collect_error failed

theorem cargo_prepare_error (binary target version : String)
    (failed : (Cargo.prepare binary target version directory input disk).2 = .error error) :
    ∃ reason, error = .ofDisk reason := by
  rw [Cargo.prepare] at failed
  rcases attempt_error failed with ofDisk | ⟨_, failed⟩
  · exact ofDisk
  · rcases attempt_error failed with ofDisk | ⟨_, failed⟩
    · exact ofDisk
    · rcases attempt_error failed with ofDisk | ⟨_, never⟩
      · exact ofDisk
      · simp at never

theorem cargo_collect_error (target : String)
    (failed : (Cargo.collect target directory input stamp output disk).2 = .error error) : error.isInfra = false := by
  rw [Cargo.collect] at failed
  split at failed
  · rw [← Except.error.inj failed]
    rfl
  · dsimp only at failed
    split at failed
    · simp at failed
    · rw [← Except.error.inj failed]
      rfl
    · rw [← Except.error.inj failed]
      rfl

theorem cargo_refuses (target : String) (nonzero : output.exitCode ≠ some 0) :
    Cargo.collect target directory input stamp output disk =
      (disk, .error
        (.failed ("cargo build exited with status " ++ Solc.statusText output.exitCode) output.stderr)) := by
  rw [Cargo.collect, success_eq_false nonzero, Bool.not_false, if_pos rfl]

theorem cargo_heeds (binary target version : String) : Heeds (Cargo.toolchain binary target version) := by
  refine ⟨fun failed => ?_, fun output disk nonzero => ?_, fun failed => ?_⟩
  · simp only [Cargo.toolchain] at failed
    exact cargo_prepare_error binary target version failed
  · simp only [Cargo.toolchain]
    exact ⟨_, cargo_refuses target nonzero⟩
  · simp only [Cargo.toolchain] at failed
    exact cargo_collect_error target failed

theorem forKind_heeds (config : ToolchainConfig) (kind : JobKind) : Heeds (forKind config kind) := by
  cases kind with
  | evm => exact solc_heeds _ _
  | stellar => exact cargo_heeds _ _ _

end Collect

section Heeds

variable {toolchain : Toolchain} {budget : Budget} {host : Host} {directory : String} {input : JobInput} {stamp : Stamp}
  {disk left : Disk} {code : Option Nat} {stdout stderr : ByteArray} {millis : Nat}

theorem Heeds.unready (heeds : toolchain.Heeds) (unprepared : toolchain.process host directory input disk = none) :
    ∃ reason, (toolchain.run budget host directory input stamp disk).2 = .error (.ofDisk reason) := by
  obtain ⟨ready, error, failed⟩ := process_eq_none unprepared
  obtain ⟨reason, rfl⟩ := heeds.prepares (congrArg Prod.snd failed)
  refine ⟨reason, ?_⟩
  rw [run, failed]

/-- Only a process that was not spawned is laid to the host. -/
theorem Heeds.infra_iff (heeds : toolchain.Heeds) :
    (∃ error, (toolchain.run budget host directory input stamp disk).2 = .error error ∧ error.isInfra = true) ↔
      ∃ left, toolchain.process host directory input disk = some (left, .notSpawned) := by
  constructor
  · rintro ⟨error, failed, infra⟩
    cases ran : toolchain.process host directory input disk with
    | none =>
      obtain ⟨reason, other⟩ := heeds.unready ran
      rw [Except.error.inj (failed.symm.trans other)] at infra
      exact absurd infra Bool.false_ne_true
    | some found =>
      obtain ⟨left, _ | ⟨code, stdout, stderr, millis⟩⟩ := found
      · exact ⟨left, rfl⟩
      · cases within : budget.covers millis with
        | false =>
          rw [run_of_late ran within] at failed
          rw [← Except.error.inj failed] at infra
          exact absurd infra Bool.false_ne_true
        | true =>
          rw [run_of_within ran within] at failed
          exact absurd infra (by rw [heeds.collects failed]; exact Bool.false_ne_true)
  · rintro ⟨left, ran⟩
    obtain ⟨program, text, spawn⟩ := run_of_notSpawned ran
    exact ⟨_, congrArg Prod.snd spawn, rfl⟩

/-- What a run makes is collected from a process that ended in time. -/
theorem Heeds.collected {made : ToolchainOutput} (heeds : toolchain.Heeds)
    (done : (toolchain.run budget host directory input stamp disk).2 = .ok made) :
    ∃ left code stdout stderr millis,
      toolchain.process host directory input disk = some (left, .ended code stdout stderr millis) ∧
        budget.covers millis = true ∧
          (toolchain.collect directory input stamp
            ⟨code, Text.Utf8.decodeLossy stdout, Text.Utf8.decodeLossy stderr⟩ left).2 = .ok made := by
  cases ran : toolchain.process host directory input disk with
  | none =>
    obtain ⟨reason, failed⟩ := heeds.unready ran
    exact absurd (done.symm.trans failed) (by simp)
  | some found =>
    obtain ⟨left, _ | ⟨code, stdout, stderr, millis⟩⟩ := found
    · obtain ⟨program, text, spawn⟩ := run_of_notSpawned ran
      rw [spawn] at done
      simp at done
    · cases within : budget.covers millis with
      | false =>
        rw [run_of_late ran within] at done
        simp at done
      | true =>
        rw [run_of_within ran within] at done
        exact ⟨left, code, stdout, stderr, millis, rfl, within, done⟩

/-- A process that ends in time with another code than zero is shown with what it complained of. -/
theorem Heeds.refused (heeds : toolchain.Heeds)
    (ran : toolchain.process host directory input disk = some (left, .ended code stdout stderr millis))
    (within : budget.covers millis = true) (nonzero : code ≠ some 0) :
    ∃ message, (toolchain.run budget host directory input stamp disk).2 =
      .error (.failed message (Text.Utf8.decodeLossy stderr)) := by
  obtain ⟨message, failed⟩ := heeds.refuses ⟨code, _, _⟩ nonzero
  refine ⟨message, ?_⟩
  rw [run_of_within ran within, failed]

end Heeds

section Yields

/-- A process yields octets by what it leaves: those of the code of the contract that is picked from its output, or
those of the file of the binary. -/
inductive Yields (config : ToolchainConfig) (directory : String) (input : JobInput) (stdout : String) (left : Disk) :
    JobKind → List UInt8 → Prop where
  | code {document : Json} {contracts : List (String × Json)} {entry : String × Json} {code : String}
    (read : Json.read stdout = some document)
    (holds : Solc.Holds document (fileStem input.contractName ++ ".sol") contracts)
    (picked : Solc.Picked contracts input.contractName entry code) :
    Yields config directory input stdout left .evm code.toUTF8.toList
  | binary {octets : ByteArray}
    (read : left.read (Cargo.wasmPath config.wasmTarget directory (Cargo.packageName input.contractName)) =
      .ok octets) :
    Yields config directory input stdout left .stellar octets.toList

variable {config : ToolchainConfig} {directory : String} {input : JobInput} {stamp : Stamp} {output : ProcessOutput}
  {disk : Disk} {made : ToolchainOutput}

theorem solc_yields (collected : (Solc.collect directory input stamp output disk).2 = .ok made) :
    output.success = true ∧ ∃ octets, Yields config directory input output.stdout disk .evm octets ∧
      made.artifact.payload = some octets := by
  rw [Solc.collect] at collected
  split at collected
  · simp at collected
  · next success =>
    dsimp only at collected
    split at collected
    · simp at collected
    · next parsed done =>
      obtain ⟨_, first⟩ := attempt_ok collected
      obtain ⟨_, second⟩ := attempt_ok first
      obtain ⟨_, last⟩ := attempt_ok second
      obtain ⟨document, contracts, read, held, chosen⟩ := Solc.choose_of_parse done
      have holds : Solc.Holds document (fileStem input.contractName ++ ".sol") contracts :=
        Option.bind_eq_some_iff.mp held
      obtain ⟨entry, picked, _⟩ := Solc.picked_of_choose (Solc.sorted_of_holds read holds) chosen
      refine ⟨by simpa using success, _, .code read holds picked, ?_⟩
      rw [← Except.ok.inj last]
      rfl

theorem cargo_yields
    (collected : (Cargo.collect config.wasmTarget directory input stamp output disk).2 = .ok made) :
    output.success = true ∧ ∃ octets, Yields config directory input output.stdout disk .stellar octets ∧
      made.artifact.payload = some octets := by
  rw [Cargo.collect] at collected
  split at collected
  · simp at collected
  · next success =>
    dsimp only at collected
    split at collected
    · next octets read =>
      refine ⟨by simpa using success, _, .binary read, ?_⟩
      rw [← Except.ok.inj collected]
      rfl
    · simp at collected
    · simp at collected

/-- What is collected is what a process yields that ended with the code zero. -/
theorem forKind_yields {kind : JobKind}
    (collected : ((forKind config kind).collect directory input stamp output disk).2 = .ok made) :
    output.exitCode = some 0 ∧ ∃ octets, Yields config directory input output.stdout disk kind octets ∧
      made.artifact.payload = some octets := by
  cases kind with
  | evm =>
    simp only [forKind, Solc.toolchain] at collected
    obtain ⟨success, yields⟩ := solc_yields collected
    exact ⟨of_decide_eq_true success, yields⟩
  | stellar =>
    simp only [forKind, Cargo.toolchain] at collected
    obtain ⟨success, yields⟩ := cargo_yields collected
    exact ⟨of_decide_eq_true success, yields⟩

end Yields

/-- A result accounts for the process of a run. An artifact comes of a process that ended with the code zero in time,
and is what this process yields. The host is blamed exactly for a process that was not spawned, nothing is shown of a
process that took too long, and one that ended with another code is shown with what it complained of. Without a process
the disk is blamed. -/
structure AccountsFor (config : ToolchainConfig) (kind : JobKind) (budget : Budget) (directory : String)
    (input : JobInput) (process : Option (Disk × ProcessEnd)) (result : Except ToolchainError ToolchainOutput) :
    Prop where
  made : ∀ made, result = .ok made → ∃ left stdout stderr millis octets,
    process = some (left, .ended (some 0) stdout stderr millis) ∧ budget.covers millis = true ∧
      Yields config directory input (Text.Utf8.decodeLossy stdout) left kind octets ∧
        made.artifact.payload = some octets ∧ made.artifact.contractName = input.contractName ∧
          made.artifact.verifyHash = true
  infra : (∃ error, result = .error error ∧ error.isInfra = true) ↔ ∃ left, process = some (left, .notSpawned)
  late : ∀ left code stdout stderr millis, process = some (left, .ended code stdout stderr millis) →
    budget.covers millis = false →
      ∃ error, result = .error error ∧ error.record.code = .timeout ∧ error.record.diagnostics = none
  refused : ∀ left code stdout stderr millis, process = some (left, .ended code stdout stderr millis) →
    budget.covers millis = true → code ≠ some 0 →
      ∃ error, result = .error error ∧ error.record.code = .toolchain ∧
        error.record.diagnostics =
          if Text.Utf8.decodeLossy stderr = "" then none else some (Text.Utf8.decodeLossy stderr)
  unready : process = none → ∃ reason, result = .error (.ofDisk reason)

section Accounts

variable {config : ToolchainConfig} {kind : JobKind} {budget : Budget} {host : Host} {directory : String}
  {input : JobInput} {stamp : Stamp} {disk : Disk} {made : ToolchainOutput}

/-- An artifact is what the process of its run yields. -/
theorem yields_of_run
    (done : ((forKind config kind).run budget host directory input stamp disk).2 = .ok made) :
    ∃ left stdout stderr millis octets,
      (forKind config kind).process host directory input disk =
        some (left, .ended (some 0) stdout stderr millis) ∧ budget.covers millis = true ∧
        Yields config directory input (Text.Utf8.decodeLossy stdout) left kind octets ∧
          made.artifact.payload = some octets := by
  obtain ⟨left, code, stdout, stderr, millis, ran, within, collected⟩ := (forKind_heeds config kind).collected done
  obtain ⟨zero, octets, yields, payload⟩ := forKind_yields collected
  obtain rfl : code = some 0 := zero
  exact ⟨left, stdout, stderr, millis, octets, ran, within, yields, payload⟩

/-- In a clear directory a run comes to a process. -/
theorem process_of_clear (config : ToolchainConfig) (kind : JobKind) (host : Host) (clear : disk.Clear directory)
    (short : input.contractName.length ≤ 251) : (forKind config kind).process host directory input disk ≠ none := by
  intro none
  obtain ⟨ready, error, failed⟩ := process_eq_none none
  cases kind with
  | evm =>
    obtain ⟨other, stdin, prepared⟩ := solc_prepares config.solcPath config.defaultOptimizerRuns clear short
    simp only [forKind, Solc.toolchain, prepared] at failed
    simp at failed
  | stellar =>
    obtain ⟨other, command, prepared⟩ :=
      cargo_prepares config.cargoPath config.wasmTarget config.sorobanSdkVersion clear input
    simp only [forKind, Cargo.toolchain, prepared] at failed
    simp at failed

end Accounts

/-- Whatever the compiler does, the result of a run accounts for its process. In a clear directory there is a process,
for every contract whose name is not too long for a file. -/
theorem run_accountsFor (config : ToolchainConfig) (kind : JobKind) (budget : Budget) (host : Host)
    (directory : String) (input : JobInput) (stamp : Stamp) (disk : Disk) :
    AccountsFor config kind budget directory input ((forKind config kind).process host directory input disk)
        ((forKind config kind).run budget host directory input stamp disk).2 ∧
      (disk.Clear directory → input.contractName.length ≤ 251 →
        (forKind config kind).process host directory input disk ≠ none) := by
  have heeds := forKind_heeds config kind
  refine ⟨⟨fun made done => ?made, heeds.infra_iff, fun left code stdout stderr millis ran late => ?late,
    fun left code stdout stderr millis ran within nonzero => ?refused, heeds.unready⟩,
    process_of_clear config kind host⟩
  case made =>
    obtain ⟨left, stdout, stderr, millis, octets, ran, within, yields, payload⟩ := yields_of_run done
    obtain ⟨answers, -⟩ := (forKind_delivers config kind).run done
    exact ⟨left, stdout, stderr, millis, octets, ran, within, yields, payload, answers.contractName, answers.hashed⟩
  case late => exact ⟨_, congrArg Prod.snd (run_of_late ran late), rfl, rfl⟩
  case refused =>
    obtain ⟨message, failed⟩ := heeds.refused ran within nonzero
    exact ⟨_, failed, rfl, rfl⟩

theorem isProper_work : Path.isProper "work" = true := by
  decide

/-- This disk has a directory for work, with nothing in it. -/
def roomy : Disk :=
  ⟨[([⟨"work", isProper_work⟩], .directory)]⟩

/-- This contract is called `Token`. -/
def tokenInput : JobInput :=
  { source := "contract Token \x7b\x7d", contractName := "Token" }

/-- This host ends every process alike. -/
def always (ending : ProcessEnd) : Host :=
  fun _ disk => (disk, ending)

theorem clear_roomy : roomy.Clear "work" where
  stands := by decide
  free name more := by
    have place : Path.place "work" = [⟨"work", isProper_work⟩] := by decide
    rw [place, Disk.at?_of_ne _ (by simp)]
    simp [roomy, Table.get?]
  short := by decide

theorem process_roomy (ending : ProcessEnd) :
    ∃ left, (forKind {} .evm).process (always ending) "work" tokenInput roomy = some (left, ending) := by
  have short : tokenInput.contractName.length ≤ 251 := by decide
  obtain ⟨ready, stdin, prepared⟩ := solc_prepares "solc" 200 clear_roomy short
  have clean : Command.isClean ⟨"solc", ["--standard-json"], "work", [], some stdin⟩ = true := by
    dsimp only [Command.isClean]
    decide
  refine ⟨ready, ?_⟩
  simp only [process, forKind, Solc.toolchain, prepared, clean, if_true, always]

/-- A signal decides against an output that could be taken. -/
theorem run_accountsFor_killed :
    roomy.Clear "work" ∧ tokenInput.contractName.length ≤ 251 ∧
      (forKind {} .evm).process (always (.ended none Solc.fallback.compact.toUTF8 "killed".toUTF8 5)) "work" tokenInput
        roomy ≠ none ∧
      ∃ error, ((forKind {} .evm).run (.ofSeconds 120)
          (always (.ended none Solc.fallback.compact.toUTF8 "killed".toUTF8 5)) "work" tokenInput ⟨"made", .sample⟩
          roomy).2 = .error error ∧
        error.record.code = .toolchain ∧ error.record.diagnostics = some "killed" := by
  have short : tokenInput.contractName.length ≤ 251 := by decide
  obtain ⟨left, ran⟩ := process_roomy (.ended none Solc.fallback.compact.toUTF8 "killed".toUTF8 5)
  obtain ⟨accounts, comes⟩ := run_accountsFor {} .evm (.ofSeconds 120)
    (always (.ended none Solc.fallback.compact.toUTF8 "killed".toUTF8 5)) "work" tokenInput ⟨"made", .sample⟩ roomy
  obtain ⟨error, failed, code, diagnostics⟩ := accounts.refused _ _ _ _ _ ran (by decide) (by simp)
  rw [Text.Utf8.decodeLossy_toUTF8, if_neg (by decide)] at diagnostics
  exact ⟨clear_roomy, short, comes clear_roomy short, error, failed, code, diagnostics⟩

section Complaints

variable {directory : String} {input : JobInput} {stamp : Stamp} {output : ProcessOutput} {disk : Disk}
  {error : ToolchainError}

theorem solc_collect_of_parse (zero : output.exitCode = some 0)
    (failed : Solc.parse output.stdout (fileStem input.contractName ++ ".sol") input.contractName = .error error) :
    Solc.collect directory input stamp output disk = (disk, .error error) := by
  have success : output.success = true := decide_eq_true zero
  simp only [Solc.collect, success, Bool.not_true, Bool.false_eq_true, if_false, failed]

theorem cargo_collect_of_missing {target : String} (zero : output.exitCode = some 0)
    (missing : disk.read (Cargo.wasmPath target directory (Cargo.packageName input.contractName)) = .error .missing) :
    Cargo.collect target directory input stamp output disk =
      (disk, .error (.failed
        ("build produced no binary at " ++
          Cargo.wasmPath target directory (Cargo.packageName input.contractName)) output.stderr)) := by
  have success : output.success = true := decide_eq_true zero
  simp only [Cargo.collect, success, Bool.not_true, Bool.false_eq_true, if_false, missing]

/-- An output is obscure for a file when it is no document, or one that lists no error and holds no contracts for the
file. A detail says which. -/
inductive Obscure (stdout fileName : String) : String → Prop where
  | unread (unread : Json.read stdout = none) : Obscure stdout fileName Solc.jsonError
  | unlisted {document : Json} {entries : List Json} (read : Json.read stdout = some document)
    (listed : Solc.Lists document entries) (calm : ∀ entry ∈ entries, ¬ Solc.Grave entry)
    (unknown : ∀ contracts, ¬ Solc.Holds document fileName contracts) :
    Obscure stdout fileName ("no contracts for " ++ fileName)

variable {stdout fileName contractName detail : String}

theorem diagnostics_of_lists {document : Json} {entries : List Json} (listed : Solc.Lists document entries) :
    Solc.diagnostics document = entries := by
  rw [Solc.diagnostics]
  cases listed with
  | array held => rw [held]; rfl
  | nothing absent =>
    cases bound : (document.member? "errors").bind Json.items? with
    | none => rfl
    | some entries =>
      obtain ⟨value, held, array⟩ := Option.bind_eq_some_iff.mp bound
      exact absurd held (Json.items?_eq_some.mp array ▸ absent entries)

theorem parse_of_obscure (obscure : Obscure stdout fileName detail) :
    Solc.parse stdout fileName contractName = .error (.parse detail) := by
  cases obscure with
  | unread unread => rw [Solc.parse, unread]
  | unlisted read listed calm unknown =>
    rw [Solc.parse_eq_select read]
    refine Solc.select_of_unknown (List.filter_eq_nil_iff.mpr fun entry present => ?_) unknown
    rw [diagnostics_of_lists listed] at present
    rw [Solc.isError_iff]
    exact calm entry present

theorem Obscure.detail_ne_empty (obscure : Obscure stdout fileName detail) : detail ≠ "" := by
  cases obscure with
  | unread => decide
  | unlisted =>
    intro empty
    have list := congrArg String.toList empty
    rw [String.toList_append] at list
    exact absurd (List.append_eq_nil_iff.mp list).1 (by decide)

end Complaints

section Heard

variable {config : ToolchainConfig} {kind : JobKind} {budget : Budget} {host : Host} {directory : String}
  {input : JobInput} {stamp : Stamp} {disk left : Disk} {code : Option Nat} {stdout stderr : ByteArray} {millis : Nat}

/-- A build that leaves no binary is shown with what it complained of. -/
theorem run_of_missing
    (ran : (forKind config .stellar).process host directory input disk =
      some (left, .ended (some 0) stdout stderr millis))
    (within : budget.covers millis = true)
    (missing : left.read (Cargo.wasmPath config.wasmTarget directory (Cargo.packageName input.contractName)) =
      .error .missing) :
    ∃ message, ((forKind config .stellar).run budget host directory input stamp disk).2 =
      .error (.failed message (Text.Utf8.decodeLossy stderr)) := by
  rw [run_of_within ran within]
  simp only [forKind, Cargo.toolchain]
  rw [cargo_collect_of_missing rfl missing]
  exact ⟨_, rfl⟩

/-- An output that is obscure is shown by its detail, whatever the compiler complained of. -/
theorem run_of_obscure {detail : String}
    (ran : (forKind config .evm).process host directory input disk = some (left, .ended (some 0) stdout stderr millis))
    (within : budget.covers millis = true)
    (obscure : Obscure (Text.Utf8.decodeLossy stdout) (fileStem input.contractName ++ ".sol") detail) :
    ((forKind config .evm).run budget host directory input stamp disk).2 = .error (.parse detail) := by
  rw [run_of_within ran within]
  simp only [forKind, Solc.toolchain]
  rw [solc_collect_of_parse rfl (parse_of_obscure obscure)]

/-- A compiler that ends in time and complains is heard when it ends with another code than zero, or when a build leaves
no binary: what it complains of is shown. Where its output is obscure the detail is shown, and nothing of the
complaints. -/
theorem complaints_kept
    (ran : (forKind config kind).process host directory input disk = some (left, .ended code stdout stderr millis))
    (within : budget.covers millis = true) (spoken : Text.Utf8.decodeLossy stderr ≠ "") (stamp : Stamp) :
    (code ≠ some 0 ∨ kind = .stellar ∧ left.read
        (Cargo.wasmPath config.wasmTarget directory (Cargo.packageName input.contractName)) = .error .missing →
      ∃ error, ((forKind config kind).run budget host directory input stamp disk).2 = .error error ∧
        error.record.code = .toolchain ∧ error.record.diagnostics = some (Text.Utf8.decodeLossy stderr)) ∧
    (kind = .evm → code = some 0 → ∀ detail,
      Obscure (Text.Utf8.decodeLossy stdout) (fileStem input.contractName ++ ".sol") detail →
        ∃ error, ((forKind config kind).run budget host directory input stamp disk).2 = .error error ∧
          error.record = ⟨.toolchain, "unparsable compiler output", some detail⟩) := by
  have shown (message : String) :
      (ToolchainError.failed message (Text.Utf8.decodeLossy stderr)).record.diagnostics =
        some (Text.Utf8.decodeLossy stderr) := if_neg spoken
  have failing : code ≠ some 0 ∨ kind = .stellar ∧ left.read
      (Cargo.wasmPath config.wasmTarget directory (Cargo.packageName input.contractName)) = .error .missing →
        ∃ message, ((forKind config kind).run budget host directory input stamp disk).2 =
          .error (.failed message (Text.Utf8.decodeLossy stderr)) := by
    intro failing
    by_cases zero : code = some 0
    · subst zero
      obtain ⟨rfl, missing⟩ := failing.resolve_left (not_not_intro rfl)
      exact run_of_missing ran within missing
    · exact (forKind_heeds config kind).refused ran within zero
  refine ⟨fun fails => ?_, ?_⟩
  · obtain ⟨message, failed⟩ := failing fails
    exact ⟨_, failed, rfl, shown message⟩
  · rintro rfl rfl detail obscure
    refine ⟨_, run_of_obscure ran within obscure, ?_⟩
    rw [ToolchainError.record, ErrorRecord.toolchain, if_neg obscure.detail_ne_empty]

/-- With the code one these complaints are heard. -/
theorem complaints_kept_failing :
    ∃ error, ((forKind {} .evm).run (.ofSeconds 120)
        (always (.ended (some 1) "\x7b\x7d".toUTF8 "boom".toUTF8 5)) "work" tokenInput ⟨"made", .sample⟩ roomy).2 =
          .error error ∧ error.record.diagnostics = some "boom" := by
  obtain ⟨left, ran⟩ := process_roomy (.ended (some 1) "\x7b\x7d".toUTF8 "boom".toUTF8 5)
  have spoken : Text.Utf8.decodeLossy "boom".toUTF8 ≠ "" := by
    rw [Text.Utf8.decodeLossy_toUTF8]
    decide
  obtain ⟨heard, -⟩ := complaints_kept ran (by decide : (Budget.ofSeconds 120).covers 5 = true) spoken ⟨"made", .sample⟩
  obtain ⟨error, failed, -, diagnostics⟩ := heard (.inl (by decide))
  rw [Text.Utf8.decodeLossy_toUTF8] at diagnostics
  exact ⟨error, failed, diagnostics⟩

/-- A compiler that ends with the code zero, prints an empty document and complains is shown without its complaints. -/
theorem complaints_dropped :
    ∃ left error, (forKind {} .evm).process (always (.ended (some 0) "\x7b\x7d".toUTF8 "boom".toUTF8 5)) "work"
        tokenInput roomy = some (left, .ended (some 0) "\x7b\x7d".toUTF8 "boom".toUTF8 5) ∧
      (Budget.ofSeconds 120).covers 5 = true ∧ Text.Utf8.decodeLossy "boom".toUTF8 = "boom" ∧
      Solc.parse "\x7b\x7d" "Token.sol" "Token" = .error (.parse "no contracts for Token.sol") ∧
      ((forKind {} .evm).run (.ofSeconds 120) (always (.ended (some 0) "\x7b\x7d".toUTF8 "boom".toUTF8 5)) "work"
        tokenInput ⟨"made", .sample⟩ roomy).2 = .error error ∧
      error.record = ⟨.toolchain, "unparsable compiler output", some "no contracts for Token.sol"⟩ ∧
      Text.contains "no contracts for Token.sol" "boom" = false := by
  obtain ⟨left, ran⟩ := process_roomy (.ended (some 0) "\x7b\x7d".toUTF8 "boom".toUTF8 5)
  have read : Json.read "\x7b\x7d" = some (.object []) := by
    have compact : (Json.object []).compact = "\x7b\x7d" := by decide
    rw [← compact]
    apply Json.read_compact
    simp [Json.Fits, Json.FitsMembers, Json.Sorted, Draft.maxDepth]
  have detail : "no contracts for " ++ "Token.sol" = "no contracts for Token.sol" := by decide
  have obscure : Obscure "\x7b\x7d" "Token.sol" "no contracts for Token.sol" := by
    rw [← detail]
    refine .unlisted read (.nothing fun entries => ?_) (by simp) fun contracts => ?_
    · simp [Json.member?]
    · rintro ⟨files, held, -⟩
      simp [Json.member?] at held
  have name : fileStem tokenInput.contractName ++ ".sol" = "Token.sol" := by decide
  have text : Text.Utf8.decodeLossy "\x7b\x7d".toUTF8 = "\x7b\x7d" := Text.Utf8.decodeLossy_toUTF8 _
  exact ⟨left, .parse "no contracts for Token.sol", ran, by decide, Text.Utf8.decodeLossy_toUTF8 _,
    parse_of_obscure obscure, run_of_obscure ran (by decide) (by rwa [text, name]), by decide, by decide⟩

end Heard

end ContractWorks.Toolchain
