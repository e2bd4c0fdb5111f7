import ContractWorks.Proofs.Job.Artifact
import ContractWorks.Proofs.Toolchain.Confined

namespace ContractWorks

/-- An artifact answers a job of a kind and a contract when it is of this kind, names this contract and has the hash
of its own content. -/
structure Artifact.Answers (artifact : Artifact) (kind : JobKind) (contractName : String) : Prop where
  kind : artifact.kind = kind
  contractName : artifact.contractName = contractName
  hashed : artifact.verifyHash = true

namespace Artifact

variable {artifact : Artifact} {kind : JobKind} {contractName : String}

/-- What the file of an artifact is read as answers the same job. -/
theorem Answers.reread (answers : artifact.Answers kind contractName) : artifact.reread.Answers kind contractName :=
  ⟨answers.kind, answers.contractName, answers.hashed⟩

theorem answers_ofBytecode (id : ArtifactId) (now : Time.Instant) (contractName : String) (abi : Json)
    (bytecode : String) (warnings : List String) :
    (ofBytecode id now contractName abi bytecode warnings).Answers .evm contractName where
  kind := rfl
  contractName := rfl
  hashed := decide_eq_true rfl

theorem answers_ofWasm (id : ArtifactId) (now : Time.Instant) (contractName : String) (wasm : List UInt8)
    (warnings : List String) : (ofWasm id now contractName wasm warnings).Answers .stellar contractName where
  kind := rfl
  contractName := rfl
  hashed := decide_eq_true rfl

end Artifact

namespace Json

variable {depth outer : Nat} {value found : Json} {key : String}

theorem mem_of_lookup {members : List (String × Json)} (looked : members.lookup key = some found) :
    (key, found) ∈ members := by
  obtain ⟨before, behind, rfl, _⟩ := List.lookup_eq_some_iff.mp looked
  exact List.mem_append_right _ List.mem_cons_self

theorem Canonical.lower (canonical : Canonical depth value) (less : outer ≤ depth) : Canonical outer value :=
  canonical.mono (fun _ held => held) (fun _ sorted => sorted) value less

theorem Canonical.mem_members {members : List (String × Json)} (canonical : Canonical depth value)
    (held : value.members? = some members) (present : (key, found) ∈ members) : Canonical (depth + 1) found := by
  cases value <;> try simp [members?] at held
  subst held
  exact fitsMembers_iff.mp canonical.2.2 _ present

theorem Canonical.member? (canonical : Canonical depth value) (held : value.member? key = some found) :
    Canonical (depth + 1) found := by
  cases value <;> try simp [Json.member?] at held
  exact canonical.mem_members rfl (mem_of_lookup held)

end Json

namespace Solc

variable {abi contract output : Json} {code fileName contractName stdout : String}

theorem canonical_of_deployable {depth : Nat} (canonical : contract.Canonical depth)
    (deploys : deployable? contract = some (abi, code)) : abi.Canonical (depth + 1) := by
  obtain ⟨_, _, same⟩ := Option.map_eq_some_iff.mp deploys
  rw [← (Prod.mk.inj same).1]
  cases held : contract.member? "abi" with
  | none => exact trivial
  | some found => exact canonical.member? held

theorem deployable_of_choose {contracts : List (String × Json)}
    (chosen : choose contracts contractName = some (abi, code)) :
    ∃ entry ∈ contracts, deployable? entry.2 = some (abi, code) := by
  rw [choose, Option.or_eq_some_iff] at chosen
  rcases chosen with named | ⟨_, first⟩
  · obtain ⟨contract, looked, deploys⟩ := Option.bind_eq_some_iff.mp named
    exact ⟨_, Json.mem_of_lookup looked, deploys⟩
  · exact List.exists_of_findSome?_eq_some first

/-- The interface that is taken from an output can be kept. -/
theorem canonical_of_parse {parsed : Output} (done : parse stdout fileName contractName = .ok parsed) :
    parsed.abi.Canonical 4 := by
  rw [parse] at done
  split at done
  · simp at done
  · next output read =>
    have canonical : output.Canonical 0 := Draft.canonical_of_read read
    rw [select] at done
    split at done
    · simp at done
    · split at done
      · simp at done
      · next contracts listed =>
        split at done
        · simp at done
        · next abi bytecode chosen =>
          obtain ⟨file, inFile, held⟩ := Option.bind_eq_some_iff.mp listed
          obtain ⟨files, inOutput, inFiles⟩ := Option.bind_eq_some_iff.mp inFile
          obtain ⟨entry, present, deploys⟩ := deployable_of_choose chosen
          have inside : file.Canonical 2 := (canonical.member? inOutput).member? inFiles
          rw [← Except.ok.inj done]
          exact canonical_of_deployable (inside.mem_members held present) deploys

end Solc

namespace Toolchain

open Artifact (Answers Keepable)

variable {directory : String} {input : JobInput} {stamp : Stamp} {output : ProcessOutput} {disk : Disk}
  {made : ToolchainOutput}

/-- A toolchain delivers when all that it collects answers the job of its kind, and can be kept. -/
def Delivers (toolchain : Toolchain) : Prop :=
  ∀ ⦃directory input stamp output disk made⦄, (toolchain.collect directory input stamp output disk).2 = .ok made →
    made.artifact.Answers toolchain.kind input.contractName ∧ made.artifact.Keepable

theorem solc_delivers (binary : String) (runs : UInt32) : Delivers (Solc.toolchain binary runs) := by
  intro directory input stamp output disk made collected
  have shown : (Solc.collect directory input stamp output disk).2 = .ok made := collected
  rw [Solc.collect] at shown
  split at shown
  · simp at shown
  · dsimp only at shown
    split at shown
    · simp at shown
    · next parsed done =>
      obtain ⟨_, first⟩ := attempt_ok shown
      obtain ⟨_, second⟩ := attempt_ok first
      obtain ⟨_, last⟩ := attempt_ok second
      rw [← Except.ok.inj last]
      refine ⟨Artifact.answers_ofBytecode _ _ _ _ _ _, fun abi same => ?_⟩
      obtain rfl : parsed.abi = abi := Option.some.inj same
      exact (Solc.canonical_of_parse done).lower (by decide)

theorem cargo_delivers (binary target version : String) : Delivers (Cargo.toolchain binary target version) := by
  intro directory input stamp output disk made collected
  have shown : (Cargo.collect target directory input stamp output disk).2 = .ok made := collected
  rw [Cargo.collect] at shown
  split at shown
  · simp at shown
  · dsimp only at shown
    split at shown
    · rw [← Except.ok.inj shown]
      exact ⟨Artifact.answers_ofWasm _ _ _ _ _, fun abi same => by simp [Artifact.ofWasm] at same⟩
    · simp at shown
    · simp at shown

theorem forKind_delivers (config : ToolchainConfig) (kind : JobKind) : Delivers (forKind config kind) := by
  cases kind with
  | evm => exact solc_delivers _ _
  | stellar => exact cargo_delivers _ _ _

/-- A toolchain is chosen for its own kind. -/
theorem kind_forKind (config : ToolchainConfig) (kind : JobKind) : (forKind config kind).kind = kind := by
  cases kind <;> rfl

theorem Delivers.run {toolchain : Toolchain} (delivers : toolchain.Delivers) {host : Host} {budget : Budget}
    (done : (toolchain.run budget host directory input stamp disk).2 = .ok made) :
    made.artifact.Answers toolchain.kind input.contractName ∧ made.artifact.Keepable := by
  rw [Toolchain.run] at done
  split at done
  · simp at done
  · split at done
    · simp at done
    · exact delivers done

end Toolchain

/-- The compilers of a setting deliver when each artifact that they make answers the job that they run for, and can be
kept. -/
def Setting.Delivers (setting : Setting) : Prop :=
  ∀ kind directory input chance disk artifact,
    (setting.compilers kind directory input chance disk).2 = .made artifact →
      artifact.Answers kind input.contractName ∧ artifact.Keepable

/-- The compilers of a service deliver, whatever its host does. -/
theorem ToolchainConfig.delivers (config : ToolchainConfig) (host : Host) (queue : QueueConfig)
    (workspaces : WorkspaceConfig) : Setting.Delivers ⟨queue, workspaces, config.compiler host⟩ := by
  intro kind directory input chance disk artifact made
  dsimp only [ToolchainConfig.compiler] at made
  split at made
  · next ended =>
    rw [← CompilerEnd.made.inj made]
    have delivered := (Toolchain.forKind_delivers config kind).run (congrArg Prod.snd ended)
    rwa [Toolchain.kind_forKind] at delivered
  · simp at made

end ContractWorks
