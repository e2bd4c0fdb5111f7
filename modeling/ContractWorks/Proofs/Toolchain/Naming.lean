import ContractWorks.Proofs.Json.Value
import ContractWorks.Proofs.Toolchain.Errand

namespace ContractWorks

namespace Json

/-- A value whose numbers are exact and whose members are sorted comes back from its text. -/
theorem read_compact {value : Json} (fits : Fits Number.Exact Sorted 0 value) : read value.compact = some value := by
  have readable : Readable 0 value :=
    fits.mono (fun _ exact => exact) (fun _ _ => trivial) value (Nat.le_refl 0)
  rw [read, compact, Draft.read_written .compact readable, value?_draft value fits]

end Json

namespace Solc

open Json (Fits FitsMembers FitsItems Sorted Number)

theorem fits_request (fileName source : String) (runs : UInt32) :
    Fits Number.Exact Sorted 0 (request fileName source runs) := by
  have small : -2 ^ 63 ≤ (runs.toNat : Int) ∧ (runs.toNat : Int) ≤ Draft.maxWord := by
    have bound := runs.toNat_lt
    refine ⟨by omega, Int.le_trans (Int.ofNat_le.mpr (Nat.le_of_lt bound)) (by decide)⟩
  have outer : Sorted ["language", "settings", "sources"] := by
    simp only [Sorted, String.lt_iff_toList_lt]
    decide
  have settings : Sorted ["optimizer", "outputSelection"] := by
    simp only [Sorted, String.lt_iff_toList_lt]
    decide
  have optimizer : Sorted ["enabled", "runs"] := by
    simp only [Sorted, String.lt_iff_toList_lt]
    decide
  have single (key : String) : Sorted [key] := List.pairwise_singleton _ key
  simp [request, Fits, FitsMembers, FitsItems, Json.texts, Json.count, Number.Exact, Draft.maxDepth, small, outer,
    settings, optimizer, single]

/-- A run of the compiler agrees on a key when the key names the one file that is written and the one source of the
request, which both hold the source of the input, and when the results are taken from under the key alone. -/
structure AgreesOn (binary : String) (defaultRuns : UInt32) (directory : String) (input : JobInput) (stamp : Stamp)
    (key : String) : Prop where
  proper : Path.isProper key = true
  written : (errand binary defaultRuns directory input stamp).written =
    [(Path.join directory key, input.source.toUTF8)]
  asked : ∃ command octets text document,
    (errand binary defaultRuns directory input stamp).asked? = some command ∧ command.input = some octets ∧
      String.fromUTF8? octets = some text ∧ Json.read text = some document ∧
        document.member? "sources" = some (.object [(key, .object [("content", .text input.source)])])
  taken : ∀ {output disk made}, (collect directory input stamp output disk).2 = .ok made →
    ∃ document contracts abi code warnings, Json.read output.stdout = some document ∧
      ((document.member? "contracts").bind fun files => files.member? key) = some (.object contracts) ∧
        choose contracts input.contractName = some (abi, code) ∧
          made.artifact = .ofBytecode stamp.id stamp.now input.contractName abi code warnings
  missed : ∀ {output document} (disk : Disk), output.success = true → Json.read output.stdout = some document →
    (diagnostics document).filter isError = [] →
      ((document.member? "contracts").bind fun files => (files.member? key).bind Json.members?) = none →
        collect directory input stamp output disk = (disk, .error (.parse ("no contracts for " ++ key)))

variable {directory fileName contractName stdout : String} {input : JobInput} {stamp : Stamp} {output : ProcessOutput}
  {disk : Disk}

/-- What is taken from the output of the compiler stands under the name of the file. -/
theorem choose_of_parse {parsed : Output} (done : parse stdout fileName contractName = .ok parsed) :
    ∃ document contracts, Json.read stdout = some document ∧
      ((document.member? "contracts").bind fun files => files.member? fileName) = some (.object contracts) ∧
        choose contracts contractName = some (parsed.abi, parsed.bytecode) := by
  rw [parse] at done
  split at done
  · simp at done
  · next document read =>
    simp only [select] at done
    split at done
    · simp at done
    · split at done
      · simp at done
      · next contracts found =>
        split at done
        · simp at done
        · next chosen =>
          obtain ⟨members, held, shown⟩ := Option.bind_eq_some_iff.mp found
          obtain rfl : members = .object contracts := by
            cases members <;> simp_all [Json.members?]
          obtain rfl := Except.ok.inj done
          exact ⟨document, contracts, read, held, chosen⟩

theorem parse_of_missing {document : Json} (read : Json.read stdout = some document)
    (sound : (diagnostics document).filter isError = [])
    (missing : ((document.member? "contracts").bind fun files => (files.member? fileName).bind Json.members?) = none) :
    parse stdout fileName contractName = .error (.parse ("no contracts for " ++ fileName)) := by
  rw [← Option.bind_assoc] at missing
  simp only [parse, read, select, sound, ne_eq, not_true_eq_false, if_false, missing]

theorem agreesOn_stem (binary : String) (defaultRuns : UInt32) (directory : String) (input : JobInput)
    (stamp : Stamp) :
    AgreesOn binary defaultRuns directory input stamp (fileStem input.contractName ++ ".sol") where
  proper := isProper_stem _ (by decide) (by decide)
  written := rfl
  asked := by
    have fits := fits_request (fileStem input.contractName ++ ".sol") input.source
      (input.optimizerRuns.getD defaultRuns)
    exact ⟨_, _, _, _, rfl, rfl, Text.Utf8.fromUTF8?_toUTF8 _, Json.read_compact fits, rfl⟩
  taken {output disk made} collected := by
    rw [collect] at collected
    split at collected
    · simp at collected
    · dsimp only at collected
      split at collected
      · simp at collected
      · next parsed done =>
        obtain ⟨_, first⟩ := Toolchain.attempt_ok collected
        obtain ⟨_, second⟩ := Toolchain.attempt_ok first
        obtain ⟨_, last⟩ := Toolchain.attempt_ok second
        obtain ⟨document, contracts, read, held, chosen⟩ := choose_of_parse done
        exact ⟨document, contracts, parsed.abi, parsed.bytecode, parsed.warnings, read, held, chosen,
          congrArg ToolchainOutput.artifact (Except.ok.inj last).symm⟩
  missed {output document} disk success read sound missing := by
    rw [collect, success]
    simp only [Bool.not_true, Bool.false_eq_true, if_false, parse_of_missing read sound missing]

end Solc

namespace Cargo

/-- What is put behind texts that all begin in one way is the same behind each of them. -/
theorem begins_append {shown start : String → String} (more : String)
    (begins : ∃ behind, ∀ package, shown package = start package ++ behind) :
    ∃ behind, ∀ package, shown package ++ more = start package ++ behind := by
  obtain ⟨behind, same⟩ := begins
  exact ⟨behind ++ more, fun package => by rw [same, String.append_assoc]⟩

/-- A manifest has the package name between the quotes of its name line and nowhere else. -/
theorem manifest_eq (sdkVersion : String) : ∃ behind, ∀ package,
    manifest sdkVersion package = "[package]\n" ++ "name = \"" ++ package ++ "\"\n" ++ behind := by
  unfold manifest
  iterate 24 refine begins_append _ ?_
  exact ⟨"", fun package => String.append_empty.symm⟩

/-- A package name can stand between quotes as it is. -/
theorem unquoted_of_isPlainChar {character : Char} (plain : isPlainChar character = true) :
    character ≠ '"' ∧ character ≠ '\\' ∧ character ≠ '\n' ∧ 0x20 ≤ character.toNat ∧ character.toNat < 0x7F := by
  have other (barred : Char) (never : isPlainChar barred = false) : character ≠ barred := by
    rintro rfl
    exact absurd plain (Bool.eq_false_iff.mp never)
  refine ⟨other _ (by decide), other _ (by decide), other _ (by decide), ?_⟩
  have shown {low high : UInt32} (between : (decide (low ≤ character.val) && decide (character.val ≤ high)) = true)
      (above : 0x20 ≤ low.toNat) (below : high.toNat < 0x7F) : 0x20 ≤ character.toNat ∧ character.toNat < 0x7F := by
    obtain ⟨first, last⟩ := Bool.and_eq_true_iff.mp between
    exact ⟨Nat.le_trans above (UInt32.le_iff_toNat_le.mp (of_decide_eq_true first)),
      Nat.lt_of_le_of_lt (UInt32.le_iff_toNat_le.mp (of_decide_eq_true last)) below⟩
  rcases Bool.or_eq_true_iff.mp plain with alphanumeric | hyphen
  · rcases Bool.or_eq_true_iff.mp alphanumeric with letter | digit
    · exact shown letter (by decide) (by decide)
    · exact shown digit (by decide) (by decide)
  · obtain rfl := of_decide_eq_true hyphen
    decide

/-- The files of a package are its manifest, which depends on the contract between the quotes of the name line only,
and the source of the input. -/
theorem written_errand (binary target sdkVersion directory : String) (stamp : Stamp) : ∃ behind, ∀ input : JobInput,
    (errand binary target sdkVersion directory input stamp).written =
      [(Path.join directory "Cargo.toml",
          ("[package]\n" ++ "name = \"" ++ packageName input.contractName ++ "\"\n" ++ behind).toUTF8),
        (Path.join (Path.join directory "src") "lib.rs", input.source.toUTF8)] := by
  obtain ⟨behind, shown⟩ := manifest_eq sdkVersion
  refine ⟨behind, fun input => ?_⟩
  rw [← shown]
  rfl

end Cargo

/-- Names that a client chooses stay in the directory of a run, and do not break what the compilers are given. A run of
either compiler does an errand that is kept in its directory. The one source of the request to the first one has the
name of the file that is written and that the results are looked up under, and holds the source of the input. The
manifest for the second one depends on the name of the contract between the quotes of its name line only, where
nothing ends the text or has to be escaped. -/
theorem run_keptIn {target : String} (ordinary : Path.isProper target = true)
    (compiler builder sdkVersion directory : String) (runs : UInt32) (input : JobInput) (stamp : Stamp) :
    ((∀ budget host disk, (Solc.toolchain compiler runs).run budget host directory input stamp disk =
        (Solc.errand compiler runs directory input stamp).perform budget host disk) ∧
      (Solc.errand compiler runs directory input stamp).KeptIn directory ∧
      ∃ key, Solc.AgreesOn compiler runs directory input stamp key) ∧
    ((∀ budget host disk, (Cargo.toolchain builder target sdkVersion).run budget host directory input stamp disk =
        (Cargo.errand builder target sdkVersion directory input stamp).perform budget host disk) ∧
      (Cargo.errand builder target sdkVersion directory input stamp).KeptIn directory ∧
      (∃ behind, ∀ other : JobInput, (Cargo.errand builder target sdkVersion directory other stamp).written =
        [(Path.join directory "Cargo.toml",
            ("[package]\n" ++ "name = \"" ++ Cargo.packageName other.contractName ++ "\"\n" ++ behind).toUTF8),
          (Path.join (Path.join directory "src") "lib.rs", other.source.toUTF8)]) ∧
      ∀ character ∈ (Cargo.packageName input.contractName).toList, character ≠ '"' ∧ character ≠ '\\' ∧
        character ≠ '\n' ∧ 0x20 ≤ character.toNat ∧ character.toNat < 0x7F) :=
  ⟨⟨Solc.run_eq_perform compiler runs directory input stamp, Solc.errand_keptIn compiler runs directory input stamp,
      _, Solc.agreesOn_stem compiler runs directory input stamp⟩,
    Cargo.run_eq_perform builder target sdkVersion directory input stamp,
    Cargo.errand_keptIn builder sdkVersion directory ordinary input stamp,
    Cargo.written_errand builder target sdkVersion directory stamp,
    fun _ member => Cargo.unquoted_of_isPlainChar (Cargo.isPlainChar_packageName _ _ member)⟩

/-- The name of this contract leads out of its directory and ends the text that it stands in. -/
def hostileInput : JobInput :=
  { source := "contract Token \x7b\x7d", contractName := "../../srv/\"\n[lib]" }

theorem run_keptIn_hostile : Path.isProper "wasm32-unknown-unknown" = true ∧
    Cargo.packageName hostileInput.contractName = "srv-lib" ∧
      (Cargo.errand "cargo" "wasm32-unknown-unknown" "22.0.0" "work/job" hostileInput ⟨"made", .sample⟩).KeptIn
        "work/job" := by
  have ordinary : Path.isProper "wasm32-unknown-unknown" = true := by decide
  have kept := run_keptIn ordinary "solc" "cargo" "22.0.0" "work/job" 200 hostileInput ⟨"made", .sample⟩
  exact ⟨ordinary, by decide, kept.2.2.1⟩

end ContractWorks
