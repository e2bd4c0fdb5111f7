import ContractWorks.Job.Artifact
import ContractWorks.Proofs.Job.Wire
import ContractWorks.Proofs.Text.Digits

namespace ContractWorks

namespace Json

/-- A record is read again member by member. -/
theorem reread_record (members : List (String × Option Json)) :
    (record members).reread = record (members.map fun member => (member.1, member.2.map reread)) := by
  have same : rereadMembers (members.filterMap fun member => member.2.map fun value => (member.1, value)) =
      (members.map fun member => (member.1, member.2.map reread)).filterMap
        fun member => member.2.map fun value => (member.1, value) := by
    induction members with
    | nil => rfl
    | cons member members inductionHypothesis =>
      obtain ⟨key, content⟩ := member
      cases content with
      | none => exact inductionHypothesis
      | some value =>
        simp only [List.filterMap_cons, Option.map_some, rereadMembers, List.map_cons, inductionHypothesis]
  rw [record, reread, same, record]

/-- A record can be printed when every member that has a value can. -/
theorem printable_record {depth : Nat} {members : List (String × Option Json)} (room : depth < Draft.maxDepth)
    (all : ∀ member ∈ members, ∀ value ∈ member.2, Printable (depth + 1) value) :
    Printable depth (record members) := by
  refine ⟨room, trivial, fitsMembers_iff.mpr fun member present => ?_⟩
  obtain ⟨found, inside, mapped⟩ := List.mem_filterMap.mp present
  obtain ⟨value, some, rfl⟩ := Option.map_eq_some_iff.mp mapped
  exact all found inside value some

end Json

namespace Decode

theorem octets_draft (octets : List UInt8) :
    Decode.octets (Json.text (Text.Hex.encode octets)).draft = .ok octets := by
  rw [Decode.octets, text_draft]
  simp only [bind, Except.bind, Text.Hex.decode_encode]
  rfl

end Decode

namespace Json

/-- This function gives what an optional value is read as; a null that is written is read as nothing. -/
def reread? : Json → Option Json
  | .null => none
  | value => some value.reread

theorem reread_ne_null {value : Json} (there : value ≠ .null) : value.reread ≠ .null := by
  cases value <;> simp_all [reread]

theorem reread?_of_ne {value : Json} (there : value ≠ .null) : value.reread? = some value.reread := by
  cases value <;> simp_all [reread?]

end Json

namespace Artifact

variable {artifact : Artifact}

/-- This function gives what the file of an artifact is read as. -/
def reread (artifact : Artifact) : Artifact :=
  { artifact with abi := artifact.abi.bind Json.reread? }

/-- An artifact is keepable when its interface can be printed and read. -/
def Keepable (artifact : Artifact) : Prop :=
  ∀ abi ∈ artifact.abi, abi.Canonical 1

theorem gives_abi {abi : Option Json} (canonical : ∀ value ∈ abi, value.Canonical 1) :
    (Field.optional "abi" Decode.value).Gives (abi.map Json.reread) (abi.bind Json.reread?) := by
  cases abi with
  | none => exact .absent rfl
  | some value =>
    refine .present ?_
    by_cases null : value = .null
    · subst null
      rfl
    · have found := Json.decode_reread (canonical value rfl)
      have there := Json.draft_ne_null (Json.reread_ne_null null)
      rw [Option.bind_some, Json.reread?_of_ne null]
      exact Decode.nullable_of_ne there found

/-- A keepable artifact can be printed. -/
theorem Keepable.printable (keepable : artifact.Keepable) : artifact.encode.Printable 0 := by
  have exact {value : Json} (readable : value.Readable 1) : value.Printable 1 :=
    readable.mono (fun _ held => Json.Number.inRange_of_exact held) (fun _ _ => trivial) value (Nat.le_refl 1)
  have text (value : String) : (Json.text value).Printable 1 := exact (Json.readable_text 1 value)
  have warnings : (Json.texts artifact.warnings).Printable 1 := exact (Json.readable_texts (by decide) _)
  have abi (value : Json) (present : artifact.abi = some value) : value.Printable 1 :=
    (keepable value present).mono (fun _ held => held) (fun _ _ => trivial) value (Nat.le_refl 1)
  refine Json.printable_record (by decide) ?_
  simp [JobKind.encode, text, warnings]
  exact abi

/-- The members of an artifact are read back as its fields, apart from what an interface loses. -/
theorem decode_reread (keepable : artifact.Keepable) :
    Artifact.decode artifact.encode.reread.draft = .ok artifact.reread := by
  have text (value : String) : (Json.text value).draft ≠ .null := by simp [Json.draft]
  rw [decode, encode, Json.reread_record, Row.decode_record _ (artifact.id, artifact.kind, artifact.contractName,
    artifact.abi.bind Json.reread?, artifact.bytecode, artifact.wasm, artifact.warnings, artifact.contentHash,
    artifact.createdAt, ())]
  · rfl
  · have same (texts : List String) : (Json.texts texts).reread = .texts texts :=
      Json.reread_eq_self _ (Json.readable_texts (by decide) texts : Json.Readable 0 _)
    refine .field (.present (Decode.text_draft artifact.id)) ?_ (by simp)
    refine .field (.present (JobKind.decode_draft artifact.kind)) ?_ (by simp)
    refine .field (.present (Decode.text_draft artifact.contractName)) ?_ (by simp)
    refine .field (gives_abi keepable) ?_ (by simp)
    have bytecode : (Field.optional "bytecode" Decode.text).Gives ((artifact.bytecode.map Json.text).map Json.reread)
        artifact.bytecode := by
      rw [Option.map_map]
      exact Field.gives_optional Decode.text_draft text artifact.bytecode
    have wasm : (Field.optional "wasmBytes" Decode.octets).Gives
        ((artifact.wasm.map fun octets => Json.text (Text.Hex.encode octets)).map Json.reread) artifact.wasm := by
      rw [Option.map_map]
      exact Field.gives_optional Decode.octets_draft (fun _ => text _) artifact.wasm
    refine .field bytecode ?_ (by simp)
    refine .field wasm ?_ (by simp)
    refine .field (.present ?_) ?_ (by simp)
    · rw [same]
      exact Decode.texts_draft artifact.warnings
    refine .field (.present (Decode.text_draft artifact.contentHash)) ?_ (by simp)
    exact .field (.present (Decode.instant_draft artifact.createdAt)) .done (by simp)

/-- A keepable artifact is read back from the text of its file. -/
theorem decode_read_indented (keepable : artifact.Keepable) :
    Artifact.decode (Draft.read artifact.encode.indented) = .ok artifact.reread := by
  have printed : Draft.read artifact.encode.indented = artifact.encode.reread.draft :=
    Draft.read_chars .indented keepable.printable
  rw [printed, decode_reread keepable]

@[simp] theorem verifyHash_reread (artifact : Artifact) : artifact.reread.verifyHash = artifact.verifyHash :=
  rfl

end Artifact

end ContractWorks
