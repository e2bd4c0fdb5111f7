import ContractWorks.Job.Record
import ContractWorks.Proofs.Json.Arrangement
import ContractWorks.Proofs.Time.Reading

namespace ContractWorks

namespace Json

/-- A record can be read back when every member that has a value can. -/
theorem readable_record {depth : Nat} {members : List (String × Option Json)}
    (room : depth < Draft.maxDepth)
    (all : ∀ member ∈ members, ∀ value ∈ member.2, Readable (depth + 1) value) :
    Readable depth (record members) := by
  refine ⟨room, trivial, fitsMembers_iff.mpr fun member present => ?_⟩
  obtain ⟨found, inside, mapped⟩ := List.mem_filterMap.mp present
  obtain ⟨value, some, rfl⟩ := Option.map_eq_some_iff.mp mapped
  exact all found inside value some

@[simp] theorem readable_text (depth : Nat) (value : String) : Readable depth (.text value) := by
  simp [Fits]

theorem readable_count {depth value : Nat} (small : value ≤ Draft.maxWord) :
    Readable depth (count value) :=
  ⟨by omega, by omega⟩

@[simp] theorem readable_uint8 (depth : Nat) (value : UInt8) : Readable depth (count value.toNat) :=
  readable_count (Nat.le_trans (Nat.le_of_lt value.toNat_lt) (by decide))

@[simp] theorem readable_uint16 (depth : Nat) (value : UInt16) : Readable depth (count value.toNat) :=
  readable_count (Nat.le_trans (Nat.le_of_lt value.toNat_lt) (by decide))

@[simp] theorem readable_uint32 (depth : Nat) (value : UInt32) : Readable depth (count value.toNat) :=
  readable_count (Nat.le_trans (Nat.le_of_lt value.toNat_lt) (by decide))

@[simp] theorem readable_uint64 (depth : Nat) (value : UInt64) : Readable depth (count value.toNat) :=
  readable_count (Nat.le_of_lt_succ value.toNat_lt)

theorem readable_texts {depth : Nat} (room : depth < Draft.maxDepth) (values : List String) :
    Readable depth (texts values) := by
  refine ⟨room, fitsItems_iff.mpr fun item present => ?_⟩
  obtain ⟨value, _, rfl⟩ := List.mem_map.mp present
  exact readable_text _ value

end Json

namespace Decode

theorem text_draft (value : String) : text (Json.text value).draft = .ok value :=
  rfl

theorem instant_draft (instant : Time.Instant) :
    Decode.instant (Json.text instant.text).draft = .ok instant := by
  simp only [Decode.instant, Json.draft, textAs, bind, Except.bind, Time.Instant.read_text]
  rfl

/-- A number up to a bound is read back. -/
theorem natural_draft {bound number : Nat} (small : number ≤ bound) (expected : String) :
    natural bound expected (Json.count number).draft = .ok number := by
  simp only [natural, Json.count, Json.draft]
  rw [if_pos (by omega), Int.toNat_natCast]

section Arranged

variable {form : Json → Json} (arranged : Json.Arrangement form)
include arranged

theorem text_arranged (value : String) : text (form (.text value)).draft = .ok value := by
  rw [arranged.text, text_draft]

theorem bool_arranged (value : Bool) : bool (form (.bool value)).draft = .ok value := by
  rw [arranged.bool]
  rfl

theorem instant_arranged (instant : Time.Instant) :
    Decode.instant (form (.text instant.text)).draft = .ok instant := by
  rw [arranged.text, instant_draft]

theorem count_arranged (number : Nat) : form (.count number) = .count number :=
  arranged.number _

theorem uint8_arranged (value : UInt8) : uint8 (form (.count value.toNat)).draft = .ok value := by
  rw [count_arranged arranged, uint8, natural_draft (Nat.le_of_lt_succ value.toNat_lt)]
  simp [Except.map]

theorem uint16_arranged (value : UInt16) : uint16 (form (.count value.toNat)).draft = .ok value := by
  rw [count_arranged arranged, uint16, natural_draft (Nat.le_of_lt_succ value.toNat_lt)]
  simp [Except.map]

theorem uint32_arranged (value : UInt32) : uint32 (form (.count value.toNat)).draft = .ok value := by
  rw [count_arranged arranged, uint32, natural_draft (Nat.le_of_lt_succ value.toNat_lt)]
  simp [Except.map]

theorem uint64_arranged (value : UInt64) : uint64 (form (.count value.toNat)).draft = .ok value := by
  rw [count_arranged arranged, uint64, natural_draft (Nat.le_of_lt_succ value.toNat_lt)]
  simp [Except.map]

/-- A list is read back when its items are. -/
theorem list_arranged {α : Type} {decode : Decoder α} {encode : α → Json}
    (read : ∀ value, decode (form (encode value)).draft = .ok value) (values : List α) :
    list decode (form (.array (values.map encode))).draft = .ok values := by
  rw [arranged.array, Json.draft, list]
  induction values with
  | nil => rfl
  | cons value values inductionHypothesis =>
    rw [List.map_cons, List.map_cons, Json.draftItems, List.mapM_cons, read, inductionHypothesis]
    rfl

end Arranged

theorem texts_draft (values : List String) : list text (Json.texts values).draft = .ok values :=
  list_arranged .identity text_draft values

end Decode

section Arranged

variable {form : Json → Json} (arranged : Json.Arrangement form)
include arranged

theorem JobKind.decode_arranged (kind : JobKind) : JobKind.decode (form kind.encode).draft = .ok kind := by
  rw [encode, arranged.text]
  cases kind <;> rfl

theorem JobState.decode_arranged (state : JobState) : JobState.decode (form state.encode).draft = .ok state := by
  rw [encode, arranged.text]
  cases state <;> rfl

theorem ErrorCode.decode_arranged (code : ErrorCode) : ErrorCode.decode (form code.encode).draft = .ok code := by
  rw [encode, arranged.text]
  cases code <;> rfl

theorem ErrorRecord.decode_arranged (error : ErrorRecord) :
    ErrorRecord.decode (form error.encode).draft = .ok error := by
  rw [decode, encode, Row.decode_arranged arranged _ (error.code, error.message, error.diagnostics, ())]
  · rfl
  · have text := Decode.text_arranged arranged
    refine .field (.present (ErrorCode.decode_arranged arranged error.code)) ?_ (by simp)
    refine .field (.present (text error.message)) ?_ (by simp)
    exact .field (Field.gives_arranged arranged _ text (by simp) error.diagnostics) .done (by simp)

theorem JobInput.decode_arranged (input : JobInput) : JobInput.decode (form input.encode).draft = .ok input := by
  rw [decode, encode,
    Row.decode_arranged arranged _ (input.source, input.contractName, input.network, input.optimizerRuns, ())]
  · rfl
  · have text := Decode.text_arranged arranged
    refine .field (.present (text input.source)) ?_ (by simp)
    refine .field (.present (text input.contractName)) ?_ (by simp)
    refine .field (Field.gives_arranged arranged _ text (by simp) input.network) ?_ (by simp)
    exact .field
      (Field.gives_arranged arranged _ (Decode.uint32_arranged arranged) (by simp [Json.count]) input.optimizerRuns)
      .done (by simp)

/-- Every job record is decoded from what it is encoded as, in any arrangement. -/
theorem JobRecord.decode_arranged (record : JobRecord) :
    JobRecord.decode (form record.encode).draft = .ok record := by
  rw [decode, encode,
    Row.decode_arranged arranged _ (record.id, record.kind, record.status, record.sourceHash,
      record.createdAt, record.startedAt, record.completedAt, record.artifactId, record.error,
      record.input, ())]
  · rfl
  · have text := Decode.text_arranged arranged
    have instant := Decode.instant_arranged arranged
    have error := ErrorRecord.decode_arranged arranged
    refine .field (.present (text record.id)) ?_ (by simp)
    refine .field (.present (JobKind.decode_arranged arranged record.kind)) ?_ (by simp)
    refine .field (.present (JobState.decode_arranged arranged record.status)) ?_ (by simp)
    refine .field (.present (text record.sourceHash)) ?_ (by simp)
    refine .field (.present (instant record.createdAt)) ?_ (by simp)
    refine .field (Field.gives_arranged arranged _ instant (by simp) record.startedAt) ?_ (by simp)
    refine .field (Field.gives_arranged arranged _ instant (by simp) record.completedAt) ?_ (by simp)
    refine .field (Field.gives_arranged arranged _ text (by simp) record.artifactId) ?_ (by simp)
    refine .field (Field.gives_arranged arranged _ error (by simp [ErrorRecord.encode, Json.record]) record.error) ?_
      (by simp)
    exact .field (.present (JobInput.decode_arranged arranged record.input)) .done (by simp)

end Arranged

theorem JobKind.decode_draft (kind : JobKind) : JobKind.decode kind.encode.draft = .ok kind :=
  JobKind.decode_arranged .identity kind

theorem ErrorRecord.readable_encode {depth : Nat} (room : depth < Draft.maxDepth) (error : ErrorRecord) :
    error.encode.Readable depth := by
  refine Json.readable_record room ?_
  simp [ErrorCode.encode]

theorem JobInput.readable_encode {depth : Nat} (room : depth < Draft.maxDepth) (input : JobInput) :
    input.encode.Readable depth := by
  refine Json.readable_record room ?_
  simp

namespace JobRecord

theorem readable_encode (record : JobRecord) : record.encode.Readable 0 := by
  have error : ∀ error : ErrorRecord, error.encode.Readable 1 := ErrorRecord.readable_encode (by decide)
  have input : record.input.encode.Readable 1 := JobInput.readable_encode (by decide) record.input
  refine Json.readable_record (by decide) ?_
  simp [JobKind.encode, JobState.encode, error, input]

/-- Every job record is read back from the text of its file. -/
theorem decode_read_indented (record : JobRecord) :
    JobRecord.decode (Draft.read record.encode.indented) = .ok record := by
  rw [Draft.read_indented record.readable_encode]
  exact decode_arranged .identity record

end JobRecord

end ContractWorks
