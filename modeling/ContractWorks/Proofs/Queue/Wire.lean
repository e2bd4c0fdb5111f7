import ContractWorks.Contract.Block.Wire
import ContractWorks.Contract.Target
import ContractWorks.Proofs.Job.Wire
import ContractWorks.Queue.Status
import ContractWorks.Queue.Submission

namespace ContractWorks

section Arranged

variable {form : Json → Json} (arranged : Json.Arrangement form)
include arranged

theorem Language.decode_arranged (language : Language) :
    Language.decode (form language.encode).draft = .ok language := by
  rw [encode, arranged.text]
  cases language <;> rfl

theorem BlockType.decode_arranged (blockType : BlockType) :
    BlockType.decode (form blockType.encode).draft = .ok blockType := by
  rw [encode, arranged.text]
  cases blockType <;> rfl

theorem TokenConfig.decode_arranged (config : TokenConfig) :
    TokenConfig.decode (form config.encode).draft = .ok config := by
  rw [decode, encode,
    Row.decode_arranged arranged _ (config.name, config.symbol, config.decimals, config.initialSupply, ())]
  · rfl
  · have text := Decode.text_arranged arranged
    have decimals := Decode.uint8_arranged arranged
    have supply := Decode.uint64_arranged arranged
    refine .field (Field.gives_arranged arranged _ text (by simp) config.name) ?_ (by simp)
    refine .field (Field.gives_arranged arranged _ text (by simp) config.symbol) ?_ (by simp)
    refine .field (Field.gives_arranged arranged _ decimals (by simp [Json.count]) config.decimals) ?_ (by simp)
    exact .field (Field.gives_arranged arranged _ supply (by simp [Json.count]) config.initialSupply) .done (by simp)

theorem NftConfig.decode_arranged (config : NftConfig) :
    NftConfig.decode (form config.encode).draft = .ok config := by
  rw [decode, encode, Row.decode_arranged arranged _ (config.name, config.symbol, config.baseUri, ())]
  · rfl
  · have text := Decode.text_arranged arranged
    refine .field (Field.gives_arranged arranged _ text (by simp) config.name) ?_ (by simp)
    refine .field (Field.gives_arranged arranged _ text (by simp) config.symbol) ?_ (by simp)
    exact .field (Field.gives_arranged arranged _ text (by simp) config.baseUri) .done (by simp)

theorem CapConfig.decode_arranged (config : CapConfig) :
    CapConfig.decode (form config.encode).draft = .ok config := by
  rw [decode, encode, Row.decode_arranged arranged _ (config.maxSupply, ())]
  · rfl
  · have supply := Decode.uint64_arranged arranged
    exact .field (Field.gives_arranged arranged _ supply (by simp [Json.count]) config.maxSupply) .done (by simp)

theorem RoyaltyConfig.decode_arranged (config : RoyaltyConfig) :
    RoyaltyConfig.decode (form config.encode).draft = .ok config := by
  rw [decode, encode, Row.decode_arranged arranged _ (config.receiver, config.basisPoints, ())]
  · rfl
  · have text := Decode.text_arranged arranged
    have points := Decode.uint16_arranged arranged
    refine .field (Field.gives_arranged arranged _ text (by simp) config.receiver) ?_ (by simp)
    exact .field (Field.gives_arranged arranged _ points (by simp [Json.count]) config.basisPoints) .done (by simp)

end Arranged

namespace BlockKind

/-- The settings of a kind are an object that is kept sorted. -/
theorem exists_of_config {kind : BlockKind} {config : Json} (there : kind.config = some config) :
    ∃ settings : Json, config = settings.sorted ∧ settings ≠ .null ∧
      ∀ depth < Draft.maxDepth, settings.Readable depth := by
  cases kind with
  | erc20 config =>
    refine ⟨config.encode, (Option.some.inj there).symm, by simp [TokenConfig.encode, Json.record], ?_⟩
    exact fun depth room => Json.readable_record room (by simp)
  | nft config =>
    refine ⟨config.encode, (Option.some.inj there).symm, by simp [NftConfig.encode, Json.record], ?_⟩
    exact fun depth room => Json.readable_record room (by simp)
  | capped config =>
    refine ⟨config.encode, (Option.some.inj there).symm, by simp [CapConfig.encode, Json.record], ?_⟩
    exact fun depth room => Json.readable_record room (by simp)
  | royalty config =>
    refine ⟨config.encode, (Option.some.inj there).symm, by simp [RoyaltyConfig.encode, Json.record], ?_⟩
    exact fun depth room => Json.readable_record room (by simp)
  | _ => simp [BlockKind.config] at there

/-- A kind is joined again from its type and its settings as they are kept. -/
theorem ofParts_config (kind : BlockKind) : ofParts kind.blockType kind.config = .ok kind := by
  cases kind with
  | erc20 config =>
    rw [ofParts.eq_def]
    simp only [blockType, BlockKind.config, settings, TokenConfig.decode_arranged .ofSorted]
    rfl
  | nft config =>
    rw [ofParts.eq_def]
    simp only [blockType, BlockKind.config, settings, NftConfig.decode_arranged .ofSorted]
    rfl
  | capped config =>
    rw [ofParts.eq_def]
    simp only [blockType, BlockKind.config, settings, CapConfig.decode_arranged .ofSorted]
    rfl
  | royalty config =>
    rw [ofParts.eq_def]
    simp only [blockType, BlockKind.config, settings, RoyaltyConfig.decode_arranged .ofSorted]
    rfl
  | _ => rfl

end BlockKind

namespace Block

/-- Every block is decoded from what it is encoded as, in any arrangement. -/
theorem decode_arranged {form : Json → Json} (arranged : Json.Arrangement form) (block : Block) :
    Block.decode (form block.encode).draft = .ok block := by
  have config : (Field.optional "config" Decode.value).Gives (block.kind.config.map form) block.kind.config := by
    cases there : block.kind.config with
    | none => exact .absent rfl
    | some config =>
      obtain ⟨settings, rfl, shown, -⟩ := BlockKind.exists_of_config there
      refine .present (Decode.nullable_of_ne (arranged.draft_ne_null ?_) ?_)
      · exact fun none => shown (Json.eq_null_of_sorted none)
      · rw [arranged.value, Json.sorted_sorted]
  have text := Decode.text_arranged arranged
  rw [decode, encode,
    Row.decode_arranged arranged _
      (block.id, block.blockType, block.name, block.enabled, block.kind.config, ())]
  · simp only [bind, Except.bind, Block.blockType, BlockKind.ofParts_config]
    rfl
  · refine .field (.present (text block.id)) ?_ (by simp)
    refine .field (.present (BlockType.decode_arranged arranged block.blockType)) ?_ (by simp)
    refine .field (.present (text block.name)) ?_ (by simp)
    refine .field (.present (Decode.bool_arranged arranged block.enabled)) ?_ (by simp)
    exact .field config .done (by simp)

theorem readable_encode {depth : Nat} (room : depth + 1 < Draft.maxDepth) (block : Block) :
    block.encode.Readable depth := by
  have config (config : Json) (there : block.kind.config = some config) : config.Readable (depth + 1) := by
    obtain ⟨settings, rfl, -, readable⟩ := BlockKind.exists_of_config there
    exact Json.readable_sorted _ (readable _ room)
  refine Json.readable_record (Nat.lt_of_succ_lt room) ?_
  simpa [BlockType.encode, Json.Fits] using config

end Block

section Arranged

variable {form : Json → Json} (arranged : Json.Arrangement form)
include arranged

theorem ExternalState.decode_arranged (state : ExternalState) :
    ExternalState.decode (form state.encode).draft = .ok state := by
  rw [encode, arranged.text]
  cases state <;> rfl

theorem GeneratedSource.decode_arranged (source : GeneratedSource) :
    GeneratedSource.decode (form source.encode).draft = .ok source := by
  rw [decode, encode, Row.decode_arranged arranged _ (source.language, source.text, source.contractName, ())]
  · rfl
  · have text := Decode.text_arranged arranged
    refine .field (.present (Language.decode_arranged arranged source.language)) ?_ (by simp)
    refine .field (.present (text source.text)) ?_ (by simp)
    exact .field (.present (text source.contractName)) .done (by simp)

theorem ValidationOutcome.decode_arranged (outcome : ValidationOutcome) :
    ValidationOutcome.decode (form outcome.encode).draft = .ok outcome := by
  rw [decode, encode, Row.decode_arranged arranged _ (outcome.valid, outcome.error, outcome.code, ())]
  · rfl
  · have text := Decode.text_arranged arranged
    have code := ErrorCode.decode_arranged arranged
    refine .field (.present (Decode.bool_arranged arranged outcome.valid)) ?_ (by simp)
    refine .field (Field.gives_arranged arranged _ text (by simp) outcome.error) ?_ (by simp)
    exact .field (Field.gives_arranged arranged _ code (by simp [ErrorCode.encode]) outcome.code) .done (by simp)

theorem JobResult.decode_arranged (result : JobResult) : JobResult.decode (form result.encode).draft = .ok result := by
  have record : result.encode = .record [("artifactId", some (.text result.artifactId)),
      ("contractName", some (.text result.contractName)), ("warnings", some (.texts result.warnings))] := rfl
  rw [decode, record, Row.decode_arranged arranged _ (result.artifactId, result.contractName, result.warnings, ())]
  · rfl
  · have text := Decode.text_arranged arranged
    refine .field (.present (text result.artifactId)) ?_ (by simp)
    refine .field (.present (text result.contractName)) ?_ (by simp)
    exact .field (.present (Decode.list_arranged arranged text result.warnings)) .done (by simp)

theorem JobStatus.decode_arranged (status : JobStatus) : JobStatus.decode (form status.encode).draft = .ok status := by
  rw [decode, encode,
    Row.decode_arranged arranged _ (status.id, status.state, status.progress, status.result, status.error, ())]
  · rfl
  · have result := JobResult.decode_arranged arranged
    have error := ErrorRecord.decode_arranged arranged
    refine .field (.present (Decode.text_arranged arranged status.id)) ?_ (by simp)
    refine .field (.present (ExternalState.decode_arranged arranged status.state)) ?_ (by simp)
    refine .field (.present (Decode.uint8_arranged arranged status.progress)) ?_ (by simp)
    refine .field (Field.gives_arranged arranged _ result (by simp [JobResult.encode]) status.result) ?_ (by simp)
    exact .field
      (Field.gives_arranged arranged _ error (by simp [ErrorRecord.encode, Json.record]) status.error) .done (by simp)

/-- Every submission is decoded from what it is encoded as, in any arrangement. -/
theorem Submission.decode_arranged (submission : Submission) :
    Submission.decode (form submission.encode).draft = .ok submission := by
  have record : submission.encode = .record
      [("contractName", some ((submission.contractName.map .text).getD .null)),
        ("kind", some submission.kind.encode),
        ("source", some ((submission.source.map .text).getD .null)),
        ("blocks", some ((submission.blocks.map fun blocks => .array (blocks.map Block.encode)).getD .null)),
        ("network", some ((submission.network.map .text).getD .null)),
        ("optimizerRuns", some ((submission.optimizerRuns.map fun runs => .count runs.toNat).getD .null))] := rfl
  rw [decode, record,
    Row.decode_arranged arranged _ (submission.contractName, submission.kind, submission.source, submission.blocks,
      submission.network, submission.optimizerRuns, ())]
  · rfl
  · have text := Decode.text_arranged arranged
    have blocks := Decode.list_arranged arranged (Block.decode_arranged arranged)
    have runs := Decode.uint32_arranged arranged
    refine .field (Field.gives_orNull arranged _ text (by simp) submission.contractName) ?_ (by simp)
    refine .field (.present (JobKind.decode_arranged arranged submission.kind)) ?_ (by simp)
    refine .field (Field.gives_orNull arranged _ text (by simp) submission.source) ?_ (by simp)
    refine .field (Field.gives_orNull arranged _ blocks (by simp) submission.blocks) ?_ (by simp)
    refine .field (Field.gives_orNull arranged _ text (by simp) submission.network) ?_ (by simp)
    exact .field (Field.gives_orNull arranged _ runs (by simp [Json.count]) submission.optimizerRuns) .done (by simp)

end Arranged

theorem GeneratedSource.readable_encode (source : GeneratedSource) : source.encode.Readable 0 := by
  refine Json.readable_record (by decide) ?_
  simp [Language.encode]

theorem ValidationOutcome.readable_encode (outcome : ValidationOutcome) : outcome.encode.Readable 0 := by
  refine Json.readable_record (by decide) ?_
  simp [ErrorCode.encode, Json.Fits]

theorem JobResult.readable_encode {depth : Nat} (room : depth + 1 < Draft.maxDepth) (result : JobResult) :
    result.encode.Readable depth := by
  have warnings := Json.readable_texts room result.warnings
  have outer := Nat.lt_of_succ_lt room
  simpa [JobResult.encode, Json.Fits, Json.FitsMembers, outer] using warnings

theorem JobStatus.readable_encode (status : JobStatus) : status.encode.Readable 0 := by
  have result (result : JobResult) : result.encode.Readable 1 := result.readable_encode (by decide)
  have error (error : ErrorRecord) : error.encode.Readable 1 := error.readable_encode (by decide)
  refine Json.readable_record (by decide) ?_
  simp [ExternalState.encode, result, error]

theorem Submission.readable_encode (submission : Submission) : submission.encode.Readable 0 := by
  have orNull {α : Type} {encode : α → Json} (readable : ∀ value, (encode value).Readable 1) (value : Option α) :
      ((value.map encode).getD .null).Readable 1 := by
    cases value with
    | none => trivial
    | some value => exact readable value
  have text (value : String) : Json.Readable 1 (.text value) := Json.readable_text 1 value
  have runs (value : UInt32) : Json.Readable 1 (.count value.toNat) := Json.readable_uint32 1 value
  have blocks (blocks : List Block) : Json.Readable 1 (.array (blocks.map Block.encode)) := by
    refine ⟨by decide, Json.fitsItems_iff.mpr fun item present => ?_⟩
    obtain ⟨block, _, rfl⟩ := List.mem_map.mp present
    exact block.readable_encode (by decide)
  exact ⟨by decide, trivial, orNull text _, trivial, orNull text _, orNull blocks _, orNull text _, orNull runs _,
    trivial⟩

/-- Every wire form is faithful. -/
theorem wire_faithful :
    Json.Faithful Block.encode Block.decode ∧
      Json.Faithful Submission.encode Submission.decode ∧
      Json.Faithful JobInput.encode JobInput.decode ∧
      Json.Faithful ErrorRecord.encode ErrorRecord.decode ∧
      Json.Faithful JobRecord.encode JobRecord.decode ∧
      Json.Faithful GeneratedSource.encode GeneratedSource.decode ∧
      Json.Faithful ValidationOutcome.encode ValidationOutcome.decode ∧
      Json.Faithful JobStatus.encode JobStatus.decode :=
  ⟨.of (Block.readable_encode (by decide)) Block.decode_arranged,
    .of Submission.readable_encode Submission.decode_arranged,
    .of (JobInput.readable_encode (by decide)) JobInput.decode_arranged,
    .of (ErrorRecord.readable_encode (by decide)) ErrorRecord.decode_arranged,
    .of JobRecord.readable_encode JobRecord.decode_arranged,
    .of GeneratedSource.readable_encode GeneratedSource.decode_arranged,
    .of ValidationOutcome.readable_encode ValidationOutcome.decode_arranged,
    .of JobStatus.readable_encode JobStatus.decode_arranged⟩

/-- A block that is given as a list, under another name of its type and without settings, is encoded in the usual
form, and read back from it. -/
theorem wire_faithful_listedBlock :
    Block.decode (.array [.text "1", .text "token", .text "", .bool true, .null]) =
        .ok ⟨"1", "", true, .erc20 {}⟩ ∧
      Block.encode ⟨"1", "", true, .erc20 {}⟩ =
        .object [("id", "1"), ("type", "erc20"), ("name", ""), ("enabled", .bool true), ("config", .object [])] ∧
      ∃ again, Block.decode (Block.encode ⟨"1", "", true, .erc20 {}⟩).draft = .ok again ∧
        again = ⟨"1", "", true, .erc20 {}⟩ ∧ again.encode = Block.encode ⟨"1", "", true, .erc20 {}⟩ := by
  have read : Block.decode (.array [.text "1", .text "token", .text "", .bool true, .null]) =
      .ok ⟨"1", "", true, .erc20 {}⟩ := rfl
  exact ⟨read, rfl, wire_faithful.1.canonical _ _ read⟩

end ContractWorks
