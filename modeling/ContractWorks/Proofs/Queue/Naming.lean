import ContractWorks.Proofs.Source.Placeholder
import Mathlib.Data.List.DropRight

namespace ContractWorks

namespace Text

theorem dropTrailingBlanks_eq (characters : List Char) :
    dropTrailingBlanks characters = characters.rdropWhile isBlank :=
  rfl

/-- What starts with a visible character starts with it still when blanks at its end are dropped. -/
theorem dropBlanks_of_prefix {front characters : List Char} (start : front <+: characters)
    (visible : dropBlanks characters = characters) : dropBlanks front = front := by
  rw [dropBlanks, List.dropWhile_eq_self_iff] at visible ⊢
  obtain ⟨rest, rfl⟩ := start
  cases front with
  | nil => simp
  | cons character front => simpa using visible

/-- A trimmed text has no blanks around it. -/
theorem trim_trim (text : String) : trim (trim text) = trim text := by
  have start : dropBlanks (dropTrailingBlanks (dropBlanks text.toList)) =
      dropTrailingBlanks (dropBlanks text.toList) :=
    dropBlanks_of_prefix (List.rdropWhile_prefix isBlank _) (List.dropWhile_idempotent isBlank _)
  rw [trim.eq_def (trim text), trim, String.toList_ofList, start, dropTrailingBlanks_eq, dropTrailingBlanks_eq,
    List.rdropWhile_idempotent]

end Text

namespace Plan

/-- This function gives the name that a base goes by when it has no other. -/
def spareName : BlockKind → String
  | .nft _ => "MyNFT"
  | _ => "MyToken"

/-- A base goes by the name that it is configured with, as it stands there, else by the name that is shown for it, and
by a spare one when it has neither. -/
inductive GoesBy (block : Block) : String → Prop where
  | configured {name : String} (given : configuredName block.kind = some name) : GoesBy block name
  | shown (silent : configuredName block.kind = none) (there : block.name ≠ "") : GoesBy block block.name
  | spare (silent : configuredName block.kind = none) (missing : block.name = "") : GoesBy block (spareName block.kind)

variable {block : Block} {name symbol : String} {base : Base}

/-- A base goes by one name only. -/
theorem GoesBy.eq {other : String} (first : GoesBy block name) (second : GoesBy block other) : name = other := by
  cases first <;> cases second <;> simp_all

theorem goesBy_chooseName (block : Block) :
    GoesBy block (chooseName (configuredName block.kind) block.name (spareName block.kind)) := by
  cases given : configuredName block.kind with
  | some name => exact .configured given
  | none =>
    rw [chooseName]
    split
    · next missing => exact .spare given missing
    · next there => exact .shown given there

theorem goesBy_of_header (headed : header block = some (name, symbol, base)) : GoesBy block name := by
  have chosen := goesBy_chooseName block
  obtain ⟨id, shown, enabled, kind⟩ := block
  cases kind with
  | erc20 config =>
    obtain ⟨rfl, -, -⟩ : chooseName config.name shown "MyToken" = name ∧ _ := by simpa [header] using headed
    exact chosen
  | nft config =>
    obtain ⟨rfl, -, -⟩ : chooseName config.name shown "MyNFT" = name ∧ _ := by simpa [header] using headed
    exact chosen
  | _ => simp [header] at headed

/-- A contract that is not taken for a placeholder has a name, which its first enabled base goes by. -/
theorem name_of_generate {blocks : List Block} {language : Language}
    (written : (Source.generate blocks language).isPlaceholder = false) :
    (Source.generate blocks language).contractName ≠ "" ∧
      ∃ block, IsFirst selects blocks block ∧ GoesBy block (Source.generate blocks language).contractName := by
  rw [GeneratedSource.isPlaceholder, decide_eq_false_iff_not] at written
  refine ⟨written, ?_⟩
  cases planned : ofBlocks blocks with
  | none => exact absurd (Source.generate_of_none planned language).2 written
  | some plan =>
    obtain ⟨⟨block, first, headed⟩, -⟩ := ofBlocks_eq_some.mp planned
    rw [Source.generate_of_some planned]
    exact ⟨block, first, goesBy_of_header headed⟩

end Plan

namespace Submission

open Plan (GoesBy IsFirst configuredName selects)

variable {submission : Submission} {kind : JobKind} {input : JobInput} {source name : String}

theorem requestedName_eq_none : submission.requestedName = none ↔
    ∀ asked, submission.contractName = some asked → Text.trim asked = "" := by
  rw [requestedName]
  cases submission.contractName with
  | none => simp
  | some asked => simp

/-- A name that was asked for is shown and has no blanks around it. -/
theorem requestedName_eq_some (requested : submission.requestedName = some name) :
    name ≠ "" ∧ Text.trim name = name ∧ ∃ asked, submission.contractName = some asked ∧ name = Text.trim asked := by
  rw [requestedName] at requested
  split at requested
  · simp at requested
  · next asked given =>
    split at requested
    · simp at requested
    · next shown =>
      obtain rfl := Option.some.inj requested
      exact ⟨shown, Text.trim_trim asked, asked, given, rfl⟩

/-- The name of a content is the one that was asked for, or else the one that the first enabled base goes by. -/
theorem name_of_content (made : submission.content = .ok (source, name)) :
    submission.requestedName = some name ∨
      submission.requestedName = none ∧ name ≠ "" ∧ ∃ blocks block,
        submission.blocks = some blocks ∧ IsFirst selects blocks block ∧ GoesBy block name := by
  rw [content.eq_def] at made
  split at made
  · split at made
    · next requested =>
      obtain ⟨-, rfl⟩ := Prod.mk.inj (Except.ok.inj made)
      exact .inl requested
    · simp at made
  · next blocks alone given =>
    split at made
    · simp at made
    · dsimp only at made
      split at made
      · simp at made
      · next written =>
        obtain ⟨-, rfl⟩ := Prod.mk.inj (Except.ok.inj made)
        cases requested : submission.requestedName with
        | some name => exact .inl rfl
        | none =>
          obtain ⟨there, block, first, named⟩ := Plan.name_of_generate (Bool.eq_false_iff.mpr written)
          exact .inr ⟨rfl, there, blocks, block, given, first, named⟩
  · simp at made

theorem content_of_resolve (resolved : submission.resolve = .ok (kind, input)) :
    submission.content = .ok (input.source, input.contractName) := by
  rw [resolve_eq] at resolved
  split at resolved
  · simp at resolved
  · next source name made =>
    split at resolved
    · simp at resolved
    · obtain ⟨-, rfl⟩ := Prod.mk.inj (Except.ok.inj resolved)
      exact made

/-- A block list that is accepted and has a plan with a name makes a job, under this name unless another was asked
for. -/
theorem resolve_of_planned {blocks : List Block} {plan : Plan} (alone : submission.source = none)
    (given : submission.blocks = some blocks) (plain : submission.optimizerRuns = none)
    (checked : checkBlocks blocks = .ok ()) (planned : Plan.ofBlocks blocks = some plan)
    (named : plan.contractName ≠ "") :
    ∃ input, submission.resolve = .ok (submission.kind, input) ∧
      input.contractName = submission.requestedName.getD plan.contractName := by
  have shown : (⟨submission.kind.language, Source.emit submission.kind.language plan, plan.contractName⟩ :
      GeneratedSource).isPlaceholder = false := decide_eq_false named
  have made : submission.content = .ok (Source.emit submission.kind.language plan,
      submission.requestedName.getD plan.contractName) := by
    simp only [content.eq_def, alone, given, checked, Source.generate_of_some planned, shown, Bool.false_eq_true,
      if_false]
  refine ⟨⟨Source.emit submission.kind.language plan, submission.requestedName.getD plan.contractName,
    submission.network, submission.optimizerRuns⟩, ?_, rfl⟩
  rw [resolve_eq, made]
  exact if_neg (by simp [plain])

/-- A job that is made has a name. It is the one that was asked for without the blanks around it, or, where none was or
only blanks were, the one that the first enabled base goes by. The latter is taken as it stands: so a name has blanks
around it, or is nothing else, exactly when no other was asked for and the base goes by such a name. -/
theorem resolved_name (resolved : submission.resolve = .ok (kind, input)) :
    input.contractName ≠ "" ∧
    ((∃ asked, submission.contractName = some asked ∧ Text.trim asked ≠ "" ∧ input.contractName = Text.trim asked) ∨
      ((∀ asked, submission.contractName = some asked → Text.trim asked = "") ∧ ∃ blocks block,
        submission.blocks = some blocks ∧ IsFirst selects blocks block ∧ GoesBy block input.contractName)) ∧
    (Text.trim input.contractName ≠ input.contractName ↔
      (∀ asked, submission.contractName = some asked → Text.trim asked = "") ∧ ∃ blocks block name,
        submission.blocks = some blocks ∧ IsFirst selects blocks block ∧ GoesBy block name ∧
          Text.trim name ≠ name) := by
  rcases name_of_content (content_of_resolve resolved) with
    requested | ⟨requested, there, blocks, block, given, first, named⟩
  · obtain ⟨there, bare, asked, given, same⟩ := requestedName_eq_some requested
    refine ⟨there, .inl ⟨asked, given, same ▸ there, same⟩, iff_of_false (not_not.mpr bare) ?_⟩
    rintro ⟨silent, -⟩
    exact there (same.trans (silent asked given))
  · have silent := requestedName_eq_none.mp requested
    refine ⟨there, .inr ⟨silent, blocks, block, given, first, named⟩, ?_, ?_⟩
    · exact fun untrimmed => ⟨silent, blocks, block, _, given, first, named, untrimmed⟩
    · rintro ⟨-, others, other, name, otherGiven, otherFirst, otherNamed, untrimmed⟩
      obtain rfl := Option.some.inj (given.symm.trans otherGiven)
      rw [Plan.isFirst_iff_find?] at first otherFirst
      obtain rfl := Option.some.inj (first.symm.trans otherFirst)
      rwa [named.eq otherNamed]

theorem trim_blanks : Text.trim " " = "" ∧ Text.trim "  " = "" := by
  have one : " ".toList = _ := String.toList_ofList
  have two : "  ".toList = _ := String.toList_ofList
  rw [Text.trim, Text.trim, one, two]
  exact ⟨rfl, rfl⟩

/-- The base of this list has no name at all. -/
def nameless : List Block :=
  [⟨"mint", "", true, .mint⟩, ⟨"base", "", true, .nft {}⟩]

/-- A submission that asks for a blank as its name makes a job under the name that its base goes by. -/
theorem resolved_name_nameless :
    ∃ input, ({ ofBlocks .stellar nameless with contractName := some " " } : Submission).resolve =
        .ok (.stellar, input) ∧ input.contractName = "MyNFT" ∧ input.contractName ≠ "" ∧
      Text.trim input.contractName = input.contractName := by
  have planned : Plan.ofBlocks nameless = some ⟨"MyNFT", "NFT", .nft "", [.mint]⟩ := rfl
  have first : IsFirst selects nameless ⟨"base", "", true, .nft {}⟩ := ⟨nameless.take 1, [], rfl, rfl, by decide⟩
  obtain ⟨input, resolved, -⟩ : ∃ input,
      ({ ofBlocks .stellar nameless with contractName := some " " } : Submission).resolve = .ok (.stellar, input) ∧ _ :=
    resolve_of_planned rfl rfl rfl (by decide) planned (by decide)
  obtain ⟨there, told, untrimmed⟩ := resolved_name resolved
  have goes {blocks : List Block} {block : Block} {name : String} (given : some nameless = some blocks)
      (found : IsFirst selects blocks block) (named : GoesBy block name) : name = "MyNFT" := by
    obtain rfl := Option.some.inj given
    have same := (Plan.isFirst_iff_find?.mp found).symm.trans (Plan.isFirst_iff_find?.mp first)
    obtain rfl := Option.some.inj same
    exact named.eq (.spare rfl rfl)
  refine ⟨input, resolved, ?_, there, not_not.mp fun differs => ?_⟩
  · rcases told with ⟨asked, given, shown, -⟩ | ⟨-, blocks, block, given, found, named⟩
    · exact absurd (Option.some.inj given ▸ trim_blanks.1) shown
    · exact goes given found named
  · obtain ⟨-, blocks, block, name, given, found, named, other⟩ := untrimmed.mp differs
    have chars : "MyNFT".toList = _ := String.toList_ofList
    rw [goes given found named, Text.trim, chars] at other
    exact other rfl

/-- The base of this list is configured with a name of blanks. -/
def blankNamed : List Block :=
  [⟨"base", "Coin", true, .erc20 { name := some "  " }⟩]

/-- The name of a base can be nothing but blanks, and a job is made under it; the same name is refused when it is asked
for with a source. -/
theorem blank_name_resolved :
    (∃ input, (ofBlocks .evm blankNamed).resolve = .ok (.evm, input) ∧ input.contractName = "  " ∧
      Text.trim input.contractName = "" ∧ Text.trim input.contractName ≠ input.contractName) ∧
    (ofSource .evm "  " "contract Coin \x7b\x7d").resolve = .error (.invalidInput "contractName is required") := by
  have planned : Plan.ofBlocks blankNamed = some ⟨"  ", "TKN", .token 18 0, []⟩ := rfl
  obtain ⟨input, resolved, blank⟩ : ∃ input, (ofBlocks .evm blankNamed).resolve = .ok (.evm, input) ∧
      input.contractName = "  " :=
    resolve_of_planned rfl rfl rfl (by decide) planned (by decide)
  have unasked : (ofSource .evm "  " "contract Coin \x7b\x7d").requestedName = none :=
    requestedName_eq_none.mpr fun asked given => Option.some.inj given ▸ trim_blanks.2
  refine ⟨⟨input, resolved, blank, blank ▸ trim_blanks.2, ?_⟩, ?_⟩
  · rw [blank, trim_blanks.2]
    decide
  · rw [resolve_eq, content.eq_def, unasked]
    rfl

end Submission

end ContractWorks
