import ContractWorks.Proofs.Source.Count

namespace ContractWorks.Source

open Text

/-- Every line stands in the text that is printed. -/
theorem infix_printFrom {lines : List Line} {line : Line} (mem : line ∈ lines) :
    ∀ depth, line.chars <:+: printFrom depth lines := by
  induction lines with
  | nil => simp at mem
  | cons first lines inductionHypothesis =>
    intro depth
    rw [printFrom]
    rcases List.mem_cons.mp mem with rfl | later
    · obtain ⟨spaces, printed⟩ := line.print_eq depth
      rw [printed]
      exact List.infix_append ..
    · exact (inductionHypothesis later _).trans (List.suffix_append ..).isInfix

/-- A text in a line of a contract stands in the contract. -/
theorem contains_emit_of_mem {language : Language} {plan : Plan} {line : Line} {needle : String}
    (mem : line ∈ lines language plan) (inside : occursIn needle.toList line.chars = true) :
    contains (emit language plan) needle = true := by
  rw [contains, occursIn_iff, emit, print, String.toList_ofList]
  exact (occursIn_iff.mp inside).trans (infix_printFrom mem 0)

theorem mem_joined {parts : List (List Line)} {part : List Line} {line : Line} (isPart : part ∈ parts)
    (mem : line ∈ part) : line ∈ joined parts := by
  induction parts using joined.induct with
  | case1 => simp at isPart
  | case2 only => rwa [joined, ← List.mem_singleton.mp isPart]
  | case3 first parts more inductionHypothesis =>
    rw [joined, List.mem_append, List.mem_cons]
    · rcases List.mem_cons.mp isPart with rfl | later
      · exact .inl mem
      · exact .inr (.inr (inductionHypothesis later))
    · exact more

/-- This text marks a contract of each language. -/
def ownMark : Language → String
  | .solidity => "pragma solidity"
  | .soroban => sdkImport

theorem ownMark_mem {language other : Language} (differ : other ≠ language) :
    ownMark language ∈ foreignMarkers other := by
  cases language <;> cases other <;> simp_all [ownMark, foreignMarkers]

/-- Every contract has the mark of its own language. -/
theorem contains_ownMark (language : Language) (plan : Plan) :
    contains (emit language plan) (ownMark language) = true := by
  cases language with
  | solidity =>
    have mem : ("pragma solidity ^0.8.20;" : Line) ∈ lines .solidity plan := by
      simp [lines, Solidity.lines, Solidity.preamble]
    refine contains_emit_of_mem mem ?_
    simp only [ownMark, Line.chars, Line.pieces, List.cons_append, List.nil_append, List.flatMap_cons,
      List.flatMap_nil, Piece.chars]
    repeat rw [String.toList_ofList]
    decide
  | soroban =>
    have mem : ("use soroban_sdk::\x7bcontract, contractimpl, contracttype, Address, Env, String\x7d;" : Line) ∈
        lines .soroban plan := by
      simp [lines, Soroban.lines, Soroban.preamble]
    refine contains_emit_of_mem mem ?_
    simp only [ownMark, sdkImport, Line.chars, Line.pieces, List.cons_append, List.nil_append,
      List.flatMap_cons, List.flatMap_nil, Piece.chars]
    repeat rw [String.toList_ofList]
    decide

/-- Every Soroban contract exports its functions. -/
theorem contains_contractMarker (plan : Plan) : contains (emit .soroban plan) contractMarker = true := by
  have mem : ("#[contractimpl]" : Line) ∈ lines .soroban plan := by
    have exported (functions : List Line) :
        ("#[contractimpl]" : Line) ∈ Soroban.exported plan.contractName functions := by
      simp [Soroban.exported]
    have inSkeleton : ("#[contractimpl]" : Line) ∈
        Soroban.skeleton plan.contractName plan.symbol plan.guards plan.base := by
      cases plan.base with
      | token decimals initialSupply =>
        exact mem_joined (.tail _ (.tail _ (.head _))) (exported _)
      | nft baseUri => exact mem_joined (.tail _ (.tail _ (.head _))) (exported _)
    simp [lines, Soroban.lines, inSkeleton]
  refine contains_emit_of_mem mem ?_
  simp only [contractMarker, Line.chars, Line.pieces, List.cons_append, List.nil_append, List.flatMap_cons,
    List.flatMap_nil, Piece.chars]
  repeat rw [String.toList_ofList]
  decide

/-- A text is not blank when a text in it is not. -/
theorem not_allBlank_of_contains {text needle : String} (inside : contains text needle = true)
    (visible : allBlank needle = false) : allBlank text = false := by
  rw [contains, occursIn_iff] at inside
  simp only [allBlank, List.all_eq_false] at visible ⊢
  obtain ⟨character, mem, shown⟩ := visible
  exact ⟨character, inside.subset mem, shown⟩

theorem not_allBlank_emit (language : Language) (plan : Plan) : allBlank (emit language plan) = false := by
  refine not_allBlank_of_contains (contains_ownMark language plan) ?_
  cases language <;>
  · simp only [ownMark, sdkImport, allBlank]
    rw [String.toList_ofList]
    decide

/-- The marks of the other language stand in a contract only where a user gave them. -/
theorem contains_foreignMarker_iff {language : Language} {plan : Plan} {marker : String}
    (mem : marker ∈ foreignMarkers language) :
    contains (emit language plan) marker = true ↔ ∃ user ∈ plan.userTexts, contains user marker = true :=
  contains_emit_iff (List.mem_append_left _ mem) fun feature _ =>
    featureLines_quiet language plan feature marker (List.mem_append_left _ mem)

/-- A contract passes the gate of its own language exactly when it is not too large and no user gave a mark of
the other language. The gate of the other language never lets it pass. -/
theorem emit_passes_own_gate_only (plan : Plan) (language : Language) (maxBytes : Nat) :
    ((validate maxBytes (emit language plan) language).valid = true ↔
      (emit language plan).utf8ByteSize ≤ maxBytes ∧
        ∀ user ∈ plan.userTexts, ∀ marker ∈ foreignMarkers language, contains user marker = false) ∧
    ∀ other, other ≠ language →
      (validate maxBytes (emit language plan) other).valid = false ∧
        (validate maxBytes (emit language plan) other).code =
          some (if maxBytes < (emit language plan).utf8ByteSize then .tooLarge else .crossDomain) := by
  have visible := not_allBlank_emit language plan
  refine ⟨?_, fun other differ => ?_⟩
  · have clean : (foreignMarkers language).find? (contains (emit language plan)) = none ↔
        ∀ user ∈ plan.userTexts, ∀ marker ∈ foreignMarkers language, contains user marker = false := by
      simp only [List.find?_eq_none]
      refine ⟨fun absent user isUser marker mem => ?_, fun plain marker mem inside => ?_⟩
      · by_contra given
        exact absent marker mem
          ((contains_foreignMarker_iff mem).mpr ⟨user, isUser, Bool.not_eq_false _ |>.mp given⟩)
      · obtain ⟨user, isUser, given⟩ := (contains_foreignMarker_iff mem).mp inside
        simp [plain user isUser marker mem] at given
    rw [← clean, validate]
    simp only [visible, Bool.false_eq_true, if_false]
    split
    · next large => simp [ValidationOutcome.invalid, Nat.not_le.mpr large]
    · next small =>
      split
      · next marker found => simp [ValidationOutcome.invalid, found]
      · next absent =>
        cases language with
        | solidity => simpa [ValidationOutcome.ok, absent] using small
        | soroban =>
          simpa [ValidationOutcome.ok, absent, contains_contractMarker,
            show contains (emit .soroban plan) sdkImport = true from contains_ownMark .soroban plan] using small
  · have foreign : ∃ marker, (foreignMarkers other).find? (contains (emit language plan)) = some marker := by
      rw [← Option.isSome_iff_exists, List.find?_isSome]
      exact ⟨ownMark language, ownMark_mem differ, contains_ownMark language plan⟩
    obtain ⟨marker, found⟩ := foreign
    simp only [validate, visible, found, Bool.false_eq_true, if_false]
    split <;> simp [ValidationOutcome.invalid]

end ContractWorks.Source
