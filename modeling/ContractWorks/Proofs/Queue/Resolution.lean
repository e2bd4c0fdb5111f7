import ContractWorks.Queue.Submission
import ContractWorks.Job.Record

namespace ContractWorks

/-- A record holds an input when it has this input, its kind and the digest of its source. -/
structure JobRecord.Holds (asked : JobKind) (given : JobInput) (record : JobRecord) : Prop where
  kind : record.kind = asked
  input : record.input = given
  sourceHash : record.sourceHash = Digest.ofText given.source

/-- What a record holds does not change with the job. -/
theorem JobRecord.Holds.write {asked : JobKind} {given : JobInput} {record : JobRecord}
    (holds : record.Holds asked given) (now : Time.Instant) (transition : Transition) :
    (record.write now transition).Holds asked given := by
  obtain ⟨kind, input, sourceHash⟩ := holds
  cases transition <;> exact ⟨kind, input, sourceHash⟩

namespace Source

/-- A source passes, or it is refused with a code and a message. -/
theorem validate_cases (maxBytes : Nat) (source : String) (language : Language) :
    validate maxBytes source language = .ok ∨
      ∃ code message, validate maxBytes source language = .invalid code message := by
  rw [validate]
  repeat' split
  all_goals first | exact .inl rfl | exact .inr ⟨_, _, rfl⟩

end Source

namespace Submission

variable {submission : Submission} {kind : JobKind} {input : JobInput} {error : QueueError}

/-- These are the ways in which a submission gives a source and a name, or none. -/
inductive Gives (submission : Submission) : Except QueueError (String × String) → Prop where
  | source {source name : String} (given : submission.source = some source) (alone : submission.blocks = none)
      (named : submission.requestedName = some name) : Gives submission (.ok (source, name))
  | blocks {blocks : List Block} (alone : submission.source = none) (given : submission.blocks = some blocks) :
      Gives submission (.ok ((Source.generate blocks submission.kind.language).text,
        submission.requestedName.getD (Source.generate blocks submission.kind.language).contractName))
  | nothing (reason : String) : Gives submission (.error (.invalidInput reason))

theorem gives (submission : Submission) : submission.Gives submission.content := by
  rw [content.eq_def]
  split
  · next source given alone =>
    split
    · next name named => exact .source given alone named
    · exact .nothing _
  · next blocks alone given =>
    split
    · exact .nothing _
    · dsimp only
      split
      · exact .nothing _
      · exact .blocks alone given
  · exact .nothing _

/-- A submission is resolved when it gives a source and a name, and asks for no optimizer that there is not. -/
theorem resolve_eq (submission : Submission) :
    submission.resolve =
      match submission.content with
      | .error error => .error error
      | .ok (source, contractName) =>
        if submission.optimizerRuns.isSome && submission.kind != .evm then
          .error (.invalidInput "optimizerRuns only applies to EVM compilation")
        else
          .ok (submission.kind,
            { source, contractName, network := submission.network, optimizerRuns := submission.optimizerRuns }) := by
  rw [resolve]
  cases submission.content with
  | error error => rfl
  | ok pair =>
    obtain ⟨source, contractName⟩ := pair
    show (if _ then _ else _) = _
    split <;> rfl

/-- A record holds a submission when it has what was submitted: its kind, its network and optimizer runs, its source or
that of its blocks with the digest of it, and its name without the blanks around it, unless it is blank. -/
structure HeldBy (submission : Submission) (record : JobRecord) : Prop where
  kind : record.kind = submission.kind
  network : record.input.network = submission.network
  optimizerRuns : record.input.optimizerRuns = submission.optimizerRuns
  source : ∀ source, submission.source = some source → record.input.source = source
  blocks : ∀ blocks, submission.blocks = some blocks →
    record.input.source = (Source.generate blocks submission.kind.language).text
  contractName : ∀ name, submission.contractName = some name → Text.trim name ≠ "" →
    record.input.contractName = Text.trim name
  sourceHash : record.sourceHash = Digest.ofText record.input.source

theorem requestedName_of_shown {name : String} (named : submission.contractName = some name)
    (shown : Text.trim name ≠ "") : submission.requestedName = some (Text.trim name) := by
  rw [requestedName, named]
  exact if_neg shown

/-- What a submission resolves to holds it. -/
theorem heldBy_of_resolve (resolved : submission.resolve = .ok (kind, input)) {record : JobRecord}
    (holds : record.Holds kind input) : submission.HeldBy record := by
  obtain ⟨rfl, rfl, sourceHash⟩ := holds
  have gives := submission.gives
  rw [resolve_eq] at resolved
  split at resolved
  · simp at resolved
  · next source contractName made =>
    rw [made] at gives
    split at resolved
    · simp at resolved
    · obtain ⟨kind, input⟩ := Prod.mk.inj (Except.ok.inj resolved)
      refine ⟨kind.symm, ?_, ?_, fun own given => ?_, fun blocks given => ?_, fun name named shown => ?_, sourceHash⟩
      · rw [← input]
      · rw [← input]
      all_goals rw [← input]
      · cases gives with
        | source other alone named => exact Option.some.inj (other.symm.trans given)
        | blocks alone other => simp [alone] at given
      · cases gives with
        | source other alone named => simp [alone] at given
        | blocks alone other =>
          obtain rfl := Option.some.inj (other.symm.trans given)
          rfl
      · have requested := requestedName_of_shown named shown
        cases gives with
        | source given alone own => exact Option.some.inj (own.symm.trans requested)
        | blocks alone given => rw [requested, Option.getD_some]

/-- A submission offers a source when it has this source and no blocks, with a name that is not blank and no optimizer
runs that do not apply. -/
structure Offers (submission : Submission) (source : String) : Prop where
  source : submission.source = some source
  alone : submission.blocks = none
  named : ∃ name, submission.contractName = some name ∧ Text.trim name ≠ ""
  applies : submission.optimizerRuns = none ∨ submission.kind = .evm

/-- What offers a source resolves to an input with this source. -/
theorem Offers.resolve {source : String} (offers : submission.Offers source) :
    ∃ input, submission.resolve = .ok (submission.kind, input) ∧ input.source = source := by
  obtain ⟨given, alone, ⟨name, named, shown⟩, applies⟩ := offers
  have made : submission.content = .ok (source, Text.trim name) := by
    simp only [content.eq_def, given, alone, requestedName_of_shown named shown]
  have fits : ¬(submission.optimizerRuns.isSome && submission.kind != .evm) = true := by
    rcases applies with none | evm
    · simp [none]
    · simp [evm]
  refine ⟨⟨source, Text.trim name, submission.network, submission.optimizerRuns⟩, ?_, rfl⟩
  rw [resolve_eq, made]
  exact if_neg fits

end Submission

end ContractWorks
