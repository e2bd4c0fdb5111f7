import ContractWorks.Proofs.Queue.Outcome
import ContractWorks.Proofs.Queue.Crew
import ContractWorks.Proofs.Queue.Delivery
import ContractWorks.Proofs.Queue.Lossless
import ContractWorks.Proofs.Queue.Resolution
import ContractWorks.Proofs.Queue.Tenure
import ContractWorks.Proofs.Queue.Writing

namespace ContractWorks

/-- A compiler run never fails with a code of the gate. -/
theorem ToolchainError.isValidation_record (error : ToolchainError) : error.record.code.isValidation = false := by
  cases error <;> rfl

/-- A record has come to what the gate demands of one that it refuses when it waits, runs, or has failed with the error
of the gate; where the process was lost, it may also have failed as an orphan. -/
def JobRecord.Refused (record : JobRecord) (lost : Prop) (error : ErrorRecord) : Prop :=
  record.status = .queued ∨ record.status = .running ∨
    (record.status = .failed ∧ (record.error = some error ∨ (lost ∧ record.error = some World.orphanError)))

theorem JobRecord.Refused.mono {record : JobRecord} {lost later : Prop} {error : ErrorRecord}
    (refused : record.Refused lost error) (more : lost → later) : record.Refused later error :=
  refused.imp_right fun rest => rest.imp_right fun failed =>
    ⟨failed.1, failed.2.imp_right fun orphan => ⟨more orphan.1, orphan.2⟩⟩

namespace Setting

/-- A setting refuses a record with an error when its gate refuses the source of the record with the code and the message
of the error. -/
def Refuses (setting : Setting) (record : JobRecord) (error : ErrorRecord) : Prop :=
  ∃ code message, setting.gate record.kind record.input = .invalid code message ∧ error = ⟨code, message, none⟩

/-- A transition settles a record as the gate demands when it completes records that pass alone, and when it fails those
that do not with the error of the gate, and no others. -/
def Settles (setting : Setting) (record : JobRecord) : Transition → Prop
  | .start => False
  | .complete _ => (setting.gate record.kind record.input).valid = true
  | .fail error =>
    ((setting.gate record.kind record.input).valid = true ∧ error.code.isValidation = false) ∨
      setting.Refuses record error

/-- A setting admits a record that the store knows and that passes its gate. -/
def Admits (setting : Setting) (jobs : JobStore) (record : JobRecord) : Prop :=
  jobs.Knows record ∧ (setting.gate record.kind record.input).valid = true

end Setting

/-- A task is gated when what it submits passes the gate, when the store knows the record that it works on, when this
passes the gate once more from where it has a workspace, and when the outcome that it writes is what the gate demands. -/
def Task.Gated (setting : Setting) (jobs : JobStore) : Task → Prop
  | .submit (.waiting kind input) => (setting.gate kind input).valid = true
  | .submit (.reserved record) => (setting.gate record.kind record.input).valid = true ∧ record.error = none
  | .worker (.started record) => jobs.Knows record
  | .worker (.compiling record) => jobs.Knows record
  | .worker (.prepared record _ _) => setting.Admits jobs record
  | .worker (.ready record _ _) => setting.Admits jobs record
  | .worker (.invoking record _ _) => setting.Admits jobs record
  | .worker (.running record _ _) => setting.Admits jobs record
  | .worker (.collected record _) => setting.Admits jobs record
  | .worker (.storing record _) => setting.Admits jobs record
  | .worker (.finishing id transition) =>
    ∃ record, record.id = id ∧ jobs.Knows record ∧ setting.Settles record transition
  | _ => True

namespace Task

variable {setting : Setting} {jobs other : JobStore} {task : Task}

/-- A task stays gated as long as the store knows the records that it has known. -/
theorem Gated.mono (gated : task.Gated setting jobs) (knows : ∀ record, jobs.Knows record → other.Knows record) :
    task.Gated setting other := by
  cases task with
  | worker step =>
    cases step with
    | started record => exact knows record gated
    | compiling record => exact knows record gated
    | prepared record workspace directory => exact gated.imp_left (knows record)
    | ready record workspace directory => exact gated.imp_left (knows record)
    | invoking record workspace directory => exact gated.imp_left (knows record)
    | running record workspace directory => exact gated.imp_left (knows record)
    | collected record artifact => exact gated.imp_left (knows record)
    | storing record artifact => exact gated.imp_left (knows record)
    | finishing id transition =>
      obtain ⟨record, own, known, settles⟩ := gated
      exact ⟨record, own, knows record known, settles⟩
    | _ => trivial
  | submit step => cases step <;> exact gated
  | _ => trivial

theorem gated_of_duty (submits : task.duty ≠ .submit) (works : task.duty ≠ .worker) : task.Gated setting jobs := by
  cases task with
  | submit step => exact absurd rfl submits
  | worker step => exact absurd rfl works
  | _ => trivial

theorem gated_of_helps (helps : task.Helps) : task.Gated setting jobs := by
  unfold Helps at helps
  split at helps <;> trivial

end Task

namespace World

variable {setting : Setting} {storage : StorageConfig} {start world next base : World} {number : Nat} {chance : Chance}
  {move : Move} {moves : List Move} {record : JobRecord} {id : JobId} {task old : Task}

/-- Every move keeps known what the store knows. -/
theorem knows_of_writing (writing : Writing world next record.id move) (knows : world.jobs.Knows record) :
    next.jobs.Knows record := by
  obtain ⟨stored, found, kind, input⟩ := knows
  cases writing with
  | kept same => exact ⟨stored, same.trans found, kind, input⟩
  | inserted _ _ free _ => simp [free] at found
  | @moved _ _ _ transition _ _ _ _ there applied stands =>
    obtain rfl := Option.some.inj (there.symm.trans found)
    obtain ⟨_, rfl⟩ := JobStore.apply_eq_ok applied
    exact ⟨_, stands, (JobStore.kind_write _ _ _).trans kind, (JobStore.input_write _ _ _).trans input⟩

/-- What a step of a submission comes to is gated. -/
theorem gated_submit {step : SubmitStep} (gated : (Task.submit step).Gated setting world.jobs) :
    (world.stepSubmit number chance step).Comes number
      (Task.Gated setting (world.stepSubmit number chance step).jobs) := by
  generalize stepped : world.stepSubmit number chance step = next
  cases submitBranch stepped with
  | reserves => exact comes_goOn (by exact ⟨gated, rfl⟩)
  | inserts | enters => exact comes_goOn trivial
  | closed | full | fails | sends => exact comes_endTask

/-- A record that the gate refuses is to fail with its error. -/
theorem gated_refuse (knows : world.jobs.Knows record)
    (refused : (setting.gate record.kind record.input).valid = false) :
    (Task.worker (.finishing record.id (.fail
      ⟨(setting.gate record.kind record.input).code.getD .invalidInput,
        (setting.gate record.kind record.input).error.getD "", none⟩))).Gated setting world.jobs := by
  rcases Source.validate_cases setting.config.maxSourceBytes.toNat record.input.source record.kind.language with
    passes | ⟨code, message, shape⟩
  · have valid : (setting.gate record.kind record.input).valid = true := congrArg ValidationOutcome.valid passes
    simp [valid] at refused
  · have invalid : setting.gate record.kind record.input = .invalid code message := shape
    rw [invalid]
    exact ⟨record, rfl, knows, .inr ⟨code, message, invalid, rfl⟩⟩

theorem gated_afterRun {jobs : JobStore} (admits : setting.Admits jobs record) (ending : CompilerEnd) :
    (Task.worker (afterRun record ending)).Gated setting jobs := by
  cases ending with
  | made artifact => exact admits
  | failed error => exact ⟨record, rfl, admits.1, .inl ⟨admits.2, error.isValidation_record⟩⟩
  | brokeOff => exact ⟨record, rfl, admits.1, .inl ⟨admits.2, rfl⟩⟩

/-- What a step of a worker comes to is gated. -/
theorem gated_worker (sound : world.jobs.Sound world.disk) {step : WorkerStep}
    (gated : (Task.worker step).Gated setting world.jobs)
    (stepped : stepWorker setting world number chance step = some next) :
    next.Comes number (Task.Gated setting next.jobs) := by
  cases workerBranch stepped with
  | stops => exact comes_endTask
  | begins done => exact comes_goOn (JobStore.knows_of_transition sound done).2
  | refused refused => exact comes_goOn (gated_refuse gated refused)
  | @unlodged record _ _ _ passes => exact comes_goOn ⟨record, rfl, gated, .inl ⟨passes, rfl⟩⟩
  | lodged passes => exact comes_goOn ⟨gated, passes⟩
  | started | prepared | ready | collected => exact comes_goOn (by exact gated)
  | @invokes record workspace directory =>
    have goesOn : (world.goOn number (.worker (.running record workspace directory))).Comes number
        (Task.Gated setting world.jobs) := comes_goOn (by exact gated)
    exact goesOn
  | compiles => exact comes_goOn (gated_afterRun gated _)
  | @keeps record =>
    obtain ⟨knows, valid⟩ := gated
    exact comes_goOn ⟨record, rfl, knows, valid⟩
  | @loses record =>
    obtain ⟨knows, valid⟩ := gated
    exact comes_goOn ⟨record, rfl, knows, .inl ⟨valid, rfl⟩⟩
  | _ => exact comes_goOn trivial

/-- A call that begins is gated: a source that the gate refuses is answered at once. -/
theorem gated_of_opening {jobs : JobStore} {call : Call} (opening : Opening setting call task) :
    task.Gated setting jobs := by
  cases opening with
  | submit valid => exact valid
  | _ => trivial

/-- Every move leaves all tasks gated. -/
theorem gated_move (guarded : world.Guarded setting storage)
    (gated : world.Everywhere (Task.Gated setting world.jobs)) (moved : move? setting world move = some next) :
    next.Everywhere (Task.Gated setting next.jobs) := by
  have knows (record : JobRecord) (known : world.jobs.Knows record) : next.jobs.Knows record :=
    knows_of_writing (guarded.writing moved record.id) known
  refine tasks_of_move (fun _ => Task.Gated setting world.jobs) guarded.tidy.numbered gated moved
    (fun _ _ before => before.mono knows) (fun _ _ => Task.gated_of_helps) (fun _ _ _ => gated_of_opening)
    fun number chance task _ own stepped => ?_
  have others (submits : task.duty ≠ .submit) (works : task.duty ≠ .worker) :
      next.Comes number (Task.Gated setting next.jobs) :=
    comes_of_duty guarded.tidy.numbered stepped fun _ same => Task.gated_of_duty (same ▸ submits) (same ▸ works)
  cases task with
  | submit step =>
    obtain rfl := Option.some.inj stepped
    exact gated_submit own
  | worker step => exact gated_worker guarded.secure.stored.sound own stepped
  | _ => exact others (by simp [Task.duty]) (by simp [Task.duty])

/-- A queue stays shared by its workers until it is lost. -/
theorem shared_move (crewed : world.Crewed setting) (numbered : world.Numbered)
    (shared : world.channel.receiver = .shared) (stays : move ≠ .restart)
    (moved : move? setting world move = some next) : next.channel.receiver = .shared := by
  have none (number : Nat) : ¬world.Starts number := by
    intro starts
    have taken := crewed.taken number starts
    simp [shared] at taken
  have flows (ordinary : move.IsOrdinary) : next.channel.receiver = .shared := by
    have flow : Flow (world.mover move) world next :=
      flow_of_move numbered.fresh (by simp [shared]) ordinary
        (fun number => ⟨fun launching => none number (.inr launching), fun recovering => none number (.inl recovering)⟩)
        moved
    exact flow.receiver.trans shared
  cases move with
  | call call => exact flows trivial
  | step number chance => exact flows trivial
  | restart => exact absurd rfl stays
  | deliver id =>
    rw [← Option.some.inj moved]
    exact (push_same world.channel id).1.trans shared

/-- A world is rested over some records when no job has begun to run since, as long as there are no workers. -/
def Rested (first : Table JobId JobRecord) (world : World) : Prop :=
  world.channel.receiver ≠ .shared → ∀ id record, Table.get? id world.jobs.records = some record →
    record.status = .running → ∃ old, Table.get? id first = some old ∧ old.status = .running

theorem rested_move {first : Table JobId JobRecord} (rested : world.Rested first) (crewed : world.Crewed setting)
    (guarded : world.Guarded setting storage) (stays : move ≠ .restart)
    (moved : move? setting world move = some next) : next.Rested first := by
  intro unshared id record found runs
  have before : world.channel.receiver ≠ .shared := fun shared =>
    unshared (shared_move crewed guarded.tidy.numbered shared stays moved)
  have unmanned {number : Nat} {step : WorkerStep} (works : Table.get? number world.tasks = some (.worker step)) : False :=
    crewed.unmanned before number (roleAt_of_found works)
  cases guarded.writing moved id with
  | kept same => exact rested before id record (same ▸ found) runs
  | @inserted _ _ new reserves _ _ stands =>
    obtain rfl := Option.some.inj (stands.symm.trans found)
    have queued : new.status = .queued := guarded.tidy.sane _ _ reserves
    simp [queued] at runs
  | @moved _ _ task _ _ after held writes _ applied stands =>
    obtain rfl := Option.some.inj (stands.symm.trans found)
    unfold Task.Writes at writes
    split at writes
    · exact (unmanned held).elim
    · exact (unmanned held).elim
    · obtain ⟨_, rfl⟩ := writes
      obtain ⟨_, rfl⟩ := JobStore.apply_eq_ok applied
      simp [JobRecord.write] at runs
    · exact writes.elim

/-- What a task writes of a job starts it, or settles it as the gate demands, or fails it as an orphan. -/
theorem settles_of_writes {transition : Transition} {before : JobRecord} (gated : task.Gated setting world.jobs)
    (writes : task.Writes id transition) (there : Table.get? id world.jobs.records = some before) :
    transition = .start ∨ setting.Settles before transition ∨
      (transition = .fail orphanError ∧ ∃ ids report, task = .start (.failing (id :: ids) report)) := by
  unfold Task.Writes at writes
  split at writes
  · exact .inl writes.2
  · obtain ⟨rfl, rfl⟩ := writes
    obtain ⟨record, rfl, ⟨stored, found, kind, input⟩, settles⟩ := gated
    obtain rfl := Option.some.inj (there.symm.trans found)
    refine .inr (.inl ?_)
    unfold Setting.Settles Setting.Refuses at settles ⊢
    rwa [kind, input]
  · next own ids report =>
    obtain ⟨rfl, rfl⟩ := writes
    exact .inr (.inr ⟨rfl, ids, report, rfl⟩)
  · exact writes.elim

/-- A world is screened over some records when jobs that have come since pass the gate and never fail with its codes, and
when jobs that have waited since, and that the gate refuses, come to what it demands. -/
structure Screened (setting : Setting) (first : Table JobId JobRecord) (lost : Prop) (world : World) : Prop where
  crewed : world.Crewed setting
  gated : world.Everywhere (Task.Gated setting world.jobs)
  rested : ¬lost → world.Rested first
  created : ∀ id record, Table.get? id first = none → Table.get? id world.jobs.records = some record →
    (setting.gate record.kind record.input).valid = true ∧
      ∀ error, record.error = some error → error.code.isValidation = false
  refused : ∀ id old code message, Table.get? id first = some old → old.status = .queued →
    setting.gate old.kind old.input = .invalid code message →
      ∃ record, Table.get? id world.jobs.records = some record ∧ record.kind = old.kind ∧ record.input = old.input ∧
        record.Refused lost ⟨code, message, none⟩

variable {first : Table JobId JobRecord} {lost later : Prop}

/-- Jobs that have come since go on to pass the gate. -/
theorem Screened.created_next (screened : world.Screened setting first lost) (guarded : world.Guarded setting storage)
    (moved : move? setting world move = some next) {record : JobRecord} (new : Table.get? id first = none)
    (stands : Table.get? id next.jobs.records = some record) :
    (setting.gate record.kind record.input).valid = true ∧
      ∀ error, record.error = some error → error.code.isValidation = false := by
  cases guarded.writing moved id with
  | kept same => exact screened.created id record new (same ▸ stands)
  | inserted reserves _ _ inserted =>
    obtain rfl := Option.some.inj (inserted.symm.trans stands)
    obtain ⟨valid, none⟩ := screened.gated _ _ reserves
    exact ⟨valid, fun error some => by simp [none] at some⟩
  | @moved _ _ task transition before after held writes there applied reached =>
    obtain rfl := Option.some.inj (reached.symm.trans stands)
    obtain ⟨_, rfl⟩ := JobStore.apply_eq_ok applied
    obtain ⟨valid, sound⟩ := screened.created id before new there
    rw [JobStore.kind_write, JobStore.input_write]
    refine ⟨valid, fun error some => ?_⟩
    cases transition with
    | start => exact sound error some
    | complete artifact => exact sound error some
    | fail written =>
      obtain rfl := Option.some.inj some
      rcases settles_of_writes (screened.gated _ _ held) writes there with start | settles | ⟨orphan, _⟩
      · simp at start
      · rcases settles with ⟨_, sound⟩ | ⟨code, message, invalid, _⟩
        · exact sound
        · simp [invalid, ValidationOutcome.invalid] at valid
      · rw [Transition.fail.inj orphan]
        rfl

/-- A job that fails as an orphan ran before there were any workers. -/
theorem Screened.ran_of_orphan (screened : world.Screened setting first lost) (here : ¬lost) {ids : List JobId}
    {report : RecoveryReport} (held : Table.get? number world.tasks = some (.start (.failing (id :: ids) report)))
    {before after : JobRecord} {now : Time.Instant} (there : Table.get? id world.jobs.records = some before)
    (applied : before.apply now (.fail orphanError) = .ok after) :
    ∃ old, Table.get? id first = some old ∧ old.status = .running := by
  have taken : world.channel.receiver = .taken := screened.crewed.taken number (starts_of_recovers held trivial)
  have runs : before.status = .running := by
    have allowed := (JobStore.apply_eq_ok applied).1
    cases status : before.status <;> rw [status] at allowed <;> first | rfl | exact absurd allowed (by decide)
  exact screened.rested here (by simp [taken]) id before there runs

/-- Jobs that the gate refuses go on to come to what it demands. -/
theorem Screened.refused_next (screened : world.Screened setting first lost) (guarded : world.Guarded setting storage)
    (moved : move? setting world move = some next) (more : lost → later) {old : JobRecord} {code : ErrorCode}
    {message : String} (stood : Table.get? id first = some old) (waited : old.status = .queued)
    (invalid : setting.gate old.kind old.input = .invalid code message) :
    ∃ record, Table.get? id next.jobs.records = some record ∧ record.kind = old.kind ∧ record.input = old.input ∧
      record.Refused later ⟨code, message, none⟩ := by
  obtain ⟨record, found, kind, input, refused⟩ := screened.refused id old code message stood waited invalid
  cases guarded.writing moved id with
  | kept same => exact ⟨record, same.trans found, kind, input, refused.mono more⟩
  | inserted _ _ free _ => simp [free] at found
  | @moved _ _ task transition before after held writes there applied reached =>
    obtain rfl := Option.some.inj (found.symm.trans there)
    have written := (JobStore.apply_eq_ok applied).2
    subst written
    refine ⟨_, reached, (JobStore.kind_write _ _ _).trans kind, (JobStore.input_write _ _ _).trans input, ?_⟩
    rw [← kind, ← input] at invalid
    rcases settles_of_writes (screened.gated _ _ held) writes there with rfl | settles | ⟨rfl, ids, report, rfl⟩
    · exact .inr (.inl rfl)
    · cases transition with
      | start => exact settles.elim
      | complete artifact =>
        have valid : (setting.gate record.kind record.input).valid = true := settles
        simp [invalid, ValidationOutcome.invalid] at valid
      | fail error =>
        rcases settles with ⟨valid, _⟩ | ⟨own, text, again, rfl⟩
        · simp [invalid, ValidationOutcome.invalid] at valid
        · obtain ⟨rfl, rfl⟩ : message = text ∧ code = own := by
            simpa [ValidationOutcome.invalid] using invalid.symm.trans again
          exact .inr (.inr ⟨rfl, .inl rfl⟩)
    · by_cases here : lost
      · exact .inr (.inr ⟨rfl, .inr ⟨more here, rfl⟩⟩)
      · obtain ⟨other, stands, runs⟩ := screened.ran_of_orphan here held there applied
        obtain rfl := Option.some.inj (stood.symm.trans stands)
        simp [waited] at runs

/-- Every move keeps a world screened. -/
theorem Screened.proceed (screened : world.Screened setting first lost) (guarded : world.Guarded setting storage)
    (more : lost → later) (loses : move = .restart → later) (moved : move? setting world move = some next) :
    next.Screened setting first later where
  crewed := screened.crewed.move guarded.tidy.numbered moved
  gated := gated_move guarded screened.gated moved
  rested here := rested_move (screened.rested fun there => here (more there)) screened.crewed guarded
    (fun restarts => here (loses restarts)) moved
  created _ _ new stands := screened.created_next guarded moved new stands
  refused _ _ _ _ stood waited invalid := screened.refused_next guarded moved more stood waited invalid

/-- A new process is screened over the records that it finds. -/
theorem screened_new {disk : Disk} {jobs : JobStore} {artifacts : ArtifactStore} :
    (new setting disk jobs artifacts).Screened setting jobs.records False where
  crewed := crewed_of_idle rfl
  gated _ _ found := by simp [new] at found
  rested _ _ _ record found runs := ⟨record, found, runs⟩
  created id record absent found := by
    have none : Table.get? id jobs.records = some record := found
    simp [absent] at none
  refused id old code message found waited _ := ⟨old, found, rfl, rfl, .inl waited⟩

/-- All worlds that a run comes to are screened over the records that it began with. -/
theorem screened_run (confined : ∀ data, storage = .file data → setting.Confined data)
    (guarded : start.Guarded setting storage) (screened : start.Screened setting first False) (moves : List Move)
    (safe : ∀ number chance, .step number chance ∈ moves → ArtifactStore.isSafeId chance.name = true) :
    (run setting start moves).Screened setting first (.restart ∈ moves) := by
  induction moves using List.reverseRecOn with
  | nil => exact ⟨screened.crewed, screened.gated, fun _ => screened.rested id, screened.created,
      fun id old code message stood waited invalid =>
        (screened.refused id old code message stood waited invalid).imp fun _ all =>
          ⟨all.1, all.2.1, all.2.2.1, all.2.2.2.mono False.elim⟩⟩
  | append_singleton moves last inductionHypothesis =>
    have safeBefore (number : Nat) (chance : Chance) (member : .step number chance ∈ moves) :
        ArtifactStore.isSafeId chance.name = true := safe number chance (List.mem_append_left _ member)
    have before := inductionHypothesis safeBefore
    have held := guarded.run confined safeBefore
    have more (lost : .restart ∈ moves) : .restart ∈ moves ++ [last] := List.mem_append_left _ lost
    rw [run_concat, World.move]
    cases moved : move? setting (run setting start moves) last with
    | none =>
      exact ⟨before.crewed, before.gated, fun here => before.rested fun lost => here (more lost), before.created,
        fun id old code message stood waited invalid =>
          (before.refused id old code message stood waited invalid).imp fun _ all =>
            ⟨all.1, all.2.1, all.2.2.1, all.2.2.2.mono more⟩⟩
    | some next => exact before.proceed held more (fun restarts => by simp [restarts]) moved

/-- A move calls the compiler for a record when it is the step of a worker that runs it. -/
def CallsCompiler (world : World) (record : JobRecord) : Move → Prop
  | .step number _ =>
    ∃ workspace directory, Table.get? number world.tasks = some (.worker (.running record workspace directory))
  | _ => False

/-- A move that calls the compiler for no record comes to the same world whatever the compilers are. -/
theorem move?_eq_of_not_callsCompiler (other : JobKind → Compiler) (none : ∀ record, ¬world.CallsCompiler record move) :
    move? { setting with compilers := other } world move = move? setting world move := by
  cases move with
  | step number chance =>
    rw [move?, move?, step?, step?]
    cases found : Table.get? number world.tasks with
    | none => rfl
    | some task =>
      cases task with
      | worker step =>
        cases step with
        | running record workspace directory => exact absurd ⟨workspace, directory, found⟩ (none record)
        | _ => rfl
      | start step =>
        cases step with
        | failing ids report => cases ids <;> rfl
        | checking ids report => cases ids <;> rfl
        | _ => rfl
      | _ => rfl
  | _ => rfl

/-- A move that gets a workspace for a job finds that its record passes the gate. -/
theorem valid_of_allots (gated : world.Everywhere (Task.Gated setting world.jobs)) {directory : String}
    (made : allots setting world move = some (directory, id)) :
    ∃ record, Table.get? id world.jobs.records = some record ∧
      (setting.gate record.kind record.input).valid = true := by
  cases move with
  | step number chance =>
    rw [allots] at made
    split at made
    · next record found =>
      split at made
      · next valid =>
        split at made
        · obtain ⟨_, rfl⟩ := Prod.mk.inj (Option.some.inj made)
          obtain ⟨stored, stands, kind, input⟩ : world.jobs.Knows record := gated _ _ found
          exact ⟨stored, stands, by rw [kind, input]; exact valid⟩
        · simp at made
      · simp at made
    · simp at made
  | _ => simp [allots] at made

/-- A job that has waited at first and that the gate refuses has failed with its error once the queue is down, unless the
store has refused to start it or to write this. -/
theorem Screened.failed_of_down {disk : Disk} {jobs : JobStore} {artifacts : ArtifactStore} (keyed : jobs.Keyed)
    {steps : List (Nat × Chance)} {late : List Move} {report : RecoveryReport}
    (screened : (run setting (new setting disk jobs artifacts) (startup steps ++ late)).Screened setting jobs.records
      (.restart ∈ startup steps ++ late))
    (started : .answered 0 (.started (.ok report)) ∈
      (run setting (new setting disk jobs artifacts) (startup steps)).history)
    (ordinary : ∀ move ∈ late, move.IsOrdinary)
    (down : (run setting (new setting disk jobs artifacts) (startup steps ++ late)).IsDown) {old : JobRecord}
    {code : ErrorCode} {message : String} (stood : Table.get? id jobs.records = some old)
    (waited : old.status = .queued) (invalid : setting.gate old.kind old.input = .invalid code message) :
    (∃ record, Table.get? id (run setting (new setting disk jobs artifacts) (startup steps ++ late)).jobs.records =
        some record ∧ record.status = .failed ∧ record.error = some ⟨code, message, none⟩) ∨
      LeftQueued setting (new setting disk jobs artifacts) (startup steps ++ late) id ∨
        LeftRunning setting (new setting disk jobs artifacts) (startup steps ++ late) id := by
  have here : .restart ∉ startup steps ++ late := by
    intro lost
    rcases List.mem_append.mp lost with early | inside
    · simp [startup] at early
    · exact ordinary _ inside
  obtain ⟨record, found, _, _, refused⟩ := screened.refused id old code message stood waited invalid
  rcases ((begun_of_started keyed started).run ordinary).ended_of_down down found with
    ended | ⟨_, ⟨_, left⟩ | ⟨_, left⟩⟩
  · rcases refused with queued | runs | ⟨failed, own | ⟨lost, _⟩⟩
    · simp [queued, JobState.isTerminal] at ended
    · simp [runs, JobState.isTerminal] at ended
    · exact .inl ⟨record, found, failed, own⟩
    · exact absurd lost here
  · exact .inr (.inl left)
  · exact .inr (.inr left)

/-- The gate holds up to the compiler, whatever records earlier processes have left. A compiler is called only for a
record of the store whose source passes the gate for its kind. Jobs that have come since never fail with a code of the
gate. A job that has waited and that the gate refuses never gets a workspace, and comes to nothing but to fail with the
code and the message of the gate, unless the process is lost while it runs; in a queue that has been started and is
down it has failed so, unless the store has refused to start it or to write this. -/
theorem gate_holds_to_compiler {disk : Disk} {jobs : JobStore} {artifacts : ArtifactStore}
    (stored : Stored storage jobs artifacts disk) (confined : ∀ data, storage = .file data → setting.Confined data)
    (moves : List Move)
    (safe : ∀ number chance, .step number chance ∈ moves → ArtifactStore.isSafeId chance.name = true) :
    let start := new setting disk jobs artifacts
    let reached := run setting start moves
    (∀ early move late record, moves = early ++ move :: late → (run setting start early).CallsCompiler record move →
      (setting.gate record.kind record.input).valid = true ∧ (run setting start early).jobs.Knows record) ∧
    (∀ id record error, Table.get? id jobs.records = none → Table.get? id reached.jobs.records = some record →
      record.error = some error → error.code.isValidation = false) ∧
    ∀ id old code message, Table.get? id jobs.records = some old → old.status = .queued →
      setting.gate old.kind old.input = .invalid code message →
        (∀ early move late directory, moves = early ++ move :: late →
          allots setting (run setting start early) move ≠ some (directory, id)) ∧
        (∃ record, Table.get? id reached.jobs.records = some record ∧
          record.Refused (.restart ∈ moves) ⟨code, message, none⟩) ∧
        ∀ steps late report, moves = startup steps ++ late →
          .answered 0 (.started (.ok report)) ∈ (run setting start (startup steps)).history →
            (∀ move ∈ late, move.IsOrdinary) → reached.IsDown →
              (∃ record, Table.get? id reached.jobs.records = some record ∧ record.status = .failed ∧
                record.error = some ⟨code, message, none⟩) ∨
                LeftQueued setting start moves id ∨ LeftRunning setting start moves id := by
  intro start reached
  have guarded : start.Guarded setting storage := guarded_new stored
  have screened (early late : List Move) (split : moves = early ++ late) :
      (run setting start early).Screened setting jobs.records (.restart ∈ early) := by
    refine screened_run confined guarded screened_new early fun number chance member => ?_
    exact safe number chance (split ▸ List.mem_append_left _ member)
  have all := screened moves [] (List.append_nil _).symm
  refine ⟨fun early move late record split calls => ?_, fun id record error absent found failed => ?_,
    fun id old code message stood waited invalid => ⟨fun early move late directory split made => ?_, ?_, ?_⟩⟩
  · cases move with
    | step number chance =>
      obtain ⟨workspace, directory, runs⟩ := calls
      exact ((screened early _ split).gated _ _ runs).symm
    | _ => exact calls.elim
  · exact (all.created id record absent found).2 error failed
  · have before := screened early _ split
    obtain ⟨record, stands, valid⟩ := valid_of_allots before.gated made
    obtain ⟨again, found, kind, input, _⟩ := before.refused id old code message stood waited invalid
    obtain rfl := Option.some.inj (stands.symm.trans found)
    rw [kind, input, invalid] at valid
    simp [ValidationOutcome.invalid] at valid
  · obtain ⟨record, found, _, _, refused⟩ := all.refused id old code message stood waited invalid
    exact ⟨record, found, refused⟩
  · rintro steps late report rfl started ordinary down
    exact all.failed_of_down guarded.tidy.keyed started ordinary down stood waited invalid

theorem safe_of_names {moves : List Move}
    (names : (moves.filterMap Move.name?).all ArtifactStore.isSafeId = true) (number : Nat) (chance : Chance)
    (member : .step number chance ∈ moves) : ArtifactStore.isSafeId chance.name = true :=
  List.all_eq_true.mp names _ (List.mem_filterMap.mpr ⟨_, member, rfl⟩)

/-- This process has taken a job in, and was lost before it compiled it. -/
def leftWaiting : World :=
  run .scripted (new .scripted servedDisk (.file (Path.join "data" "jobs") []) (.file (Path.join "data" "artifacts")))
    (.call (.submit .evm { source := "contract Token {}", contractName := "Token" }) ::
      takeSteps 0 ["first", "second", "third", "fourth"])

/-- This setting takes smaller sources than the one of that process. -/
def strictSetting : Setting :=
  { Setting.scripted with config := { maxSourceBytes := 8 } }

/-- In these moves a worker is given the job, and the queue is shut down. -/
def refusing : List Move :=
  takeSteps 1 ["a"] ++ takeSteps 2 ["b", "c", "d", "e", "f", "g"] ++ .call .shutdown :: takeSteps 6 ["h", "i"] ++
    takeSteps 2 ["j"] ++ takeSteps 3 ["k"] ++ takeSteps 4 ["l"] ++ takeSteps 5 ["m"] ++ takeSteps 6 ["n"]

theorem gate_holds_to_compiler_refusing : ∃ record,
    Table.get? "first" (run strictSetting (new strictSetting leftWaiting.disk leftWaiting.jobs leftWaiting.artifacts)
      (startup requeueing ++ refusing)).jobs.records = some record ∧ record.status = .failed ∧
        record.error = some ⟨.tooLarge, "source is 17 bytes, limit is 8 bytes", none⟩ := by
  have confined (data : String) (same : StorageConfig.file "data" = .file data) : Setting.scripted.Confined data := by
    obtain rfl := StorageConfig.file.inj same
    exact Setting.scripted_confined
  have empty (data : String) (same : StorageConfig.file "data" = .file data) :
      servedDisk.list (Path.join data "jobs") = .ok [] := by
    obtain rfl := StorageConfig.file.inj same
    exact list_servedDisk
  have stored : Stored (.file "data") leftWaiting.jobs leftWaiting.artifacts leftWaiting.disk := by
    have begins : (new .scripted servedDisk (.file (Path.join "data" "jobs") [])
        (.file (Path.join "data" "artifacts"))).Guarded .scripted (.file "data") :=
      guarded_new (Stored.of_ofConfig ofConfig_servedDisk empty).1
    exact (begins.run confined (safe_of_names (by decide))).secure.stored
  have strict (data : String) (same : StorageConfig.file "data" = .file data) : strictSetting.Confined data :=
    ⟨(confined data same).inside, (confined data same).stamped, (confined data same).apart⟩
  have waits : (Table.get? "first" leftWaiting.jobs.records).map (fun old => (old.status, old.kind, old.input)) =
      some (.queued, .evm, { source := "contract Token {}", contractName := "Token" }) := by with_unfolding_all rfl
  have history : (run strictSetting (new strictSetting leftWaiting.disk leftWaiting.jobs leftWaiting.artifacts)
      (startup requeueing)).history =
        [.called 0 .start, .answered 0 (.started (.ok ⟨[], ["first"], 0⟩))] := by with_unfolding_all rfl
  have ends : (run strictSetting (new strictSetting leftWaiting.disk leftWaiting.jobs leftWaiting.artifacts)
      (startup requeueing ++ refusing)).history =
        [.called 0 .start, .answered 0 (.started (.ok ⟨[], ["first"], 0⟩)), .called 6 .shutdown,
          .answered 6 .stopped] := by with_unfolding_all rfl
  have idle : (run strictSetting (new strictSetting leftWaiting.disk leftWaiting.jobs leftWaiting.artifacts)
      (startup requeueing ++ refusing)).tasks = [] := by with_unfolding_all rfl
  have failed : (Table.get? "first" (run strictSetting
      (new strictSetting leftWaiting.disk leftWaiting.jobs leftWaiting.artifacts)
        (startup requeueing ++ refusing)).jobs.records).map JobRecord.status = some .failed := by with_unfolding_all rfl
  obtain ⟨old, stood, seen⟩ := Option.map_eq_some_iff.mp waits
  obtain ⟨waited, kind, input⟩ := by simpa only [Prod.mk.injEq] using seen
  have invalid : strictSetting.gate old.kind old.input =
      .invalid .tooLarge "source is 17 bytes, limit is 8 bytes" := by
    rw [kind, input]
    with_unfolding_all rfl
  have ordinary : ∀ move ∈ refusing, move.IsOrdinary := by simp [refusing, takeSteps, Move.IsOrdinary]
  have down : (run strictSetting (new strictSetting leftWaiting.disk leftWaiting.jobs leftWaiting.artifacts)
      (startup requeueing ++ refusing)).IsDown :=
    ⟨⟨6, by simp [ends]⟩, fun number step => by simp [idle]⟩
  obtain ⟨_, _, refused⟩ := gate_holds_to_compiler stored strict (startup requeueing ++ refusing)
    (safe_of_names (by decide))
  obtain ⟨_, _, settled⟩ := refused "first" old _ _ stood waited invalid
  rcases settled requeueing refusing ⟨[], ["first"], 0⟩ rfl (by simp [history]) ordinary down with
    ended | ⟨left, _⟩ | ⟨left, _⟩
  · exact ended
  · obtain ⟨record, found, queued⟩ := left
    simp [found, queued] at failed
  · obtain ⟨record, found, runs⟩ := left
    simp [found, runs] at failed

end World

end ContractWorks
