import ContractWorks.Proofs.Queue.Leak
import ContractWorks.Proofs.Queue.Lossless

namespace ContractWorks

/-- What a tended and established job looks like goes only forward. -/
theorem View.Tended.later {reason : Mark → Prop} {view next : View} (tended : view.Tended)
    (established : view.Established) (change : Change reason view next) (orderly : View.Orderly reason) :
    view.Later next := by
  rcases tended with served | ⟨nobody, _⟩
  · exact served.later established change orderly
  · obtain ⟨record, live, _⟩ := View.unchanged_of_nobody change nobody established.stored orderly.recovering
      orderly.delivered orderly.restarted
    exact View.later_of_same record live

namespace World

variable {setting : Setting} {world base next : World} {id : JobId} {move : Move} {moves more : List Move}
  {found : Option JobStatus}

/-- A queue is manned when it tends its jobs and a start has made the workers. -/
structure Manned (world : World) : Prop where
  tends : world.Tends
  shared : world.channel.receiver = .shared

/-- No start recovers any more in a queue that is manned. -/
theorem Manned.not_starts (manned : world.Manned) (number : Nat) : ¬world.Starts number := by
  intro starts
  have taken := manned.tends.taken number starts
  simp [manned.shared] at taken

/-- Ordinary moves of a manned queue change the roles of its tasks in one of the ways there are. -/
theorem Manned.flow (manned : world.Manned) (ordinary : move.IsOrdinary) (moved : move? setting world move = some next) :
    Flow (world.mover move) world next := by
  have begun : world.channel.receiver ≠ .free := by simp [manned.shared]
  refine flow_of_move manned.tends.tidy.numbered.fresh begun ordinary (fun number => ?_) moved
  exact ⟨fun launching => manned.not_starts number (.inr launching), fun recovering => manned.not_starts number (.inl recovering)⟩

theorem Manned.proceed (manned : world.Manned) (ordinary : move.IsOrdinary) : (World.move setting world move).Manned := by
  refine ⟨manned.tends.onward ordinary ?_, ?_⟩
  · rintro ⟨number, _, _, _, _, _, lists, _⟩
    exact manned.not_starts number (starts_of_recovers lists trivial)
  · rw [World.move]
    cases moved : move? setting world move with
    | none => exact manned.shared
    | some next => exact (manned.flow ordinary moved).receiver.trans manned.shared

/-- A queue stays manned through ordinary moves. -/
theorem Manned.run (manned : base.Manned) (ordinary : ∀ move ∈ moves, move.IsOrdinary) :
    (World.run setting base moves).Manned := by
  induction moves using List.reverseRecOn with
  | nil => exact manned
  | append_singleton moves last inductionHypothesis =>
    rw [run_concat]
    exact (inductionHypothesis fun move member => ordinary move (List.mem_append_left _ member)).proceed
      (ordinary last (by simp))

/-- What an established job of a manned queue looks like goes only forward. -/
theorem Manned.later (manned : base.Manned) (established : (base.view id).Established)
    (ordinary : ∀ move ∈ moves, move.IsOrdinary) :
    ((World.run setting base moves).view id).Established ∧ (base.view id).Later ((World.run setting base moves).view id) := by
  induction moves using List.reverseRecOn with
  | nil => exact ⟨established, .refl _⟩
  | append_singleton moves last inductionHypothesis =>
    have ordinaryMoves (move : Move) (member : move ∈ moves) : move.IsOrdinary :=
      ordinary move (List.mem_append_left _ member)
    have ordinaryLast : last.IsOrdinary := ordinary last (by simp)
    obtain ⟨stays, later⟩ := inductionHypothesis ordinaryMoves
    have between : (World.run setting base moves).Manned := manned.run ordinaryMoves
    have tends := between.tends
    have change : Change _ _ ((World.move setting (World.run setting base moves) last).view id) :=
      tends.tidy.change ordinaryLast id
    have orderly := tends.orderly ordinaryLast between.shared id
    rw [run_concat]
    exact ⟨stays.change change, later.trans ((tends.tended id).later stays change orderly)⟩

/-- A look that is called for finds what it is answered with in the moves up to its answer. -/
theorem Manned.finds (manned : base.Manned) (ordinary : ∀ move ∈ moves, move.IsOrdinary)
    (told : .answered base.nextTask (.status (.ok found)) ∈
      (World.run setting base (.call (.status id) :: moves)).history) :
    Found setting base (.call (.status id) :: moves) id found := by
  have called : (World.run setting base [.call (.status id)]).Manned := manned.run (by simp [Move.IsOrdinary])
  have asked : Asked setting (World.move setting base (.call (.status id))) moves id base.nextTask := by
    refine asked_of_local (fun answer before => absurd (manned.tends.counted _ _ before) (Nat.lt_irrefl _)) ordinary
      fun former move next inside moved => ?_
    have between : (World.run setting (World.run setting base [.call (.status id)]) former).Manned :=
      called.run fun move here => ordinary move (inside.subset (List.mem_append_left _ here))
    exact (between.flow (ordinary move (inside.subset (by simp))) moved).toLocal
  have here : Found setting (World.run setting base [.call (.status id)]) moves id found := asked.told found told
  exact here.after

/-- The reads of a look at an established job follow one another, and what they show goes only forward. -/
theorem Manned.reads (manned : base.Manned) (established : (base.view id).Established)
    (ordinary : ∀ move ∈ moves, move.IsOrdinary)
    (told : .answered base.nextTask (.status (.ok found)) ∈
      (World.run setting base (.call (.status id) :: moves)).history) :
    ∃ first second third : World, Finds first second third id found ∧ (second.view id).Established ∧
      (base.view id).Later (first.view id) ∧ (first.view id).Later (second.view id) ∧
        (second.view id).Later ((World.run setting base (.call (.status id) :: moves)).view id) := by
  obtain ⟨one, two, three, four, shape, finds⟩ := manned.finds ordinary told
  have called (move : Move) (member : move ∈ .call (.status id) :: moves) : move.IsOrdinary := by
    rcases List.mem_cons.mp member with rfl | later
    · trivial
    · exact ordinary move later
  rw [shape] at called
  have ordinaryOne (move : Move) (member : move ∈ one) : move.IsOrdinary := called move (by simp [member])
  have ordinaryTwo (move : Move) (member : move ∈ two) : move.IsOrdinary := called move (by simp [member])
  have ordinaryRest (move : Move) (member : move ∈ three ++ four) : move.IsOrdinary := by
    rcases List.mem_append.mp member with third | fourth
    · exact called move (by simp [third])
    · exact called move (by simp [fourth])
  have mannedOne : (World.run setting base one).Manned := manned.run ordinaryOne
  obtain ⟨thereOne, before⟩ := manned.later established ordinaryOne
  obtain ⟨thereTwo, reads⟩ := mannedOne.later thereOne ordinaryTwo
  obtain ⟨_, after⟩ := (mannedOne.run ordinaryTwo).later thereTwo ordinaryRest
  rw [← run_append] at thereTwo reads after
  rw [← run_append, ← List.append_assoc, ← shape] at after
  exact ⟨_, _, _, finds, thereTwo, before, reads, after⟩

end World

namespace View

variable {view next : View}

/-- A job is given up when its record has failed, or when it runs and has no live entry. -/
def GivenUp (view : View) : Prop :=
  ∃ record, view.record = some record ∧ (record.status = .failed ∨ (record.status = .running ∧ view.live = none))

/-- A job that is given up stays so. -/
theorem GivenUp.later (givenUp : view.GivenUp) (later : view.Later next) : next.GivenUp := by
  obtain ⟨record, stands, failed | ⟨running, gone⟩⟩ := givenUp
  · obtain ⟨after, there, _, kept⟩ := later.record record stands
    have ended : record.status.isTerminal = true := by
      rw [failed]
      rfl
    obtain rfl := kept ended
    exact ⟨after, there, .inl failed⟩
  · exact ⟨record, (later.gone gone).trans stands, .inr ⟨running, later.gone_on gone⟩⟩

end View

namespace World

variable {first second third base : World} {id : JobId} {status : JobStatus} {found : Option JobStatus}
  {setting : Setting} {disk : Disk} {jobs : JobStore} {artifacts : ArtifactStore} {early middle late moves : List Move}

/-- A look that finds that a job has failed finds a job that is given up. -/
theorem Finds.givenUp (finds : Finds first second third id found) (same : found = some status)
    (failed : status.state = .failed) (established : (second.view id).Established) (reads : (first.view id).Later (second.view id)) :
    (second.view id).GivenUp := by
  obtain ⟨record, stands⟩ := Option.ne_none_iff_exists'.mp established.stored
  have there : Table.get? id second.jobs.records = some record := stands
  refine ⟨record, stands, ?_⟩
  by_cases completed : record.status = .completed
  · -- What is found of a completed record is never a failure.
    cases finds with
    | unrecorded absent => simp [there] at absent
    | bare again lacks =>
      obtain rfl := Option.some.inj (there.symm.trans again)
      simp [← Option.some.inj same, statusOf, completed] at failed
    | whole => simp [← Option.some.inj same, statusWithResult] at failed
  · have shown := Option.some.inj (same.symm.trans (finds.bare_of_open there completed))
    rw [shown, statusOf.eq_def] at failed
    split at failed
    · simp at failed
    · simp at failed
    · next running gone => exact .inr ⟨running, reads.gone_on gone⟩
    · simp at failed
    · next ended => exact .inl ended

/-- Of a job that is given up before a look begins, the look finds that it has failed. -/
theorem Finds.failed (finds : Finds first second third id found) (givenUp : (first.view id).GivenUp)
    (reads : (first.view id).Later (second.view id)) : ∃ status, found = some status ∧ status.state = .failed := by
  obtain ⟨record, stands, ended⟩ := givenUp
  have kept : Table.get? id second.jobs.records = some record := by
    rcases ended with failed | ⟨running, gone⟩
    · obtain ⟨after, there, _, same⟩ := reads.record record stands
      exact same (by rw [failed]; rfl) ▸ there
    · exact (reads.gone gone).trans stands
  refine ⟨_, finds.bare_of_open kept ?_, ?_⟩
  · rcases ended with failed | ⟨running, _⟩
    · simp [failed]
    · simp [running]
  · rcases ended with failed | ⟨running, gone⟩
    · simp [statusOf, failed]
    · have absent : Table.get? id first.live = none := gone
      simp [statusOf, running, absent]

/-- A look at an established job that says that the job has failed finds it given up. -/
theorem Manned.givenUp_of_told (manned : base.Manned) (established : (base.view id).Established)
    (ordinary : ∀ move ∈ moves, move.IsOrdinary)
    (told : .answered base.nextTask (.status (.ok (some status))) ∈
      (World.run setting base (.call (.status id) :: moves)).history)
    (failed : status.state = .failed) : ((World.run setting base (.call (.status id) :: moves)).view id).GivenUp := by
  obtain ⟨_, _, _, finds, there, _, reads, after⟩ := manned.reads established ordinary told
  exact (finds.givenUp rfl failed there reads).later after

/-- Of a job that is given up, a look that is called for says that it has failed. -/
theorem Manned.told_of_givenUp (manned : base.Manned) (established : (base.view id).Established)
    (givenUp : (base.view id).GivenUp) (ordinary : ∀ move ∈ moves, move.IsOrdinary)
    (told : .answered base.nextTask (.status (.ok found)) ∈
      (World.run setting base (.call (.status id) :: moves)).history) :
    ∃ status, found = some status ∧ status.state = .failed := by
  obtain ⟨_, _, _, finds, _, before, reads, _⟩ := manned.reads established ordinary told
  exact finds.failed (givenUp.later before) reads

/-- When a look says that a job has failed, and it is called for after a start has made the workers, at a job that the
store knows and that no submission has still to enter, this is right for ever: the record has failed, or it runs and
nobody holds the job. All later looks say the same. -/
theorem failed_report_right (keyed : jobs.Keyed) (ordinary : ∀ move ∈ early ++ middle ++ late, move.IsOrdinary)
    (undisturbed : Undisturbed setting (new setting disk jobs artifacts) early)
    (shared : (run setting (new setting disk jobs artifacts) early).channel.receiver = .shared)
    (stored : Table.get? id (run setting (new setting disk jobs artifacts) early).jobs.records ≠ none)
    (entered : ∀ number, Table.get? number (run setting (new setting disk jobs artifacts) early).tasks ≠
      some (.submit (.inserted id)))
    (told : .answered (run setting (new setting disk jobs artifacts) early).nextTask (.status (.ok (some status))) ∈
      (run setting (new setting disk jobs artifacts) (early ++ .call (.status id) :: middle)).history)
    (failed : status.state = .failed) :
    let world := run setting (new setting disk jobs artifacts) (early ++ .call (.status id) :: middle ++ late)
    (∃ record, Table.get? id world.jobs.records = some record ∧
        (record.status = .failed ∨ (record.status = .running ∧ world.custody id = 0))) ∧
      ∀ more found, (∀ move ∈ more, move.IsOrdinary) →
        .answered world.nextTask (.status (.ok found)) ∈ (run setting world (.call (.status id) :: more)).history →
          ∃ other, found = some other ∧ other.state = .failed := by
  intro world
  have tends : (run setting (new setting disk jobs artifacts) early).Tends :=
    (tends_new keyed).run (fun move member => ordinary move (by simp [member])) undisturbed
  have manned : (run setting (new setting disk jobs artifacts) early).Manned := ⟨tends, shared⟩
  have established : ((run setting (new setting disk jobs artifacts) early).view id).Established := by
    refine ⟨stored, fun inside => ?_⟩
    obtain ⟨number, found⟩ := inserted_of_custody tends.tidy.numbered.distinct inside
    exact entered number found
  have ordinaryMiddle (move : Move) (member : move ∈ middle) : move.IsOrdinary := ordinary move (by simp [member])
  have called (move : Move) (member : move ∈ .call (.status id) :: middle) : move.IsOrdinary := by
    rcases List.mem_cons.mp member with rfl | later
    · trivial
    · exact ordinaryMiddle move later
  have ordinaryLate (move : Move) (member : move ∈ late) : move.IsOrdinary := ordinary move (by simp [member])
  rw [run_append] at told
  have here := manned.givenUp_of_told established ordinaryMiddle told failed
  have mannedMiddle : (run setting _ (.call (.status id) :: middle)).Manned := manned.run called
  obtain ⟨stands, _⟩ := manned.later established called
  have shape : world = run setting (run setting (run setting (new setting disk jobs artifacts) early)
      (.call (.status id) :: middle)) late := by rw [← run_append, ← run_append, ← List.append_assoc]
  obtain ⟨stays, onward⟩ := mannedMiddle.later stands ordinaryLate
  have mannedLate : world.Manned := shape ▸ mannedMiddle.run ordinaryLate
  rw [← shape] at stays onward
  have givenUp := here.later onward
  refine ⟨?_, fun more found ordinaryMore again => mannedLate.told_of_givenUp stays givenUp ordinaryMore again⟩
  obtain ⟨record, there, ended⟩ := givenUp
  exact ⟨record, there, ended.imp_right fun runs => ⟨runs.1, (mannedLate.tends.tended id).nobody stays.entered runs.2⟩⟩

/-- In these moves a worker starts a job, and the store refuses its outcome. -/
def unwritten : List Move :=
  .step 1 (chanceOf none) :: List.replicate 4 (.step 2 (chanceOf none)) ++
    [.step 2 (chanceOf (some (.refused "disk gone"))), .step 2 (chanceOf none)]

/-- These are the steps of a look that is the task with a number. -/
def looking (number : Nat) : List Move :=
  List.replicate 2 (.step number (chanceOf none))

/-- This status is what is shown of a job that runs without a live entry. -/
def orphanStatus : JobStatus :=
  { id := "first", state := .failed, progress := 100, error := some .infra }

theorem failed_report_right_unwritten :
    (run .scripted oneBlank (startup requeueing ++ unwritten ++ .call (.status "first") :: looking 6)).custody
      "first" = 0 := by
  have undisturbed : Undisturbed .scripted oneBlank (startup requeueing ++ unwritten) :=
    undisturbed_of_test (by with_unfolding_all rfl)
  have ordinary : ∀ move ∈ startup requeueing ++ unwritten ++ looking 6 ++ [], move.IsOrdinary := by
    simp [startup, requeueing, unwritten, looking, Move.IsOrdinary]
  have shared : (run .scripted oneBlank (startup requeueing ++ unwritten)).channel.receiver = .shared := by
    with_unfolding_all rfl
  have tasks : (run .scripted oneBlank (startup requeueing ++ unwritten)).tasks =
      [2, 3, 4, 5].map fun number => (number, .worker .idle) := by with_unfolding_all rfl
  have entered (number : Nat) : Table.get? number (run .scripted oneBlank (startup requeueing ++ unwritten)).tasks ≠
      some (.submit (.inserted "first")) := by
    intro found
    have inside := Table.mem_of_get? found
    simp [tasks] at inside
  have runs : (Table.get? "first" (run .scripted oneBlank (startup requeueing ++ unwritten)).jobs.records).map
      JobRecord.status = some .running := by with_unfolding_all rfl
  have stored : Table.get? "first" (run .scripted oneBlank (startup requeueing ++ unwritten)).jobs.records ≠ none := by
    intro absent
    simp [absent] at runs
  have counted : (run .scripted oneBlank (startup requeueing ++ unwritten)).nextTask = 6 := by with_unfolding_all rfl
  have seen : (run .scripted oneBlank (startup requeueing ++ unwritten ++ .call (.status "first") :: looking 6)).history =
      [.called 0 .start, .answered 0 (.started (.ok ⟨[], ["first"], 0⟩)), .called 6 (.status "first"),
        .answered 6 (.status (.ok (some orphanStatus)))] := by with_unfolding_all rfl
  have told : .answered (run .scripted oneBlank (startup requeueing ++ unwritten)).nextTask
      (.status (.ok (some orphanStatus))) ∈ (run .scripted oneBlank
        (startup requeueing ++ unwritten ++ .call (.status "first") :: looking 6)).history := by
    rw [counted, seen]
    simp
  have stays : (Table.get? "first" (run .scripted oneBlank (startup requeueing ++ unwritten ++
      .call (.status "first") :: looking 6)).jobs.records).map JobRecord.status = some .running := by
    with_unfolding_all rfl
  obtain ⟨⟨record, found, failed | ⟨_, nobody⟩⟩, _⟩ := failed_report_right (JobStore.keyed_singleton blankRecord) ordinary
    undisturbed shared stored entered told rfl
  · rw [List.append_nil] at found
    have shown : some record.status = some .running := (congrArg (Option.map JobRecord.status) found).symm.trans stays
    rw [failed] at shown
    simp at shown
  · rwa [List.append_nil] at nobody

/-- In these moves a look reads that a job of an earlier process has no live entry, the start enters the job, a worker
starts it, and only then the look reads the record. -/
def overtaken : List Move :=
  .call .start :: List.replicate 5 (.step 0 (chanceOf none)) ++ [.call (.status "first"), .step 1 (chanceOf none)] ++
    List.replicate 5 (.step 0 (chanceOf none)) ++ [.step 2 (chanceOf none)] ++
      List.replicate 2 (.step 3 (chanceOf none)) ++ [.step 1 (chanceOf none)]

/-- A look that began before the start had entered a job may say that the job has failed, though a worker has started it
and a later look shows that it is processed. -/
theorem failed_report_overtaken :
    (∃ record, Table.get? 3 (run .scripted oneBlank overtaken).tasks = some (.worker (.started record)) ∧
      record.id = "first") ∧
    (run .scripted oneBlank (overtaken ++ .call (.status "first") :: looking 7)).history =
      [.called 0 .start, .called 1 (.status "first"), .answered 0 (.started (.ok ⟨[], ["first"], 0⟩)),
        .answered 1 (.status (.ok (some orphanStatus))), .called 7 (.status "first"),
        .answered 7 (.status (.ok (some { id := "first", state := .processing, progress := 0 })))] := by
  refine ⟨⟨{ blankRecord with status := .running, startedAt := some blankRecord.createdAt }, ?_, rfl⟩, ?_⟩
  · with_unfolding_all rfl
  · with_unfolding_all rfl

end World

end ContractWorks
