import ContractWorks.Proofs.Queue.Polling
import ContractWorks.Proofs.Queue.Tending

namespace ContractWorks.World

open Custody (one row)

variable {setting : Setting} {disk : Disk} {jobs : JobStore} {artifacts : ArtifactStore} {base world : World}
  {id : JobId} {move : Move} {moves former : List Move}

/-- A move overlaps a submission when by it a start lists the jobs that wait after the submission has stored its record
and before it has entered its job. -/
def Overlaps (world : World) (move : Move) : Prop :=
  ∃ number chance report other id, move = .step number chance ∧
    Table.get? number world.tasks = some (.start (.relisting report)) ∧
      Table.get? other world.tasks = some (.submit (.inserted id))

/-- Some moves are undisturbed when none of them overlaps a submission. -/
def Undisturbed (setting : Setting) (base : World) (moves : List Move) : Prop :=
  ∀ former move, former ++ [move] <+: moves → ¬(run setting base former).Overlaps move

/-- A world is quiet when the channel is empty and when all that goes on is that workers wait and clients look at
jobs. -/
structure Quiet (world : World) : Prop where
  empty : world.channel.ids = []
  idle : ∀ number task, Table.get? number world.tasks = some task →
    task = .worker .idle ∨ ∃ step, task = .status step

/-- A worker compiles a job from when it has started it until it writes the outcome. -/
def Compiles (world : World) (id : JobId) : Prop :=
  ∃ number step, Table.get? number world.tasks = some (.worker step) ∧
    (.pending ∈ step.custody id ∨ .busy ∈ step.custody id)

theorem Undisturbed.left (undisturbed : Undisturbed setting base (former ++ moves)) :
    Undisturbed setting base former :=
  fun early move inside => undisturbed early move (inside.trans (List.prefix_append _ _))

theorem Undisturbed.last (undisturbed : Undisturbed setting base (former ++ [move])) :
    ¬(run setting base former).Overlaps move :=
  undisturbed former move (List.prefix_refl _)

/-- Only a submission holds a job before it is entered. -/
theorem inserted_of_custody (distinct : Table.Distinct world.tasks) (member : .inserted ∈ world.custody id) :
    ∃ number, Table.get? number world.tasks = some (.submit (.inserted id)) := by
  rcases stage_of_custody distinct member with waits | ⟨number, task, found, holds⟩
  · simp at waits
  · have never {held : JobId} {stage : Stage} (holds : .inserted ∈ one stage held id) (apart : .inserted ≠ stage) :
        False := apart (mem_one holds)
    cases task with
    | submit step =>
      cases step with
      | inserted held =>
        rw [Task.custody, one] at holds
        split at holds
        · next same => exact ⟨number, same ▸ found⟩
        · simp at holds
      | announced held => exact (never holds (by decide)).elim
      | _ => simp [Task.custody] at holds
    | start step =>
      cases step with
      | waiting => simp [Task.custody, StartStep.custody] at holds
      | spawning => simp [Task.custody, StartStep.custody] at holds
      | _ => exact absurd (Multiset.eq_of_mem_replicate holds) (by decide)
    | worker step =>
      cases step with
      | idle => simp [Task.custody, WorkerStep.custody] at holds
      | _ => exact (never holds (by decide)).elim
    | offer ids => exact absurd (Multiset.eq_of_mem_replicate holds) (by decide)
    | retry held awake => exact (never holds (by decide)).elim
    | _ => simp [Task.custody] at holds

/-- A new process tends its jobs, as nobody has come to them. -/
theorem tends_new (keyed : jobs.Keyed) : (new setting disk jobs artifacts).Tends where
  tidy := ⟨⟨List.nodup_nil, fun found => by simp [new] at found⟩, keyed,
    fun _ _ found => by simp [new] at found⟩
  tended id := by
    have nobody : ((new setting disk jobs artifacts).view id).custody = 0 := rfl
    have gone : ((new setting disk jobs artifacts).view id).live = none := rfl
    cases stands : ((new setting disk jobs artifacts).view id).record with
    | none =>
      refine .inl ?_
      rw [View.Served, stands]
      exact ⟨nobody, gone⟩
    | some record =>
      refine .inl (View.served_at_rest stands nobody gone ?_)
      cases status : record.status with
      | queued => exact .inr (.inl ⟨status, trivial, trivial⟩)
      | running => exact .inr (.inr ⟨status, trivial⟩)
      | completed => exact .inl (by rw [status]; rfl)
      | failed => exact .inl (by rw [status]; rfl)
  unmanned _ number works := by simp [roleAt, new] at works
  taken number starts := by simp [Starts, roleAt, new] at starts
  single number _ starts := by simp [Starts, roleAt, new] at starts
  knows number step found := by simp [new] at found
  counted number answer member := by simp [new] at member

/-- A queue goes on to tend its jobs through an ordinary move that overlaps no submission. -/
theorem Tends.onward (tends : world.Tends) (ordinary : move.IsOrdinary) (apart : ¬world.Overlaps move) :
    (World.move setting world move).Tends := by
  rw [World.move]
  cases moved : move? setting world move with
  | none => exact tends
  | some next =>
    by_cases starts : ∃ number chance step, move = .step number chance ∧
        Table.get? number world.tasks = some (.start step)
    · obtain ⟨number, chance, step, rfl, found⟩ := starts
      rw [move?, step?, found] at moved
      rw [Option.getD_some, ← Option.some.inj moved]
      refine tends.start found fun report same id member => ?_
      subst same
      obtain ⟨other, there⟩ := inserted_of_custody tends.tidy.numbered.distinct member
      exact apart ⟨number, chance, report, other, id, rfl, found, there⟩
    · exact tends.pass ordinary (fun number chance step same found => starts ⟨number, chance, step, same, found⟩) moved

/-- A queue tends its jobs through undisturbed moves. -/
theorem Tends.run (tends : base.Tends) (ordinary : ∀ move ∈ moves, move.IsOrdinary)
    (undisturbed : Undisturbed setting base moves) : (World.run setting base moves).Tends := by
  induction moves using List.reverseRecOn with
  | nil => exact tends
  | append_singleton moves last inductionHypothesis =>
    rw [run_concat]
    exact (inductionHypothesis (fun move member => ordinary move (List.mem_append_left _ member))
      undisturbed.left).onward (ordinary last (by simp)) undisturbed.last

/-- In a quiet world nobody holds a job. -/
theorem Quiet.nobody (quiet : world.Quiet) (distinct : Table.Distinct world.tasks) (id : JobId) :
    world.custody id = 0 := by
  have tasks : Table.total (Task.custody id) world.tasks = 0 := by
    refine Multiset.eq_zero_of_forall_notMem fun stage member => ?_
    obtain ⟨⟨number, task⟩, inside, holds⟩ := mem_total member
    rcases quiet.idle number task (Table.get?_of_mem distinct inside) with rfl | ⟨step, rfl⟩
    · simp [Task.custody, WorkerStep.custody] at holds
    · simp [Task.custody] at holds
  rw [custody, quiet.empty, tasks]
  rfl

/-- While a worker is there, no start recovers and nothing is lost. -/
theorem Tends.orderly (tends : world.Tends) (ordinary : move.IsOrdinary) (shared : world.channel.receiver = .shared)
    (id : JobId) : View.Orderly (world.Reason move id) := by
  have recovers : ¬world.Reason move id .recovering := by
    rintro ⟨number, chance, step, _, found, why⟩
    have taken := tends.taken number (starts_of_recovers found why)
    simp [shared] at taken
  refine ⟨?_, recovers, ?_, fun same => ordinary.ne_restart same⟩
  · rintro (gone | why)
    · simp [shared] at gone
    · exact recovers why
  · rintro ⟨other, rfl⟩
    exact ordinary

/-- Where a worker compiles a job, a start has made the workers. -/
theorem Tends.shared_of_compiles (tends : world.Tends) (compiles : world.Compiles id) :
    world.channel.receiver = .shared := by
  obtain ⟨number, step, found, _⟩ := compiles
  by_contra unshared
  exact tends.unmanned unshared number (roleAt_of_found found)

/-- A job that is compiled is held by the worker that compiles it. -/
theorem Compiles.held (compiles : world.Compiles id) (distinct : Table.Distinct world.tasks) :
    ∃ rest stage, world.custody id = rest + {stage} ∧ (stage = .pending ∨ stage = .busy) := by
  obtain ⟨number, step, found, inside⟩ := compiles
  have there {stage : Stage} (member : stage ∈ step.custody id) : stage ∈ world.custody id := by
    rw [custody_of_found distinct found]
    exact Multiset.mem_add.mpr (.inr member)
  have alone {stage : Stage} (member : stage ∈ world.custody id) : ∃ rest, world.custody id = rest + {stage} := by
    obtain ⟨rest, split⟩ := Multiset.exists_cons_of_mem member
    exact ⟨rest, by rw [split, Multiset.add_comm, Multiset.singleton_add]⟩
  rcases inside with pending | busy
  · obtain ⟨rest, held⟩ := alone (there pending)
    exact ⟨rest, .pending, held, .inl rfl⟩
  · obtain ⟨rest, held⟩ := alone (there busy)
    exact ⟨rest, .busy, held, .inr rfl⟩

/-- As long as no start lists the jobs that wait between the record and the live entry of a submission, live entries are
left only of jobs that wait when all is quiet, and the live entry of a job does not go back while the job is
compiled. -/
theorem live_entries_tended (keyed : jobs.Keyed) (ordinary : ∀ move ∈ moves, move.IsOrdinary)
    (undisturbed : Undisturbed setting (new setting disk jobs artifacts) moves) :
    let world := run setting (new setting disk jobs artifacts) moves
    (world.Quiet → ∀ id entry, Table.get? id world.live = some entry →
      ∃ record, Table.get? id world.jobs.records = some record ∧ record.status = .queued) ∧
    ∀ id, world.Compiles id → ∀ move : Move, move.IsOrdinary →
      ∃ entry after, Table.get? id world.live = some entry ∧
        Table.get? id (World.move setting world move).live = some after ∧ entry.progress ≤ after.progress := by
  intro world
  have tends : world.Tends := (tends_new keyed).run ordinary undisturbed
  have distinct := tends.tidy.numbered.distinct
  refine ⟨fun quiet id entry live => ?_, fun id compiles move plain => ?_⟩
  · have nobody : (world.view id).custody = 0 := quiet.nobody distinct id
    rcases tends.tended id with served | ⟨_, waits⟩
    · have gone : (world.view id).live = none := by
        unfold View.Served at served
        split at served
        · exact served.2
        · rcases served with ⟨_, gone, _⟩ | ⟨stage, held, _⟩
          · exact gone
          · rw [nobody] at held
            exact absurd held.symm (Multiset.singleton_ne_zero stage)
      exact absurd (gone.symm.trans live) (by simp)
    · exact waits
  · obtain ⟨rest, stage, held, works⟩ := compiles.held distinct
    exact (tends.tended id).progress (tends.tidy.change plain id) (tends.orderly plain (tends.shared_of_compiles compiles) id) held works

/-- This test asks whether a start is about to list the jobs that wait while a submission is about to enter its own. -/
def mayOverlap (world : World) : Bool :=
  let lists := world.tasks.any fun entry =>
    match entry.2 with
    | .start (.relisting _) => true
    | _ => false
  let enters := world.tasks.any fun entry =>
    match entry.2 with
    | .submit (.inserted _) => true
    | _ => false
  lists && enters

theorem mayOverlap_of_overlaps (overlaps : world.Overlaps move) : world.mayOverlap = true := by
  obtain ⟨number, chance, report, other, id, _, lists, enters⟩ := overlaps
  rw [mayOverlap, Bool.and_eq_true, List.any_eq_true, List.any_eq_true]
  exact ⟨⟨_, Table.mem_of_get? lists, rfl⟩, ⟨_, Table.mem_of_get? enters, rfl⟩⟩

theorem run_mem_visited (inside : former <+: moves) : run setting base former ∈ visited setting base moves := by
  induction moves generalizing base former with
  | nil =>
    rw [List.prefix_nil.mp inside]
    exact List.mem_singleton_self _
  | cons first rest inductionHypothesis =>
    rw [visited, List.scanl_cons]
    cases former with
    | nil => exact List.mem_cons_self
    | cons other former =>
      obtain ⟨rfl, within⟩ := List.cons_prefix_cons.mp inside
      exact List.mem_cons_of_mem _ (inductionHypothesis within)

/-- Moves are undisturbed when none of the worlds that they visit lets a start overlap a submission. -/
theorem undisturbed_of_test (test : (visited setting base moves).all (fun world => !world.mayOverlap) = true) :
    Undisturbed setting base moves := by
  intro former move inside overlaps
  have met := List.all_eq_true.mp test _ (run_mem_visited ((List.prefix_append _ _).trans inside))
  rw [mayOverlap_of_overlaps overlaps] at met
  exact absurd met (by decide)

theorem quiet_of_workers {numbers : List Nat} (empty : world.channel.ids = [])
    (tasks : world.tasks = numbers.map fun number => (number, .worker .idle)) : world.Quiet := by
  refine ⟨empty, fun number task found => .inl ?_⟩
  have inside := Table.mem_of_get? found
  rw [tasks] at inside
  obtain ⟨_, _, same⟩ := List.mem_map.mp inside
  exact (congrArg Prod.snd same).symm

/-- These steps of one task all bring the same name. -/
def plainly (number count : Nat) : List Move :=
  stepping number (List.replicate count "first")

/-- This input is that of a job. -/
def tokenInput : JobInput :=
  { source := "contract Token \x7b\x7d", contractName := "Token" }

/-- This call submits the job. -/
def tokenCall : Call :=
  .submit .evm tokenInput

/-- This is the record of the job when a worker has started it. -/
def startedToken : JobRecord :=
  (JobRecord.new "first" blankRecord.createdAt .evm tokenInput).write blankRecord.createdAt .start

/-- This process has no jobs. -/
def noJobs : World :=
  new .scripted .empty (.memory []) (.memory [])

/-- In these moves a submission is answered before a start begins, and a worker compiles its job. -/
def submittedFirst : List Move :=
  .call tokenCall :: plainly 0 4 ++ .call .start :: plainly 1 9 ++ plainly 2 12

theorem live_entries_tended_submittedFirst :
    (run .scripted noJobs submittedFirst).Quiet ∧
      Table.get? "first" (run .scripted noJobs submittedFirst).live = none := by
  have undisturbed : Undisturbed .scripted noJobs submittedFirst :=
    undisturbed_of_test (by with_unfolding_all rfl)
  have ordinary : ∀ move ∈ submittedFirst, move.IsOrdinary := by
    simp [submittedFirst, plainly, stepping, namedSteps, Move.IsOrdinary]
  have tasks : (run .scripted noJobs submittedFirst).tasks =
      [2, 3, 4, 5].map fun number => (number, .worker .idle) := by with_unfolding_all rfl
  have quiet : (run .scripted noJobs submittedFirst).Quiet := quiet_of_workers (by with_unfolding_all rfl) tasks
  have ended : (Table.get? "first" (run .scripted noJobs submittedFirst).jobs.records).map JobRecord.status =
      some .completed := by with_unfolding_all rfl
  refine ⟨quiet, ?_⟩
  by_contra stands
  obtain ⟨entry, there⟩ := Option.ne_none_iff_exists'.mp stands
  obtain ⟨record, found, waits⟩ :=
    (live_entries_tended JobStore.keyed_empty ordinary undisturbed).1 quiet "first" entry there
  have status := (congrArg (Option.map JobRecord.status) found).symm.trans ended
  rw [Option.map_some, waits] at status
  simp at status

/-- In these moves a start lists a job that its submission has stored, but not entered, and a worker compiles the job
before the submission goes on. -/
def overlapped : List Move :=
  .call tokenCall :: plainly 0 2 ++ .call .start :: plainly 1 10 ++ plainly 2 1 ++ plainly 3 7

/-- Then the worker ends the job, the submission goes on, and the worker takes the id that it sends. -/
def enteredLate : List Move :=
  plainly 3 5 ++ plainly 0 2 ++ plainly 3 2

/-- When a start overlaps a submission, the live entry of a job goes back while the job is compiled, and it is left when
the job has ended and all is quiet. -/
theorem live_entry_overlapped :
    ((run .scripted noJobs overlapped).Compiles "first" ∧
      Table.get? "first" (run .scripted noJobs overlapped).live = some ⟨.running, Progress.toolchainStarted⟩ ∧
      Table.get? "first" (run .scripted noJobs (overlapped ++ plainly 0 1)).live = some ⟨.queued, Progress.queued⟩) ∧
    (run .scripted noJobs (overlapped ++ enteredLate)).Quiet ∧
      Table.get? "first" (run .scripted noJobs (overlapped ++ enteredLate)).live = some ⟨.queued, Progress.queued⟩ ∧
      (Table.get? "first" (run .scripted noJobs (overlapped ++ enteredLate)).jobs.records).map JobRecord.status =
        some .completed := by
  have works : Table.get? 3 (run .scripted noJobs overlapped).tasks = some (.worker (.running startedToken
      ⟨⟨"work", "forge-job-"⟩, some "work/forge-job-first"⟩ "work/forge-job-first")) := by with_unfolding_all rfl
  have tasks : (run .scripted noJobs (overlapped ++ enteredLate)).tasks =
      [3, 4, 5, 6].map fun number => (number, .worker .idle) := by with_unfolding_all rfl
  refine ⟨⟨?_, ?_, ?_⟩, quiet_of_workers ?_ tasks, ?_, ?_⟩
  · refine ⟨3, _, works, .inr ?_⟩
    have named : startedToken.id = "first" := rfl
    rw [WorkerStep.custody, named, Custody.one_self]
    exact Multiset.mem_singleton_self _
  · with_unfolding_all rfl
  · with_unfolding_all rfl
  · with_unfolding_all rfl
  · with_unfolding_all rfl
  · with_unfolding_all rfl

end ContractWorks.World
