import ContractWorks.Proofs.Queue.Secure
import ContractWorks.Proofs.Storage.Refinement
import Mathlib.Data.List.Destutter

namespace ContractWorks

open Path (Plain)

/-- These are the steps of a job, from before it is inserted. -/
inductive Edge : Option JobState → Option JobState → Prop where
  | insert : Edge none (some .queued)
  | start : Edge (some .queued) (some .running)
  | finish {last : JobState} (terminal : last.isTerminal = true) : Edge (some .running) (some last)

/-- This is the course of a job from a state on, when it is to end in a given state. -/
def Edge.course (last : JobState) : Option JobState → List (Option JobState)
  | none => [none, some .queued, some .running, some last]
  | some .queued => [some .queued, some .running, some last]
  | some .running => [some .running, some last]
  | some ended => [some ended]

namespace Edge

variable {state next : Option JobState} {last : JobState}

theorem singleton_prefix (last : JobState) (state : Option JobState) : [state] <+: course last state := by
  cases state with
  | none => exact List.prefix_append [none] _
  | some state => cases state <;> exact ⟨_, rfl⟩

theorem course_of_terminal (terminal : last.isTerminal = true) (other : JobState) :
    course other (some last) = [some last] := by
  cases last <;> first | rfl | simp [JobState.isTerminal] at terminal

/-- What follows an edge makes a course with what comes before it. -/
theorem cons_prefix (edge : Edge state next) (terminal : last.isTerminal = true)
    {states : List (Option JobState)} (after : states <+: course last next) :
    ∃ other : JobState, other.isTerminal = true ∧ state :: states <+: course other state := by
  cases edge with
  | insert => exact ⟨last, terminal, List.cons_prefix_cons.mpr ⟨rfl, after⟩⟩
  | start => exact ⟨last, terminal, List.cons_prefix_cons.mpr ⟨rfl, after⟩⟩
  | @finish ended closes =>
    rw [course_of_terminal closes] at after
    exact ⟨ended, closes, List.cons_prefix_cons.mpr ⟨rfl, after⟩⟩

theorem ne (edge : Edge state next) : state ≠ next := by
  cases edge with
  | insert => simp
  | start => simp
  | @finish ended closes =>
    rintro same
    rw [← Option.some.inj same] at closes
    exact absurd closes (by decide)

theorem not_from_terminal (terminal : last.isTerminal = true) : ¬Edge (some last) next := by
  intro edge
  cases edge <;> exact absurd terminal (by decide)

theorem of_canBecome {before after : JobState} (allowed : before.canBecome after = true) :
    Edge (some before) (some after) := by
  cases before <;> cases after <;>
    first | exact .start | exact .finish rfl | exact absurd allowed (by decide)

end Edge

namespace View

variable {view next : View} {reason : Mark → Prop}

/-- A job has begun once its record is not queued any more. -/
def begun (view : View) : Nat :=
  match view.record with
  | none => 0
  | some record => if record.status = .queued then 0 else 1

theorem begun_of_apply {record after : JobRecord} {transition : Transition} {now : Time.Instant}
    (found : view.record = some after) (applied : record.apply now transition = .ok after) :
    view.begun = 1 := by
  obtain ⟨_, rfl⟩ := JobStore.apply_eq_ok applied
  rw [begun, found]
  cases transition <;> simp [Transition.target]

theorem begun_le_one (view : View) : view.begun ≤ 1 := by
  rw [begun]
  split
  · exact Nat.zero_le 1
  · split <;> simp

theorem begun_of_queued {record : JobRecord} (found : view.record = some record)
    (queued : record.status = .queued) : view.begun = 0 := by
  rw [begun, found]
  exact if_pos queued

/-- This function counts the workers that will run the compiler of a job, and the runs so far. -/
def attempts (view : View) : Nat :=
  view.custody.count .pending + view.invoked

/-- A job is compiled once when its attempts do not outnumber its start. -/
def Once (view : View) : Prop :=
  view.attempts ≤ view.begun

theorem Once.keep (once : view.Once) (same : next.record = view.record) (fewer : next.attempts ≤ view.attempts) :
    next.Once := by
  have begun : next.begun = view.begun := by rw [View.begun, View.begun, same]
  unfold Once
  rw [begun]
  exact fewer.trans once

theorem once_of_apply {record after : JobRecord} {transition : Transition} {now : Time.Instant}
    (found : next.record = some after) (applied : record.apply now transition = .ok after)
    (few : next.attempts ≤ 1) : next.Once := by
  unfold Once
  rw [begun_of_apply found applied]
  exact few

theorem queued_of_start {record after : JobRecord} {now : Time.Instant}
    (applied : record.apply now .start = .ok after) : record.status = .queued := by
  have allowed := (JobStore.apply_eq_ok applied).1
  cases status : record.status <;> rw [status] at allowed <;> first | rfl | exact absurd allowed (by decide)

/-- The changes of a job leave at most one run of its compiler. -/
theorem Once.change (once : view.Once) (change : Change reason view next) : next.Once := by
  have bound : view.attempts ≤ 1 := once.trans view.begun_le_one
  cases change with
  | none becomes => exact becomes ▸ once
  | insert free queued becomes =>
    have none : view.begun = 0 := by rw [begun, free]
    have few : view.attempts ≤ 0 := none ▸ once
    subst becomes
    refine Nat.le_trans ?_ (Nat.zero_le _)
    simpa [attempts] using few
  | announce held becomes =>
    subst becomes
    exact once.keep rfl (by simp [attempts, held])
  | accept held becomes =>
    subst becomes
    exact once.keep rfl (by simp [attempts, held])
  | start held found applied becomes =>
    have none : view.begun = 0 := begun_of_queued found (queued_of_start applied)
    have few : view.attempts ≤ 0 := none ▸ once
    subst becomes
    refine once_of_apply rfl applied ?_
    simp only [attempts, held, Multiset.count_add, Multiset.count_singleton, reduceCtorEq, if_false,
      if_true] at few ⊢
    omega
  | skip held found started becomes =>
    subst becomes
    exact once.keep rfl (by simp [attempts, held])
  | unstarted why held becomes =>
    subst becomes
    exact once.keep rfl (by simp [attempts, held])
  | again held becomes =>
    subst becomes
    exact once.keep rfl (by simp [attempts, held])
  | shelve why held becomes =>
    subst becomes
    exact once.keep rfl (by simp [attempts, held])
  | raise held works low becomes =>
    subst becomes
    exact once.keep rfl (Nat.le_refl _)
  | invoke held becomes =>
    -- The worker that was about to run the compiler is now counted as a run.
    subst becomes
    refine once.keep rfl ?_
    simp only [attempts, held, Multiset.count_add, Multiset.count_singleton, reduceCtorEq, if_false, if_true]
    omega
  | yield held becomes =>
    subst becomes
    exact once.keep rfl (by simp [attempts, held])
  | finish held found applied becomes =>
    subst becomes
    refine once_of_apply rfl applied (Nat.le_trans ?_ bound)
    simp [attempts, held]
  | unwritten why held becomes =>
    subst becomes
    exact once.keep rfl (by simp [attempts, held])
  | leave held becomes =>
    subst becomes
    exact once.keep rfl (by simp [attempts, held])
  | drop why held becomes =>
    subst becomes
    exact once.keep rfl (by simp [attempts, held])
  | acceptInVain why held becomes =>
    subst becomes
    exact once.keep rfl (by simp [attempts, held])
  | orphan why found applied becomes =>
    subst becomes
    exact once_of_apply rfl applied bound
  | enter why becomes =>
    subst becomes
    exact once.keep rfl (by simp [attempts])
  | deliver why becomes =>
    subst becomes
    exact once.keep rfl (by simp [attempts])
  | restart why becomes =>
    subst becomes
    exact once.keep rfl (by simp [attempts])

/-- This is the state that the record of a job is in. -/
def status? (view : View) : Option JobState :=
  view.record.map JobRecord.status

/-- A change leaves the record of a job alone, or takes it one step on. -/
theorem status_of_change (change : Change reason view next) :
    next.record = view.record ∨ Edge view.status? next.status? := by
  rcases change.record_cases with same | ⟨record, free, stored, queued⟩ |
    ⟨record, after, transition, now, found, stored, applied⟩
  · exact .inl same
  · refine .inr ?_
    rw [status?, status?, free, stored, Option.map_some, queued]
    exact .insert
  · obtain ⟨allowed, rfl⟩ := JobStore.apply_eq_ok applied
    refine .inr ?_
    rw [status?, status?, found, stored, Option.map_some, Option.map_some, JobStore.status_write]
    exact Edge.of_canBecome allowed

end View

namespace Stored

/-- Stores that are opened where there are no files of records hold no records, and are sound. -/
theorem of_ofConfig {storage : StorageConfig} {before disk : Disk} {stores : Stores}
    (opened : Stores.ofConfig storage before = (disk, .ok stores))
    (empty : ∀ data, storage = .file data → disk.list (Path.join data "jobs") = .ok []) :
    Stored storage stores.jobs stores.artifacts disk ∧ ∀ id, Table.get? id stores.jobs.records = none := by
  cases storage with
  | memory =>
    obtain ⟨rfl, rfl⟩ := by simpa [Stores.ofConfig] using opened
    exact ⟨.memory ⟨Table.distinct_nil, fun found => by simp at found⟩, fun _ => rfl⟩
  | file data =>
    rw [Stores.ofConfig, Stores.openBelow] at opened
    split at opened
    · simp at opened
    · next middle jobs openedJobs =>
      split at opened
      · simp at opened
      · next artifacts openedArtifacts =>
        obtain ⟨rfl, rfl⟩ := by simpa using opened
        rw [ArtifactStore.openBelow, ArtifactStore.openAt] at openedArtifacts
        split at openedArtifacts
        · simp at openedArtifacts
        · next made created =>
          obtain ⟨rfl, rfl⟩ := by simpa using openedArtifacts
          have grows := (Disk.makeDirectories_eq_ok created).1
          have bare : ∀ name : FileName,
              middle.at? (Path.place (Path.join data JobStore.folder.text) ++ [name]) = none := by
            intro name
            have missing := (Disk.mem_list (empty data rfl) name.text).not.mp (by simp)
            have free : made.at? (Path.place (Path.join data "jobs") ++ [name]) = none := by
              cases standing : made.at? (Path.place (Path.join data "jobs") ++ [name]) with
              | none => rfl
              | some entry => exact absurd ⟨name, rfl, by simp [standing]⟩ missing
            rcases grows (Path.place (Path.join data "jobs") ++ [name]) with same | ⟨_, stands⟩
            · exact same.symm.trans free
            · rw [free] at stands
              simp at stands
          obtain ⟨rfl, mirrors⟩ := JobStore.openAt_empty openedJobs bare
          exact ⟨.file (mirrors.spare (grows.growsAt _)), fun _ => rfl⟩

end Stored

namespace World

variable {setting : Setting} {storage : StorageConfig} {world next : World} {id : JobId}

/-- This is the record of a job that outlives the process. -/
def durable? (id : JobId) (world : World) : Option JobRecord :=
  world.jobs.durable? world.disk id

/-- This is the state of the record of a job that outlives the process. -/
def durableState (id : JobId) (world : World) : Option JobState :=
  (world.durable? id).map JobRecord.status

/-- A world is guarded when it is tidy and secure and compiles each job once. -/
structure Guarded (setting : Setting) (storage : StorageConfig) (world : World) : Prop where
  tidy : world.Tidy
  secure : world.Secure setting (Stored.Allows storage) (Stored storage)
  once : ∀ id, (world.view id).Once

theorem Guarded.durable (guarded : world.Guarded setting storage) (plain : Plain id) :
    world.durable? id = (world.view id).record :=
  guarded.secure.stored.sound.durable plain

/-- A new process over sound stores without a record is guarded. -/
theorem guarded_new {jobs : JobStore} {artifacts : ArtifactStore} {disk : Disk}
    (stored : Stored storage jobs artifacts disk) :
    (new setting disk jobs artifacts).Guarded setting storage where
  tidy := ⟨⟨Table.distinct_nil, fun found => by simp [new] at found⟩, stored.sound.isKeyed,
    fun _ _ found => by simp [new] at found⟩
  secure := ⟨stored, fun _ _ found => by simp [new] at found⟩
  once := fun _ => Nat.zero_le _

/-- Each move advances a guarded world. -/
theorem Guarded.advances (guarded : world.Guarded setting storage) {move : Move}
    (moved : move? setting world move = some next) : Advances world move next := by
  refine advances_move guarded.tidy moved fun restarts => ?_
  subst restarts
  exact (guarded.secure.restart moved).2

/-- A move keeps a world guarded, and leaves each record alone or takes it one step on. -/
theorem Guarded.move (guarded : world.Guarded setting storage)
    (confined : ∀ data, storage = .file data → setting.Confined data) (move : Move)
    (safe : ∀ number chance, move = .step number chance → ArtifactStore.isSafeId chance.name = true) :
    (World.move setting world move).Guarded setting storage ∧
      ∀ id, ((World.move setting world move).view id).record = (world.view id).record ∨
        Edge (world.view id).status? ((World.move setting world move).view id).status? := by
  rw [World.move]
  cases moved : move? setting world move with
  | none => exact ⟨guarded, fun _ => .inl rfl⟩
  | some next =>
    have secure : next.Secure setting (Stored.Allows storage) (Stored storage) := by
      by_cases restarts : move = .restart
      · subst restarts
        exact (guarded.secure.restart moved).1
      · refine Secure.move (Stored.laws storage) guarded.secure confined restarts safe ?_ moved
        rintro number chance record workspace directory artifact rfl _ made data file
        have stamped := (confined data file).stamped record.kind directory record.input chance world.disk artifact
        rw [stamped made]
        exact Path.plain_of_safe (safe number chance rfl)
    have advances := guarded.advances moved
    exact ⟨⟨advances.tidy, secure, fun id => (guarded.once id).change (advances.change id)⟩,
      fun id => View.status_of_change (advances.change id)⟩

/-- All moves of a run keep a world guarded. -/
theorem Guarded.run (confined : ∀ data, storage = .file data → setting.Confined data) {moves : List Move} :
    ∀ {world : World}, world.Guarded setting storage →
      (∀ number chance, .step number chance ∈ moves → ArtifactStore.isSafeId chance.name = true) →
        (World.run setting world moves).Guarded setting storage := by
  induction moves with
  | nil => exact fun guarded _ => guarded
  | cons move moves inductionHypothesis =>
    intro world guarded safe
    have first := guarded.move confined move fun number chance same =>
      safe number chance (same ▸ List.mem_cons_self)
    exact inductionHypothesis first.1 fun number chance member =>
      safe number chance (List.mem_cons_of_mem _ member)

/-- The states of a record in a run, each told once, begin a course to one end. -/
theorem course_of_visited (confined : ∀ data, storage = .file data → setting.Confined data) (plain : Plain id)
    {moves : List Move} : ∀ {world : World}, world.Guarded setting storage →
      (∀ number chance, .step number chance ∈ moves → ArtifactStore.isSafeId chance.name = true) →
        ∃ last : JobState, last.isTerminal = true ∧
          ((visited setting world moves).map (durableState id)).destutter (· ≠ ·) <+:
            Edge.course last (world.durableState id) := by
  induction moves with
  | nil =>
    intro world _ _
    exact ⟨.completed, rfl, Edge.singleton_prefix _ _⟩
  | cons move moves inductionHypothesis =>
    intro world guarded safe
    obtain ⟨after, steps⟩ := guarded.move confined move fun number chance same =>
      safe number chance (same ▸ List.mem_cons_self)
    obtain ⟨last, terminal, rest⟩ := inductionHypothesis after fun number chance member =>
      safe number chance (List.mem_cons_of_mem _ member)
    have shape : ∃ worlds, visited setting (World.move setting world move) moves =
        World.move setting world move :: worlds := by
      cases moves with
      | nil => exact ⟨[], rfl⟩
      | cons _ _ => exact ⟨_, List.scanl_cons⟩
    obtain ⟨worlds, shape⟩ := shape
    have visits : visited setting world (move :: moves) =
        world :: visited setting (World.move setting world move) moves := List.scanl_cons
    rw [visits, List.map_cons]
    rw [shape, List.map_cons] at rest ⊢
    have state : durableState id world = (world.view id).status? := congrArg _ (guarded.durable plain)
    have state' : durableState id (World.move setting world move) =
        ((World.move setting world move).view id).status? := congrArg _ (after.durable plain)
    rcases steps id with same | edge
    · have unchanged : durableState id (World.move setting world move) = durableState id world := by
        rw [state, state', View.status?, View.status?, same]
      rw [unchanged] at rest ⊢
      rw [List.destutter_cons_cons, if_neg (by simp)]
      exact ⟨last, terminal, rest⟩
    · rw [← state, ← state'] at edge
      rw [List.destutter_cons_cons, if_pos edge.ne]
      exact edge.cons_prefix terminal rest

/-- A record that is terminal stays as it is through a run. -/
theorem record_of_terminal (confined : ∀ data, storage = .file data → setting.Confined data)
    {record : JobRecord} (terminal : record.status.isTerminal = true) {moves : List Move} :
    ∀ {world : World}, world.Guarded setting storage → (world.view id).record = some record →
      (∀ number chance, .step number chance ∈ moves → ArtifactStore.isSafeId chance.name = true) →
        ((World.run setting world moves).view id).record = some record := by
  induction moves with
  | nil => exact fun _ found _ => found
  | cons move moves inductionHypothesis =>
    intro world guarded found safe
    obtain ⟨after, steps⟩ := guarded.move confined move fun number chance same =>
      safe number chance (same ▸ List.mem_cons_self)
    have kept : ((World.move setting world move).view id).record = some record := by
      rcases steps id with same | edge
      · rw [same, found]
      · rw [View.status?, found] at edge
        exact absurd edge (Edge.not_from_terminal terminal)
    exact inductionHypothesis after kept fun number chance member =>
      safe number chance (List.mem_cons_of_mem _ member)

/-- Over all processes that a run goes through, the record of a job takes the course from queued to running and then
to completed or failed, and stays as it is once it has ended; the compiler of the job is run at most once. -/
theorem forward_and_at_most_once {before disk : Disk} {stores : Stores}
    (opened : Stores.ofConfig storage before = (disk, .ok stores))
    (empty : ∀ data, storage = .file data → disk.list (Path.join data "jobs") = .ok [])
    (confined : ∀ data, storage = .file data → setting.Confined data) (moves : List Move)
    (safe : ∀ number chance, .step number chance ∈ moves → ArtifactStore.isSafeId chance.name = true)
    (plain : Plain id) :
    let start := new setting disk stores.jobs stores.artifacts
    (∃ last : JobState, last.isTerminal = true ∧
        ((visited setting start moves).map (durableState id)).destutter (· ≠ ·) <+:
          [none, some .queued, some .running, some last]) ∧
      (∀ early late record, moves = early ++ late → (run setting start early).durable? id = some record →
        record.status.isTerminal = true → (run setting start moves).durable? id = some record) ∧
        (run setting start moves).history.countP (Event.invokes id) ≤ 1 := by
  obtain ⟨stored, bare⟩ := Stored.of_ofConfig opened empty
  have guarded : (new setting disk stores.jobs stores.artifacts).Guarded setting storage := guarded_new stored
  have ended := guarded.run confined safe
  refine ⟨?_, ?_, ?_⟩
  · obtain ⟨last, terminal, begins⟩ := course_of_visited confined plain guarded safe
    have fresh : durableState id (new setting disk stores.jobs stores.artifacts) = none := by
      rw [durableState, guarded.durable plain]
      exact congrArg _ (bare id)
    rw [fresh] at begins
    exact ⟨last, terminal, begins⟩
  · rintro early late record rfl found terminal
    have safeEarly (number : Nat) (chance : Chance) (member : .step number chance ∈ early) :
        ArtifactStore.isSafeId chance.name = true := safe number chance (List.mem_append_left _ member)
    have safeLate (number : Nat) (chance : Chance) (member : .step number chance ∈ late) :
        ArtifactStore.isSafeId chance.name = true := safe number chance (List.mem_append_right _ member)
    have between := guarded.run confined safeEarly
    rw [between.durable plain] at found
    rw [ended.durable plain, run, List.foldl_append]
    exact record_of_terminal confined terminal between found safeLate
  · have once := ended.once id
    have bound := once.trans (View.begun_le_one _)
    exact Nat.le_trans (Nat.le_add_left _ _) bound

/-- This disk holds the directories of both stores. -/
def servedDisk : Disk :=
  ⟨JobStore.bareDisk.entries ++ [([JobStore.dataFolder, ArtifactStore.folder], .directory)]⟩

theorem ofConfig_servedDisk : Stores.ofConfig (.file "data") .empty =
    (servedDisk, .ok ⟨.file (Path.join "data" "jobs") [], .file (Path.join "data" "artifacts")⟩) := by
  have made : JobStore.bareDisk.makeDirectories (Path.join "data" "artifacts") = .ok servedDisk := by rfl
  rw [Stores.ofConfig, Stores.openBelow, JobStore.openBelow_bareDisk]
  simp only [ArtifactStore.openBelow, ArtifactStore.openAt, made]

theorem list_servedDisk : servedDisk.list (Path.join "data" "jobs") = .ok [] := by
  have names : servedDisk.list (Path.join "data" "jobs") =
      .ok (([] : List String).mergeSort fun first second => decide (first ≤ second)) := by rfl
  rw [names, List.mergeSort_nil]

/-- These moves submit a job, deliver its id once more, and lose the process before they start another one. -/
def interrupted : List Move :=
  [.call .start, .call (.submit .evm { source := "contract Token {}", contractName := "Token" }),
    .step 1 ⟨.sample, "first", none⟩, .step 1 ⟨.sample, "second", some .move⟩, .deliver "first", .restart, .call .start]

theorem forward_and_at_most_once_interrupted :
    Setting.scripted.Confined "data" ∧ Plain "first" ∧
      (run .scripted (new .scripted servedDisk (.file (Path.join "data" "jobs") [])
        (.file (Path.join "data" "artifacts"))) interrupted).history.countP (Event.invokes "first") ≤ 1 := by
  have plain : Plain "first" := ⟨by decide, by decide⟩
  have safe : ∀ number chance, Move.step number chance ∈ interrupted →
      ArtifactStore.isSafeId chance.name = true := by
    have first : ArtifactStore.isSafeId "first" = true := by decide
    have second : ArtifactStore.isSafeId "second" = true := by decide
    intro number chance member
    simp only [interrupted, List.mem_cons, reduceCtorEq, Move.step.injEq, List.not_mem_nil, false_or,
      or_false] at member
    rcases member with ⟨_, rfl⟩ | ⟨_, rfl⟩
    · exact first
    · exact second
  have empty (data : String) (same : StorageConfig.file "data" = .file data) :
      servedDisk.list (Path.join data "jobs") = .ok [] := by
    obtain rfl := StorageConfig.file.inj same
    exact list_servedDisk
  have confined (data : String) (same : StorageConfig.file "data" = .file data) :
      Setting.scripted.Confined data := by
    obtain rfl := StorageConfig.file.inj same
    exact Setting.scripted_confined
  have all := forward_and_at_most_once ofConfig_servedDisk empty confined interrupted safe plain
  exact ⟨Setting.scripted_confined, plain, all.2.2⟩

end World

end ContractWorks
