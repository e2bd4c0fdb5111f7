import ContractWorks.Proofs.Queue.Crew
import ContractWorks.Proofs.Queue.Once
import ContractWorks.Proofs.Queue.Tenure

namespace ContractWorks

namespace View

variable {view next : View} {reason : Mark → Prop}

/-- This function counts the workers that have started a job and have not written its outcome yet. -/
def hands (view : View) : Nat :=
  view.custody.count .pending + view.custody.count .busy

/-- A job is in the hands of one worker when no more work on it than it was started. -/
def Sole (view : View) : Prop :=
  view.hands ≤ view.begun

theorem Sole.keep (sole : view.Sole) (same : next.record = view.record) (fewer : next.hands ≤ view.hands) :
    next.Sole := by
  have begun : next.begun = view.begun := by rw [begun, begun, same]
  unfold Sole
  rw [begun]
  exact fewer.trans sole

theorem sole_of_apply {record after : JobRecord} {transition : Transition} {now : Time.Instant}
    (found : next.record = some after) (applied : record.apply now transition = .ok after)
    (few : next.hands ≤ 1) : next.Sole := by
  unfold Sole
  rw [begun_of_apply found applied]
  exact few

/-- The changes of a job leave it in the hands of one worker at most. -/
theorem Sole.change (sole : view.Sole) (change : Change reason view next) : next.Sole := by
  have bound : view.hands ≤ 1 := sole.trans view.begun_le_one
  cases change with
  | none becomes => exact becomes ▸ sole
  | insert free queued becomes =>
    have none : view.begun = 0 := by rw [begun, free]
    have few : view.hands ≤ 0 := none ▸ sole
    subst becomes
    refine Nat.le_trans ?_ (Nat.zero_le _)
    simpa [hands] using few
  | start held found applied becomes =>
    -- Nobody has the job in hand before it is started.
    have none : view.begun = 0 := begun_of_queued found (queued_of_start applied)
    have few : view.hands ≤ 0 := none ▸ sole
    subst becomes
    refine sole_of_apply rfl applied ?_
    simp only [hands, held, Multiset.count_add, Multiset.count_singleton, reduceCtorEq, if_false,
      if_true] at few ⊢
    omega
  | finish held found applied becomes =>
    subst becomes
    refine sole_of_apply rfl applied (Nat.le_trans ?_ bound)
    simp [hands, held]
  | orphan why found applied becomes =>
    subst becomes
    exact sole_of_apply rfl applied bound
  | raise held works low becomes =>
    subst becomes
    exact sole.keep rfl (Nat.le_refl _)
  | invoke held becomes =>
    subst becomes
    refine sole.keep rfl ?_
    simp only [hands, held, Multiset.count_add, Multiset.count_singleton, reduceCtorEq, if_false, if_true]
    omega
  | yield held becomes =>
    subst becomes
    refine sole.keep rfl ?_
    simp only [hands, held, Multiset.count_add, Multiset.count_singleton, reduceCtorEq, if_false, if_true]
    omega
  | drop why held becomes =>
    subst becomes
    refine sole.keep rfl ?_
    simp only [hands, held, Multiset.count_add]
    omega
  | _ =>
    -- Here the custody of the job changes at no other stages than before and after the work.
    subst_vars
    exact sole.keep rfl (by simp [hands, *])

end View

/-- A task has a job in hand from the start of the job until its outcome is written. -/
def Task.Handles (id : JobId) (task : Task) : Prop :=
  0 < (task.custody id).count .pending + (task.custody id).count .busy

namespace World

variable {world : World} {id : JobId} {number other : Nat} {task second : Task}

/-- A job that is in the hands of one worker is in those of one task. -/
theorem eq_of_handles (distinct : Table.Distinct world.tasks) (sole : (world.view id).Sole)
    (found : Table.get? number world.tasks = some task) (there : Table.get? other world.tasks = some second)
    (handles : task.Handles id) (alike : second.Handles id) : number = other := by
  by_contra differ
  have remains : Table.get? other (Table.erase number world.tasks) = some second :=
    (Table.get?_erase_of_ne (Ne.symm differ) _).trans there
  have rest := Table.total_erase (Task.custody id) (distinct.erase number) remains
  have custody : world.custody id = world.others number id + task.custody id := custody_of_found distinct found
  rw [others, ← rest] at custody
  have bound : (world.view id).hands ≤ 1 := sole.trans (View.begun_le_one _)
  have held : (world.view id).custody = world.custody id := rfl
  rw [View.hands, held, custody] at bound
  simp only [Multiset.count_add] at bound
  have first : 0 < (task.custody id).count .pending + (task.custody id).count .busy := handles
  have last : 0 < (second.custody id).count .pending + (second.custody id).count .busy := alike
  omega

end World

/-- A task that holds a workspace has the job in hand that it is for. -/
theorem Task.handles_of_lodging {task : Task} {directory : String} {id : JobId}
    (lodges : task.lodging? = some (directory, id)) : task.Handles id := by
  unfold Task.lodging? at lodges
  split at lodges
  case h_5 => simp at lodges
  all_goals
    obtain ⟨-, rfl⟩ := Prod.mk.inj (Option.some.inj lodges)
    simp [Task.Handles, Task.custody, WorkerStep.custody, Custody.one]

/-- The records of stores that have just been opened stand under their own ids. -/
theorem Stores.keyed_of_ofConfig {storage : StorageConfig} {before disk : Disk} {stores : Stores}
    (opened : Stores.ofConfig storage before = (disk, .ok stores)) : stores.jobs.Keyed := by
  cases storage with
  | memory =>
    obtain ⟨-, rfl⟩ := by simpa [Stores.ofConfig] using opened
    exact JobStore.keyed_empty
  | file directory =>
    rw [Stores.ofConfig, Stores.openBelow] at opened
    split at opened
    · simp at opened
    · next jobs made =>
      split at opened
      · simp at opened
      · obtain ⟨-, rfl⟩ := by simpa using opened
        rw [JobStore.openBelow, JobStore.openAt] at made
        split at made
        · simp at made
        · exact .load (Prod.mk.inj made).2

namespace World

variable {setting : Setting} {world next : World} {number : Nat} {chance : Chance} {made : List (String × JobId)}
  {directory : String} {id : JobId}

/-- This function keeps the workspaces that stand on a disk. -/
def standing (disk : Disk) (made : List (String × JobId)) : List (String × JobId) :=
  made.filter fun entry => disk.isDirectory entry.1

/-- This function gives the workspaces that a process has created by the end of a move and that have stood since, each
with the job that it is for, from those that there were before the move. A restart begins a process that has created
none yet. -/
def lodge (setting : Setting) (world : World) (made : List (String × JobId)) (move : Move) : List (String × JobId) :=
  match move, move? setting world move with
  | _, none => made
  | .restart, some _ => []
  | _, some next => standing next.disk ((allots setting world move).toList ++ made)

/-- This function follows the workspaces that a process has created, and that have stood since, through a run. -/
def lodgings (setting : Setting) (world : World) (made : List (String × JobId)) : List Move → List (String × JobId)
  | [] => made
  | move :: moves => lodgings setting (World.move setting world move) (lodge setting world made move) moves

theorem mem_standing {disk : Disk} {entry : String × JobId} :
    entry ∈ standing disk made ↔ entry ∈ made ∧ disk.isDirectory entry.1 = true :=
  List.mem_filter

theorem standing_eq_self {disk : Disk} (stand : ∀ entry ∈ made, disk.isDirectory entry.1 = true) :
    standing disk made = made :=
  List.filter_eq_self.mpr stand

theorem lodge_of_moved {move : Move} (stays : move ≠ .restart) (moved : move? setting world move = some next) :
    lodge setting world made move = standing next.disk ((allots setting world move).toList ++ made) := by
  unfold lodge
  split
  · next stuck => simp [moved] at stuck
  · exact absurd rfl stays
  · next after same =>
    obtain rfl := Option.some.inj (moved.symm.trans same)
    rfl

/-- Workspaces are in order when each of them stands and is held by one worker, and when those that have been created
and still stand are the ones that are held. -/
structure Lodged (setting : Setting) (made : List (String × JobId)) (world : World) : Prop where
  stands : ∀ {number directory id}, world.lodgingAt number = some (directory, id) →
    setting.workspaces.Stands world.disk directory
  apart : ∀ {number other directory id second}, world.lodgingAt number = some (directory, id) →
    world.lodgingAt other = some (directory, second) → number = other
  listed : ∀ entry, entry ∈ made ↔ ∃ number, world.lodgingAt number = some entry
  single : (made.map Prod.fst).Nodup

theorem Lodged.stands_of_mem (lodged : world.Lodged setting made) {entry : String × JobId} (member : entry ∈ made) :
    setting.workspaces.Stands world.disk entry.1 := by
  obtain ⟨number, holds⟩ := (lodged.listed entry).mp member
  exact lodged.stands holds

/-- Workspaces that nobody holds are in order when none has been created. -/
theorem lodged_of_empty (empty : ∀ number, world.lodgingAt number = none) : world.Lodged setting [] where
  stands holds := by simp [empty] at holds
  apart holds := by simp [empty] at holds
  listed entry := by simp [empty]
  single := List.nodup_nil

theorem Lodged.eq_nil (lodged : world.Lodged setting made) (empty : ∀ number, world.lodgingAt number = none) :
    made = [] := by
  refine List.eq_nil_iff_forall_not_mem.mpr fun entry member => ?_
  obtain ⟨number, holds⟩ := (lodged.listed entry).mp member
  simp [empty] at holds

/-- Workspaces stay in order when the same ones are held and no directory is taken away. -/
theorem Lodged.rest (lodged : world.Lodged setting made)
    (same : ∀ number, next.lodgingAt number = world.lodgingAt number)
    (kept : ∀ place, world.disk.at? place = some .directory → next.disk.at? place = some .directory) :
    next.Lodged setting (standing next.disk made) := by
  rw [standing_eq_self fun entry member => ((lodged.stands_of_mem member).keep kept).here]
  refine ⟨fun holds => ?_, fun holds alike => ?_, fun entry => ?_, lodged.single⟩
  · exact (lodged.stands (same _ ▸ holds)).keep kept
  · exact lodged.apart (same _ ▸ holds) (same _ ▸ alike)
  · simp only [same]
    exact lodged.listed entry

/-- Workspaces stay in order when a worker gets one in a directory that there was not before. -/
theorem Lodged.enter (lodged : world.Lodged setting made) {workspace : Workspace}
    (safe : ArtifactStore.isSafeId chance.name = true)
    (created : Workspace.create { config := setting.workspaces } chance.name world.disk =
      (next.disk, workspace, .ok directory))
    (before : world.lodgingAt number = none) (own : next.lodgingAt number = some (directory, id))
    (others : ∀ other, other ≠ number → next.lodgingAt other = world.lodgingAt other) :
    next.Lodged setting (standing next.disk ((directory, id) :: made)) := by
  obtain ⟨stands, free⟩ := Workspace.create_stands safe created
  have kept : ∀ place, world.disk.at? place = some .directory → next.disk.at? place = some .directory :=
    fun _ => (Workspace.create_spec created).1.directory
  have fresh {entry : String × JobId} (held : setting.workspaces.Stands world.disk entry.1) : entry.1 ≠ directory := by
    rintro same
    have stood := held.here
    simp [same, free] at stood
  have former {place : Nat} {entry : String × JobId} (differ : place ≠ number)
      (holds : next.lodgingAt place = some entry) : setting.workspaces.Stands world.disk entry.1 :=
    lodged.stands (others place differ ▸ holds)
  rw [standing_eq_self fun entry member => ?_]
  · refine ⟨fun {place held job} holds => ?_, fun {place other held job second} holds alike => ?_, fun entry => ?_, ?_⟩
    · by_cases same : place = number
      · rw [same, own] at holds
        obtain ⟨rfl, -⟩ := Prod.mk.inj (Option.some.inj holds)
        exact stands
      · exact (former same holds).keep kept
    · by_cases first : place = number <;> by_cases last : other = number
      · exact first.trans last.symm
      · rw [first, own] at holds
        obtain ⟨rfl, -⟩ := Prod.mk.inj (Option.some.inj holds)
        exact absurd rfl (fresh (former last alike))
      · rw [last, own] at alike
        obtain ⟨rfl, -⟩ := Prod.mk.inj (Option.some.inj alike)
        exact absurd rfl (fresh (former first holds))
      · exact lodged.apart (others place first ▸ holds) (others other last ▸ alike)
    · rw [List.mem_cons, lodged.listed]
      constructor
      · rintro (rfl | ⟨place, holds⟩)
        · exact ⟨number, own⟩
        · have differ : place ≠ number := by
            rintro rfl
            simp [before] at holds
          exact ⟨place, (others place differ).trans holds⟩
      · rintro ⟨place, holds⟩
        by_cases same : place = number
        · rw [same, own] at holds
          exact .inl (Option.some.inj holds).symm
        · exact .inr ⟨place, others place same ▸ holds⟩
    · refine List.nodup_cons.mpr ⟨fun member => ?_, lodged.single⟩
      obtain ⟨entry, inside, same⟩ := List.mem_map.mp member
      exact fresh (lodged.stands_of_mem inside) same
  · rcases List.mem_cons.mp member with rfl | older
    · exact stands.here
    · exact ((lodged.stands_of_mem older).keep kept).here

/-- Workspaces stay in order when the directory of a worker is removed and nothing beside it is. -/
theorem Lodged.leave (lodged : world.Lodged setting made)
    (holds : world.lodgingAt number = some (directory, id)) (gone : next.disk.isDirectory directory = false)
    (kept : ∀ place, ¬Path.place directory <+: place → world.disk.at? place = some .directory →
      next.disk.at? place = some .directory)
    (own : next.lodgingAt number = none)
    (others : ∀ other, other ≠ number → next.lodgingAt other = world.lodgingAt other) :
    next.Lodged setting (standing next.disk made) := by
  have before {place : Nat} {entry : String × JobId} (there : next.lodgingAt place = some entry) :
      place ≠ number ∧ world.lodgingAt place = some entry := by
    have differ : place ≠ number := by
      rintro rfl
      simp [own] at there
    exact ⟨differ, others place differ ▸ there⟩
  have stands {place : Nat} {entry : String × JobId} (there : next.lodgingAt place = some entry) :
      setting.workspaces.Stands next.disk entry.1 := by
    obtain ⟨differ, stood⟩ := before there
    refine (lodged.stands stood).beside (lodged.stands holds) (fun same => differ ?_) kept
    exact lodged.apart stood (same ▸ holds)
  refine ⟨stands, fun there alike => lodged.apart (before there).2 (before alike).2, fun entry => ?_,
    lodged.single.sublist (List.filter_sublist.map _)⟩
  rw [mem_standing, lodged.listed]
  constructor
  · rintro ⟨⟨place, there⟩, here⟩
    have differ : place ≠ number := by
      rintro rfl
      obtain rfl := Option.some.inj (holds.symm.trans there)
      simp [gone] at here
    exact ⟨place, (others place differ).trans there⟩
  · rintro ⟨place, there⟩
    exact ⟨⟨place, (before there).2⟩, (stands there).here⟩

theorem working_of_lodgingAt {entry : String × JobId} (holds : world.lodgingAt number = some entry) :
    world.roleAt number = some .working := by
  obtain ⟨task, found, lodges⟩ := Option.bind_eq_some_iff.mp holds
  rw [roleAt_of_found found]
  unfold Task.lodging? at lodges
  split at lodges <;> first | rfl | simp at lodges

/-- There is nobody to hold a workspace while a start sweeps them. -/
theorem Crewed.unlodged (crewed : world.Crewed setting) {report : RecoveryReport}
    (found : Table.get? number world.tasks = some (.start (.sweeping report))) (other : Nat) :
    world.lodgingAt other = none := by
  have taken := crewed.taken number (starts_of_recovers found trivial)
  cases holds : world.lodgingAt other with
  | none => rfl
  | some entry => exact absurd (working_of_lodgingAt holds) (crewed.unmanned (by simp [taken]) other)

/-- A move of a process that goes on leaves the workspaces in order. -/
theorem Lodged.move (lodged : world.Lodged setting made) (contained : setting.Contained)
    (crewed : world.Crewed setting) (housed : world.Everywhere (Task.Housed setting fun _ _ => True))
    (numbered : world.Numbered) {move : Move}
    (stays : move ≠ .restart) (safe : ∀ number chance, move = .step number chance → ArtifactStore.isSafeId chance.name = true)
    (moved : move? setting world move = some next) : next.Lodged setting (lodge setting world made move) := by
  rw [lodge_of_moved stays moved]
  cases tenure_of_move numbered stays moved with
  | rest idle same kept =>
    rw [idle]
    exact lodged.rest same kept
  | @sweep number chance report found same =>
    have unlodged := crewed.unlodged found
    have idle : allots setting world (.step number chance) = none := allots_of_found found (by simp)
    rw [idle, lodged.eq_nil unlodged]
    exact lodged_of_empty fun other => (same other).trans (unlodged other)
  | enter allotted created before own others =>
    rw [allotted]
    exact lodged.enter (safe _ _ rfl) created before own others
  | @leave number chance record workspace directory idle found disk own others =>
    rw [idle]
    have holds : world.lodgingAt number = some (directory, record.id) := lodgingAt_of_found found
    obtain ⟨held, name, named, path⟩ := housed number _ found
    have below : Path.place directory ≠ [] := path ▸ (WorkspaceConfig.apart_of_names named named).2.2
    refine lodged.leave holds ?_ (fun place outside here => ?_) own others
    · rw [disk]
      exact (Workspace.cleanup_clears below held).1
    · rw [disk, (Workspace.cleanup_clears below held).2 place outside]
      exact contained record.kind directory record.input chance world.disk place outside here

/-- A queue is tenanted when its workspaces, its workers and its jobs are in order. -/
structure Tenanted (setting : Setting) (made : List (String × JobId)) (world : World) : Prop where
  tidy : world.Tidy
  crewed : world.Crewed setting
  housed : world.Everywhere (Task.Housed setting fun _ _ => True)
  sole : ∀ id, (world.view id).Sole
  lodged : world.Lodged setting made

/-- A process without tasks is tenanted, and has created no workspace yet. -/
theorem tenanted_of_idle (idle : world.tasks = []) (empty : world.channel.ids = []) (keyed : world.jobs.Keyed) :
    world.Tenanted setting [] where
  tidy := ⟨⟨idle ▸ Table.distinct_nil, fun found => by simp [idle] at found⟩, keyed,
    fun _ _ found => by simp [idle] at found⟩
  crewed := crewed_of_idle idle
  housed _ _ found := by simp [idle] at found
  sole id := by
    have nobody : (world.view id).custody = 0 := by
      show custody id world = 0
      rw [custody, idle, empty]
      rfl
    have none : (world.view id).hands = 0 := by rw [View.hands, nobody, Multiset.count_zero, Multiset.count_zero]
    exact none.trans_le (Nat.zero_le _)
  lodged := lodged_of_empty fun number => by simp [lodgingAt, idle]

/-- The directories of workspaces have names of their own after a move of a process that goes on. -/
theorem housed_of_moved (housed : world.Everywhere (Task.Housed setting fun _ _ => True)) {move : Move}
    (stays : move ≠ .restart)
    (safe : ∀ number chance, move = .step number chance → ArtifactStore.isSafeId chance.name = true)
    (moved : move? setting world move = some next) : next.Everywhere (Task.Housed setting fun _ _ => True) := by
  have laws : StoreLaws .memory (fun _ _ => True) fun _ _ _ => True :=
    ⟨fun _ _ => trivial, fun _ _ _ _ => trivial, fun _ _ _ => trivial, fun _ _ _ => trivial⟩
  have secure : Secure setting (fun _ _ => True) (fun _ _ _ => True) world := ⟨trivial, housed⟩
  refine (secure.move laws (fun data file => ?_) stays safe (fun _ _ _ _ _ _ _ _ _ => trivial) moved).housed
  simp at file

/-- Every move leaves a queue tenanted. -/
theorem Tenanted.move (tenanted : world.Tenanted setting made) (contained : setting.Contained) (move : Move)
    (safe : ∀ number chance, move = .step number chance → ArtifactStore.isSafeId chance.name = true) :
    (World.move setting world move).Tenanted setting (lodge setting world made move) := by
  rw [World.move]
  cases moved : move? setting world move with
  | none =>
    have stuck : lodge setting world made move = made := by simp [lodge, moved]
    rw [stuck]
    exact tenanted
  | some next =>
    by_cases restarts : move = .restart
    · subst restarts
      have none : lodge setting world made .restart = [] := by simp [lodge, moved]
      rw [none]
      obtain ⟨_, _, _, _, reopened, _, rfl⟩ := stores_of_restart moved
      exact tenanted_of_idle rfl rfl (tenanted.tidy.keyed.reopen reopened)
    · have advances := advances_move tenanted.tidy moved fun same => absurd same restarts
      exact ⟨advances.tidy, tenanted.crewed.move tenanted.tidy.numbered moved,
        housed_of_moved tenanted.housed restarts safe moved,
        fun id => (tenanted.sole id).change (advances.change id),
        tenanted.lodged.move contained tenanted.crewed tenanted.housed tenanted.tidy.numbered restarts safe moved⟩

/-- All moves of a run leave a queue tenanted. -/
theorem Tenanted.run (contained : setting.Contained) {moves : List Move} :
    ∀ {world : World} {made : List (String × JobId)}, world.Tenanted setting made →
      (∀ number chance, .step number chance ∈ moves → ArtifactStore.isSafeId chance.name = true) →
        (World.run setting world moves).Tenanted setting (lodgings setting world made moves) := by
  induction moves with
  | nil => exact fun tenanted _ => tenanted
  | cons move moves inductionHypothesis =>
    intro world made tenanted safe
    have first := tenanted.move contained move fun number chance same => safe number chance (same ▸ List.mem_cons_self)
    exact inductionHypothesis first fun number chance member => safe number chance (List.mem_cons_of_mem _ member)

/-- There are no more workspaces than workers. -/
theorem Lodged.length_le (lodged : world.Lodged setting made) (crewed : world.Crewed setting) :
    made.length ≤ setting.workerCount := by
  obtain ⟨crew, bound, inside⟩ := crewed.crew
  have within : made ⊆ crew.filterMap world.lodgingAt := by
    intro entry member
    obtain ⟨number, holds⟩ := (lodged.listed entry).mp member
    exact List.mem_filterMap.mpr ⟨number, inside number (working_of_lodgingAt holds), holds⟩
  calc
    made.length ≤ (crew.filterMap world.lodgingAt).length := (lodged.single.of_map.subperm within).length_le
    _ ≤ crew.length := List.length_filterMap_le _ _
    _ ≤ setting.workerCount := bound

/-- There is no workspace for a job any more when its outcome is written. -/
theorem Tenanted.released (tenanted : world.Tenanted setting made) {transition : Transition}
    (found : Table.get? number world.tasks = some (.worker (.finishing id transition))) (directory : String) :
    (directory, id) ∉ made := by
  intro member
  obtain ⟨other, holds⟩ := (tenanted.lodged.listed _).mp member
  obtain ⟨task, there, lodges⟩ := Option.bind_eq_some_iff.mp holds
  have handles : (Task.worker (.finishing id transition)).Handles id := by
    simp [Task.Handles, Task.custody, WorkerStep.custody, Custody.one]
  obtain rfl := eq_of_handles tenanted.tidy.numbered.distinct (tenanted.sole id) found there handles
    (Task.handles_of_lodging lodges)
  obtain rfl := Option.some.inj (found.symm.trans there)
  simp [Task.lodging?] at lodges

/-- Workspaces are exclusive and always released. Whatever a queue does over its stores, on compilers that leave the
directories of others alone, no two tasks hold the same directory, the directories that its process has created and that
still stand are no more than its workers, and they are those that a job in compile holds; none of them is that of a job
whose worker is about to write the outcome. -/
theorem workspaces_exclusive_and_released {storage : StorageConfig} {before disk : Disk} {stores : Stores}
    (opened : Stores.ofConfig storage before = (disk, .ok stores)) (contained : setting.Contained) (moves : List Move)
    (safe : ∀ number chance, .step number chance ∈ moves → ArtifactStore.isSafeId chance.name = true) :
    let start := new setting disk stores.jobs stores.artifacts
    let world := run setting start moves
    let made := lodgings setting start [] moves
    (∀ number other directory id second, world.lodgingAt number = some (directory, id) →
        world.lodgingAt other = some (directory, second) → number = other) ∧
      (made.map Prod.fst).Nodup ∧ made.length ≤ setting.workerCount ∧
      (∀ entry, entry ∈ made ↔ ∃ number, world.lodgingAt number = some entry) ∧
      (∀ entry ∈ made, world.disk.isDirectory entry.1 = true) ∧
      ∀ number id transition, Table.get? number world.tasks = some (.worker (.finishing id transition)) →
        ∀ directory, (directory, id) ∉ made := by
  intro start world made
  have fresh : start.Tenanted setting [] := tenanted_of_idle rfl rfl (Stores.keyed_of_ofConfig opened)
  have tenanted : world.Tenanted setting made := fresh.run contained safe
  have lodged := tenanted.lodged
  refine ⟨fun number other directory id second => lodged.apart, lodged.single, lodged.length_le tenanted.crewed,
    lodged.listed, fun entry member => (lodged.stands_of_mem member).here,
    fun number id transition found => tenanted.released found⟩

/-- These moves have two workers compile a job each, until one of them is about to write that its compiler broke off. -/
def brokenOff : List Move :=
  [.call .start] ++ List.replicate 8 (.step 0 ⟨.sample, "begin", none⟩) ++
    [.call (.submit .evm { source := "@PANIC", contractName := "Token" })] ++
    List.replicate 4 (.step 5 ⟨.sample, "first", none⟩) ++
    [.call (.submit .evm { source := "contract Token {}", contractName := "Token" })] ++
    List.replicate 4 (.step 6 ⟨.sample, "second", none⟩) ++ List.replicate 7 (.step 1 ⟨.sample, "left", none⟩) ++
    List.replicate 6 (.step 2 ⟨.sample, "right", none⟩) ++ [.step 1 ⟨.sample, "after", none⟩]

/-- This is the world that these moves lead to in a new process over empty stores. -/
def abandoned : World :=
  run .scripted (new .scripted .empty (.memory []) (.memory [])) brokenOff

theorem workspaces_exclusive_and_released_brokenOff :
    let made := lodgings .scripted (new .scripted .empty (.memory []) (.memory [])) [] brokenOff
    Setting.scripted.Contained ∧ abandoned.lodgingAt 2 = some ("work/forge-job-right", "second") ∧
      ("work/forge-job-right", "second") ∈ made ∧ abandoned.disk.isDirectory "work/forge-job-right" = true ∧
      Table.get? 1 abandoned.tasks = some (.worker (.finishing "first" (.fail .infra))) ∧
      ∀ directory, (directory, "first") ∉ made := by
  have opened : Stores.ofConfig .memory .empty = (.empty, .ok ⟨.memory [], .memory []⟩) := rfl
  have contained : Setting.scripted.Contained := Setting.scripted_confined.contained
  have named : ∀ name ∈ ["begin", "first", "second", "left", "right", "after"],
      ArtifactStore.isSafeId name = true := by decide
  have safe (number : Nat) (chance : Chance) (member : .step number chance ∈ brokenOff) :
      ArtifactStore.isSafeId chance.name = true := by
    refine named chance.name ?_
    simp only [brokenOff, List.mem_append, List.mem_replicate, List.mem_singleton, Move.step.injEq, reduceCtorEq,
      false_or, or_false] at member
    rcases member with ((((⟨-, -, rfl⟩ | ⟨-, -, rfl⟩) | ⟨-, -, rfl⟩) | ⟨-, -, rfl⟩) | ⟨-, -, rfl⟩) | ⟨-, rfl⟩ <;> simp
  have holds : abandoned.lodgingAt 2 = some ("work/forge-job-right", "second") := by with_unfolding_all rfl
  have writes : Table.get? 1 abandoned.tasks = some (.worker (.finishing "first" (.fail .infra))) := by
    with_unfolding_all rfl
  obtain ⟨-, -, -, listed, stand, released⟩ := workspaces_exclusive_and_released opened contained brokenOff safe
  have member := (listed ("work/forge-job-right", "second")).mpr ⟨2, holds⟩
  exact ⟨contained, holds, member, stand ("work/forge-job-right", "second") member, writes, released 1 "first" (.fail .infra) writes⟩

end World

end ContractWorks
