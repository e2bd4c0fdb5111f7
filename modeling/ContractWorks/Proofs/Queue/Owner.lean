import ContractWorks.Proofs.Queue.Secure
import ContractWorks.Proofs.Queue.Startup
import ContractWorks.Proofs.Storage.Artifact

namespace ContractWorks

open ArtifactStore (Lasts)
open Path (Plain)

/-- A task deposits an artifact for a job when it is about to store it, or to note it as what the job has made. -/
def Task.Deposits (artifact : ArtifactId) (id : JobId) : Task → Prop
  | .worker (.collected record made) => made.id = artifact ∧ record.id = id
  | .worker (.storing record made) => made.id = artifact ∧ record.id = id
  | .worker (.finishing held (.complete noted)) => noted = artifact ∧ held = id
  | _ => False

theorem Task.Housed.imp {setting : Setting} {allows others : ArtifactId → JobId → Prop} {task : Task}
    (housed : task.Housed setting allows)
    (gives : ∀ artifact id, task.Deposits artifact id → allows artifact id → others artifact id) :
    task.Housed setting others := by
  unfold Task.Housed at housed ⊢
  split at housed
  · exact housed
  · exact housed
  · exact housed
  · exact housed
  · exact housed
  · exact gives _ _ ⟨rfl, rfl⟩ housed
  · exact gives _ _ ⟨rfl, rfl⟩ housed
  · exact gives _ _ ⟨rfl, rfl⟩ housed
  · trivial

/-- A task that deposits an artifact is busy with its job. -/
theorem Task.busy_of_deposits {artifact : ArtifactId} {id : JobId} {task : Task} (deposits : task.Deposits artifact id) :
    task.custody id = {.busy} := by
  unfold Task.Deposits at deposits
  split at deposits
  · obtain ⟨_, rfl⟩ := deposits
    exact Custody.one_self _ _
  · obtain ⟨_, rfl⟩ := deposits
    exact Custody.one_self _ _
  · obtain ⟨_, rfl⟩ := deposits
    exact Custody.one_self _ _
  · exact deposits.elim

/-- An artifact is named by a table of records when one of them has it. -/
def Named (records : Table JobId JobRecord) (artifact : ArtifactId) : Prop :=
  ∃ id record, Table.get? id records = some record ∧ record.artifactId = some artifact

/-- An artifact is delivered when a job has completed with it. -/
def Delivered (jobs : JobStore) (artifact : ArtifactId) : Prop :=
  ∃ id record, Table.get? id jobs.records = some record ∧ record.status = .completed ∧
    record.artifactId = some artifact

namespace World

/-- This function gives the name that comes with a move. -/
def Move.name? : Move → Option String
  | .step _ chance => some chance.name
  | _ => none

/-- The names of some moves are fresh when each of them comes once, can name a file, and is not the name of an
artifact that a record had at first. -/
structure Fresh (first : Table JobId JobRecord) (moves : List Move) : Prop where
  distinct : (moves.filterMap Move.name?).Nodup
  safe : ∀ name ∈ moves.filterMap Move.name?, ArtifactStore.isSafeId name = true
  unused : ∀ name ∈ moves.filterMap Move.name?, ¬Named first name

variable {setting : Setting} {storage : StorageConfig} {first : Table JobId JobRecord} {early late moves : List Move}
  {owner : ArtifactId → Option JobId} {world next : World} {artifact : ArtifactId} {id : JobId} {number : Nat}
  {chance : Chance} {move : Move}

theorem Fresh.left (fresh : Fresh first (early ++ late)) : Fresh first early := by
  obtain ⟨distinct, safe, unused⟩ := fresh
  rw [List.filterMap_append] at distinct safe unused
  exact ⟨(List.nodup_append.mp distinct).1, fun name member => safe name (List.mem_append_left _ member),
    fun name member => unused name (List.mem_append_left _ member)⟩

theorem Fresh.last (fresh : Fresh first (moves ++ [.step number chance])) :
    chance.name ∉ moves.filterMap Move.name? ∧ ArtifactStore.isSafeId chance.name = true ∧
      ¬Named first chance.name := by
  obtain ⟨distinct, safe, unused⟩ := fresh
  have names : (moves ++ [Move.step number chance]).filterMap Move.name? =
      moves.filterMap Move.name? ++ [chance.name] := List.filterMap_append
  rw [names] at distinct safe unused
  have member : chance.name ∈ moves.filterMap Move.name? ++ [chance.name] := by simp
  refine ⟨fun before => ?_, safe _ member, unused _ member⟩
  exact (List.nodup_append.mp distinct).2.2 _ before _ (List.mem_singleton_self _) rfl

/-- An artifact is owned by a job to which it has been given; where artifacts are files, it names one. -/
def Owns (storage : StorageConfig) (owner : ArtifactId → Option JobId) (artifact : ArtifactId) (id : JobId) : Prop :=
  owner artifact = some id ∧ ∀ data, storage = .file data → Plain artifact

/-- The jobs that have completed own what they have made, unless a record had it at first. -/
def Owned (first : Table JobId JobRecord) (owner : ArtifactId → Option JobId) (jobs : JobStore) : Prop :=
  ∀ id record artifact, Table.get? id jobs.records = some record → record.status = .completed →
    record.artifactId = some artifact → owner artifact = some id ∨ Named first artifact

theorem Owned.withRecord {jobs : JobStore} (owned : Owned first owner jobs) {record : JobRecord}
    (own : ∀ artifact, record.status = .completed → record.artifactId = some artifact → owner artifact = some id) :
    Owned first owner (jobs.withRecords (Table.insert id record jobs.records)) := by
  intro key found artifact there completed names
  rw [JobStore.records_withRecords] at there
  by_cases same : key = id
  · subst same
    obtain rfl := Option.some.inj ((Table.get?_insert_self _ _ _).symm.trans there)
    exact .inl (own artifact completed names)
  · exact owned key found artifact (by rwa [Table.get?_insert_of_ne same] at there) completed names

/-- Stores that are provided stay so, and their completed jobs own what they have made. -/
theorem owned_laws (first : Table JobId JobRecord) (storage : StorageConfig) (owner : ArtifactId → Option JobId) :
    StoreLaws storage (Owns storage owner) fun jobs artifacts disk =>
      Provided storage jobs artifacts disk ∧ Owned first owner jobs where
  spare := fun holds spares => ⟨(holds.1.spare spares).1, holds.2⟩
  insert := by
    intro jobs other artifacts disk next record fault result holds queued plain done
    refine ⟨(holds.1.insert plain done).1, ?_⟩
    rcases JobStore.insert_cases done with ⟨_, _, rfl⟩ | ⟨rfl, _⟩
    · exact holds.2.withRecord fun _ completed => by simp [queued] at completed
    · exact holds.2
  transition := by
    intro jobs other artifacts disk next id transition now fault result holds allowed done
    refine ⟨(holds.1.transition done).1, ?_⟩
    rcases JobStore.transition_cases done with ⟨before, after, _, applied, _, rfl⟩ | ⟨rfl, _⟩
    · refine holds.2.withRecord fun artifact completed names => ?_
      obtain ⟨_, rfl⟩ := JobStore.apply_eq_ok applied
      cases transition with
      | start => exact absurd completed (by simp [JobRecord.write])
      | fail error => exact absurd completed (by simp [JobRecord.write])
      | complete made =>
        obtain rfl : made = artifact := Option.some.inj names
        exact (allowed made rfl).1
    · exact holds.2
  putArtifact := fun holds owns done => ⟨(holds.1.putArtifact owns.2 done).1, holds.2⟩

/-- A world is owning when each artifact that was made belongs to one job, by a name that some moves brought. -/
structure Owning (setting : Setting) (storage : StorageConfig) (first : Table JobId JobRecord) (moves : List Move)
    (owner : ArtifactId → Option JobId) (world : World) : Prop where
  brought : ∀ artifact id, owner artifact = some id → artifact ∈ moves.filterMap Move.name?
  secure : world.Secure setting (Owns storage owner) fun jobs artifacts disk =>
    Provided storage jobs artifacts disk ∧ Owned first owner jobs

/-- An artifact may be given to a job as long as nobody owns it. -/
theorem Owning.give (owning : world.Owning setting storage first moves owner) (free : owner artifact = none)
    (id : JobId) (brings : move.name? = some artifact) :
    world.Owning setting storage first (moves ++ [move]) (Function.update owner artifact (some id)) := by
  have kept (other : ArtifactId) (held : JobId) (owns : owner other = some held) :
      Function.update owner artifact (some id) other = some held := by
    have differ : other ≠ artifact := by
      rintro rfl
      simp [free] at owns
    rw [Function.update_of_ne differ, owns]
  refine ⟨fun other held owns => ?_, ⟨⟨owning.secure.stored.1, ?_⟩, fun number task found => ?_⟩⟩
  · rw [List.filterMap_append, List.mem_append]
    by_cases same : other = artifact
    · subst same
      exact .inr (by simp [brings])
    · rw [Function.update_of_ne same] at owns
      exact .inl (owning.brought other held owns)
  · intro key record other there completed names
    exact (owning.secure.stored.2 key record other there completed names).imp_left (kept other key)
  · refine (owning.secure.housed number task found).imp fun other held _ owns => ⟨kept other held owns.1, owns.2⟩

theorem Owning.more (owning : world.Owning setting storage first moves owner) (move : Move) :
    world.Owning setting storage first (moves ++ [move]) owner := by
  refine ⟨fun artifact id owns => ?_, owning.secure⟩
  rw [List.filterMap_append]
  exact List.mem_append_left _ (owning.brought artifact id owns)

/-- A world stays owning through a move that makes no artifact but those that are owned. -/
theorem Owning.hold (owning : world.Owning setting storage first moves owner)
    (confined : ∀ data, storage = .file data → setting.Confined data) (stays : move ≠ .restart)
    (safe : ∀ number chance, move = .step number chance → ArtifactStore.isSafeId chance.name = true)
    (owns : ∀ number chance record workspace directory artifact, move = .step number chance →
      Table.get? number world.tasks = some (.worker (.running record workspace directory)) →
        (setting.compilers record.kind directory record.input chance world.disk).2 = .made artifact →
          Owns storage owner artifact.id record.id) :
    (World.move setting world move).Owning setting storage first moves owner := by
  rw [World.move]
  cases moved : move? setting world move with
  | none => exact owning
  | some next =>
    exact ⟨owning.brought, Secure.move (owned_laws first storage owner) owning.secure confined stays safe owns moved⟩

/-- What a compiler makes next is given to the job that it runs for. -/
theorem Owning.proceed (owning : world.Owning setting storage first moves owner) (stamps : setting.Stamps)
    (confined : ∀ data, storage = .file data → setting.Confined data) (stays : move ≠ .restart)
    (fresh : Fresh first (moves ++ [move])) :
    ∃ owner, (World.move setting world move).Owning setting storage first (moves ++ [move]) owner := by
  have safe (number : Nat) (chance : Chance) (same : move = .step number chance) :
      ArtifactStore.isSafeId chance.name = true := by
    subst same
    exact fresh.last.2.1
  by_cases runs : ∃ number chance record workspace directory, move = .step number chance ∧
      Table.get? number world.tasks = some (.worker (.running record workspace directory))
  · obtain ⟨number, chance, record, workspace, directory, rfl, found⟩ := runs
    have free : owner chance.name = none := by
      cases owned : owner chance.name with
      | none => rfl
      | some id => exact absurd (owning.brought _ _ owned) fresh.last.1
    have given : world.Owning setting storage first (moves ++ [.step number chance])
        (Function.update owner chance.name (some record.id)) := owning.give free record.id rfl
    refine ⟨_, given.hold confined stays safe fun other same held _ _ artifact steps there made => ?_⟩
    obtain ⟨rfl, rfl⟩ := Move.step.inj steps
    have tasks := Option.some.inj (found.symm.trans there)
    injection tasks with worker
    injection worker with record
    subst record
    have name := stamps _ _ _ _ _ artifact made
    rw [name]
    exact ⟨Function.update_self _ _ _, fun _ _ => Path.plain_of_safe (safe _ _ rfl)⟩
  · refine ⟨owner, (owning.more move).hold confined stays safe ?_⟩
    intro number chance record workspace directory _ same found _
    exact absurd ⟨number, chance, record, workspace, directory, same, found⟩ runs

/-- A run whose names are fresh is owning. -/
theorem owning_run {jobs : JobStore} {artifacts : ArtifactStore} {disk : Disk}
    (provided : Provided storage jobs artifacts disk) (stamps : setting.Stamps)
    (confined : ∀ data, storage = .file data → setting.Confined data) (ordinary : ∀ move ∈ moves, move.IsOrdinary)
    (fresh : Fresh jobs.records moves) :
    ∃ owner, (run setting (new setting disk jobs artifacts) moves).Owning setting storage jobs.records moves owner := by
  induction moves using List.reverseRecOn with
  | nil =>
    refine ⟨fun _ => none, fun _ _ owns => by simp at owns, ⟨provided, fun id record artifact found _ names => ?_⟩,
      fun number task found => ?_⟩
    · exact .inr ⟨id, record, found, names⟩
    · simp [run, new] at found
  | append_singleton moves last inductionHypothesis =>
    obtain ⟨owner, owning⟩ := inductionHypothesis (fun move member => ordinary move (List.mem_append_left _ member))
      fresh.left
    rw [run_concat]
    exact owning.proceed stamps confined (ordinary last (by simp)).ne_restart fresh

/-- The artifacts that a queue has delivered are not touched any more: those that are stored later are new. -/
theorem Owning.lasts {evidence : JobId → Mark → Prop} {report : RecoveryReport}
    (owning : world.Owning setting storage first moves owner) (begun : world.Begun evidence first report)
    (stamps : setting.Stamps) (confined : ∀ data, storage = .file data → setting.Confined data)
    (ordinary : move.IsOrdinary) (fresh : Fresh first (moves ++ [move])) (delivered : Delivered world.jobs artifact) :
    Lasts artifact world.artifacts world.disk (World.move setting world move).artifacts
      (World.move setting world move).disk := by
  rw [World.move]
  cases moved : move? setting world move with
  | none => exact fun _ got => got
  | some next =>
    have stays := ordinary.ne_restart
    have safe (number : Nat) (chance : Chance) (same : move = .step number chance) :
        ArtifactStore.isSafeId chance.name = true := by
      subst same
      exact fresh.last.2.1
    -- Only what has not been delivered may be put.
    have laws : StoreLaws storage (fun other _ => ¬Delivered world.jobs other ∧ ∀ data, storage = .file data → Plain other)
        fun jobs artifacts disk => Provided storage jobs artifacts disk ∧
          Lasts artifact world.artifacts world.disk artifacts disk := by
      refine ⟨fun holds spares => ?_, fun holds _ plain done => ?_, fun holds _ done => ?_, ?_⟩
      · obtain ⟨provided, lasts⟩ := holds.1.spare spares
        exact ⟨provided, holds.2.trans (lasts artifact)⟩
      · obtain ⟨provided, lasts⟩ := holds.1.insert plain done
        exact ⟨provided, holds.2.trans (lasts artifact)⟩
      · obtain ⟨provided, lasts⟩ := holds.1.transition done
        exact ⟨provided, holds.2.trans (lasts artifact)⟩
      · intro jobs artifacts kept disk next made fault id result holds allowed done
        obtain ⟨provided, lasts⟩ := holds.1.putArtifact allowed.2 done
        have differ : artifact ≠ made.id := fun same => allowed.1 (same ▸ delivered)
        exact ⟨provided, holds.2.trans (lasts artifact differ)⟩
    have secure : world.Secure setting
        (fun other _ => ¬Delivered world.jobs other ∧ ∀ data, storage = .file data → Plain other)
        fun jobs artifacts disk => Provided storage jobs artifacts disk ∧
          Lasts artifact world.artifacts world.disk artifacts disk := by
      refine ⟨⟨owning.secure.stored.1, fun _ got => got⟩, fun number task found => ?_⟩
      refine (owning.secure.housed number task found).imp fun other id deposits owns => ⟨?_, owns.2⟩
      rintro ⟨holder, record, stands, completed, names⟩
      rcases owning.secure.stored.2 holder record other stands completed names with same | named
      · -- The one who deposits is busy with its job, so that this one still runs.
        obtain rfl := Option.some.inj (owns.1.symm.trans same)
        have held : (world.view id).custody = world.others number id + {.busy} := by
          rw [← Task.busy_of_deposits deposits]
          exact custody_of_found begun.serves.tidy.numbered.distinct found
        obtain ⟨_, running, there, runs, _⟩ := (begun.serves.served id).holder held
        have same : some record = some running := stands.symm.trans there
        obtain rfl := Option.some.inj same
        simp [completed] at runs
      · exact fresh.left.unused other (owning.brought _ _ owns.1) named
    refine (Secure.move laws secure confined stays safe ?_ moved).stored.2
    rintro number chance record workspace directory made rfl _ ends
    have name := stamps _ _ _ _ _ made ends
    rw [name]
    refine ⟨?_, fun _ _ => Path.plain_of_safe fresh.last.2.1⟩
    rintro ⟨holder, other, stands, completed, names⟩
    rcases owning.secure.stored.2 holder other _ stands completed names with owns | named
    · exact fresh.last.1 (owning.brought _ _ owns)
    · exact fresh.last.2.2 named

/-- What a job has completed with stays so from one ordinary move to the next. -/
theorem Begun.delivered {evidence : JobId → Mark → Prop} {report : RecoveryReport}
    (begun : world.Begun evidence first report) (ordinary : move.IsOrdinary)
    (delivered : Delivered world.jobs artifact) : Delivered (World.move setting world move).jobs artifact := by
  obtain ⟨id, record, found, completed, names⟩ := delivered
  have ended : record.status.isTerminal = true := by
    rw [completed]
    rfl
  have change : Change _ _ ((World.move setting world move).view id) := begun.serves.tidy.change ordinary id
  exact ⟨id, record, View.record_of_change change found ended, completed, names⟩

/-- An artifact that has been delivered lasts through a run of ordinary moves whose names are fresh. -/
theorem lasts_run {jobs : JobStore} {artifacts : ArtifactStore} {disk : Disk} {report : RecoveryReport}
    (provided : Provided storage jobs artifacts disk) (stamps : setting.Stamps)
    (confined : ∀ data, storage = .file data → setting.Confined data)
    (begun : Begun (Happened setting (new setting disk jobs artifacts) early) jobs.records report
      (run setting (new setting disk jobs artifacts) early))
    (ordinary : ∀ move ∈ early ++ late, move.IsOrdinary) (fresh : Fresh jobs.records (early ++ late))
    (delivered : Delivered (run setting (new setting disk jobs artifacts) early).jobs artifact) :
    Delivered (run setting (new setting disk jobs artifacts) (early ++ late)).jobs artifact ∧
      Lasts artifact (run setting (new setting disk jobs artifacts) early).artifacts
        (run setting (new setting disk jobs artifacts) early).disk
        (run setting (new setting disk jobs artifacts) (early ++ late)).artifacts
        (run setting (new setting disk jobs artifacts) (early ++ late)).disk := by
  induction late using List.reverseRecOn with
  | nil =>
    rw [List.append_nil]
    exact ⟨delivered, fun _ got => got⟩
  | append_singleton late last inductionHypothesis =>
    rw [← List.append_assoc] at ordinary fresh ⊢
    have ordinaryBefore (move : Move) (member : move ∈ early ++ late) : move.IsOrdinary :=
      ordinary move (List.mem_append_left _ member)
    have ordinaryLast : last.IsOrdinary := ordinary last (by simp)
    obtain ⟨there, lasts⟩ := inductionHypothesis ordinaryBefore fresh.left
    have between := begun.run fun move member => ordinaryBefore move (List.mem_append_right _ member)
    obtain ⟨owner, owning⟩ := owning_run provided stamps confined ordinaryBefore fresh.left
    rw [run_concat]
    exact ⟨between.delivered ordinaryLast there,
      lasts.trans (owning.lasts between stamps confined ordinaryLast fresh there)⟩

end World

end ContractWorks
