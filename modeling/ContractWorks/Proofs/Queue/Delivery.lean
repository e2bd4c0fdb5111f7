import ContractWorks.Proofs.Queue.Deed
import ContractWorks.Proofs.Queue.Once
import ContractWorks.Proofs.Queue.Owner
import ContractWorks.Proofs.Storage.Shelf
import ContractWorks.Proofs.Toolchain.Product
import ContractWorks.Toolchain.Playback

namespace ContractWorks

open Path (Plain)

namespace JobStore

variable {jobs other : JobStore} {record : JobRecord} {fault : Option StoreFault} {disk next : Disk}

/-- A store knows a record when it has one of the same job, kind and input. -/
def Knows (jobs : JobStore) (record : JobRecord) : Prop :=
  ∃ stored, Table.get? record.id jobs.records = some stored ∧ stored.kind = record.kind ∧ stored.input = record.input

theorem kind_write (record : JobRecord) (now : Time.Instant) (transition : Transition) :
    (record.write now transition).kind = record.kind := by
  cases transition <;> rfl

theorem input_write (record : JobRecord) (now : Time.Instant) (transition : Transition) :
    (record.write now transition).input = record.input := by
  cases transition <;> rfl

theorem Knows.insert (knows : jobs.Knows record) {new : JobRecord} {result : Except StoreError Unit}
    (done : jobs.insert new fault disk = (next, other, result)) : other.Knows record := by
  obtain ⟨stored, found, same⟩ := knows
  rcases insert_cases done with ⟨_, free, rfl⟩ | ⟨rfl, _⟩
  · have differ : record.id ≠ new.id := by
      intro alike
      rw [alike, free] at found
      simp at found
    refine ⟨stored, ?_, same⟩
    rw [records_withRecords, Table.get?_insert_of_ne differ, found]
  · exact ⟨stored, found, same⟩

theorem Knows.transition (knows : jobs.Knows record) {id : JobId} {transition : Transition} {now : Time.Instant}
    {result : Except StoreError JobRecord}
    (done : jobs.transition id transition now fault disk = (next, other, result)) : other.Knows record := by
  obtain ⟨stored, found, kind, input⟩ := knows
  rcases transition_cases done with ⟨before, after, there, applied, _, rfl⟩ | ⟨rfl, _⟩
  · by_cases alike : record.id = id
    · subst alike
      obtain rfl := Option.some.inj (found.symm.trans there)
      obtain ⟨_, rfl⟩ := apply_eq_ok applied
      refine ⟨stored.write now transition, ?_, (kind_write _ _ _).trans kind, (input_write _ _ _).trans input⟩
      rw [records_withRecords, Table.get?_insert_self]
    · refine ⟨stored, ?_, kind, input⟩
      rw [records_withRecords, Table.get?_insert_of_ne alike, found]
  · exact ⟨stored, found, kind, input⟩

/-- A record that comes of a transition is known. -/
theorem knows_of_transition (sound : jobs.Sound disk) {id : JobId} {transition : Transition} {now : Time.Instant}
    (done : jobs.transition id transition now fault disk = (next, other, .ok record)) :
    record.id = id ∧ other.Knows record := by
  obtain ⟨before, there, applied, rfl⟩ := transition_of_ok done
  obtain ⟨_, rfl⟩ := apply_eq_ok applied
  have key : (before.write now transition).id = id := (id_write _ _ _).trans (sound.keyed there).1
  refine ⟨key, before.write now transition, ?_, rfl, rfl⟩
  rw [records_withRecords, key, Table.get?_insert_self]

end JobStore

/-- Open stores with sound records are provided. -/
theorem Stored.provided {storage : StorageConfig} {jobs : JobStore} {artifacts : ArtifactStore} {disk : Disk}
    (stored : Stored storage jobs artifacts disk) (opened : artifacts.Open disk) :
    Provided storage jobs artifacts disk := by
  cases stored with
  | memory _ => exact .memory
  | file mirrors =>
    refine .file (fun id there => ?_) ?_
    · obtain ⟨record, found⟩ := Option.ne_none_iff_exists'.mp there
      exact (mirrors.keyed found).2
    · exact Disk.directory_of_walk (Disk.resolve_eq_ok_iff.mp opened.1).2 opened.2

namespace World

/-- A run makes an artifact for a record when one of its moves ends a compiler run for this record that makes it. -/
def Makes (setting : Setting) (start : World) (moves : List Move) (record : JobRecord) (artifact : Artifact) : Prop :=
  ∃ early late number chance workspace directory, moves = early ++ .step number chance :: late ∧
    Table.get? number (run setting start early).tasks = some (.worker (.running record workspace directory)) ∧
      (setting.compilers record.kind directory record.input chance (run setting start early).disk).2 = .made artifact

/-- A job is furnished with an artifact when the store has it under its id, and a run for the job has made it. -/
def Furnished (setting : Setting) (start : World) (moves : List Move) (world : World) (id : JobId)
    (artifact : ArtifactId) : Prop :=
  ∃ record made, record.id = id ∧ made.id = artifact ∧ world.jobs.Knows record ∧
    Makes setting start moves record made ∧ world.artifacts.Has made world.disk

end World

/-- A burden is backed when the store knows its record, and when its artifact was made for this, or is stored. -/
def Burden.Backed (setting : Setting) (start : World) (moves : List World.Move) (world : World) : Burden → Prop
  | .work record => world.jobs.Knows record
  | .goods record artifact => world.jobs.Knows record ∧ World.Makes setting start moves record artifact
  | .note id artifact => World.Furnished setting start moves world id artifact

namespace World

variable {setting : Setting} {storage : StorageConfig} {start world next : World} {first : Table JobId JobRecord}
  {moves : List Move} {move : Move} {record other : JobRecord} {artifact made : Artifact}

theorem Makes.more (makes : Makes setting start moves record artifact) (more : List Move) :
    Makes setting start (moves ++ more) record artifact := by
  obtain ⟨early, late, number, chance, workspace, directory, rfl, runs, ends⟩ := makes
  exact ⟨early, late ++ more, number, chance, workspace, directory, by simp, runs, ends⟩

/-- The id of an artifact that is made is one of the names that the moves bring. -/
theorem Makes.named (makes : Makes setting start moves record artifact) (stamps : setting.Stamps) :
    artifact.id ∈ moves.filterMap Move.name? := by
  obtain ⟨early, late, number, chance, workspace, directory, rfl, runs, ends⟩ := makes
  rw [stamps _ _ _ _ _ _ ends, List.filterMap_append]
  exact List.mem_append_right _ List.mem_cons_self

theorem Makes.plain (makes : Makes setting start moves record artifact) (stamps : setting.Stamps)
    (fresh : Fresh first moves) : Plain artifact.id :=
  Path.plain_of_safe (fresh.safe _ (makes.named stamps))

/-- Moves whose names are distinct can be split in one way at a name. -/
theorem split_at_name {early late former latter : List Move} {number count : Nat} {chance other : Chance}
    (distinct : ((early ++ .step number chance :: late).filterMap Move.name?).Nodup) (same : chance.name = other.name)
    (split : early ++ Move.step number chance :: late = former ++ .step count other :: latter) :
    early = former ∧ number = count ∧ chance = other := by
  have names : (early ++ Move.step number chance :: late).filterMap Move.name? =
      early.filterMap Move.name? ++ chance.name :: late.filterMap Move.name? := by
    rw [List.filterMap_append]
    rfl
  rw [names] at distinct
  have brings : (Move.step count other).name? = some chance.name := congrArg some same.symm
  have before : Move.step count other ∉ early := fun member =>
    (List.nodup_append.mp distinct).2.2 _ (List.mem_filterMap.mpr ⟨_, member, brings⟩) _ List.mem_cons_self rfl
  have behind : Move.step count other ∉ late := fun member =>
    (List.nodup_cons.mp (List.nodup_append.mp distinct).2.1).1 (List.mem_filterMap.mpr ⟨_, member, brings⟩)
  obtain ⟨rfl, moves, _⟩ := (List.append_cons_inj_of_notMem before behind).mp split
  obtain ⟨rfl, rfl⟩ := Move.step.inj moves
  exact ⟨rfl, rfl, rfl⟩

/-- An artifact id belongs to one compiler run. -/
theorem Makes.unique (makes : Makes setting start moves record artifact) (again : Makes setting start moves other made)
    (stamps : setting.Stamps) (fresh : Fresh first moves) (same : artifact.id = made.id) :
    record = other ∧ artifact = made := by
  obtain ⟨early, late, number, chance, workspace, directory, rfl, runs, ends⟩ := makes
  obtain ⟨former, latter, count, brought, room, place, split, ran, ended⟩ := again
  have names : chance.name = brought.name := by
    rw [← stamps _ _ _ _ _ _ ends, ← stamps _ _ _ _ _ _ ended, same]
  obtain ⟨rfl, rfl, rfl⟩ := split_at_name fresh.distinct names split
  have tasks := Option.some.inj (runs.symm.trans ran)
  injection tasks with worker
  injection worker with records _ directories
  subst records directories
  exact ⟨rfl, CompilerEnd.made.inj (ends.symm.trans ended)⟩

/-- One world bequeaths to another when records stay known and artifacts that were made stay stored. -/
structure Bequeaths (setting : Setting) (start : World) (moves : List Move) (world next : World) : Prop where
  knows : ∀ record, world.jobs.Knows record → next.jobs.Knows record
  has : ∀ record made, Makes setting start moves record made → world.artifacts.Has made world.disk →
    next.artifacts.Has made next.disk

theorem Furnished.bequeath {id : JobId} {name : ArtifactId}
    (furnished : Furnished setting start moves world id name) (bequeaths : Bequeaths setting start moves world next)
    (more : List Move) : Furnished setting start (moves ++ more) next id name := by
  obtain ⟨record, made, same, named, knows, makes, has⟩ := furnished
  exact ⟨record, made, same, named, bequeaths.knows record knows, makes.more more, bequeaths.has record made makes has⟩

theorem backed_of_bequeaths {burden : Burden} (backed : burden.Backed setting start moves world)
    (bequeaths : Bequeaths setting start moves world next) (more : List Move) :
    burden.Backed setting start (moves ++ more) next := by
  cases burden with
  | work record => exact bequeaths.knows record backed
  | goods record artifact => exact ⟨bequeaths.knows record backed.1, backed.2.more more⟩
  | note id artifact => exact Furnished.bequeath backed bequeaths more

/-- A world is accounted for when it is guarded, its artifact store is open, its burdens are backed, and its completed
jobs are furnished with what they name. -/
structure Accounted (setting : Setting) (storage : StorageConfig) (start : World) (moves : List Move) (world : World) :
    Prop where
  guarded : world.Guarded setting storage
  opened : world.artifacts.Open world.disk
  backed : ∀ burden, world.Bears burden → burden.Backed setting start moves world
  completed : ∀ id record, Table.get? id world.jobs.records = some record → record.status = .completed →
    ∃ artifact, record.artifactId = some artifact ∧ Furnished setting start moves world id artifact

theorem Accounted.provided (accounted : Accounted setting storage start moves world) :
    Provided storage world.jobs world.artifacts world.disk :=
  accounted.guarded.secure.stored.provided accounted.opened

/-- What a deed does to the records and the artifacts is a bequest. -/
theorem Accounted.bequeaths (accounted : Accounted setting storage start moves world) (stamps : setting.Stamps)
    (fresh : Fresh first moves) (deed : Deed setting storage world next move) :
    Bequeaths setting start moves world next := by
  have provided := accounted.provided
  cases deed with
  | rest spares jobs artifacts _ =>
    refine ⟨fun record knows => jobs ▸ knows, fun record made makes has => ?_⟩
    rw [artifacts]
    exact provided.has_spare has (makes.plain stamps fresh) spares
  | insert queued plain done artifacts _ =>
    refine ⟨fun record knows => knows.insert done, fun record made makes has => ?_⟩
    rw [artifacts]
    exact provided.has_insert has (makes.plain stamps fresh) plain done
  | transition noted done artifacts _ =>
    refine ⟨fun record knows => knows.transition done, fun record made makes has => ?_⟩
    rw [artifacts]
    exact provided.has_transition has (makes.plain stamps fresh) done
  | make runs made spares jobs artifacts _ =>
    refine ⟨fun record knows => jobs ▸ knows, fun record made makes has => ?_⟩
    rw [artifacts]
    exact provided.has_spare has (makes.plain stamps fresh) spares
  | put held done jobs _ =>
    obtain ⟨_, own⟩ := accounted.backed _ held
    refine ⟨fun record knows => jobs ▸ knows, fun record made makes has => ?_⟩
    exact has.put (makes.plain stamps fresh) (own.plain stamps fresh)
      (fun same => (makes.unique own stamps fresh same).2) done

/-- The stores stay provided through a deed. -/
theorem Accounted.provided_next (accounted : Accounted setting storage start moves world) (stamps : setting.Stamps)
    (fresh : Fresh first moves) (deed : Deed setting storage world next move) :
    Provided storage next.jobs next.artifacts next.disk := by
  have provided := accounted.provided
  cases deed with
  | rest spares jobs artifacts _ =>
    rw [jobs, artifacts]
    exact (provided.spare spares).1
  | insert _ plain done artifacts _ =>
    rw [artifacts]
    exact (provided.insert plain done).1
  | transition _ done artifacts _ =>
    rw [artifacts]
    exact (provided.transition done).1
  | make _ _ spares jobs artifacts _ =>
    rw [jobs, artifacts]
    exact (provided.spare spares).1
  | put held done jobs _ =>
    obtain ⟨_, own⟩ := accounted.backed _ held
    rw [jobs]
    exact (provided.putArtifact (fun _ _ => own.plain stamps fresh) done).1

/-- The burdens stay backed through a deed: a new one comes of a start, a compiler run or a put. -/
theorem Accounted.backed_next (accounted : Accounted setting storage start moves (run setting start moves))
    (bequeaths : Bequeaths setting start moves (run setting start moves) next)
    (deed : Deed setting storage (run setting start moves) next move) (burden : Burden) (held : next.Bears burden) :
    burden.Backed setting start (moves ++ [move]) next := by
  have old (before : (run setting start moves).Bears burden) : burden.Backed setting start (moves ++ [move]) next :=
    backed_of_bequeaths (accounted.backed burden before) bequeaths [move]
  cases deed with
  | rest _ _ _ burdens => exact old (burdens burden held)
  | insert _ _ _ _ burdens => exact old (burdens burden held)
  | transition _ done _ burdens =>
    rcases burdens burden held with before | ⟨record, rfl, rfl⟩
    · exact old before
    · exact (JobStore.knows_of_transition accounted.guarded.secure.stored.sound done).2
  | @make number chance record workspace directory artifact runs ends _ _ _ burdens =>
    rcases burdens burden held with before | rfl
    · exact old before
    · have works : (run setting start moves).Bears (.work record) := ⟨number, _, runs, rfl⟩
      exact ⟨bequeaths.knows record (accounted.backed _ works),
        ⟨moves, [], number, chance, workspace, directory, rfl, runs, ends⟩⟩
  | @put _ record artifact _ _ goods done _ burdens =>
    rcases burdens burden held with before | ⟨rfl, rfl⟩
    · exact old before
    · obtain ⟨knows, makes⟩ := accounted.backed _ goods
      exact ⟨record, artifact, rfl, rfl, bequeaths.knows record knows, makes.more [move], ArtifactStore.has_put done⟩

/-- A job completes only with an artifact that it is furnished with. -/
theorem Accounted.completed_next (accounted : Accounted setting storage start moves world)
    (bequeaths : Bequeaths setting start moves world next) (deed : Deed setting storage world next move) (id : JobId)
    (record : JobRecord) (found : Table.get? id next.jobs.records = some record) (ended : record.status = .completed) :
    ∃ artifact, record.artifactId = some artifact ∧ Furnished setting start (moves ++ [move]) next id artifact := by
  have old (before : Table.get? id world.jobs.records = some record) :
      ∃ artifact, record.artifactId = some artifact ∧ Furnished setting start (moves ++ [move]) next id artifact := by
    obtain ⟨artifact, names, furnished⟩ := accounted.completed id record before ended
    exact ⟨artifact, names, furnished.bequeath bequeaths [move]⟩
  cases deed with
  | rest _ jobs _ _ => exact old (jobs ▸ found)
  | make _ _ _ jobs _ _ => exact old (jobs ▸ found)
  | put _ _ jobs _ => exact old (jobs ▸ found)
  | @insert _ new _ _ queued _ done _ _ =>
    rcases JobStore.insert_cases done with ⟨_, _, becomes⟩ | ⟨same, _⟩
    · rw [becomes, JobStore.records_withRecords] at found
      by_cases own : id = new.id
      · rw [own, Table.get?_insert_self, Option.some.injEq] at found
        rw [← found, queued] at ended
        simp at ended
      · exact old (by rwa [Table.get?_insert_of_ne own] at found)
    · exact old (same ▸ found)
  | @transition _ own transition _ _ _ noted done _ _ =>
    rcases JobStore.transition_cases done with ⟨before, after, _, applied, _, becomes⟩ | ⟨same, _⟩
    · rw [becomes, JobStore.records_withRecords] at found
      by_cases alike : id = own
      · subst alike
        rw [Table.get?_insert_self, Option.some.injEq] at found
        subst found
        obtain ⟨_, rfl⟩ := JobStore.apply_eq_ok applied
        cases transition with
        | start => simp [JobRecord.write] at ended
        | fail error => simp [JobRecord.write] at ended
        | complete artifact =>
          have furnished : Furnished setting start moves world id artifact := accounted.backed _ (noted artifact rfl)
          exact ⟨artifact, rfl, furnished.bequeath bequeaths [move]⟩
      · exact old (by rwa [Table.get?_insert_of_ne alike] at found)
    · exact old (same ▸ found)

/-- A world that has made no move is accounted for as before. -/
theorem Accounted.stay (accounted : Accounted setting storage start moves world) (move : Move) :
    Accounted setting storage start (moves ++ [move]) world := by
  have same : Bequeaths setting start moves world world := ⟨fun _ knows => knows, fun _ _ _ has => has⟩
  refine ⟨accounted.guarded, accounted.opened, fun burden held => ?_, fun id record found ended => ?_⟩
  · exact backed_of_bequeaths (accounted.backed burden held) same [move]
  · obtain ⟨artifact, names, furnished⟩ := accounted.completed id record found ended
    exact ⟨artifact, names, furnished.bequeath same [move]⟩

/-- A restart opens the same stores again, and loses all burdens. -/
theorem Accounted.restart (accounted : Accounted setting storage start moves world) (guarded : next.Guarded setting storage)
    (restarted : restart? setting world = some next) :
    Accounted setting storage start (moves ++ [.restart]) next := by
  obtain ⟨again, reopened, _, same⟩ := accounted.guarded.secure.stored.reopen
  rw [restart?, reopened] at restarted
  dsimp only at restarted
  rw [accounted.opened.reopen] at restarted
  obtain rfl := Option.some.inj restarted
  have bequeaths : Bequeaths setting start moves world (crash setting world again world.artifacts world.disk) := by
    refine ⟨fun record knows => ?_, fun _ _ _ has => has⟩
    obtain ⟨stored, found, alike⟩ := knows
    exact ⟨stored, (same record.id).trans found, alike⟩
  refine ⟨guarded, accounted.opened, ?_, fun id record found ended => ?_⟩
  · rintro burden ⟨number, task, found, _⟩
    simp [crash] at found
  · obtain ⟨artifact, names, furnished⟩ := accounted.completed id record ((same id).symm.trans found) ended
    exact ⟨artifact, names, furnished.bequeath bequeaths [.restart]⟩

/-- A move keeps a world accounted for. -/
theorem Accounted.proceed (accounted : Accounted setting storage start moves (run setting start moves))
    (stamps : setting.Stamps) (confined : ∀ data, storage = .file data → setting.Confined data) (move : Move)
    (fresh : Fresh first (moves ++ [move])) :
    Accounted setting storage start (moves ++ [move]) (run setting start (moves ++ [move])) := by
  have safe (number : Nat) (chance : Chance) (same : move = .step number chance) :
      ArtifactStore.isSafeId chance.name = true := by
    subst same
    exact fresh.last.2.1
  have guarded := (accounted.guarded.move confined move safe).1
  rw [run_concat]
  rw [World.move] at guarded ⊢
  cases moved : move? setting (run setting start moves) move with
  | none => exact accounted.stay move
  | some next =>
    rw [moved] at guarded
    by_cases restarts : move = .restart
    · subst restarts
      exact accounted.restart guarded moved
    · have deed : Deed setting storage (run setting start moves) next move :=
        deed_of_move confined accounted.guarded.secure.housed restarts moved
      have bequeaths := accounted.bequeaths stamps fresh.left deed
      have provided := accounted.provided_next stamps fresh.left deed
      exact ⟨guarded, accounted.provided.opened provided accounted.opened, accounted.backed_next bequeaths deed,
        accounted.completed_next bequeaths deed⟩

/-- All moves of a run whose names are fresh keep a world accounted for. -/
theorem accounted_run (begins : Accounted setting storage start [] start) (stamps : setting.Stamps)
    (confined : ∀ data, storage = .file data → setting.Confined data) (fresh : Fresh first moves) :
    Accounted setting storage start moves (run setting start moves) := by
  induction moves using List.reverseRecOn with
  | nil => exact begins
  | append_singleton moves last inductionHypothesis =>
    exact (inductionHypothesis fresh.left).proceed stamps confined last fresh

/-- A new process over stores that hold no records is accounted for. -/
theorem accounted_new {before disk : Disk} {stores : Stores}
    (opened : Stores.ofConfig storage before = (disk, .ok stores))
    (empty : ∀ data, storage = .file data → disk.list (Path.join data "jobs") = .ok []) :
    Accounted setting storage (new setting disk stores.jobs stores.artifacts) []
      (new setting disk stores.jobs stores.artifacts) := by
  obtain ⟨stored, bare⟩ := Stored.of_ofConfig opened empty
  refine ⟨guarded_new stored, Stores.open_of_ofConfig opened, ?_, fun id record found => ?_⟩
  · rintro burden ⟨number, task, found, _⟩
    simp [new] at found
  · have none : Table.get? id stores.jobs.records = some record := found
    simp [bare] at none

/-- In every world that a service reaches from stores without records, each completed job names an artifact that a run
of the compiler for this very job has made. The store, also when it is opened once more, finds it under its id, of the
kind and the contract of the job and with the hash of its content; and no two completed jobs name the same one. -/
theorem completed_furnished {config : ToolchainConfig} {host : Host} {queue : QueueConfig}
    {workspaces : WorkspaceConfig} {before disk : Disk} {stores : Stores}
    (opened : Stores.ofConfig storage before = (disk, .ok stores))
    (empty : ∀ data, storage = .file data → disk.list (Path.join data "jobs") = .ok [])
    (confined : ∀ data, storage = .file data → host.Confined ∧ workspaces.Apart data) (moves : List Move)
    (fresh : Fresh stores.jobs.records moves) :
    let setting : Setting := ⟨queue, workspaces, config.compiler host⟩
    let start := new setting disk stores.jobs stores.artifacts
    let reached := run setting start moves
    (∀ id record, reached.jobs.get id none = .ok (some record) → record.status = .completed →
      ∃ made found, record.artifactId = some made.id ∧
        (∃ work, work.id = id ∧ Makes setting start moves work made) ∧ found = reached.artifacts.shown made ∧
          reached.artifacts.get made.id none reached.disk = .ok (some found) ∧
            (∃ next again, reached.artifacts.reopen reached.disk = (next, .ok again) ∧
              again.get made.id none next = .ok (some found)) ∧
                found.id = made.id ∧ found.kind = record.kind ∧ found.contractName = record.input.contractName ∧
                  found.verifyHash = true) ∧
      ∀ id other record another, reached.jobs.get id none = .ok (some record) →
        reached.jobs.get other none = .ok (some another) → record.status = .completed → another.status = .completed →
          record.artifactId = another.artifactId → id = other := by
  intro setting start reached
  have stamps : setting.Stamps := config.stamps host queue workspaces
  have delivers : setting.Delivers := config.delivers host queue workspaces
  have accounted : Accounted setting storage start moves reached :=
    accounted_run (accounted_new opened empty) stamps
      (fun data file => ToolchainConfig.confined (confined data file).1 (confined data file).2) fresh
  have stands {id : JobId} {record : JobRecord} (got : reached.jobs.get id none = .ok (some record)) :
      Table.get? id reached.jobs.records = some record := Except.ok.inj got
  refine ⟨fun id record got ended => ?_, fun id other record another got gets ended ends same => ?_⟩
  · obtain ⟨_, names, work, made, rfl, rfl, ⟨stored, found, kind, input⟩, makes, has⟩ :=
      accounted.completed _ _ (stands got) ended
    obtain rfl := Option.some.inj ((stands got).symm.trans found)
    have made' := makes
    obtain ⟨_, _, _, _, _, _, _, _, ends⟩ := made'
    obtain ⟨answers, keepable⟩ := delivers _ _ _ _ _ _ ends
    have safe : ArtifactStore.isSafeId made.id = true := fresh.safe _ (makes.named stamps)
    have get := has.get keepable safe
    have shown : (reached.artifacts.shown made).Answers record.kind record.input.contractName := by
      rw [kind, input]
      cases reached.artifacts with
      | memory _ => exact answers
      | file _ => exact answers.reread
    have named : (reached.artifacts.shown made).id = made.id := by cases reached.artifacts <;> rfl
    exact ⟨made, _, names, ⟨work, rfl, makes⟩, rfl, get, ⟨_, _, accounted.opened.reopen, get⟩, named, shown.kind,
      shown.contractName, shown.hashed⟩
  · obtain ⟨_, names, work, made, rfl, rfl, _, makes, _⟩ := accounted.completed _ _ (stands got) ended
    obtain ⟨_, named, worked, again, rfl, rfl, _, remakes, _⟩ := accounted.completed _ _ (stands gets) ends
    rw [names, named, Option.some.injEq] at same
    rw [(makes.unique remakes stamps fresh same).1]

/-- This host answers as a compiler does that has made one contract. -/
def tokenHost : Host :=
  Playback.host
    { stdout := (Json.object [("contracts", .object [("Token.sol", .object [("Token", .object
        [("abi", .array []), ("evm", .object [("bytecode", .object [("object", .text "6001")])])])])])]).compact.toUTF8 }

/-- This setting compiles on that host, with one worker. -/
def tokenSetting : Setting :=
  ⟨{ workers := 1 }, ⟨"work", "forge-job-"⟩, ToolchainConfig.compiler {} tokenHost⟩

/-- These are steps of one task, each with a name of its own. -/
def takeSteps (number : Nat) (names : List String) : List Move :=
  names.map fun name => .step number ⟨.sample, name, none⟩

/-- These moves start a queue, submit a job and complete it. -/
def tokenMoves : List Move :=
  .call .start :: takeSteps 0 ["a", "b", "c", "d", "e", "f", "g", "h"] ++
    .call (.submit .evm { source := "contract Token {}", contractName := "Token" }) ::
      takeSteps 2 ["i", "j", "k", "l"] ++ takeSteps 1 ["m", "n", "o", "p", "q", "r", "s", "t", "u", "v", "w"]

/-- This is the world in which the job has been completed. -/
def tokenMade : World :=
  run tokenSetting (new tokenSetting servedDisk (.file (Path.join "data" "jobs") [])
    (.file (Path.join "data" "artifacts"))) tokenMoves

theorem completed_furnished_tokenMade : ∃ record artifact found,
    tokenMade.jobs.get "i" none = .ok (some record) ∧ record.status = .completed ∧
      record.artifactId = some artifact ∧ tokenMade.artifacts.get artifact none tokenMade.disk = .ok (some found) ∧
        found.kind = record.kind ∧ found.contractName = record.input.contractName ∧ found.verifyHash = true := by
  have empty (data : String) (same : StorageConfig.file "data" = .file data) :
      servedDisk.list (Path.join data "jobs") = .ok [] := by
    obtain rfl := StorageConfig.file.inj same
    exact list_servedDisk
  have apart (data : String) (same : StorageConfig.file "data" = .file data) :
      tokenHost.Confined ∧ tokenSetting.workspaces.Apart data := by
    obtain rfl := StorageConfig.file.inj same
    exact ⟨Playback.confined rfl rfl, Setting.scripted_confined.apart⟩
  have fresh : Fresh (JobStore.file (Path.join "data" "jobs") []).records tokenMoves := by
    have names : tokenMoves.filterMap Move.name? = ["a", "b", "c", "d", "e", "f", "g", "h", "i", "j", "k", "l", "m",
        "n", "o", "p", "q", "r", "s", "t", "u", "v", "w"] := rfl
    refine ⟨?_, ?_, ?_⟩
    · rw [names]
      decide
    · rw [names]
      decide
    · rintro name _ ⟨id, record, found, _⟩
      simp [JobStore.records] at found
  have completed : (Table.get? "i" tokenMade.jobs.records).map JobRecord.status = some .completed := by
    decide +kernel
  obtain ⟨record, stands, ended⟩ := Option.map_eq_some_iff.mp completed
  have got : tokenMade.jobs.get "i" none = .ok (some record) := congrArg Except.ok stands
  obtain ⟨all, _⟩ := completed_furnished ofConfig_servedDisk empty apart tokenMoves fresh
  obtain ⟨made, found, names, _, _, shown, _, _, kind, contract, hashed⟩ := all "i" record got ended
  exact ⟨record, made.id, found, got, ended, names, shown, kind, contract, hashed⟩

end World

end ContractWorks
