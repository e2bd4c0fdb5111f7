import ContractWorks.Proofs.Queue.Gate
import ContractWorks.Proofs.Queue.Masking

namespace ContractWorks

/-- This function hides which program could not be started, and why. -/
def CompilerEnd.masked : CompilerEnd → CompilerEnd
  | .failed (.spawn _ _) => .failed (.spawn "" "")
  | ending => ending

/-- Settings are alike when their compilers, called alike in a workspace, end alike and leave the same files, apart from
what is hidden. -/
structure Setting.Alike (storage : StorageConfig) (setting other : Setting) : Prop where
  config : other.config = setting.config
  workspaces : other.workspaces = setting.workspaces
  compilers : ∀ kind {name} input {chance chance' : Chance} {disk disk' : Disk}, setting.workspaces.Names name →
    chance'.masked = chance.masked → disk'.edited storage.veil = disk.edited storage.veil →
      let directory := Path.join setting.workspaces.root name
      (other.compilers kind directory input chance' disk').1.edited storage.veil =
          (setting.compilers kind directory input chance disk).1.edited storage.veil ∧
        (other.compilers kind directory input chance' disk').2.masked =
          (setting.compilers kind directory input chance disk).2.masked

namespace World

/-- This function hides the text of the fault that a move adds. -/
def Move.masked : Move → Move
  | .step number chance => .step number chance.masked
  | move => move

variable {setting other : Setting} {storage : StorageConfig} {world next shown : World} {number : Nat}

/-- A world echoes another one when they differ at most in the texts of failures that they have answered. -/
structure Echoes (world echo : World) : Prop where
  same : { echo with history := world.history } = world
  history : echo.history.map Event.masked = world.history.map Event.masked

theorem Echoes.refl (world : World) : Echoes world world :=
  ⟨rfl, rfl⟩

theorem echoes_answer (world : World) (number : Nat) {answer echo : Answer} (same : echo.masked = answer.masked) :
    Echoes (world.answer number answer) (world.answer number echo) where
  same := rfl
  history := by simp [World.answer, note, endTask, Event.masked, same]

/-- A world that is veiled by an echo is veiled. -/
theorem Veiled.ofEcho {echo : World} (veiled : Veiled storage echo shown) (echoes : Echoes world echo) :
    Veiled storage world shown := by
  rw [← echoes.same]
  exact { veiled with history := veiled.history.trans echoes.history }

/-- The text of a fault matters only where it is answered. -/
theorem echoes_step (world : World) (number : Nat) (chance : Chance) {task : Task}
    (still : ∀ record workspace directory, task ≠ .worker (.running record workspace directory)) :
    Option.Rel Echoes (stepTask setting world number chance task)
      (stepTask setting world number chance.masked task) := by
  have same (reached : Option World) : Option.Rel Echoes reached reached := by
    cases reached with
    | none => exact .none
    | some next => exact .some (.refl next)
  obtain ⟨now, name, fault⟩ := chance
  match fault with
  | none => exact same _
  | some .write => exact same _
  | some .move => exact same _
  | some (.refused text) =>
    cases task with
    | submit step =>
      cases step with
      | reserved record => exact .some (echoes_answer _ number rfl)
      | _ => exact same _
    | start step =>
      cases step with
      | listing report => exact .some (echoes_answer _ number rfl)
      | failing ids report =>
        cases ids with
        | nil => exact same _
        | cons id ids => exact .some (echoes_answer _ number rfl)
      | relisting report => exact .some (echoes_answer _ number rfl)
      | checking ids report => cases ids <;> exact same _
      | _ => exact same _
    | status step =>
      cases step with
      | looking id live => exact .some (echoes_answer _ number rfl)
      | fetching record artifact => exact .some (echoes_answer _ number rfl)
      | _ => exact same _
    | worker step =>
      cases step with
      | running record workspace directory => exact absurd rfl (still record workspace directory)
      | _ => exact same _
    | _ => exact same _

/-- A step depends neither on what is hidden nor on the text of a fault, unless it runs a compiler. -/
theorem veiled_step? (veiled : Veiled storage world shown) (guarded : world.Guarded setting storage) (chance : Chance)
    (still : ∀ record, ¬world.CallsCompiler record (.step number chance)) :
    Option.Rel (Veiled storage) (step? setting world number chance)
      ((step? setting shown number chance.masked).map (veil storage)) := by
  rw [step?, step?, veiled.get?]
  cases found : Table.get? number world.tasks with
  | none => exact .none
  | some task =>
    have stands (record : JobRecord) (workspace : Workspace) (directory : String) :
        task ≠ .worker (.running record workspace directory) := by
      rintro rfl
      exact still record ⟨workspace, directory, found⟩
    have echoes : Option.Rel Echoes (stepTask setting world number chance task) _ :=
      echoes_step world number chance stands
    have hidden : Option.Rel (Veiled storage) (stepTask setting world number chance.masked task) _ :=
      veiled_step veiled guarded found stands
    dsimp only [Option.map_some]
    generalize stepTask setting world number chance task = reached at echoes
    generalize stepTask setting world number chance.masked task = echo at echoes hidden
    cases echoes with
    | none => exact hidden
    | some echoed =>
      generalize (stepTask setting shown number chance.masked task.masked).map (veil storage) = covered at hidden ⊢
      cases hidden with
      | some veiled => exact .some (veiled.ofEcho echoed)

theorem veiled_beginSubmit (veiled : Veiled storage world shown) (kind : JobKind) (input : JobInput) :
    Veiled storage (beginSubmit setting world number kind input) (beginSubmit setting shown number kind input) := by
  rw [beginSubmit, beginSubmit]
  split
  · exact veiled.goOn number (.submit (.waiting kind input))
  · exact veiled.answer number rfl

theorem veiled_beginCall (veiled : Veiled storage world shown) (call : Call) :
    Veiled storage (beginCall setting world call) (beginCall setting shown call) := by
  have counted : Veiled storage { world with nextTask := world.nextTask + 1 }
      { shown with nextTask := world.nextTask + 1 } := { veiled with nextTask := rfl }
  have asked := counted.note (rfl : (Event.called world.nextTask call).masked = _)
  rw [beginCall.eq_def, beginCall.eq_def, veiled.nextTask]
  cases call with
  | request submission =>
    dsimp only
    cases submission.resolve with
    | error error => exact asked.answer _ rfl
    | ok resolved => exact veiled_beginSubmit asked resolved.1 resolved.2
  | submit kind input => exact veiled_beginSubmit asked kind input
  | start => exact asked.goOn _ (.start .waiting)
  | shutdown => exact asked.goOn _ (.shutdown .closing)
  | status id => exact asked.goOn _ (.status (.reading id))

theorem veiled_restart (veiled : Veiled storage world shown) (guarded : world.Guarded setting storage) :
    Option.Rel (Veiled storage) (restart? setting world) (restart? setting shown) := by
  rw [restart?.eq_def, restart?.eq_def, veiled.jobs, veiled.artifacts, veiled.disk,
    JobStore.reopen_masked guarded.secure.stored.liesAt.1]
  generalize world.jobs.reopen world.disk = opened
  obtain ⟨disk, result⟩ := opened
  cases result with
  | error error => exact .none
  | ok jobs =>
    dsimp only [Except.map]
    rw [ArtifactStore.reopen_edited]
    generalize world.artifacts.reopen disk = opened
    obtain ⟨disk, result⟩ := opened
    cases result with
    | error error => exact .none
    | ok artifacts =>
      exact .some
        { disk := rfl
          jobs := rfl
          artifacts := rfl
          live := rfl
          channel := rfl
          tasks := rfl
          nextTask := veiled.nextTask
          pool := rfl
          history := veiled.history }

/-- Worlds are alike when one and the same world veils them. -/
def Alike (storage : StorageConfig) (world other : World) : Prop :=
  ∃ shown, Veiled storage world shown ∧ Veiled storage other shown

/-- A compiler that ends alike leaves a worker with alike work. -/
theorem afterRun_masked (record : JobRecord) (ending : CompilerEnd) :
    (Task.worker (afterRun record.masked ending.masked)).masked = (Task.worker (afterRun record ending)).masked := by
  cases ending with
  | made artifact => exact congrArg (fun record => Task.worker (.collected record artifact)) record.masked_masked
  | failed error => cases error <;> rfl
  | brokeOff => rfl

theorem alike_compile {world world' : World} {record record' : JobRecord} {chance chance' : Chance}
    (settings : setting.Alike storage other) (alike : Alike storage world world')
    (records : record'.masked = record.masked) (chances : chance'.masked = chance.masked) {workspace : Workspace}
    {directory : String} (houses : setting.workspaces.Houses workspace directory) :
    Alike storage (compile setting world number chance record workspace directory)
      (compile other world' number chance' record' workspace directory) := by
  obtain ⟨shown, veiled, veiled'⟩ := alike
  obtain ⟨_, name, named, rfl⟩ := houses
  have kind : record'.kind = record.kind := (congrArg JobRecord.kind records : _)
  have input : record'.input = record.input := (congrArg JobRecord.input records : _)
  rw [compile, compile, kind, input]
  obtain ⟨disks, endings⟩ := settings.compilers record.kind record.input named chances
    (veiled'.disk.symm.trans veiled.disk)
  generalize setting.compilers record.kind _ record.input chance world.disk = ran at disks endings ⊢
  generalize other.compilers record.kind _ record.input chance' world'.disk = ran' at disks endings ⊢
  have cleaned :
      (workspace.cleanup ran'.1).1.edited storage.veil = (workspace.cleanup ran.1).1.edited storage.veil := by
    have first := Workspace.cleanup_edited storage.veil ran.1 workspace
    rw [← disks, Workspace.cleanup_edited] at first
    exact congrArg Prod.fst first
  have work : (Task.worker (afterRun record' ran'.2)).masked = (Task.worker (afterRun record ran.2)).masked := by
    rw [← afterRun_masked record', ← afterRun_masked record, records, endings]
  have done := (veiled.withDisk (workspace.cleanup ran.1).1).goOn number (.worker (afterRun record ran.2))
  have done' := (veiled'.withDisk (workspace.cleanup ran'.1).1).goOn number (.worker (afterRun record' ran'.2))
  rw [cleaned, work] at done'
  exact ⟨_, done, done'⟩

/-- A task that is hidden as one that runs a compiler runs one. -/
theorem eq_running_of_masked {task : Task} {record : JobRecord} {workspace : Workspace} {directory : String}
    (same : task.masked = .worker (.running record workspace directory)) :
    ∃ record', task = .worker (.running record' workspace directory) ∧ record'.masked = record := by
  rcases task with step | step | step | step | step | ids | ⟨id, awake⟩
  · cases step <;> simp [Task.masked] at same
  · simp [Task.masked] at same
  · simp [Task.masked] at same
  · cases step <;> simp [Task.masked] at same
  · cases step with
    | running other workspace directory =>
      obtain ⟨masked, rfl, rfl⟩ := by simpa [Task.masked] using same
      exact ⟨other, rfl, masked⟩
    | _ => simp [Task.masked] at same
  · simp [Task.masked] at same
  · simp [Task.masked] at same

/-- A world and one that veils it call compilers at the same moves. -/
theorem Veiled.calls (veiled : Veiled storage world shown) (move : Move) :
    (∃ record, shown.CallsCompiler record move.masked) ↔ ∃ record, world.CallsCompiler record move := by
  cases move with
  | step number chance =>
    constructor
    · rintro ⟨record, workspace, directory, there⟩
      rw [veiled.get?] at there
      obtain ⟨task, found, same⟩ := Option.map_eq_some_iff.mp there
      obtain ⟨other, rfl, _⟩ := eq_running_of_masked same
      exact ⟨other, workspace, directory, found⟩
    · rintro ⟨record, workspace, directory, found⟩
      exact ⟨record.masked, workspace, directory, by rw [veiled.get?, found]; rfl⟩
  | _ => exact ⟨fun ⟨_, never⟩ => never.elim, fun ⟨_, never⟩ => never.elim⟩

/-- A move depends neither on what is hidden nor on the text of a fault, unless it calls a compiler. -/
theorem veiled_move? (veiled : Veiled storage world shown) (guarded : world.Guarded setting storage) {move : Move}
    (still : ¬∃ record, world.CallsCompiler record move) :
    Option.Rel (Veiled storage) (move? setting world move) ((move? setting shown move.masked).map (veil storage)) := by
  cases move with
  | call call => exact .some (veiled_beginCall veiled call).again
  | step number chance => exact veiled_step? veiled guarded chance fun record calls => still ⟨record, calls⟩
  | deliver id =>
    refine .some (Veiled.again ?_)
    rw [veiled.channel]
    exact veiled.withChannel _
  | restart => exact rel_again (veiled_restart veiled guarded)

/-- Moves that differ only in what is hidden lead from worlds that are alike to worlds that are alike. -/
theorem alike_move? {world world' : World} {move move' : Move} (settings : setting.Alike storage other)
    (alike : Alike storage world world') (guarded : world.Guarded setting storage)
    (guarded' : world'.Guarded other storage) (moves : move'.masked = move.masked) :
    Option.Rel (Alike storage) (move? setting world move) (move? other world' move') := by
  have share {next next' shown : Option World} (rel : Option.Rel (Veiled storage) next shown)
      (rel' : Option.Rel (Veiled storage) next' shown) : Option.Rel (Alike storage) next next' := by
    cases rel with
    | none =>
      cases rel' with
      | none => exact .none
    | some veiled =>
      cases rel' with
      | some veiled' => exact .some ⟨_, veiled, veiled'⟩
  obtain ⟨shown, veiled, veiled'⟩ := alike
  -- Only a compiler can tell the two settings apart; all other moves are made by the world that veils both.
  by_cases calls : ∃ record, world.CallsCompiler record move
  · cases move with
    | step number chance =>
      cases move' with
      | step number' chance' =>
        obtain ⟨rfl, chances⟩ := by simpa only [Move.masked, Move.step.injEq] using moves
        obtain ⟨record, workspace, directory, found⟩ := calls
        have there := veiled'.get? number'
        rw [veiled.get?, found] at there
        obtain ⟨task, found', same⟩ := Option.map_eq_some_iff.mp there.symm
        obtain ⟨record', rfl, records⟩ := eq_running_of_masked same
        rw [move?, move?, step?, step?, found, found']
        have houses := guarded.secure.housed _ _ found
        exact .some (alike_compile settings ⟨shown, veiled, veiled'⟩ records chances houses)
      | _ => simp [Move.masked] at moves
    | _ => exact calls.elim fun _ never => never.elim
  · have calls' : ¬∃ record, world'.CallsCompiler record move' := by
      rwa [← veiled'.calls, moves, veiled.calls]
    have covered := veiled_move? veiled guarded calls
    have covered' := veiled_move? veiled' guarded' calls'
    have settled : other = { setting with compilers := other.compilers } := by
      rw [← settings.config, ← settings.workspaces]
    have none (record : JobRecord) (calls'' : shown.CallsCompiler record move.masked) : False :=
      calls ((veiled.calls move).mp ⟨record, calls''⟩)
    rw [moves, settled, move?_eq_of_not_callsCompiler _ none, ← settled] at covered'
    exact share covered covered'

/-- Worlds are twins when they are alike and both guarded. -/
structure Twins (storage : StorageConfig) (setting other : Setting) (world world' : World) : Prop where
  alike : Alike storage world world'
  guarded : world.Guarded setting storage
  guarded' : world'.Guarded other storage

theorem safe_of_masked {move move' : Move} (moves : move'.masked = move.masked)
    (safe : ∀ number chance, move = .step number chance → ArtifactStore.isSafeId chance.name = true) :
    ∀ number chance, move' = .step number chance → ArtifactStore.isSafeId chance.name = true := by
  rintro number chance rfl
  cases move with
  | step number' chance' =>
    obtain ⟨_, chances⟩ := by simpa only [Move.masked, Move.step.injEq] using moves
    have name : chance.name = chance'.name := (congrArg Chance.name chances : _)
    exact name ▸ safe number' chance' rfl
  | _ => simp [Move.masked] at moves

/-- Moves that differ only in what is hidden lead from twins to twins. -/
theorem Twins.move? {world world' : World} (twins : Twins storage setting other world world')
    (settings : setting.Alike storage other)
    (confined : ∀ data, storage = .file data → setting.Confined data ∧ other.Confined data) {move move' : Move}
    (moves : move'.masked = move.masked)
    (safe : ∀ number chance, move = .step number chance → ArtifactStore.isSafeId chance.name = true) :
    Option.Rel (Twins storage setting other) (World.move? setting world move) (World.move? other world' move') := by
  have alike := alike_move? settings twins.alike twins.guarded twins.guarded' moves
  have guarded := (twins.guarded.move (fun data file => (confined data file).1) move safe).1
  have guarded' := (twins.guarded'.move (fun data file => (confined data file).2) move' (safe_of_masked moves safe)).1
  rw [World.move] at guarded guarded'
  generalize World.move? setting world move = next at alike guarded ⊢
  generalize World.move? other world' move' = next' at alike guarded' ⊢
  cases alike with
  | none => exact .none
  | some alike => exact .some ⟨alike, guarded, guarded'⟩

/-- Runs whose moves differ only in what is hidden lead from twins to twins. -/
theorem Twins.run (settings : setting.Alike storage other)
    (confined : ∀ data, storage = .file data → setting.Confined data ∧ other.Confined data) {moves : List Move} :
    ∀ {moves' : List Move} {world world' : World}, Twins storage setting other world world' →
      moves'.map Move.masked = moves.map Move.masked →
        (∀ number chance, .step number chance ∈ moves → ArtifactStore.isSafeId chance.name = true) →
          Twins storage setting other (World.run setting world moves) (World.run other world' moves') := by
  induction moves with
  | nil =>
    intro moves' world world' twins same _
    obtain rfl := List.map_eq_nil_iff.mp same
    exact twins
  | cons move moves inductionHypothesis =>
    intro moves' world world' twins same safe
    cases moves' with
    | nil => simp at same
    | cons move' moves' =>
      obtain ⟨first, rest⟩ := by simpa only [List.map_cons, List.cons.injEq] using same
      have moved := twins.move? settings confined first fun number chance here =>
        safe number chance (here ▸ List.mem_cons_self)
      have reached : Twins storage setting other (World.move setting world move) (World.move other world' move') := by
        rw [World.move, World.move]
        generalize World.move? setting world move = next at moved
        generalize World.move? other world' move' = next' at moved
        cases moved with
        | none => exact twins
        | some twins => exact twins
      have ended := inductionHypothesis reached rest fun number chance member =>
        safe number chance (List.mem_cons_of_mem _ member)
      exact ended

end World

end ContractWorks
