import ContractWorks.Proofs.Queue.Startup

namespace ContractWorks

theorem JobStore.get_eq_ok {store : JobStore} {id : JobId} {fault : Option StoreFault} {found : Option JobRecord}
    (got : store.get id fault = .ok found) : found = Table.get? id store.records := by
  rw [get.eq_def] at got
  split at got
  · simp at got
  · exact (Except.ok.inj got).symm

/-- A fault keeps an artifact from being read, but never changes what is read. -/
theorem ArtifactStore.get_eq_ok {store : ArtifactStore} {id : ArtifactId} {fault : Option StoreFault} {disk : Disk}
    {found : Option Artifact} (got : store.get id fault disk = .ok found) : store.get id none disk = .ok found := by
  rw [get.eq_def] at got ⊢
  split at got
  · simp at got
  · exact got

namespace World

/-- What a look finds comes of the live entry in a first world, the record in a second one, and the artifact in a
third one. -/
inductive Finds (first second third : World) (id : JobId) : Option JobStatus → Prop where
  | unrecorded (absent : Table.get? id second.jobs.records = none) :
      Finds first second third id ((Table.get? id first.live).map (statusOfLive id))
  | bare {record : JobRecord} (stands : Table.get? id second.jobs.records = some record)
      (lacks : ∀ artifact, record.status = .completed → record.artifactId ≠ some artifact) :
      Finds first second third id (some (statusOf record (Table.get? id first.live)))
  | whole {record : JobRecord} {artifact : ArtifactId} {found : Option Artifact}
      (stands : Table.get? id second.jobs.records = some record) (completed : record.status = .completed)
      (names : record.artifactId = some artifact)
      (read : third.artifacts.get artifact none third.disk = .ok found) :
      Finds first second third id (some (statusWithResult record artifact found))

/-- An answer is found in a run when the three reads of a look find it in worlds that follow one another. -/
def Found (setting : Setting) (base : World) (moves : List Move) (id : JobId) (found : Option JobStatus) : Prop :=
  ∃ one two three four, moves = one ++ two ++ three ++ four ∧
    Finds (run setting base one) (run setting base (one ++ two)) (run setting base (one ++ two ++ three)) id found

/-- This is what the task of a look holds some moves after it has begun. -/
inductive Reading (setting : Setting) (base : World) (moves : List Move) (id : JobId) : Option Task → Prop where
  | begun : Reading setting base moves id (some (.status (.reading id)))
  | looking {one two : List Move} (split : moves = one ++ two) :
      Reading setting base moves id (some (.status (.looking id (Table.get? id (run setting base one).live))))
  | fetching {one two three : List Move} {record : JobRecord} {artifact : ArtifactId}
      (split : moves = one ++ two ++ three)
      (stands : Table.get? id (run setting base (one ++ two)).jobs.records = some record)
      (completed : record.status = .completed) (names : record.artifactId = some artifact) :
      Reading setting base moves id (some (.status (.fetching record artifact)))
  | ended : Reading setting base moves id none

variable {setting : Setting} {base world next : World} {moves : List Move} {move : Move} {id : JobId} {number : Nat}
  {found : Option JobStatus} {task : Option Task}

theorem Found.more (here : Found setting base moves id found) (more : List Move) :
    Found setting base (moves ++ more) id found := by
  obtain ⟨one, two, three, four, rfl, finds⟩ := here
  exact ⟨one, two, three, four ++ more, by simp only [List.append_assoc], finds⟩

theorem Reading.more (here : Reading setting base moves id task) (move : Move) :
    Reading setting base (moves ++ [move]) id task := by
  cases here with
  | begun => exact .begun
  | @looking one two split =>
    have longer : moves ++ [move] = one ++ (two ++ [move]) := by rw [split, List.append_assoc]
    exact .looking longer
  | @fetching one two three record artifact split stands completed names =>
    have longer : moves ++ [move] = one ++ two ++ (three ++ [move]) := by rw [split, List.append_assoc]
    exact .fetching longer stands completed names
  | ended => exact .ended

/-- A job is asked for when a task looks at it, and when this one is answered only with what it finds. -/
structure Asked (setting : Setting) (base : World) (moves : List Move) (id : JobId) (number : Nat) : Prop where
  older : number < (run setting base moves).nextTask
  reading : Reading setting base moves id (Table.get? number (run setting base moves).tasks)
  told : ∀ found, .answered number (.status (.ok found)) ∈ (run setting base moves).history →
    Found setting base moves id found

/-- This is what one step of a look does: it goes on, or ends with an answer that it finds. -/
inductive Looks (setting : Setting) (base world : World) (moves : List Move) (id : JobId) (number : Nat) :
    World → Prop where
  | goesOn {task : Task} (reading : Reading setting base moves id (some task)) :
      Looks setting base world moves id number (world.goOn number task)
  | answers {result : Except QueueError (Option JobStatus)}
      (told : ∀ found, result = .ok found → Found setting base moves id found) :
      Looks setting base world moves id number (world.answer number (.status result))

theorem looks_step {step : StatusStep} {chance : Chance} (move : Move)
    (reading : Reading setting base moves id (some (.status step))) :
    Looks setting base (run setting base moves) (moves ++ [move]) id number
      ((run setting base moves).stepStatus number chance step) := by
  generalize stepped : (run setting base moves).stepStatus number chance step = next
  cases reading with
  | begun =>
    cases statusBranch stepped with
    | reads => exact .goesOn (.looking rfl)
  | @looking one two split =>
    have finds (found : Option JobStatus) (here : Finds (run setting base one) (run setting base moves)
        (run setting base moves) id found) : Found setting base (moves ++ [move]) id found := by
      refine ⟨one, two, [], [move], by simp [split], ?_⟩
      rw [List.append_nil, ← split]
      exact here
    have unrecorded (got : (run setting base moves).jobs.get id chance.fault = .ok none) : Found setting base
        (moves ++ [move]) id ((Table.get? id (run setting base one).live).map (statusOfLive id)) :=
      finds _ (.unrecorded (JobStore.get_eq_ok got).symm)
    generalize live : Table.get? id (run setting base one).live = seen at stepped unrecorded
    cases statusBranch stepped with
    | unread => exact .answers fun _ failed => by simp at failed
    | misses got | shows got => exact .answers fun found same => Except.ok.inj same ▸ unrecorded got
    | finds got completed made =>
      have longer : moves ++ [move] = one ++ two ++ [move] := by rw [split]
      exact .goesOn (.fetching longer (split ▸ (JobStore.get_eq_ok got).symm) completed made)
    | tells got rest =>
      refine .answers fun found same => finds found ?_
      exact Except.ok.inj same ▸ live ▸ .bare (JobStore.get_eq_ok got).symm rest
  | @fetching one two three record artifact split stands completed names =>
    cases statusBranch stepped with
    | breaks => exact .answers fun _ failed => by simp at failed
    | fetches got =>
      refine .answers fun found same => ⟨one, two, three, [move], by simp [split], ?_⟩
      rw [← split]
      exact Except.ok.inj same ▸ .whole stands completed names (ArtifactStore.get_eq_ok got)

/-- A job that is asked for stays so through an ordinary move that is local, and is answered only by its own task. -/
theorem Asked.proceed (asked : Asked setting base moves id number) (ordinary : move.IsOrdinary)
    (changes : ∀ next, move? setting (run setting base moves) move = some next →
      Local ((run setting base moves).mover move) (run setting base moves) next) :
    Asked setting base (moves ++ [move]) id number := by
  obtain ⟨older, reading, told⟩ := asked
  have stays (same : run setting base (moves ++ [move]) = run setting base moves) :
      Asked setting base (moves ++ [move]) id number :=
    ⟨same ▸ older, same ▸ reading.more move, fun found member => (told found (same ▸ member)).more [move]⟩
  cases moved : move? setting (run setting base moves) move with
  | none => exact stays (by rw [run_concat, World.move, moved, Option.getD_none])
  | some next =>
    have becomes : run setting base (moves ++ [move]) = next := by
      rw [run_concat, World.move, moved, Option.getD_some]
    have here := changes next moved
    have olderNext : number < next.nextTask := Nat.lt_of_lt_of_le older here.nextTask
    by_cases own : (run setting base moves).mover move = number
    · cases move with
      | call call => exact absurd own (Nat.ne_of_gt older)
      | deliver other => exact ordinary.elim
      | restart => exact ordinary.elim
      | step other chance =>
        obtain rfl : other = number := own
        obtain ⟨task, found, stepped⟩ := task_of_step moved
        rw [found] at reading
        obtain ⟨step, rfl⟩ : ∃ step, task = .status step := by
          cases reading <;> exact ⟨_, rfl⟩
        have looks : Looks setting base (run setting base moves) (moves ++ [.step other chance]) id other
            ((run setting base moves).stepStatus other chance step) := looks_step _ reading
        rw [Option.some.inj stepped] at looks
        cases looks with
        | goesOn reading =>
          refine ⟨becomes ▸ olderNext, ?_, fun found member => ?_⟩
          · rw [becomes]
            exact (Table.get?_insert_self other _ _).symm ▸ reading
          · rw [becomes] at member
            exact (told found member).more _
        | @answers result answers =>
          refine ⟨becomes ▸ olderNext, ?_, fun found member => ?_⟩
          · rw [becomes]
            exact (Table.get?_erase_self other _).symm ▸ .ended
          · rw [becomes] at member
            rcases List.mem_append.mp member with before | now
            · exact (told found before).more _
            · exact answers found (by simpa using (List.mem_singleton.mp now).symm)
    · refine ⟨becomes ▸ olderNext, ?_, fun found member => ?_⟩
      · rw [becomes, here.others number (Ne.symm own) older]
        exact reading.more move
      · rw [becomes] at member
        rcases here.answers number _ member with before | same
        · exact (told found before).more [move]
        · exact absurd same.symm own

/-- A look that is called for is at its beginning, if nobody has answered it before. -/
theorem asked_of_call (unanswered : ∀ answer, .answered world.nextTask answer ∉ world.history) :
    Asked setting (World.move setting world (.call (.status id))) [] id world.nextTask := by
  refine ⟨?_, ?_, fun found member => ?_⟩
  · exact Nat.lt_succ_self _
  · have there : Table.get? world.nextTask (World.move setting world (.call (.status id))).tasks =
        some (.status (.reading id)) := Table.get?_insert_self _ _ _
    exact there.symm ▸ .begun
  · have before : .answered world.nextTask (.status (.ok found)) ∈ world.history := by
      have told : Event.answered world.nextTask (.status (.ok found)) ∈
          world.history ++ [.called world.nextTask (.status id)] := member
      simpa using told
    exact absurd before (unanswered _)

/-- A look that is called for is answered only with what it finds in a run of local moves. -/
theorem asked_of_local {late : List Move} (unanswered : ∀ answer, .answered world.nextTask answer ∉ world.history)
    (ordinary : ∀ move ∈ late, move.IsOrdinary)
    (changes : ∀ former move next, former ++ [move] <+: late →
      move? setting (run setting (World.move setting world (.call (.status id))) former) move = some next →
        Local ((run setting (World.move setting world (.call (.status id))) former).mover move)
          (run setting (World.move setting world (.call (.status id))) former) next) :
    Asked setting (World.move setting world (.call (.status id))) late id world.nextTask := by
  induction late using List.reverseRecOn with
  | nil => exact asked_of_call unanswered
  | append_singleton late last inductionHypothesis =>
    have before := inductionHypothesis (fun move member => ordinary move (List.mem_append_left _ member))
      fun former move next inside => changes former move next (inside.trans (List.prefix_append _ _))
    exact before.proceed (ordinary last (by simp)) fun next => changes late last next (List.prefix_refl _)

/-- A look that is called for is answered only with what it finds in the run that follows. -/
theorem asked_run {start : World} {first : Table JobId JobRecord} {report : RecoveryReport} {early late : List Move}
    (begun : Begun (Happened setting start early) first report (run setting start early))
    (ordinary : ∀ move ∈ late, move.IsOrdinary) :
    Asked setting (run setting start (early ++ [.call (.status id)])) late id (run setting start early).nextTask := by
  have called : ∀ move ∈ [Move.call (.status id)], move.IsOrdinary := by
    intro move member
    rw [List.mem_singleton.mp member]
    trivial
  rw [run_concat]
  refine asked_of_local (fun answer before => absurd (begun.counted _ _ before) (Nat.lt_irrefl _)) ordinary
    fun former move next inside moved => ?_
  have member (move : Move) (here : move ∈ former) : move ∈ late := inside.subset (List.mem_append_left _ here)
  have between := (begun.run called).run fun move here => ordinary move (member move here)
  rw [run_append, run_concat] at between
  exact (between.flow (ordinary move (inside.subset (by simp))) moved).toLocal

end World

end ContractWorks
