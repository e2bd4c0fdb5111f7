import ContractWorks.Proofs.Queue.Attempt
import ContractWorks.Proofs.Queue.Dealing
import ContractWorks.Proofs.Queue.Places
import ContractWorks.Service.Serve

namespace ContractWorks

open Path (Plain)

variable {setting : Setting} {storage : StorageConfig}

namespace Schedule

variable {schedule : Schedule} {submission : Submission}

/-- The first answer of a task is the one that is told, when the task has not answered before. -/
theorem answerOf_of_told {number : Nat} {call : Call} {answer : Answer} {history : List Event}
    (silent : ∀ answer, .answered number answer ∉ history)
    (told : schedule.world.history = history ++ [.called number call, .answered number answer]) :
    schedule.answerOf number = some answer := by
  rw [answerOf, told, List.findSome?_append, List.findSome?_eq_none_iff.mpr, Option.none_or]
  · simp
  · intro event member
    cases event with
    | answered task given =>
      refine if_neg fun same => ?_
      exact silent given (same ▸ member)
    | _ => rfl

/-- A schedule makes a submission with nothing between its steps, and gives the answer that is told. -/
theorem call_request (schedule : Schedule) (numbered : schedule.world.Numbered) (closed : schedule.world.Closed)
    (submission : Submission) :
    ∃ (chances : List Chance) (result : Except QueueError JobId), 4 ≤ chances.length ∧
      (∀ chance ∈ chances, ArtifactStore.isSafeId chance.name = true) ∧
      (schedule.call (.request submission)).2.world = World.run schedule.setting schedule.world
        (schedule.world.attempt (.request submission) chances) ∧
      (schedule.call (.request submission)).2.world.history = schedule.world.history ++
        [.called schedule.world.nextTask (.request submission),
          .answered schedule.world.nextTask (.submitted result)] ∧
      (schedule.call (.request submission)).1 = some (.submitted result) := by
  obtain ⟨begun, shape⟩ : ∃ begun : Schedule, begun =
      { schedule with world := World.beginCall schedule.setting schedule.world (.request submission) } := ⟨_, rfl⟩
  have first : Table.get? schedule.world.nextTask begun.world.tasks = none ∨ ∃ step : SubmitStep,
      Table.get? schedule.world.nextTask begun.world.tasks = some (.submit step) ∧ step.ahead ≤ patience := by
    have bound (step : SubmitStep) : step.ahead ≤ patience := by
      cases step <;> simp [SubmitStep.ahead, patience]
    cases found : Table.get? schedule.world.nextTask begun.world.tasks with
    | none => exact .inl rfl
    | some task =>
      subst shape
      rcases (World.outcome_call numbered (.request submission)).came found with ⟨apart, _⟩ | ⟨_, duty⟩ | ⟨apart, _⟩
      · exact absurd rfl apart
      · cases task with
        | submit step => exact .inr ⟨step, rfl, bound step⟩
        | _ => simp [Task.duty, Call.duty] at duty
      · exact absurd rfl apart
  obtain ⟨chances, safe, _, ran, gone⟩ := finishTaskFor_submit patience first
  obtain ⟨ended, finished⟩ : ∃ ended, ended = finishTaskFor patience begun schedule.world.nextTask := ⟨_, rfl⟩
  rw [← finished] at ran gone
  -- Once the submission has ended, further chances have no effect.
  obtain ⟨more, four⟩ : ∃ more : List Chance, more = List.replicate 4 ⟨schedule.clock, "0", none⟩ := ⟨_, rfl⟩
  have unmoved : World.run schedule.setting ended.world
      (more.map fun chance => .step schedule.world.nextTask chance) = ended.world := World.run_steps_of_none gone more
  have padded : ended.world = World.run schedule.setting schedule.world
      (schedule.world.attempt (.request submission) (chances ++ more)) := by
    have starts : World.run schedule.setting schedule.world
        (schedule.world.attempt (.request submission) (chances ++ more)) =
          World.run schedule.setting begun.world
            ((chances ++ more).map fun chance => .step schedule.world.nextTask chance) := by rw [shape]; rfl
    have same : begun.setting = schedule.setting := by rw [shape]
    rw [starts, List.map_append, World.run_append, ← same, ← ran, same, unmoved]
  have enough : 4 ≤ (chances ++ more).length := by
    rw [List.length_append, four, List.length_replicate]
    omega
  have named : ∀ chance ∈ chances ++ more, ArtifactStore.isSafeId chance.name = true := by
    intro chance member
    rcases List.mem_append.mp member with own | extra
    · exact safe chance own
    · rw [four] at extra
      have plain : ArtifactStore.isSafeId "0" = true := by decide
      rw [List.eq_of_mem_replicate extra]
      exact plain
  have attempted : World.Attempted schedule.setting schedule.world (.request submission) ended.world := by
    rw [padded]
    exact World.attempted_run numbered rfl enough
  obtain ⟨result, told⟩ := attempted.told
  have answered := answerOf_of_told (fun answer told => Nat.lt_irrefl _ (closed _ answer told).1) told
  have called : schedule.call (.request submission) = (some (.submitted result), ended) := by
    rw [call]
    dsimp only
    rw [← shape, ← finished, answered]
  rw [called]
  exact ⟨chances ++ more, result, enough, named, padded, told, rfl⟩

end Schedule

namespace Http

@[simp] theorem status_shareWith (config : ServerConfig) (response : Response) :
    (shareWith config response).status = response.status := by
  rw [shareWith]
  split <;> rfl

@[simp] theorem status_forMethod (method : String) (response : Response) :
    (response.forMethod method).status = response.status := by
  rw [Response.forMethod]
  split <;> rfl

/-- An error is never answered as if the request were accepted. -/
theorem status_ofError (error : ApiError) : (Response.ofError error).status ≠ 202 := by
  cases error <;> simp [Response.ofError, Response.ofJson, ApiError.status]

end Http

namespace Service

/-- A service answers the request for a job with 202 when it gains the job that was asked for; after any other answer it
serves the same as before. -/
def CompilesWhole (service : Service) (request : Request) (answered : Response × Service) : Prop :=
  (answered.1.status = 202 ∧ ∃ submission kind input record,
      Http.readBody service.config Submission.decode request = .ok submission ∧
        submission.resolve = .ok (kind, input) ∧ record.MadeOf kind input ∧
          World.Gains record service.schedule.world answered.2.schedule.world) ∨
    (answered.1.status ≠ 202 ∧ World.Same service.schedule.world answered.2.schedule.world)

variable {service : Service} {request : Request}

theorem compilesWhole_of_status {first second : Response} {after : Service}
    (whole : service.CompilesWhole request (first, after)) (status : second.status = first.status) :
    service.CompilesWhole request (second, after) := by
  rcases whole with ⟨accepted, gained⟩ | ⟨refused, same⟩
  · exact .inl ⟨status.trans accepted, gained⟩
  · exact .inr ⟨fun accepted => refused (status.symm.trans accepted), same⟩

theorem same_refl (world : World) : World.Same world world :=
  ⟨rfl, fun _ _ => rfl, ⟨"", JobStore.spreads_refl _ _ _⟩, rfl, rfl, rfl, rfl, rfl⟩

/-- A submission that a service takes is whole, and so is the response. -/
theorem compilesWhole_compile (guarded : service.schedule.world.Guarded setting storage)
    (same : service.schedule.setting = setting) (founded : service.schedule.world.Founded)
    (closed : service.schedule.world.Closed) (confined : ∀ data, storage = .file data → setting.Confined data)
    {submission : Submission} (body : Http.readBody service.config Submission.decode request = .ok submission) :
    service.CompilesWhole request (service.compile submission) := by
  obtain ⟨chances, result, enough, safe, ran, told, answered⟩ :=
    Schedule.call_request service.schedule.freshName.2 guarded.tidy.numbered closed submission
  have whole : World.Whole (.request submission) service.schedule.world
      (service.schedule.freshName.2.call (.request submission)).2.world := by
    rw [ran]
    subst same
    exact World.whole_of_run guarded founded confined rfl enough safe
  obtain ⟨given, history, effect⟩ := whole
  have world : service.schedule.freshName.2.world = service.schedule.world := rfl
  obtain rfl : result = given := by
    have alike := told.symm.trans history
    rw [world] at alike
    simpa using alike
  have shape : service.compile submission = (Http.answerCompile service.schedule.freshName.1 result,
      { service with schedule := (service.schedule.freshName.2.call (.request submission)).2 }) := by
    rw [compile]
    dsimp only
    rw [answered]
  rw [shape]
  cases result with
  | error error => exact .inr ⟨Http.status_ofError _, effect⟩
  | ok id =>
    obtain ⟨kind, input, record, asked, _, made, gains⟩ := effect
    exact .inl ⟨rfl, submission, kind, input, record, body, Option.some.inj asked, made, gains⟩

/-- A service answers each request for a job as a whole. -/
theorem compilesWhole_answer (guarded : service.schedule.world.Guarded setting storage)
    (same : service.schedule.setting = setting) (founded : service.schedule.world.Founded)
    (closed : service.schedule.world.Closed) (confined : ∀ data, storage = .file data → setting.Confined data)
    (method : request.method = "POST") (path : Endpoint.ofPath request.barePath = some .compile) :
    service.CompilesWhole request (service.answer request) := by
  have knows : Endpoint.compile.knows request.method = true := by simp [Endpoint.knows, Endpoint.allowed, method]
  rw [answer]
  dsimp only
  rw [path, Http.answerUnrouted, if_pos knows]
  split
  · next announced =>
    split at announced
    · obtain rfl := Option.some.inj announced
      exact .inr ⟨by simp [Http.tooLarge, Response.ofText], same_refl _⟩
    · simp at announced
  · next absent => simp at absent
  · next endpoint announced there =>
    obtain rfl := Option.some.inj there
    refine compilesWhole_of_status ?_ ((Http.status_shareWith _ _).trans (Http.status_forMethod _ _))
    rw [answerAt]
    split
    · next submission body => exact compilesWhole_compile guarded same founded closed confined body
    · exact .inr ⟨Http.status_ofError _, same_refl _⟩

end Service

end ContractWorks

namespace ContractWorks.Service

open Path (Plain)

variable {setting : Setting} {storage : StorageConfig}

/-- A submission is all or nothing. In each world that a queue comes to, one that nothing comes between is answered with
an error and changes nothing, or with the id of a job, of which there are then one new record, one new live entry and
one new id on the channel. Whatever comes between its steps, the moves of a refused submission change no job, and those
of an accepted one record one job, enter it and send it. The reserved places are always those of the submissions that
go on, and the channel never holds more than its capacity. A service answers with 202 exactly when it gains a job, and
serves the same as before after any other answer. -/
theorem submission_all_or_nothing {before disk : Disk} {stores : Stores}
    (opened : Stores.ofConfig storage before = (disk, .ok stores))
    (empty : ∀ data, storage = .file data → disk.list (Path.join data "jobs") = .ok [])
    (confined : ∀ data, storage = .file data → setting.Confined data) (moves : List World.Move)
    (safe : ∀ number chance, .step number chance ∈ moves → ArtifactStore.isSafeId chance.name = true) :
    let start := World.new setting disk stores.jobs stores.artifacts
    let world := World.run setting start moves
    (∀ submission chances, 4 ≤ chances.length → (∀ chance ∈ chances, ArtifactStore.isSafeId chance.name = true) →
        World.Whole (.request submission) world
          (World.run setting world (world.attempt (.request submission) chances))) ∧
      (∀ number error, .answered number (.submitted (.error error)) ∈ world.history →
        ∀ deal ∈ World.dealings setting number start moves, World.Untouched deal.1 deal.2) ∧
      (∀ number id, .answered number (.submitted (.ok id)) ∈ world.history →
        World.Made (world.Wants number) id (World.dealings setting number start moves)) ∧
      world.channel.reserved = Table.total Task.places world.tasks ∧
      ((∀ id, .deliver id ∉ moves) →
        world.channel.ids.length + world.channel.reserved ≤ max 1 setting.config.channelCapacity.toNat) ∧
      ∀ (service : Service) (request : Request), service.schedule.setting = setting →
        service.schedule.world = world → request.method = "POST" →
          Endpoint.ofPath request.barePath = some .compile →
            service.CompilesWhole request (service.answer request) ∧
              ((service.answer request).1.status = 202 ↔
                ∃ record, World.Gains record world (service.answer request).2.schedule.world) := by
  intro start world
  obtain ⟨stored, bare⟩ := Stored.of_ofConfig opened empty
  have first : start.Guarded setting storage := World.guarded_new stored
  have founded : start.Founded := World.founded_of_idle (fun _ => rfl) rfl rfl
  have accounts : start.Accounts setting.channelBound True := World.accounts_of_idle rfl rfl
  have guarded : world.Guarded setting storage := first.run confined safe
  have grounded : world.Founded := World.founded_of_run first confined founded moves safe
  have balance := World.accounts_of_run first confined accounts moves safe
  have dealt (number : Nat) := World.deals_of_run first confined rfl rfl number moves safe
  refine ⟨fun submission chances enough named => World.whole_of_run guarded grounded confined rfl enough named,
    fun number error told => (dealt number).2.refused error told,
    fun number id told => (dealt number).2.accepted id told, balance.reserved, balance.bounded.room, ?_⟩
  intro service request same there method path
  rw [← there] at guarded grounded
  have closed : service.schedule.world.Closed := by
    rw [there]
    exact (dealt 0).1
  have whole : service.CompilesWhole request (service.answer request) :=
    compilesWhole_answer guarded same grounded closed confined method path
  rw [← there]
  refine ⟨whole, ?_⟩
  rcases whole with ⟨accepted, _, _, _, record, _, _, _, gains⟩ | ⟨refused, kept⟩
  · exact ⟨fun _ => ⟨record, gains⟩, fun _ => accepted⟩
  · exact ⟨fun accepted => absurd accepted refused, fun ⟨_, gains⟩ => absurd kept gains.not_same⟩

/-- This request asks for a job for a source. -/
def tokenCall : Call :=
  .request (.ofSource .evm "Token" "contract Token {}")

/-- This is a queue over an empty data directory that has been called to start. -/
def calledToStart : World :=
  World.run .scripted (World.new .scripted World.servedDisk (.file (Path.join "data" "jobs") [])
    (.file (Path.join "data" "artifacts"))) [.call .start]

/-- These chances name a job. -/
def namedFirst : List Chance :=
  List.replicate 4 ⟨.sample, "first", none⟩

theorem submission_all_or_nothing_firstJob :
    Setting.scripted.Confined "data" ∧
      (World.run .scripted calledToStart (calledToStart.attempt tokenCall namedFirst)).history =
        [.called 0 .start, .called 1 tokenCall, .answered 1 (.submitted (.ok "first"))] ∧
      ∃ record, record.id = "first" ∧ World.Gains record calledToStart
        (World.run .scripted calledToStart (calledToStart.attempt tokenCall namedFirst)) := by
  have plain : ArtifactStore.isSafeId "first" = true := by decide
  have safe (number : Nat) (chance : Chance) (member : World.Move.step number chance ∈ [World.Move.call .start]) :
      ArtifactStore.isSafeId chance.name = true := by simp at member
  have empty (data : String) (same : StorageConfig.file "data" = .file data) :
      World.servedDisk.list (Path.join data "jobs") = .ok [] := by
    obtain rfl := StorageConfig.file.inj same
    exact World.list_servedDisk
  have confined (data : String) (same : StorageConfig.file "data" = .file data) :
      Setting.scripted.Confined data := by
    obtain rfl := StorageConfig.file.inj same
    exact Setting.scripted_confined
  have told : (World.run .scripted calledToStart (calledToStart.attempt tokenCall namedFirst)).history =
      [.called 0 .start, .called 1 tokenCall, .answered 1 (.submitted (.ok "first"))] := by with_unfolding_all rfl
  have begun : calledToStart.history = [.called 0 .start] := by with_unfolding_all rfl
  have number : calledToStart.nextTask = 1 := by with_unfolding_all rfl
  have all := submission_all_or_nothing World.ofConfig_servedDisk empty confined [.call .start] safe
  have whole : World.Whole tokenCall calledToStart
      (World.run .scripted calledToStart (calledToStart.attempt tokenCall namedFirst)) := by
    refine all.1 (.ofSource .evm "Token" "contract Token {}") namedFirst (by decide) fun chance member => ?_
    rw [List.eq_of_mem_replicate member]
    exact plain
  obtain ⟨result, history, effect⟩ := whole
  obtain rfl : .ok "first" = result := by
    have alike := told.symm.trans history
    rw [begun, number] at alike
    simpa using alike
  obtain ⟨kind, input, record, asked, named, made, gains⟩ := effect
  exact ⟨Setting.scripted_confined, told, record, named, gains⟩

end ContractWorks.Service
