import ContractWorks.Proofs.Queue.Answering
import ContractWorks.Proofs.Queue.Pairing
import ContractWorks.Service.Serve

namespace ContractWorks

open World

namespace Http

/-- This function gives the response of a handler that has made a call, after the answer of the queue. The handler has
given the request an id. -/
def responseTo (requestId : String) : Call → Answer → Option Response
  | .request _, .submitted result => some (answerCompile requestId result)
  | .status id, .status result => some (answerJob id result)
  | _, _ => none

/-- This function finds the call that has begun as the task with a number. -/
def callOf (number : Nat) (history : List Event) : Option Call :=
  history.findSome? fun event =>
    match event with
    | .called task call => if task = number then some call else none
    | _ => none

/-- This function lists the responses to the calls of handlers in the order in which the queue has answered, with the
numbers of the calls. -/
def responses (requestId : Nat → String) (history : List Event) : List (Nat × Response) :=
  history.filterMap fun event =>
    match event with
    | .answered number answer =>
      ((callOf number history).bind fun call => responseTo (requestId number) call answer).map (number, ·)
    | _ => none

theorem ofQueue_masked (error : QueueError) : ApiError.ofQueue error.masked = ApiError.ofQueue error := by
  cases error <;> rfl

/-- No response tells what is hidden in an answer. -/
theorem responseTo_masked (requestId : String) (call : Call) (answer : Answer) :
    responseTo requestId call answer.masked = responseTo requestId call answer := by
  cases answer with
  | submitted result =>
    cases call with
    | request submission =>
      cases result with
      | ok id => rfl
      | error error => exact congrArg (fun error => some (Response.ofError error)) (ofQueue_masked error)
    | _ => rfl
  | started result => cases call <;> rfl
  | stopped => cases call <;> rfl
  | status result =>
    cases call with
    | status id =>
      cases result with
      | ok found => rfl
      | error error => exact congrArg (fun error => some (Response.ofError error)) (ofQueue_masked error)
    | _ => rfl

theorem callOf_masked (number : Nat) (history : List Event) :
    callOf number (history.map Event.masked) = callOf number history := by
  rw [callOf, callOf, List.findSome?_map]
  congr 1
  funext event
  cases event <;> rfl

theorem responses_masked (requestId : Nat → String) (history : List Event) :
    responses requestId (history.map Event.masked) = responses requestId history := by
  rw [responses, responses, List.filterMap_map]
  congr 1
  funext event
  cases event with
  | answered number answer => simp only [Function.comp_apply, Event.masked, callOf_masked, responseTo_masked]
  | _ => rfl

/-- Answers that differ only in what is hidden get the same response. -/
theorem responseTo_alike {answer other : Option Answer} (same : other.map Answer.masked = answer.map Answer.masked)
    (requestId : String) (call : Call) :
    other.bind (responseTo requestId call) = answer.bind (responseTo requestId call) := by
  have hidden (answer : Option Answer) :
      (answer.map Answer.masked).bind (responseTo requestId call) = answer.bind (responseTo requestId call) := by
    rw [Option.bind_map]
    congr 1
    funext answer
    exact responseTo_masked requestId call answer
  rw [← hidden other, same, hidden]

/-- No response tells the text of a fault of the artifact store. -/
theorem answerArtifact_masked (store : ArtifactStore) (id : ArtifactId) (fault : Option StoreFault) (disk : Disk) :
    answerArtifact id (store.get id (fault.map StoreFault.masked) disk) =
      answerArtifact id (store.get id fault disk) := by
  match fault with
  | none => rfl
  | some (.refused text) => rfl
  | some .write => rfl
  | some .move => rfl

end Http

namespace Service

variable {storage : StorageConfig} {service : Service} {other : Schedule}

/-- A handler sends a client the response to its submission, or tells of an error of its own. -/
theorem compile_fst (service : Service) (submission : Submission) :
    (service.compile submission).1 =
      ((service.schedule.freshName.2.call (.request submission)).1.bind
        (Http.responseTo service.schedule.freshName.1 (.request submission))).getD (.ofError .internal) := by
  rw [compile]
  dsimp only
  rcases (service.schedule.freshName.2.call (.request submission)).1 with _ | answer
  · rfl
  · cases answer <;> rfl

/-- A handler sends a client the response to its look at a job, or tells of an error of its own. -/
theorem job_fst (service : Service) (id : JobId) (requestId : String) :
    (service.job id).1 =
      ((service.schedule.call (.status id)).1.bind
        (Http.responseTo requestId (.status id))).getD (.ofError .internal) := by
  rw [job]
  dsimp only
  rcases (service.schedule.call (.status id)).1 with _ | answer
  · rfl
  · cases answer <;> rfl

theorem artifact_fst (service : Service) (id : ArtifactId) :
    (service.artifact id).1 = Http.answerArtifact id (service.schedule.world.artifacts.get id
      (service.schedule.callStore .artifactGet).1 service.schedule.world.disk) := by
  have world : (service.schedule.callStore .artifactGet).2.world = service.schedule.world := by
    rw [Schedule.callStore]
    split <;> rfl
  rw [artifact, Schedule.artifact?]
  dsimp only
  rw [world]

theorem artifact_paired (paired : service.schedule.Paired storage other) (id : ArtifactId) :
    ({ service with schedule := other }.artifact id).1 = (service.artifact id).1 := by
  obtain ⟨shown, veiled, veiled'⟩ := paired.twins.alike
  have kept := paired.twins.guarded.secure.stored.liesAt.2
  have kept' := paired.twins.guarded'.secure.stored.liesAt.2
  obtain ⟨faults, _⟩ :=
    Schedule.callStore_faultText service.schedule other.setting other.world other.faultText .artifactGet
  rw [← paired.same] at faults
  rw [artifact_fst, artifact_fst, ← Http.answerArtifact_masked, faults, Http.answerArtifact_masked,
    ← ArtifactStore.get_edited kept', ← ArtifactStore.get_edited kept, ← veiled.artifacts, ← veiled.disk,
    ← veiled'.artifacts, ← veiled'.disk]

/-- Services whose schedules are paired answer each request at its endpoint alike. -/
theorem answerAt_paired (paired : service.schedule.Paired storage other) (request : Request) (endpoint : Endpoint) :
    ({ service with schedule := other }.answerAt request endpoint).1 = (service.answerAt request endpoint).1 := by
  cases endpoint with
  | health =>
    obtain ⟨shown, veiled, veiled'⟩ := paired.twins.alike
    have live := veiled'.live.symm.trans veiled.live
    rw [answerAt, answerAt, Setting.workerCount, Setting.workerCount, paired.settings.config, live]
  | generate =>
    rw [answerAt, answerAt]
    dsimp only
    cases Http.readBody service.config GenerateRequest.decode request <;> rfl
  | validate =>
    rw [answerAt, answerAt]
    dsimp only
    cases Http.readBody service.config ValidateRequest.decode request <;> rfl
  | compile =>
    rw [answerAt, answerAt]
    dsimp only
    cases Http.readBody service.config Submission.decode request with
    | error error => rfl
    | ok submission =>
      obtain ⟨name, named⟩ := paired.freshName
      dsimp only
      rw [compile_fst, compile_fst, name, Http.responseTo_alike (named.call _).1]
  | job part =>
    rw [answerAt, answerAt]
    cases Http.pathText? part with
    | none => rfl
    | some id =>
      dsimp only
      rw [job_fst _ _ "", job_fst _ _ "", Http.responseTo_alike (paired.call _).1]
  | artifact part =>
    rw [answerAt, answerAt]
    cases Http.pathText? part with
    | none => rfl
    | some id => exact artifact_paired paired id

theorem config_answerAt (service : Service) (request : Request) (endpoint : Endpoint) :
    (service.answerAt request endpoint).2.config = service.config := by
  cases endpoint <;> rw [answerAt.eq_def] <;> dsimp only <;> split <;> rfl

/-- Services whose schedules are paired answer each request alike. -/
theorem answer_paired (paired : service.schedule.Paired storage other) (request : Request) :
    ({ service with schedule := other }.answer request).1 = (service.answer request).1 := by
  rw [answer, answer]
  dsimp only
  split
  · rfl
  · rfl
  · next endpoint _ _ =>
    dsimp only
    rw [answerAt_paired paired, config_answerAt, config_answerAt]

end Service

namespace World

variable {setting other : Setting} {storage : StorageConfig} {world : World} {number : Nat} {chance : Chance}

theorem shownError_infra {error : Option ErrorRecord} (infra : (shownError error).code = .infra) :
    shownError error = .infra := by
  cases error with
  | none => rfl
  | some error =>
    by_cases same : error.code = .infra
    · exact if_pos same
    · have shown : shownError (some error) = error := if_neg same
      exact absurd (shown ▸ infra) same

/-- The status of a job without its artifact shows no error of the host but the one that hides the cause. -/
theorem error_of_statusOf {record : JobRecord} {live : Option LiveJob} {error : ErrorRecord}
    (failed : (statusOf record live).error = some error) (infra : error.code = .infra) : error = .infra := by
  rw [statusOf.eq_def] at failed
  split at failed
  · simp at failed
  · simp at failed
  · exact (Option.some.inj failed).symm
  · simp at failed
  · obtain rfl := Option.some.inj failed
    exact shownError_infra infra

/-- A look at a job shows no error of the host but the one that hides the cause. -/
theorem error_of_told {step : StatusStep} {status : JobStatus} {error : ErrorRecord}
    (new : .answered number (.status (.ok (some status))) ∉ world.history)
    (told : .answered number (.status (.ok (some status))) ∈ (world.stepStatus number chance step).history)
    (failed : status.error = some error) (infra : error.code = .infra) : error = .infra := by
  have last {answer : Answer}
      (told : .answered number (.status (.ok (some status))) ∈ (world.answer number answer).history) :
      answer = .status (.ok (some status)) := by
    rcases List.mem_append.mp told with old | now
    · exact absurd old new
    · exact ((Event.answered.inj (List.mem_singleton.mp now)).2).symm
  generalize stepped : world.stepStatus number chance step = next at told
  cases statusBranch stepped with
  | reads | finds => exact absurd told new
  | unread | misses | breaks => cases last told
  | shows =>
    obtain rfl := Option.some.inj (Except.ok.inj (Answer.status.inj (last told)))
    simp [statusOfLive] at failed
  | tells =>
    obtain rfl := Option.some.inj (Except.ok.inj (Answer.status.inj (last told)))
    exact error_of_statusOf failed infra
  | fetches =>
    obtain rfl := Option.some.inj (Except.ok.inj (Answer.status.inj (last told)))
    simp [statusWithResult] at failed

/-- What goes wrong inside stays hidden. Let two runs begin over stores that differ only in what is hidden, with
compilers that differ only in what they tell when they cannot be started, and let their moves differ only in the texts
of the faults of stores. Then the handlers send the same responses to their calls in the same order, and services that
have come to these worlds answer each request with the same response. Each error that a client is shown of a job and
that has the code of the host is the one that hides the cause: it has one message and no diagnostics. -/
theorem internals_stay_hidden {disk disk' : Disk} {jobs jobs' : JobStore} {artifacts : ArtifactStore}
    (stored : Stored storage jobs artifacts disk) (stored' : Stored storage jobs' artifacts disk')
    (records : jobs'.masked = jobs.masked) (files : disk'.edited storage.veil = disk.edited storage.veil)
    (settings : setting.Alike storage other)
    (confined : ∀ data, storage = .file data → setting.Confined data ∧ other.Confined data) {moves moves' : List Move}
    (same : moves'.map Move.masked = moves.map Move.masked)
    (safe : ∀ number chance, .step number chance ∈ moves → ArtifactStore.isSafeId chance.name = true) :
    let reached := run setting (new setting disk jobs artifacts) moves
    let reached' := run other (new other disk' jobs' artifacts) moves'
    (∀ requestId, Http.responses requestId reached'.history = Http.responses requestId reached.history) ∧
      (∀ (service : Service) faultText request, service.schedule.setting = setting →
        service.schedule.world = reached →
          ({ service with
              schedule := { service.schedule with setting := other, world := reached', faultText } }.answer request).1 =
            (service.answer request).1) ∧
        ∀ number status error, .answered number (.status (.ok (some status))) ∈ reached.history →
          status.error = some error → error.code = .infra →
            error = ⟨.infra, "internal error while processing job", none⟩ := by
  intro reached reached'
  have begins : Twins storage setting other (new setting disk jobs artifacts) (new other disk' jobs' artifacts) := by
    have channel : (new other disk' jobs' artifacts).channel = (new setting disk jobs artifacts).channel := by
      rw [new, new, settings.config]
    have veiled : Veiled storage (new setting disk jobs artifacts) ((new setting disk jobs artifacts).veil storage) :=
      ⟨rfl, rfl, rfl, rfl, rfl, rfl, rfl, rfl, rfl⟩
    refine ⟨⟨_, veiled, ?_⟩, guarded_new stored, guarded_new stored'⟩
    exact ⟨files.symm, records.symm, rfl, rfl, channel.symm, rfl, rfl, rfl, rfl⟩
  have twins : Twins storage setting other reached reached' := begins.run settings confined same safe
  refine ⟨fun requestId => ?_, fun service faultText request own here => ?_,
    fun number status error told failed infra => ?_⟩
  · obtain ⟨shown, veiled, veiled'⟩ := twins.alike
    rw [← Http.responses_masked, ← veiled'.history, veiled.history, Http.responses_masked]
  · subst own
    refine Service.answer_paired ⟨settings, confined, ?_, rfl⟩ request
    rw [here]
    exact twins
  · obtain ⟨early, move, late, next, rfl, moved, new, brought⟩ := exists_first (by simp [World.new]) told
    have between := (guarded_new stored).run (fun data file => (confined data file).1) fun number chance member =>
      safe number chance (List.mem_append_left _ member)
    obtain ⟨chance, step, _, _, rfl⟩ := step_of_told between.tidy.numbered moved new brought
    exact error_of_told new brought failed infra

/-- This record tells why a job of an earlier process has failed. -/
def strandedRecord (cause : String) : JobRecord :=
  { id := "old", kind := .evm, status := .failed, sourceHash := "", createdAt := .sample, completedAt := some .sample,
    error := some ⟨.infra, cause, some cause⟩, input := { source := "contract Old {}", contractName := "Old" } }

/-- The compilers of this setting cannot be started. -/
def missingSetting (program text : String) : Setting :=
  ⟨{ workers := 1 }, ⟨"work", "forge-job-"⟩, fun _ _ _ _ disk => (disk, .failed (.spawn program text))⟩

/-- In these moves a job fails as its compiler cannot be started. A client asks for it, for the job of the earlier
process, and for one that the store does not read. -/
def hiddenMoves (text : String) : List Move :=
  .call .start :: takeSteps 0 ["a", "b", "c", "d", "e", "f", "g", "h"] ++
    .call (.request (.ofSource .evm "Token" "contract Token {}")) :: takeSteps 2 ["i", "j", "k", "l"] ++
      takeSteps 1 ["m", "n", "o", "p", "q", "r", "s", "t", "u", "v"] ++ .call (.status "i") :: takeSteps 3 ["w", "x"] ++
        .call (.status "old") :: takeSteps 4 ["y", "z"] ++
          [.call (.status "old"), .step 5 ⟨.sample, "a", none⟩, .step 5 ⟨.sample, "b", some (.refused text)⟩]

/-- This is what is seen of such moves. -/
def hiddenHistory (program text cause : String) : List Event :=
  (run (missingSetting program text) (new (missingSetting program text) .empty
    (.memory [("old", strandedRecord cause)]) (.memory [])) (hiddenMoves text)).history

theorem internals_stay_hidden_stranded :
    Http.responses (fun _ => "r") (hiddenHistory "forge" "permission denied" "lost") =
        Http.responses (fun _ => "r") (hiddenHistory "solc" "no such file" "disk full") ∧
      (Http.responses (fun _ => "r") (hiddenHistory "solc" "no such file" "disk full")).map
        (fun sent => (sent.1, sent.2.status)) = [(2, 202), (3, 200), (4, 200), (5, 500)] := by
  have stored (cause : String) :
      Stored .memory (.memory [("old", strandedRecord cause)]) (.memory []) .empty := by
    refine .memory ⟨List.nodup_singleton _, fun {id record} found => ?_⟩
    obtain ⟨rfl, rfl⟩ := Table.eq_of_get?_singleton found
    exact ⟨rfl, by decide, by decide⟩
  have settings : (missingSetting "solc" "no such file").Alike .memory (missingSetting "forge" "permission denied") :=
    ⟨rfl, rfl, fun _ _ _ _ _ _ _ _ _ same => ⟨same, rfl⟩⟩
  have texts : (hiddenMoves "permission denied").map Move.masked = (hiddenMoves "no such file").map Move.masked := rfl
  have hidden := internals_stay_hidden (stored "disk full") (stored "lost") rfl rfl settings
    (by simp) texts (safe_of_names (by decide))
  exact ⟨hidden.1 _, by decide +kernel⟩

end World

end ContractWorks
