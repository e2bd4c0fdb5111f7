import ContractWorks.Proofs.Queue.Verdict
import ContractWorks.Proofs.Service.Compile
import ContractWorks.Toolchain.Playback

namespace ContractWorks

/-- An outcome foretells what is refused when it is valid just where nothing is refused, and when all that is refused
has its code and its message. -/
structure ValidationOutcome.Foretells (outcome : ValidationOutcome) (refused : ErrorCode → String → Prop) : Prop where
  valid : outcome.valid = true ↔ ∀ code message, ¬refused code message
  same : ∀ code message, refused code message → outcome.code = some code ∧ outcome.error = some message

theorem Source.foretells_validate {maxBytes : Nat} {source : String} {language : Language}
    {refused : ErrorCode → String → Prop}
    (just : ∀ code message, refused code message ↔
      validate maxBytes source language = .invalid code message) :
    (validate maxBytes source language).Foretells refused := by
  refine ⟨?_, fun code message there => ?_⟩
  · rcases validate_cases maxBytes source language with passes | ⟨code, message, fails⟩
    · simp [just, passes, ValidationOutcome.ok, ValidationOutcome.invalid]
    · refine iff_of_false (by simp [fails, ValidationOutcome.invalid]) fun never => ?_
      exact never code message ((just code message).mpr fails)
  · rw [(just code message).mp there]
    exact ⟨rfl, rfl⟩

theorem ErrorCode.name_inj {first second : ErrorCode} (same : first.name = second.name) : first = second := by
  cases first <;> cases second <;> simp [ErrorCode.name] at same ⊢

namespace Http

@[simp] theorem body_shareWith (config : ServerConfig) (response : Response) :
    (shareWith config response).body = response.body := by
  rw [shareWith]
  split <;> rfl

/-- The answer to a submission tells of a refused source when its result does. -/
theorem answerCompile_validation {config : ServerConfig} {requestId : String} {result : Except QueueError JobId}
    {code : ErrorCode} {message : String} :
    shareWith config (answerCompile requestId result) = shareWith config (.ofError (.validation code message)) ↔
      result = .error (.validation code message) := by
  refine ⟨fun same => ?_, fun same => same ▸ rfl⟩
  have status := congrArg Response.status same
  have body := congrArg Response.body same
  simp only [status_shareWith, body_shareWith] at status body
  cases result with
  | ok id => simp [answerCompile, Response.ofJson, Response.ofError, ApiError.status] at status
  | error error =>
    cases error with
    | validation other text =>
      have members : ApiError.body (.validation other text) = ApiError.body (.validation code message) :=
        ResponseBody.json.inj body
      obtain ⟨messages, rest⟩ := List.cons.inj (Json.object.inj members)
      obtain rfl : text = message := Json.text.inj (Prod.mk.inj messages).2
      obtain rfl : other = code := ErrorCode.name_inj (Json.text.inj (Prod.mk.inj (List.cons.inj rest).1).2)
      rfl
    | _ => simp [answerCompile, Response.ofError, Response.ofJson, ApiError.ofQueue, ApiError.status] at status

end Http

namespace Service

/-- A service receives a request at an endpoint when this is posted there and announces no body that is too large. -/
structure Receives (service : Service) (request : Request) (endpoint : Endpoint) : Prop where
  method : request.method = "POST"
  path : Endpoint.ofPath request.barePath = some endpoint
  small : Http.announcesTooMuch service.config request = false

/-- A service goes on from another one when it has kept its settings and has come to a world by moves. -/
structure GoesOn (first : Service) (moves : List World.Move) (service : Service) : Prop where
  maxSourceBytes : service.maxSourceBytes = first.maxSourceBytes
  setting : service.schedule.setting = first.schedule.setting
  world : service.schedule.world = World.run first.schedule.setting first.schedule.world moves

variable {service first : Service} {request : Request} {endpoint : Endpoint} {moves : List World.Move}

/-- What a service receives is answered at the endpoint. -/
theorem Receives.answer (receives : service.Receives request endpoint) (posts : endpoint.allowed = "POST") :
    service.answer request =
      (Http.shareWith (service.answerAt request endpoint).2.config (service.answerAt request endpoint).1,
        (service.answerAt request endpoint).2) := by
  have knows : endpoint.knows request.method = true := by simp [Endpoint.knows, posts, receives.method]
  have routed : Http.answerUnrouted service.config request (some endpoint) = none := by
    rw [Http.answerUnrouted, if_pos knows, receives.small]
    rfl
  have whole (response : Response) : response.forMethod request.method = response := by
    rw [Response.forMethod, receives.method]
    exact if_neg (by decide)
  rw [Service.answer]
  simp only [receives.path, routed, whole]

/-- A source that is written is answered with its text and the digest of it. -/
theorem Receives.generate (receives : service.Receives request .generate) {asked : GenerateRequest}
    (body : Http.readBody service.config GenerateRequest.decode request = .ok asked) :
    service.answer request = (Http.shareWith service.config (Http.answerGenerate asked), service) := by
  rw [receives.answer rfl, answerAt, body]

/-- A source that is checked is answered with the outcome. -/
theorem Receives.validate (receives : service.Receives request .validate) {asked : ValidateRequest}
    (body : Http.readBody service.config ValidateRequest.decode request = .ok asked) :
    service.answer request =
      (Http.shareWith service.config (Http.answerValidate service.maxSourceBytes.toNat asked), service) := by
  rw [receives.answer rfl, answerAt, body]

/-- A service keeps faith when it has one bound with its queue, when the job of each submission that was accepted has a
record of what was asked for, and when its world is judged, also after further moves. -/
structure KeepsFaith (service : Service) (storage : StorageConfig) : Prop where
  bound : service.maxSourceBytes = service.schedule.setting.config.maxSourceBytes
  guarded : service.schedule.world.Guarded service.schedule.setting storage
  closed : service.schedule.world.Closed
  holds : ∀ number id, .answered number (.submitted (.ok id)) ∈ service.schedule.world.history →
    ∃ kind input record, service.schedule.world.Wants number kind input ∧
      (service.schedule.world.view id).record = some record ∧ record.Holds kind input
  judged : ∀ more, (∀ number chance, .step number chance ∈ more → ArtifactStore.isSafeId chance.name = true) →
    (World.run service.schedule.setting service.schedule.world more).Judged service.schedule.setting

/-- A submission is refused for its source just when this is the verdict on it. -/
theorem Receives.compile {storage : StorageConfig} (faith : service.KeepsFaith storage)
    (receives : service.Receives request .compile) {submission : Submission}
    (body : Http.readBody service.config Submission.decode request = .ok submission) (code : ErrorCode)
    (message : String) :
    (service.answer request).1 = Http.shareWith service.config (.ofError (.validation code message)) ↔
      service.schedule.setting.verdict? (.request submission) = some (.validation code message) := by
  obtain ⟨chances, result, _, safe, ran, told, answered⟩ :=
    Schedule.call_request service.schedule.freshName.2 faith.guarded.tidy.numbered faith.closed submission
  have response : (service.answer request).1 =
      Http.shareWith service.config (Http.answerCompile service.schedule.freshName.1 result) := by
    rw [receives.answer rfl, answerAt, body]
    dsimp only
    rw [Service.compile]
    dsimp only
    rw [answered]
  have after : (service.schedule.freshName.2.call (.request submission)).2.world.Judged service.schedule.setting := by
    rw [ran]
    refine faith.judged _ fun number chance member => ?_
    rcases List.mem_cons.mp member with called | stepped
    · simp at called
    · obtain ⟨other, inside, shape⟩ := List.mem_map.mp stepped
      obtain ⟨_, rfl⟩ := World.Move.step.inj shape
      exact safe _ inside
  have silent (answer : Answer) : .answered service.schedule.world.nextTask answer ∉ service.schedule.world.history :=
    fun earlier => Nat.lt_irrefl _ (faith.closed _ _ earlier).1
  have called : .called service.schedule.world.nextTask (.request submission) ∈
      (service.schedule.freshName.2.call (.request submission)).2.world.history := by
    rw [told]
    exact List.mem_append_right _ List.mem_cons_self
  rw [response, Http.answerCompile_validation, ← after.verdict called code message, told]
  have own : service.schedule.freshName.2.world = service.schedule.world := rfl
  rw [own]
  constructor
  · rintro rfl
    simp
  · intro member
    rcases List.mem_append.mp member with earlier | now
    · exact absurd earlier (silent _)
    · simpa [eq_comm] using now

/-- A service is built over the stores that are asked for, with one bound on the size of sources for its queue and for
itself. -/
theorem new_eq_ok {config : ServiceConfig} {host : Host} {clock : Time.Instant} {before disk : Disk}
    (built : Service.new config host clock before = (disk, .ok first)) :
    ∃ stores, Stores.ofConfig config.storage before = (disk, .ok stores) ∧
      first.schedule.setting = ⟨config.queue, config.workspace, config.toolchain.compiler host⟩ ∧
        first.schedule.world = World.new first.schedule.setting disk stores.jobs stores.artifacts ∧
          first.maxSourceBytes = first.schedule.setting.config.maxSourceBytes := by
  rw [Service.new] at built
  split at built
  · simp at built
  · next after stores opened =>
    obtain ⟨rfl, same⟩ := Prod.mk.inj built
    obtain rfl := Except.ok.inj same
    exact ⟨stores, opened, rfl, rfl, rfl⟩

/-- A service that is built over stores without records keeps faith from then on. -/
theorem GoesOn.keepsFaith {config : ServiceConfig} {host : Host} {clock : Time.Instant} {before disk : Disk}
    (built : Service.new config host clock before = (disk, .ok first))
    (empty : ∀ data, config.storage = .file data → disk.list (Path.join data "jobs") = .ok [])
    (confined : ∀ data, config.storage = .file data → host.Confined ∧ config.workspace.Apart data)
    (safe : ∀ number chance, .step number chance ∈ moves → ArtifactStore.isSafeId chance.name = true)
    (on : first.GoesOn moves service) : service.KeepsFaith config.storage := by
  obtain ⟨bound, setting, world⟩ := on
  obtain ⟨stores, opened, settings, start, own⟩ := new_eq_ok built
  obtain ⟨stored, _⟩ := Stored.of_ofConfig opened empty
  have apart (data : String) (file : config.storage = .file data) : first.schedule.setting.Confined data := by
    rw [settings]
    exact ToolchainConfig.confined (confined data file).1 (confined data file).2
  have begun : first.schedule.world.Guarded first.schedule.setting config.storage := by
    rw [start]
    exact World.guarded_new stored
  have idle : first.schedule.world.tasks = [] := by rw [start]; rfl
  have silent : first.schedule.world.history = [] := by rw [start]; rfl
  refine ⟨by rw [bound, own, setting], ?_, ?_, fun number id accepted => ?_, fun more named => ?_⟩
  · rw [setting, world]
    exact begun.run apart safe
  · rw [world]
    exact (World.deals_of_run begun apart idle silent 0 moves safe).1
  · rw [world] at accepted ⊢
    exact World.holds_of_accepted begun apart idle silent safe accepted
  · have joined : World.run first.schedule.setting first.schedule.world (moves ++ more) =
        World.run service.schedule.setting service.schedule.world more := by
      rw [setting, world, World.run, List.foldl_append]
      rfl
    rw [← joined, setting]
    refine World.judged_run begun apart idle silent _ fun number chance member => ?_
    rcases List.mem_append.mp member with earlier | later
    · exact safe number chance earlier
    · exact named number chance later

/-- A preview agrees with what a submission does. In each world that a service comes to, whatever comes between its
steps, the job of a submission that was accepted has a record with what was submitted, and the source of this record and
the digest of it are what a service shows of the same blocks in the language of the job. What a service finds of a
source that it checks is valid just when no submission that offers the source is refused for it, and has the code and
the message of each refusal; so does the answer to each request that submits the source. -/
theorem preview_agrees {config : ServiceConfig} {host : Host} {clock : Time.Instant} {before disk : Disk}
    (built : Service.new config host clock before = (disk, .ok first))
    (empty : ∀ data, config.storage = .file data → disk.list (Path.join data "jobs") = .ok [])
    (confined : ∀ data, config.storage = .file data → host.Confined ∧ config.workspace.Apart data)
    (safe : ∀ number chance, .step number chance ∈ moves → ArtifactStore.isSafeId chance.name = true)
    (on : first.GoesOn moves service) :
    let world := service.schedule.world
    (∀ number submission id, .called number (.request submission) ∈ world.history →
      .answered number (.submitted (.ok id)) ∈ world.history →
        ∃ record, world.jobs.get id none = .ok (some record) ∧ world.durable? id = some record ∧
          submission.HeldBy record ∧
          ∀ blocks request, submission.blocks = some blocks → service.Receives request .generate →
            Http.readBody service.config GenerateRequest.decode request = .ok ⟨blocks, submission.kind.language⟩ →
              ∃ shown, service.answer request = (Http.shareWith service.config (.ofJson 200 shown), service) ∧
                shown.member? "text" = some (.text record.input.source) ∧
                  shown.member? "sourceHash" = some (.text record.sourceHash)) ∧
      ∀ submission source preview, submission.Offers source → service.Receives preview .validate →
        Http.readBody service.config ValidateRequest.decode preview = .ok ⟨source, submission.kind.language⟩ →
          ∃ outcome : ValidationOutcome,
            service.answer preview = (Http.shareWith service.config (.ofJson 200 outcome.encode), service) ∧
              (∀ number, .called number (.request submission) ∈ world.history →
                outcome.Foretells fun code message =>
                  .answered number (.submitted (.error (.validation code message))) ∈ world.history) ∧
                ∀ request, service.Receives request .compile →
                  Http.readBody service.config Submission.decode request = .ok submission →
                    outcome.Foretells fun code message => (service.answer request).1 =
                      Http.shareWith service.config (.ofError (.validation code message)) := by
  intro world
  have faith := on.keepsFaith built empty confined safe
  have judged : world.Judged service.schedule.setting := faith.judged [] (by simp)
  refine ⟨fun number submission id called accepted => ?_, fun submission source preview offers receives body => ?_⟩
  · obtain ⟨kind, input, record, ⟨call, told, asked⟩, found, holds⟩ := faith.holds number id accepted
    obtain rfl := judged.single told called
    have held := Submission.heldBy_of_resolve (Option.some.inj asked) holds
    refine ⟨record, congrArg Except.ok found, faith.guarded.secure.stored.durable_of_found found, held,
      fun blocks request given receives body => ⟨_, receives.generate body, ?_, ?_⟩⟩
    · rw [held.blocks blocks given]
      rfl
    · rw [held.sourceHash, held.blocks blocks given]
      rfl
  · refine ⟨_, receives.validate body, fun number called => ?_, fun request taken asks => ?_⟩
    · refine Source.foretells_validate fun code message => ?_
      rw [judged.verdict called, Setting.verdict?_of_offers _ offers, faith.bound]
    · refine Source.foretells_validate fun code message => ?_
      rw [taken.compile faith asks, Setting.verdict?_of_offers _ offers, faith.bound]

/-- These settings name the workspaces, and leave all else as it is when nothing is set. -/
def plainConfig : ServiceConfig :=
  { workspace := ⟨"work", "forge-job-"⟩ }

/-- This service has been built with these settings. -/
def plainService : Service :=
  let setting : Setting := ⟨{}, ⟨"work", "forge-job-"⟩, ToolchainConfig.compiler {} (Playback.host {})⟩
  { config := {}, schedule := { setting, world := .new setting .empty (.memory []) (.memory []), clock := .sample } }

/-- These moves submit a source that is accepted, and then a blank one. -/
def tokenThenBlank : List World.Move :=
  .call (.request (.ofSource .evm " Token " "contract Token {}")) ::
    (List.replicate 4 (.step 0 ⟨.sample, "first", none⟩) ++ [.call (.request (.ofSource .evm "Blank" " "))])

/-- The service has come to this world by these moves. -/
def askedTwice : Service :=
  { plainService with schedule := { plainService.schedule with
      world := World.run plainService.schedule.setting plainService.schedule.world tokenThenBlank } }

/-- This request posts an object. -/
def postObject (path : String) (members : List (String × Json)) : Request :=
  { method := "POST", path, headers := [("content-type", "application/json")], body := (Json.object members).compact }

theorem preview_agrees_blankSource :
    (∃ record, askedTwice.schedule.world.jobs.get "first" none = .ok (some record) ∧ record.kind = .evm ∧
        record.input.source = "contract Token {}" ∧ record.input.contractName = "Token") ∧
      ∃ outcome : ValidationOutcome, outcome.valid = false ∧ outcome.code = some .emptySource ∧
        askedTwice.answer (postObject "/api/v1/validate" [("source", .text " "), ("target", .text "solidity")]) =
          (Http.shareWith {} (.ofJson 200 outcome.encode), askedTwice) ∧
        (askedTwice.answer (postObject "/api/v1/compile"
            [("contractName", .text "Blank"), ("kind", .text "evm"), ("source", .text " ")])).1 =
          Http.shareWith {} (.ofError (.validation .emptySource "empty source")) := by
  have told : askedTwice.schedule.world.history =
      [.called 0 (.request (.ofSource .evm " Token " "contract Token {}")), .answered 0 (.submitted (.ok "first")),
        .called 1 (.request (.ofSource .evm "Blank" " ")),
        .answered 1 (.submitted (.error (.validation .emptySource "empty source")))] := by with_unfolding_all rfl
  have safe (number : Nat) (chance : Chance) (member : .step number chance ∈ tokenThenBlank) :
      ArtifactStore.isSafeId chance.name = true := by
    have plain : ArtifactStore.isSafeId "first" = true := by decide
    obtain ⟨_, rfl⟩ : number = 0 ∧ chance = ⟨.sample, "first", none⟩ := by simpa [tokenThenBlank] using member
    exact plain
  have built : Service.new plainConfig (Playback.host {}) .sample .empty = (.empty, .ok plainService) := rfl
  have on : plainService.GoesOn tokenThenBlank askedTwice := ⟨rfl, rfl, rfl⟩
  obtain ⟨accepted, checked⟩ :=
    preview_agrees built (by simp [plainConfig]) (by simp [plainConfig]) safe on
  refine ⟨?_, ?_⟩
  · obtain ⟨record, found, _, held, _⟩ :=
      accepted 0 (.ofSource .evm " Token " "contract Token {}") "first" (by simp [told]) (by simp [told])
    have named := held.contractName " Token " rfl (by decide)
    exact ⟨record, found, held.kind, held.source _ rfl, named.trans (by decide)⟩
  · have offers : (Submission.ofSource .evm "Blank" " ").Offers " " :=
      ⟨rfl, rfl, ⟨"Blank", rfl, by decide⟩, .inl rfl⟩
    obtain ⟨outcome, answered, foretells, compiled⟩ := checked _ " " (postObject "/api/v1/validate"
      [("source", .text " "), ("target", .text "solidity")]) offers ⟨rfl, by decide +kernel, by decide +kernel⟩
      (by decide +kernel)
    have refused := foretells 1 (by simp [told])
    obtain ⟨code, error⟩ := refused.same .emptySource "empty source" (by simp [told])
    have invalid : outcome.valid = false := by
      refine Bool.eq_false_iff.mpr fun valid => ?_
      exact refused.valid.mp valid .emptySource "empty source" (by simp [told])
    refine ⟨outcome, invalid, code, answered, ?_⟩
    have compiles := compiled (postObject "/api/v1/compile"
      [("contractName", .text "Blank"), ("kind", .text "evm"), ("source", .text " ")])
      ⟨rfl, by decide +kernel, by decide +kernel⟩ (by decide +kernel)
    by_contra other
    refine absurd (compiles.valid.mpr fun again message same => ?_) (by simp [invalid])
    obtain ⟨code', error'⟩ := compiles.same again message same
    rw [code, Option.some.injEq] at code'
    rw [error, Option.some.injEq] at error'
    exact other (code' ▸ error' ▸ same)

end Service

end ContractWorks
