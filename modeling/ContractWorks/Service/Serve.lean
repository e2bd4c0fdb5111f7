import ContractWorks.Queue.Schedule
import ContractWorks.Service.Routes

namespace ContractWorks

/-- This function writes a number of seconds as seconds, as minutes and seconds, or as hours and minutes; a
negative number counts as zero. -/
def uptimeText (seconds : Int) : String :=
  let seconds := seconds.toNat
  if seconds < 60 then toString seconds ++ "s"
  else if seconds < 3600 then toString (seconds / 60) ++ "m " ++ toString (seconds % 60) ++ "s"
  else toString (seconds / 3600) ++ "h " ++ toString (seconds / 60 % 60) ++ "m"

/-- A service answers requests with a queue that a schedule runs. It checks sources with a gate of its own, for which
it keeps the bound on their size. -/
structure Service where
  config : ServerConfig
  schedule : Schedule
  uptimeSeconds : Int := 0
  maxSourceBytes : UInt64 := schedule.setting.config.maxSourceBytes

namespace Service

/-- This function makes a job of a submission. -/
def compile (service : Service) (submission : Submission) : Response × Service :=
  let (requestId, schedule) := service.schedule.freshName
  let (answer, schedule) := schedule.call (.request submission)
  let response :=
    match answer with
    | some (.submitted result) => Http.answerCompile requestId result
    | _ => .ofError .internal
  (response, { service with schedule })

/-- This function looks at a job. -/
def job (service : Service) (id : JobId) : Response × Service :=
  let (answer, schedule) := service.schedule.call (.status id)
  let response :=
    match answer with
    | some (.status result) => Http.answerJob id result
    | _ => .ofError .internal
  (response, { service with schedule })

/-- This function looks up an artifact. -/
def artifact (service : Service) (id : ArtifactId) : Response × Service :=
  let (found, schedule) := service.schedule.artifact? id
  (Http.answerArtifact id found, { service with schedule })

/-- This function answers a request at its endpoint. -/
def answerAt (service : Service) (request : Request) : Endpoint → Response × Service
  | .health =>
    (Http.answerHealth (uptimeText service.uptimeSeconds) service.schedule.setting.workerCount
      service.schedule.world.live.length, service)
  | .generate =>
    match Http.readBody service.config GenerateRequest.decode request with
    | .ok body => (Http.answerGenerate body, service)
    | .error error => (.ofError error, service)
  | .validate =>
    match Http.readBody service.config ValidateRequest.decode request with
    | .ok body => (Http.answerValidate service.maxSourceBytes.toNat body, service)
    | .error error => (.ofError error, service)
  | .compile =>
    match Http.readBody service.config Submission.decode request with
    | .ok submission => service.compile submission
    | .error error => (.ofError error, service)
  | .job part =>
    match Http.pathText? part with
    | some id => service.job id
    | none => (Http.badPath, service)
  | .artifact part =>
    match Http.pathText? part with
    | some id => service.artifact id
    | none => (Http.badPath, service)

/-- This function answers a request. -/
def answer (service : Service) (request : Request) : Response × Service :=
  let endpoint := Endpoint.ofPath request.barePath
  match Http.answerUnrouted service.config request endpoint, endpoint with
  | some response, _ => (Http.shareWith service.config response, service)
  | none, none => (Http.shareWith service.config { status := 404 }, service)
  | none, some endpoint =>
    let (response, service) := service.answerAt request endpoint
    (Http.shareWith service.config (response.forMethod request.method), service)

end Service

end ContractWorks
