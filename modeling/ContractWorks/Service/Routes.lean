import ContractWorks.Contract.Block.Wire
import ContractWorks.Job.Artifact
import ContractWorks.Queue.Status
import ContractWorks.Queue.Submission
import ContractWorks.Service.Config
import ContractWorks.Service.Http
import ContractWorks.Storage.Path

namespace ContractWorks

/-- An endpoint is what a path stands for. -/
inductive Endpoint where
  | health
  | generate
  | validate
  | compile
  | job (id : String)
  | artifact (id : String)
  deriving DecidableEq, Repr

namespace Endpoint

/-- This function finds the endpoint of a path. -/
def ofPath (path : String) : Option Endpoint :=
  match (Path.splitSlash path.toList).map String.ofList with
  | ["", "api", "v1", "health"] => some .health
  | ["", "api", "v1", "generate"] => some .generate
  | ["", "api", "v1", "validate"] => some .validate
  | ["", "api", "v1", "compile"] => some .compile
  | ["", "api", "v1", "jobs", id] => if id = "" then none else some (.job id)
  | ["", "api", "v1", "artifacts", id] => if id = "" then none else some (.artifact id)
  | _ => none

/-- This function gives the methods of an endpoint as they are announced. -/
def allowed : Endpoint → String
  | .health => "GET,HEAD"
  | .job _ => "GET,HEAD"
  | .artifact _ => "GET,HEAD"
  | _ => "POST"

/-- This test asks whether an endpoint knows a method. -/
def knows (endpoint : Endpoint) (method : String) : Bool :=
  if endpoint.allowed = "POST" then method = "POST" else method = "GET" || method = "HEAD"

end Endpoint

/-- This type asks for a source to be written. -/
structure GenerateRequest where
  blocks : List Block
  target : Language
  deriving DecidableEq, Repr

/-- This decoder reads such a request. -/
def GenerateRequest.decode : Decoder GenerateRequest := fun draft => do
  let (blocks, target, ()) ← Row.decode
    (.field (.required "blocks" (Decode.list Block.decode)) <|
      .field (.required "target" Language.decode) .done)
    "GenerateRequest" draft
  return ⟨blocks, target⟩

/-- This type asks for a source to be checked. -/
structure ValidateRequest where
  source : String
  target : Language
  deriving DecidableEq, Repr

/-- This decoder reads such a request. -/
def ValidateRequest.decode : Decoder ValidateRequest := fun draft => do
  let (source, target, ()) ← Row.decode
    (.field (.required "source" Decode.text) <|
      .field (.required "target" Language.decode) .done)
    "ValidateRequest" draft
  return ⟨source, target⟩

namespace Http

/-- This function gives the bound on the size of a body: what is allowed, or what the request announces if
that is less. -/
def bodyLimit (config : ServerConfig) (request : Request) : Nat :=
  match request.contentLength? with
  | some length => min config.maxBodySize.toNat length
  | none => config.maxBodySize.toNat

/-- This test asks for a media type of JSON. -/
def announcesJson (request : Request) : Bool :=
  match (request.header? "content-type").bind MediaType.read with
  | some mediaType => mediaType.isJson
  | none => false

/-- This function reads the body of a request. What follows the first value is ignored. -/
def readBody {α : Type} (config : ServerConfig) (decode : Decoder α) (request : Request) :
    Except ApiError α :=
  if !announcesJson request then
    .error (.invalidInput "Expected request with \x60Content-Type: application/json\x60")
  else if bodyLimit config request < request.body.utf8ByteSize then
    .error (.invalidInput "Failed to buffer the request body")
  else
    match decode (Draft.readStart request.body).1 with
    | .ok value => .ok value
    | .error error =>
      if error.isGrammar then
        .error (.invalidInput "Failed to parse the request body as JSON")
      else
        .error (.invalidInput "Failed to deserialize the JSON body into the target type")

/-- This function answers a request for a source to be written. -/
def answerGenerate (request : GenerateRequest) : Response :=
  let source := Source.generate request.blocks request.target
  .ofJson 200
    (.object
      [("targetLanguage", source.language.encode), ("text", .text source.text),
       ("contractName", .text source.contractName), ("sourceHash", .text source.sourceHash)])

/-- This function answers a request for a source to be checked. -/
def answerValidate (maxSourceBytes : Nat) (request : ValidateRequest) : Response :=
  .ofJson 200 (Source.validate maxSourceBytes request.source request.target).encode

/-- This function answers a request for a job. -/
def answerCompile (requestId : String) : Except QueueError JobId → Response
  | .ok id => .ofJson 202 (.object [("jobId", .text id), ("requestId", .text requestId)])
  | .error error => .ofError (.ofQueue error)

/-- This function answers a request for the status of a job. -/
def answerJob (id : JobId) : Except QueueError (Option JobStatus) → Response
  | .ok (some status) => .ofJson 200 status.encode
  | .ok none => .ofError (.notFound ("Job " ++ id ++ " not found"))
  | .error error => .ofError (.ofQueue error)

/-- This function answers a request for an artifact. -/
def answerArtifact (id : ArtifactId) : Except StoreError (Option Artifact) → Response
  | .ok (some artifact) => .ofJson 200 artifact.encode
  | .ok none => .ofError (.notFound ("Artifact " ++ id ++ " not found"))
  | .error error => .ofError (.ofStore error)

/-- This function answers a request for the health of the service. -/
def answerHealth (uptime : String) (workers activeJobs : Nat) : Response :=
  .ofJson 200
    (.object
      [("status", .text "healthy"), ("version", .text "0.1.0"), ("uptime", .text uptime),
       ("workers", .count workers), ("activeJobs", .count activeJobs)])

/-- This response refuses a body that announces too large a size. -/
def tooLarge : Response :=
  .ofText 413 "length limit exceeded"

/-- This response refuses a part of a path that is no text. -/
def badPath : Response :=
  .ofText 400 "Invalid URL: Invalid UTF-8 in \x60id\x60"

/-- This test asks whether a request announces too large a body. -/
def announcesTooMuch (config : ServerConfig) (request : Request) : Bool :=
  match request.contentLength? with
  | some length => config.maxBodySize.toNat < length
  | none => false

/-- This response tells a browser that it may ask for anything. -/
def preflight : Response :=
  { status := 200,
    headers := [("access-control-allow-methods", "*"), ("access-control-allow-headers", "*")] }

/-- This function lets scripts of other origins read a response. -/
def shareWith (config : ServerConfig) (response : Response) : Response :=
  if config.enableCors then response.withHeader "access-control-allow-origin" "*" else response

/-- This function answers a request that no endpoint takes, if it is one. -/
def answerUnrouted (config : ServerConfig) (request : Request) : Option Endpoint → Option Response
  | none =>
    some
      (if config.enableCors && request.method = "OPTIONS" then preflight
       else if announcesTooMuch config request then tooLarge
       else { status := 404 })
  | some endpoint =>
    if endpoint.knows request.method then
      if announcesTooMuch config request then some (tooLarge.forMethod request.method) else none
    else
      let response :=
        if config.enableCors && request.method = "OPTIONS" then preflight
        else if announcesTooMuch config request then tooLarge
        else { status := 405 }
      some (response.withHeader "allow" endpoint.allowed)

end Http

end ContractWorks
