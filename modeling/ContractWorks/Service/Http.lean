import ContractWorks.Json.Printer
import ContractWorks.Service.Error
import ContractWorks.Service.MediaType
import ContractWorks.Text.Hex
import ContractWorks.Text.Utf8

namespace ContractWorks

/-- A request asks for something under a path; names of headers are in lower case. -/
structure Request where
  method : String
  path : String
  headers : List (String × String) := []
  body : String := ""
  deriving Repr

/-- The body of a response is empty, or a text, or a JSON value. -/
inductive ResponseBody where
  | empty
  | text (text : String)
  | json (value : Json)
  deriving Repr

/-- A response answers a request. -/
structure Response where
  status : Nat
  headers : List (String × String) := []
  body : ResponseBody := .empty
  deriving Repr

namespace Response

/-- This function answers with a JSON value. -/
def ofJson (status : Nat) (value : Json) : Response :=
  { status, headers := [("content-type", "application/json")], body := .json value }

/-- This function answers with an error. -/
def ofError (error : ApiError) : Response :=
  ofJson error.status error.body

/-- This function answers with a text. -/
def ofText (status : Nat) (text : String) : Response :=
  { status, headers := [("content-type", "text/plain; charset=utf-8")], body := .text text }

/-- This function adds a header. -/
def withHeader (response : Response) (name value : String) : Response :=
  { response with headers := response.headers ++ [(name, value)] }

/-- This function encodes a response; a body that is no JSON is a text. -/
def encode (response : Response) : Json :=
  let body : Json :=
    match response.body with
    | .empty => .text ""
    | .text text => (Json.read text).getD (.text text)
    | .json value => value
  .object
    [("status", .count response.status),
     ("headers", .object (response.headers.map fun header => (header.1, .text header.2))),
     ("body", body)]

/-- This function leaves out the body of what answers a method that asks for headers only. -/
def forMethod (method : String) (response : Response) : Response :=
  if method = "HEAD" then { response with body := .empty } else response

end Response

namespace Request

/-- This function gives the value of a header. -/
def header? (request : Request) (name : String) : Option String :=
  request.headers.lookup name

/-- This function gives the length that a request says its body has. -/
def contentLength? (request : Request) : Option Nat :=
  match request.header? "content-length" with
  | none => none
  | some written =>
    let digits := if written.toList.head? = some '+' then written.toList.drop 1 else written.toList
    if digits.isEmpty || !digits.all Char.isDigit then none
    else
      let value := digits.foldl (fun value digit => value * 10 + (digit.toNat - 48)) 0
      if value ≤ 0xffffffffffffffff then some value else none

/-- This test holds of the characters that end the name of a host. -/
def endsHost (character : Char) : Bool :=
  character = '/' || character = '?' || character = '#'

/-- This function leaves out the name of a scheme and a host before a path. -/
def withoutHost (target : List Char) : List Char :=
  let scheme := target.takeWhile fun character => !endsHost character && character ≠ ':'
  match scheme, target.drop scheme.length with
  | _ :: _, ':' :: '/' :: '/' :: rest =>
    match rest.dropWhile fun character => !endsHost character with
    | '/' :: path => '/' :: path
    | path => '/' :: path
  | _, _ => target

/-- This function gives the path without a host before it and without the query. -/
def barePath (request : Request) : String :=
  String.ofList ((withoutHost request.path.toList).takeWhile fun character =>
    character ≠ '?' && character ≠ '#')

end Request

namespace Http

/-- This function replaces a percent sign and two digits by the octet that they stand for. -/
def percentDecode : List UInt8 → List UInt8
  | 37 :: high :: low :: rest =>
    match Text.Hex.value? high.toNat, Text.Hex.value? low.toNat with
    | some upper, some lower => UInt8.ofNat (upper * 16 + lower) :: percentDecode rest
    | _, _ => 37 :: percentDecode (high :: low :: rest)
  | octet :: rest => octet :: percentDecode rest
  | [] => []
termination_by octets => octets.length

/-- This function reads a part of a path as text, if it is text. -/
def pathText? (part : String) : Option String :=
  String.fromUTF8? ⟨(percentDecode part.toUTF8.toList).toArray⟩

end Http

end ContractWorks
