import Mathlib.Data.List.DropRight
import VoxTree.ControlPlaneClient

/-!
# The Windows HTTP transport

What `WinHttpTransport` checks of a request before it is sent, and what it makes of a response that
WinHTTP delivers as the server sent it: the status, the body, read in the chunks in which it becomes
available, and one of the headers.
-/

namespace VoxTree

/-- The chunks in which the body of a response becomes available. -/
structure Delivery (response : HttpResponse) where
  chunks : List Bytes
  available : ∀ chunk ∈ chunks, chunk ≠ []
  whole : chunks.flatten = response.body

namespace WinHttpTransport

/-! ## The request -/

/-- `wide`, whose result is the same text. `MultiByteToWideChar` refuses what is not UTF-8. -/
def wide (value : Bytes) : Except Bytes Unit :=
  if value = [] then .ok ()
  else if 2147483647 < value.length then .error (bytes "UTF-8 value is too large")
  else if value.toByteArray.IsValidUTF8 then .ok ()
  else .error (bytes "value is not valid UTF-8")

def hasLineBreak (text : Bytes) : Bool := text.any fun character =>
  character = 0x0d || character = 0x0a

/-- The loop of `sendChecked` over the headers. -/
def checkHeader (header : Bytes × Bytes) : Except Bytes Unit :=
  if hasLineBreak header.1 || hasLineBreak header.2 then
    .error (bytes "HTTP header contains a line break")
  else wide (header.1 ++ bytes ": " ++ header.2)

/-- `sendChecked`, up to the sending of the request. -/
def checkRequest (request : ClientHttpRequest) : Except Bytes Unit :=
  if request.method = [] ∨ request.target = [] ∨ request.target.head? ≠ some 0x2f then
    .error (bytes "HTTP request method and absolute target are required")
  else if 4294967295 < request.body.length then
    .error (bytes "HTTP request body is too large")
  else do
    wide request.method
    wide request.target
    request.headers.toList.forM checkHeader

/-- What is handed to WinHTTP; only a body has a type. -/
def handedOver (request : ClientHttpRequest) : HttpRequest where
  method := request.method
  target := request.target
  headers :=
    if request.body = [] then request.headers
    else request.headers.insert (bytes "content-type") (bytes "application/json; charset=utf-8")
  body := request.body

/-! ## The response -/

def maximumResponseSize : ℕ := 1024 * 1024

/-- The loop of `sendChecked` over what becomes available. -/
def readBody (responseBody : Bytes) : List Bytes → Except Bytes Bytes
  | [] => .ok responseBody
  | available :: rest =>
    if maximumResponseSize < responseBody.length + available.length then
      .error (bytes "control-plane response exceeds the client limit")
    else readBody (responseBody ++ available) rest

/-- A header by its name in any case, empty where there is none. The terminating zeros of the
buffer are removed. -/
def queryHeader (headers : Headers) (name : String) : Bytes :=
  (((headers.toList.find? fun header =>
    Client.asciiHeaderNameEquals header.1 (bytes name)).map Prod.snd).getD []).rdropWhile (· = 0)

/-- `sendChecked`, from the arrival of the response on. -/
def sendChecked (response : HttpResponse) (delivery : Delivery response) :
    Except Bytes ClientHttpResponse := do
  let body ← readBody [] delivery.chunks
  let apiVersion := queryHeader response.headers "X-HVC-API-Version"
  let headers : Headers :=
    if apiVersion = [] then ∅ else (∅ : Headers).insert (bytes "x-hvc-api-version") apiVersion
  pure { statusCode := response.statusCode, headers, body }

def send (response : HttpResponse) (delivery : Delivery response) : ClientHttpResponse :=
  match sendChecked response delivery with
  | .ok received => received
  | .error what => { transportError := what }

end WinHttpTransport

/-- The response with the server's status, all of its headers and its body. -/
def HttpResponse.complete (response : HttpResponse) : ClientHttpResponse where
  statusCode := response.statusCode
  headers := response.headers
  body := response.body

namespace ControlPlaneClient

open Client

variable (c : ControlPlaneClient) (response : ClientHttpResponse)

/-- Whether `directory` gets to the entity tag of the response and finds the one it expects. -/
def entityTagAccepted (knownVersion : Option ℕ) : Bool :=
  if response.statusCode = 304 then notModified knownVersion response
  else
    match (responseRoot response).bind directoryFields with
    | .ok fields => responseHeader response "etag" = some (entityTag fields.version)
    | .error _ => false

/-- Whether `directoryPresence` gets to the `Retry-After` of the response and finds it valid. -/
def retryAfterAccepted (afterVersion : Option ℕ) : Bool :=
  match (responseRoot response).bind (presenceFields afterVersion) with
  | .ok _ => (retryAfter response).isSome
  | .error _ => false

/-- Whether an operation takes a header other than the API version from the response. -/
def takesHeader : Operation → Bool
  | .directory knownVersion =>
    c.session.isSome && knownVersion ≠ some 0 && entityTagAccepted response knownVersion
  | .directoryPresence afterVersion =>
    c.session.isSome && afterVersion ≠ some 0 && retryAfterAccepted response afterVersion
  | _ => false

end ControlPlaneClient

end VoxTree
