import VoxTree.ControlPlaneHttp
import VoxTree.Lib.Search

/-!
# Reading a request from a connection

`readRequest` of the Linux HTTP server. What the client sends arrives in chunks, each what one
`recv` returns into a buffer that is large enough; a smaller buffer takes the front of a chunk.
Interrupted calls are repeated and do not appear.
-/

namespace VoxTree.LinuxHttpServer

open Search

def maximumHeaderBytes : ℕ := 16 * 1024

def maximumBodyBytes : ℕ := 64 * 1024

/-- The size of `buffer`. -/
def bufferBytes : ℕ := 4096

def lineTerminator : Bytes := [0x0d, 0x0a]

def headerTerminator : Bytes := [0x0d, 0x0a, 0x0d, 0x0a]

def lowerAscii (value : Bytes) : Bytes := value.map VoxTree.lowerAscii

def isBlank (character : UInt8) : Bool := character = 0x20 || character = 0x09

def trim (value : Bytes) : Bytes :=
  ((value.dropWhile isBlank).reverse.dropWhile isBlank).reverse

def protocolError (status : Int) (code : String) : HttpResponse where
  statusCode := status
  headers := ((∅ : Headers).insert (bytes "cache-control") (bytes "no-store")).insert
    (bytes "content-type") (bytes "application/json; charset=utf-8") |>.insert
    (bytes "x-hvc-api-version") (bytes "v1")
  body := bytes "\x7b\"api_version\":\"v1\",\"error\":\x7b\"code\":\"" ++ bytes code
    ++ bytes "\",\"message\":\"The HTTP request is invalid.\"\x7d\x7d"

/-- What `recv` returns behind the last byte: the client has closed its side, or the call fails. -/
inductive StreamEnd
  | closed
  | failed

/-- The error behind the last byte; `code` is that of a closed connection. -/
def StreamEnd.error (code : String) : StreamEnd → HttpResponse
  | .closed => protocolError 400 code
  | .failed => protocolError 400 "request_read_failed"

def headersTooLarge : HttpResponse := protocolError 413 "headers_too_large"

/-! ## The header section -/

/-- What was received when the header section was complete, and what was not yet. -/
structure HeaderRead where
  headerEnd : ℕ
  received : Bytes
  rest : List Bytes

/-- The loop up to the end of the header section. -/
def readHeader (streamEnd : StreamEnd) (received : Bytes) :
    List Bytes → Except HttpResponse HeaderRead
  | [] =>
    if maximumHeaderBytes ≤ received.length then .error headersTooLarge
    else .error (streamEnd.error "incomplete_request")
  | chunk :: rest =>
    if maximumHeaderBytes ≤ received.length then .error headersTooLarge
    else
      match find headerTerminator (received ++ chunk) with
      | none => readHeader streamEnd (received ++ chunk) rest
      | some headerEnd => .ok ⟨headerEnd, received ++ chunk, rest⟩

/-- A request without its headers and its body. -/
def parseRequestLine (requestLine : Bytes) : Except HttpResponse HttpRequest :=
  match find [0x20] requestLine with
  | none => .error (protocolError 400 "invalid_request_line")
  | some firstSpace =>
    let behind := requestLine.drop (firstSpace + 1)
    match find [0x20] behind with
    | none => .error (protocolError 400 "invalid_request_line")
    | some length =>
      if behind.drop (length + 1) ≠ bytes "HTTP/1.1" then
        .error (protocolError 400 "invalid_request_line")
      else
        let method := requestLine.take firstSpace
        let target := behind.take length
        if method = [] ∨ target = [] ∨ target.head? ≠ some 0x2f then
          .error (protocolError 400 "invalid_request_target")
        else .ok ⟨method, target, ∅, []⟩

/-- The loop over the header lines. -/
def parseHeaders (received : Bytes) (headerEnd lineStart : ℕ) (headers : Headers) :
    Except HttpResponse Headers :=
  if lineStart < headerEnd then
    match find lineTerminator (received.drop lineStart) with
    | none => .error (protocolError 400 "invalid_header")
    | some length =>
      if headerEnd < lineStart + length then .error (protocolError 400 "invalid_header")
      else
        let line := (received.drop lineStart).take length
        match find [0x3a] line with
        | none => .error (protocolError 400 "invalid_header")
        | some colon =>
          let name := lowerAscii (trim (line.take colon))
          let value := trim (line.drop (colon + 1))
          if name = [] ∨ headers.contains name then
            .error (protocolError 400 "duplicate_or_empty_header")
          else parseHeaders received headerEnd (lineStart + length + 2) (headers.insert name value)
  else .ok headers
termination_by headerEnd - lineStart

/-- The announced length of the body; none where it cannot be read. -/
def contentLength (request : HttpRequest) : Option ℕ :=
  let value := request.header "content-length"
  if value = [] then some 0 else fromChars value

/-- A request without its body, and the length of the body. -/
structure ParsedHeader where
  request : HttpRequest
  contentLength : ℕ

def parseContentLength (request : HttpRequest) : Except HttpResponse ParsedHeader :=
  if request.header "transfer-encoding" ≠ [] then
    .error (protocolError 400 "transfer_encoding_not_supported")
  else
    match contentLength request with
    | none => .error (protocolError 400 "invalid_content_length")
    | some length =>
      if maximumBodyBytes < length then .error (protocolError 413 "body_too_large")
      else .ok ⟨request, length⟩

/-- What is made of the bytes received when the header section ends at `headerEnd`. -/
def parseHeader (received : Bytes) (headerEnd : ℕ) : Except HttpResponse ParsedHeader :=
  match find lineTerminator received with
  | none => .error (protocolError 400 "invalid_request_line")
  | some requestLineEnd =>
    if headerEnd < requestLineEnd then .error (protocolError 400 "invalid_request_line")
    else do
      let request ← parseRequestLine (received.take requestLineEnd)
      let headers ← parseHeaders received headerEnd (requestLineEnd + 2) request.headers
      parseContentLength { request with headers }

/-! ## The body -/

/-- The loop up to the end of the body. -/
def readBody (streamEnd : StreamEnd) (totalSize : ℕ) (received : Bytes) :
    List Bytes → Except HttpResponse Bytes
  | [] =>
    if totalSize ≤ received.length then .ok received
    else .error (streamEnd.error "incomplete_body")
  | chunk :: rest =>
    if totalSize ≤ received.length then .ok received
    else readBody streamEnd totalSize (received ++ chunk.take (totalSize - received.length)) rest

def readRequest (streamEnd : StreamEnd) (chunks : List Bytes) :
    Except HttpResponse HttpRequest := do
  let header ← readHeader streamEnd [] chunks
  let parsed ← parseHeader header.received header.headerEnd
  let bodyStart := header.headerEnd + headerTerminator.length
  let received ← readBody streamEnd (bodyStart + parsed.contentLength) header.received header.rest
  .ok { parsed.request with body := (received.drop bodyStart).take parsed.contentLength }

end VoxTree.LinuxHttpServer
