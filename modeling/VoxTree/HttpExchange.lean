import VoxTree.LinuxHttpServer

/-!
# An HTTP exchange

What the Linux HTTP server sends back, and the client of the load driver, which writes its own
requests and reads the responses. A connection carries one request and one response.
-/

namespace VoxTree

namespace LinuxHttpServer

def statusReason (status : Int) : String :=
  if status = 200 then "OK"
  else if status = 201 then "Created"
  else if status = 304 then "Not Modified"
  else if status = 400 then "Bad Request"
  else if status = 401 then "Unauthorized"
  else if status = 403 then "Forbidden"
  else if status = 404 then "Not Found"
  else if status = 409 then "Conflict"
  else if status = 413 then "Content Too Large"
  else if status = 429 then "Too Many Requests"
  else if status = 500 then "Internal Server Error"
  else if status = 502 then "Bad Gateway"
  else if status = 503 then "Service Unavailable"
  else "Error"

/-- A header line. -/
def headerLine (header : Bytes × Bytes) : Bytes := header.1 ++ bytes ": " ++ header.2

/-- What `sendResponse` hands to the socket. -/
def sendResponse (response : HttpResponse) : Bytes :=
  bytes "HTTP/1.1 " ++ bytes (toString response.statusCode) ++ bytes " "
    ++ bytes (statusReason response.statusCode) ++ bytes "\r\n"
    ++ response.headers.toList.flatMap (fun header => headerLine header ++ bytes "\r\n")
    ++ bytes "content-length: " ++ decimal response.body.length
    ++ bytes "\r\nconnection: close\r\n\r\n" ++ response.body

/-- What a client sends on a connection, as `recv` returns it. -/
structure Connection where
  chunks : List Bytes
  streamEnd : StreamEnd

/-- What the handler answers at the time of the call; none where it throws. -/
abbrev Handler := HttpRequest → Option HttpResponse

/-- What `processClient` sends; none where the handler throws. -/
def processClient (handler : Handler) (client : Connection) : Option Bytes :=
  match readRequest client.streamEnd client.chunks with
  | .error response => some (sendResponse response)
  | .ok request => (handler request).map sendResponse

/-- What is sent on a connection that finds the queue full. -/
def sendOverloadResponse : Bytes := sendResponse (protocolError 503 "server_overloaded")

end LinuxHttpServer

namespace LoadDriver

open Search LinuxHttpServer

/-- The fields of `HttpResponse` that are read from the response. -/
structure HttpResponse where
  status : Int
  body : Bytes
  deriving DecidableEq

/-- The arguments of `request`, with the host of the options and the count of the clock. -/
structure Request where
  method : Bytes
  target : Bytes
  authorization : Bytes := []
  device : Bytes := []
  body : Bytes := []
  host : Bytes
  started : ℕ

/-- A header that is only written where it has a value. -/
def optionalHeader (name : String) (value : Bytes) : Bytes :=
  if value = [] then [] else bytes name ++ bytes ": " ++ value ++ bytes "\r\n"

/-- What is sent. -/
def Request.wire (r : Request) : Bytes :=
  r.method ++ bytes " " ++ r.target ++ bytes " HTTP/1.1\r\nHost: " ++ r.host
    ++ bytes "\r\nConnection: close\r\nX-Correlation-ID: load-" ++ decimal r.started ++ bytes "\r\n"
    ++ optionalHeader "Authorization" r.authorization ++ optionalHeader "X-HVC-Device-ID" r.device
    ++ (if r.body = [] then []
      else bytes "Content-Type: application/json; charset=utf-8\r\nContent-Length: "
        ++ decimal r.body.length ++ bytes "\r\n")
    ++ bytes "\r\n" ++ r.body

def maximumResponseBytes : ℕ := 128 * 1024

/-- `receiveAll` of what arrives before the server closes the connection. -/
def receiveAll (response : Bytes) : List Bytes → Except String Bytes
  | [] => .ok response
  | chunk :: chunks =>
    if maximumResponseBytes < (response ++ chunk).length then
      .error "HTTP response exceeded the load-driver limit."
    else receiveAll (response ++ chunk) chunks

/-- `std::from_chars` into an `int`, of a text that is too short to overflow. -/
def fromChars (text : Bytes) : Option Int :=
  let number (digits : Bytes) : Option Int :=
    if digits = [] then none
    else some (digits.foldl (fun value digit => 10 * value + (digit.toNat - 0x30)) 0 : ℕ)
  match text with
  | 0x2d :: rest => (number (rest.takeWhile isDigit)).map (- ·)
  | _ => number (text.takeWhile isDigit)

/-- What `request` makes of the whole response. -/
def readResponse (raw : Bytes) : Except String HttpResponse :=
  match find lineTerminator raw, find headerTerminator raw with
  | some lineEnd, some bodyStart =>
    match find [0x20] raw with
    | none => .error "Malformed HTTP status line."
    | some firstSpace =>
      if lineEnd ≤ firstSpace then .error "Malformed HTTP status line."
      else
        match fromChars ((raw.drop (firstSpace + 1)).take 3) with
        | none => .error "Malformed HTTP status code."
        | some status => .ok { status, body := raw.drop (bodyStart + headerTerminator.length) }
  | _, _ => .error "Malformed HTTP response."

/-- What `request` returns when the server's bytes arrive in chunks. -/
def receive (chunks : List Bytes) : Except String HttpResponse :=
  (receiveAll [] chunks).bind readResponse

end LoadDriver

end VoxTree
