import WsmDriver.Format.Text
import WsmDriver.Sockets.Service

/-!
# The HTTP server

`http_server.c`, which serves one page: a request is read until the end of its headers or of the
buffer, its first line is taken apart, and the answer is sent.

The buffer is the bytes that `recv_request` has stored, and a zero follows them. A zero among them
ends the text for `strstr` and for `parse_request_line`, but not for `recv_request`.
-/

namespace WsmDriver.Http

open Effect Program Sockets
open Format (cstr strstr text)

/-! ## Constants -/

/-- `HTTP_RECV_TIMEOUT_MS`. -/
def httpRecvTimeoutMs : UInt32 := 10000

/-- `HTTP_BUF_SIZE`. -/
def httpBufSize : ℕ := 2048

/-- `index_page`. -/
def indexPage : List UInt8 :=
  text "<!DOCTYPE html><html lang=\"en\"><head><meta charset=\"UTF-8\">" ++
  text "<title>HTTP Server Example</title></head><body><h1>Hello, World!</h1></body></html>"

/-- `not_found`. -/
def notFound : List UInt8 := text "<!DOCTYPE html><html><body><h1>404 Not Found</h1></body></html>"

def crlf : List UInt8 := [0x0D, 0x0A]

/-! ## Requests -/

/-- The locals of a server. -/
structure HttpTask where
  /-- The `off` of `send_all`. -/
  off : ℕ := 0
  buf : List UInt8 := []
  deriving DecidableEq

instance : HasOff HttpTask :=
  ⟨(·.off), fun n t ↦ { t with off := n }, fun _ _ ↦ rfl, fun _ ↦ rfl, fun _ _ _ ↦ rfl⟩

abbrev Serving := Program HttpTask SockOp.Ans

/-- Is the end of the headers in `buf`? -/
def hasHeaders (buf : List UInt8) : Bool := (strstr (cstr buf) (crlf ++ crlf)).isSome

/-- A turn of the loop of `recv_request`; `false` for -1. -/
def recvRequestTurn (fd : ℤ) (cap : ℕ) : Serving (Option Bool) := do
  let t ← get
  if t.buf.length < cap - 1 then
    match ← ask (.recv fd (cap - 1 - t.buf.length)) with
    | .ok (b :: bytes) => do
      modify fun t ↦ { t with buf := t.buf ++ b :: bytes }
      return if hasHeaders (t.buf ++ b :: bytes) then some true else none
    | _ => return some false
  else return some true

/-- `recv_request`. -/
def recvRequest (fd : ℤ) (cap : ℕ) : Serving Bool := do
  modify fun t ↦ { t with buf := [] }
  forever (recvRequestTurn fd cap)

/-- What ends a token of the request line. -/
def delimiter (b : UInt8) : Bool := b = 0 || b = 0x20 || b = 0x0D || b = 0x0A

/-- A loop of `parse_request_line`, at `i` of the token: what it copies, and what it leaves of the
request. -/
def copyToken (cap i : ℕ) : List UInt8 → List UInt8 × List UInt8
  | [] => ([], [])
  | b :: req =>
    if delimiter b then ([], b :: req)
    else
      let (token, rest) := copyToken cap (i + 1) req
      (if i < cap - 1 then b :: token else token, rest)

/-- `parse_request_line`: the method and the target. -/
def parseRequestLine (req : List UInt8) (methodCap targetCap : ℕ) :
    Option (List UInt8 × List UInt8) :=
  match copyToken methodCap 0 req with
  | (method, 0x20 :: req) =>
    let target := (copyToken targetCap 0 req).1
    if target ≠ [] then some (method, target) else none
  | _ => none

/-- `target_is_index`. -/
def targetIsIndex (target : List UInt8) : Bool :=
  let n := (target.takeWhile (· ≠ 0x3F)).length
  (n = 1 && target.getD 0 0 = 0x2F) || (n = 11 && target.take 11 = text "/index.html")

/-! ## Responses -/

/-- The digits of a number, as `%u` prints them: up to so many of them, before those there are. -/
def digits : ℕ → ℕ → List UInt8 → List UInt8
  | 0, _, ds => ds
  | k + 1, n, ds =>
    let ds := (0x30 + UInt8.ofNat (n % 10)) :: ds
    if n / 10 = 0 then ds else digits k (n / 10) ds

def decimal (n : UInt32) : List UInt8 := digits 10 n.toNat []

/-- The `snprintf` of `send_response`. -/
def responseHeader (status ctype : List UInt8) (bodyLen : ℕ) : List UInt8 :=
  text "HTTP/1.1 " ++ status ++ crlf ++ (text "Content-Type: " ++ ctype ++ crlf) ++
    (text "Content-Length: " ++ decimal (.ofNat bodyLen) ++ crlf) ++
      (text "Connection: close" ++ crlf) ++ crlf

/-- `send_response`. A `body` that is `NULL` is `none`. -/
def sendResponse (fd : ℤ) (hdrCap : ℕ) (status ctype : List UInt8) (body : Option (List UInt8))
    (bodyLen : ℕ) : Serving Unit := do
  let hdr := responseHeader status ctype bodyLen
  if hdrCap ≤ hdr.length then return ()
  if !(← sendAll fd hdr) then return ()
  match body with
  | some body => if 0 < bodyLen then discard (sendAll fd (body.take bodyLen))
  | none => return ()

/-- `serve_client`. -/
def serveClient (fd : ℤ) (cap : ℕ) : Serving Unit := do
  let ctypeHtml := text "text/html"
  if !(← recvRequest fd cap) then return ()
  let t ← get
  match parseRequestLine t.buf 8 128 with
  | none => sendResponse fd cap (text "400 Bad Request") ctypeHtml (some []) 0
  | some (method, target) =>
    let isGet := method = text "GET"
    let isHead := method = text "HEAD"
    if ¬isGet ∧ ¬isHead then sendResponse fd cap (text "501 Not Implemented") ctypeHtml (some []) 0
    else if !targetIsIndex target then
      sendResponse fd cap (text "404 Not Found") ctypeHtml (if isHead then none else some notFound)
        notFound.length
    else
      sendResponse fd cap (text "200 OK") ctypeHtml (if isHead then none else some indexPage)
        indexPage.length

/-! ## The server -/

/-- A turn of the loop of `http_serve`. -/
def httpServeTurn (lsock : ℤ) (cap : ℕ) : Serving (Option Unit) := do
  match ← ask (.accept lsock) with
  | .error _ => return none
  | .ok (fd, _) => do
    ask (.setRcvtimeo fd httpRecvTimeoutMs)
    serveClient fd cap
    ask (.close fd)
    return none

/-- `http_serve`. -/
def httpServe (port : UInt16) (cap : ℕ) : Serving Unit := do
  let lsock ← ask (.socket true)
  if lsock < 0 then return ()
  ask (.setReuseaddr lsock)
  ask (.setNodelay lsock)
  ask (.setRcvtimeo lsock httpRecvTimeoutMs)
  if ← bindListen lsock port then forever (httpServeTurn lsock cap)
  else ask (.close lsock)

/-- `http_task`. -/
def httpTask (port : UInt16) : Serving Unit := do
  if ← ask (.malloc httpBufSize) then
    forever waitLinkTurn
    httpServe port httpBufSize
  else return ()

end WsmDriver.Http
