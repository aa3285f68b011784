import Htcpp.Http.Parse
import Htcpp.Connection

/-!
# The server session as a state machine

`Server::Session` of `server.hpp` is a chain of callbacks: every member
function either finishes or submits one I/O operation to the connection,
whose completion later runs a lambda that continues the chain. Here each
lambda is a constructor of `Op` (with the values it captures), the operations
submitted and not yet completed are the list `pending`, in submission order
(completions on one descriptor arrive in that order), and a completion event
removes the oldest operation and runs its continuation. The handler is the
environment: `processRequest` hands it a responder, and a later `respond`
event uses one.

Each member function of the session is a function of the same name on
`Session`. `log` records, in order, what the session does: the operations it
submits, `close`, handler invocations, responses, metrics and access-log lines.
A failed `assert` or a `std::length_error` from a wrapped `resize` is a
`Fault`.
-/

namespace Htcpp.Server

open Htcpp.StringView Htcpp.Http

/-- `ECANCELED`, the error of a recv whose absolute deadline expired. -/
def ECANCELED : Errno := 125

/-- The options of `Config::Server` the session reads, and the global
`Config::get().maxUrlLength` that `Request::parse` reads. -/
structure Config where
  maxRequestHeaderSize : Nat
  maxRequestBodySize : Nat
  maxUrlLength : Nat
  accesLog : Bool
  deriving DecidableEq, Repr

/-- The metric observations of the session, with their labels. -/
inductive Metric
  | recvErrors (ec : Errno)
  | sendErrors (ec : Errno)
  | reqErrors (label : Bytes)
  | reqHeaderSize (method : Method) (path : Bytes) (size : Nat)
  | reqBodySize (method : Method) (path : Bytes) (size : Nat)
  | reqsTotal (method : Method) (path : Bytes) (status : Nat)
  | reqDuration (method : Method) (path : Bytes)
  | respTotal (method : Method) (path : Bytes) (status : Nat)
  | respSize (method : Method) (path : Bytes) (status : Nat) (size : Nat)
  deriving DecidableEq, Repr

/-- What the session does, as recorded in its log. -/
inductive Action
  /-- `connection_->recv` of `len` bytes is submitted. -/
  | recv (len : Nat)
  /-- `connection_->send` of these bytes is submitted. -/
  | send (bytes : Bytes)
  /-- `connection_->shutdown` is submitted. -/
  | shutdown
  /-- `connection_->close()`. -/
  | close
  /-- `handler_` is invoked with this request. -/
  | handle (request : Request)
  /-- `respond(std::string, bool)` starts sending a response. -/
  | respond (response : Bytes) (keepAlive : Bool)
  | metric (m : Metric)
  | accessLog (requestLine : Bytes) (status size : Nat)
  deriving DecidableEq, Repr

/-- A submitted operation and the lambda its completion runs. -/
inductive Op
  /-- The header recv of `readRequest`, into the header buffer at offset 0. -/
  | recvHeader (recvLen : Nat)
  /-- The body recv of `readRequestBody`, into the body buffer at `offset`. -/
  | recvBody (offset recvLen contentLength : Nat)
  /-- The send of `sendResponse`, of `len` bytes. -/
  | send (len : Nat)
  /-- The shutdown of `shutdown()` or of the timeout path. -/
  | shutdown
  deriving DecidableEq, Repr

/-- The members of `Server::Session` the model tracks. -/
structure Session where
  config : Config
  headerBuffer : Bytes
  bodyBuffer : Bytes
  responseBuffer : Bytes
  request : Request
  response : Response
  responseSendOffset : Nat
  keepAlive : Bool
  /-- `connection_->close()` has been called. -/
  closed : Bool
  /-- Submitted operations whose completion has not run, oldest first. -/
  pending : List Op
  /-- Responders handed to the handler and not yet used. -/
  responders : Nat
  log : List Action
  deriving Repr

/-- The literal response of every error path. -/
def badRequest : Bytes := "HTTP/1.1 400 Bad Request\r\nConnection: close\r\n\r\n".toList

/-- `getKeepAlive(request)`. -/
def getKeepAlive (request : Request) : Bool :=
  match request.headers.get "Connection".toList with
  | some h =>
      if (findStr h "close".toList).isSome then false
      else if (findStr h "keep-alive".toList).isSome then true
      else request.version == "HTTP/1.1".toList
  | none => request.version == "HTTP/1.1".toList

namespace Session

/-- Record an action. -/
def emit (s : Session) (a : Action) : Session := { s with log := s.log ++ [a] }

/-- Submit an operation and record it. -/
def submit (s : Session) (op : Op) (a : Action) : Session :=
  { s with pending := s.pending ++ [op], log := s.log ++ [a] }

/-- `connection_->close()`. -/
def close (s : Session) : Session := { s with closed := true, log := s.log ++ [.close] }

/-- `shutdown()`: its completion closes, whatever the error. -/
def shutdown (s : Session) : Session := s.submit .shutdown .shutdown

/-- `accessLog(requestLine, status, size)`. -/
def accessLog (s : Session) (requestLine : Bytes) (status size : Nat) : Session :=
  if s.config.accesLog then s.emit (.accessLog requestLine status size) else s

/-- `readRequest()`: clear both buffers and read at most
`maxRequestHeaderSize` bytes of a new request. -/
def readRequest (s : Session) : Session :=
  let recvLen := s.config.maxRequestHeaderSize
  ({ s with headerBuffer := List.replicate recvLen '\x00', bodyBuffer := [] } : Session).submit
    (.recvHeader recvLen) (.recv recvLen)

/-- `start()`. -/
def start (s : Session) : Session := s.readRequest

/-- `processRequest(request_)`: observe the buffer sizes and hand the request
to the handler with a fresh responder. -/
def processRequest (s : Session) : Session :=
  let r := s.request
  let s := s.emit (.metric (.reqHeaderSize r.method r.url.path s.headerBuffer.length))
  let s := s.emit (.metric (.reqBodySize r.method r.url.path s.bodyBuffer.length))
  { s.emit (.handle r) with responders := s.responders + 1 }

/-- `sendResponse()`: send what is left of the response buffer. -/
def sendResponse (s : Session) : Except Fault Session :=
  if s.responseSendOffset < s.responseBuffer.length then
    .ok (s.submit (.send (s.responseBuffer.length - s.responseSendOffset))
      (.send (s.responseBuffer.drop s.responseSendOffset)))
  else .error .assertFailed

/-- `respond(std::string response, bool keepAlive)`. -/
def respondBytes (s : Session) (response : Bytes) (keepAlive : Bool) : Except Fault Session :=
  ({ s.emit (.respond response keepAlive) with
      responseBuffer := response, responseSendOffset := 0, keepAlive } : Session).sendResponse

/-- `respond(Response&& response)`, reached through the handler's responder.
It calls `response_.string(request_.version)`, but the only `Response::string`
of `http.cpp` takes no argument and always writes `HTTP/1.1`, so the version of
the request is not passed. -/
def respond (s : Session) (response : Response) : Except Fault Session :=
  let s : Session := { s with response }
  let s := s.emit (.metric (.reqsTotal s.request.method s.request.url.path response.status))
  let s := s.accessLog s.request.requestLine response.status response.body.length
  s.respondBytes response.string (getKeepAlive s.request)

/-- The error paths of `readRequest`: log, count, answer with the literal 400
and close afterwards. -/
def rejectRequest (s : Session) (logLine label : Bytes) : Except Fault Session :=
  ((s.accessLog logLine 400 0).emit (.metric (.reqErrors label))).respondBytes badRequest false

/-- `readRequestBody(contentLength)`: read the rest of the body into the body
buffer, after what it already holds. -/
def readRequestBody (s : Session) (contentLength : Nat) : Except Fault Session :=
  let sizeBeforeRead := s.bodyBuffer.length
  if sizeBeforeRead < contentLength then
    let recvLen := contentLength - sizeBeforeRead
    .ok (({ s with bodyBuffer := s.bodyBuffer ++ List.replicate recvLen '\x00' } : Session).submit
      (.recvBody sizeBeforeRead recvLen contentLength) (.recv recvLen))
  else .error .assertFailed

/-- The `Content-Length` branch of the header completion. -/
def withContentLength (s : Session) (contentLength : Bytes) : Except Fault Session :=
  match parseInt contentLength with
  | none => s.rejectRequest "INVALID REQUEST (Content-Length)".toList "invalid length".toList
  | some length =>
      if length > s.config.maxRequestBodySize then
        s.rejectRequest "INVALID REQUEST (body size)".toList "body too large".toList
      else if s.request.body.length < length then
        ({ s with bodyBuffer := s.bodyBuffer ++ s.request.body,
                  request := { s.request with body := [] } } : Session).readRequestBody length
      else .ok ({ s with request := { s.request with body := s.request.body.take length } } :
        Session).processRequest

/-- The completion lambda of the header recv of `readRequest`. -/
def onRecvHeader (s : Session) (recvLen : Nat) : Except Errno Bytes → Except Fault Session
  | .error ec =>
      let s := s.emit (.metric (.recvErrors ec))
      .ok (if ec = ECANCELED then s.shutdown else s.close)
  | .ok data =>
      if data.length = 0 then .ok s.close
      else if s.headerBuffer.length < recvLen then .error .sizeWrap
      else do
        let headerBuffer := resize (writeAt s.headerBuffer 0 data)
          (s.headerBuffer.length - recvLen + data.length)
        let s : Session := { s with headerBuffer }
        match ← Request.parse s.config.maxUrlLength headerBuffer with
        | none => s.rejectRequest "INVALID REQUEST".toList "parse error".toList
        | some request =>
            let s : Session := { s with request }
            match request.headers.get "Content-Length".toList with
            | some contentLength => s.withContentLength contentLength
            | none => .ok s.processRequest

/-- The completion lambda of the body recv of `readRequestBody`. -/
def onRecvBody (s : Session) (offset recvLen contentLength : Nat) :
    Except Errno Bytes → Except Fault Session
  | .error ec => .ok (s.emit (.metric (.recvErrors ec))).close
  | .ok data =>
      if data.length = 0 then .ok s.close
      else if s.bodyBuffer.length < recvLen then .error .sizeWrap
      else
        let bodyBuffer := resize (writeAt s.bodyBuffer offset data)
          (s.bodyBuffer.length - recvLen + data.length)
        let s : Session := { s with bodyBuffer }
        if bodyBuffer.length < contentLength then s.readRequestBody contentLength
        else if bodyBuffer.length = contentLength then
          .ok ({ s with request := { s.request with body := bodyBuffer } } : Session).processRequest
        else .error .assertFailed

/-- The completion lambda of `sendResponse`: resend the rest after a partial
send; after the last byte, observe the metrics and either read the next
request or shut down. -/
def onSend (s : Session) : Except Errno Nat → Except Fault Session
  | .error ec => .ok (s.emit (.metric (.sendErrors ec))).close
  | .ok sentBytes =>
      if sentBytes = 0 then .ok s.close
      else if s.responseSendOffset + sentBytes < s.responseBuffer.length then
        ({ s with responseSendOffset := s.responseSendOffset + sentBytes } : Session).sendResponse
      else
        let method := s.request.method
        let path := s.request.url.path
        let status := s.response.status
        let s := s.emit (.metric (.reqDuration method path))
        let s := s.emit (.metric (.respTotal method path status))
        let s := s.emit (.metric (.respSize method path status s.responseBuffer.length))
        .ok (if s.keepAlive then s.start else s.shutdown)

end Session

/-- What the environment does next: complete the oldest submitted operation,
or, from the handler, use a responder. -/
inductive Event
  | recvDone (result : Except Errno Bytes)
  | sendDone (result : Except Errno Nat)
  | shutdownDone
  | respond (response : Response)

/-- One event; `none` when the event cannot happen in this state. -/
def Session.step (s : Session) : Event → Option (Except Fault Session)
  | .recvDone result =>
      match s.pending with
      | .recvHeader recvLen :: rest =>
          if fitsRecv recvLen result then
            some (({ s with pending := rest } : Session).onRecvHeader recvLen result)
          else none
      | .recvBody offset recvLen contentLength :: rest =>
          if fitsRecv recvLen result then
            some (({ s with pending := rest } : Session).onRecvBody offset recvLen contentLength result)
          else none
      | _ => none
  | .sendDone result =>
      match s.pending with
      | .send len :: rest =>
          if fitsSend len result then some (({ s with pending := rest } : Session).onSend result)
          else none
      | _ => none
  | .shutdownDone =>
      match s.pending with
      | .shutdown :: rest => some (.ok ({ s with pending := rest } : Session).close)
      | _ => none
  | .respond response =>
      if 0 < s.responders then
        some (({ s with responders := s.responders - 1 } : Session).respond response)
      else none

/-- The session the acceptor creates and starts; `request` and `response` are
the default-constructed members, whose values `http.hpp` fixes. -/
def Session.init (config : Config) (request : Request) (response : Response) : Session :=
  Session.start ⟨config, [], [], [], request, response, 0, false, false, [], 0, []⟩

/-- Sessions reachable from a fresh one by events that do not fault. -/
inductive Reachable : Session → Prop
  | init (config : Config) (request : Request) (response : Response) :
      Reachable (Session.init config request response)
  | step {s s' : Session} {e : Event} : Reachable s → s.step e = some (.ok s') → Reachable s'

/-- A run of events; `none` when one cannot happen, a `Fault` when one
aborts. -/
def Session.run (s : Session) : List Event → Option (Except Fault Session)
  | [] => some (.ok s)
  | e :: es =>
      match s.step e with
      | some (.ok s') => s'.run es
      | r => r

/-- A run of events that happens without fault leads from a reachable
session to a reachable one. -/
theorem Reachable.run {s s' : Session} {es : List Event} (h : Reachable s)
    (hr : s.run es = some (.ok s')) : Reachable s' := by
  induction es generalizing s with
  | nil => cases hr; exact h
  | cons e es ih =>
      simp only [Session.run] at hr
      split at hr
      · exact ih (h.step ‹_›) hr
      · exact absurd hr (by simp_all)

theorem Session.run_append {s s₁ : Session} {l₁ : List Event} (l₂ : List Event)
    (h : s.run l₁ = some (.ok s₁)) : s.run (l₁ ++ l₂) = s₁.run l₂ := by
  induction l₁ generalizing s with
  | nil => cases h; rfl
  | cons e l₁ ih =>
      rw [Session.run] at h
      rw [List.cons_append, Session.run]
      split at h
      · exact ih h
      · exact absurd h (by simp_all)

end Htcpp.Server
