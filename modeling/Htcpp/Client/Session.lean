import Htcpp.Http.Wire
import Htcpp.Connection

/-!
# The client session as a state machine

`ClientSession` of `client.hpp` performs one request: resolve the host, open
a socket and connect, send the serialized request, read the response head,
and hand the outcome to the stored callback. As for the server, each
completion lambda is a constructor of `Op`, the submitted operations are the
list `pending`, and a completion event runs the lambda of the oldest one. The
outcome of `::socket`, called synchronously inside `connect()`, comes with the
event whose lambda calls `connect()`.

`log` records every submitted operation, every `close()` and every invocation
of `callback_`, with its error or response.

## Main results

* `serializeRequest_host_shifted` — the server's `Request::parse` reads every
  request the client writes a `Host` line for with that line's name cut to
  `st`, and without its body.
-/

namespace Htcpp.Client

open Htcpp.StringView Htcpp.Http

/-- `std::errc::invalid_argument`. -/
def EINVAL : Errno := 22

/-- `std::errc::no_message_available`. -/
def ENODATA : Errno := 61

/-- `std::errc::host_unreachable`. -/
def EHOSTUNREACH : Errno := 113

/-- The `ss_family` of a socket address. -/
inductive Family
  | unspec
  | inet
  | inet6
  deriving DecidableEq, Repr

/-- What the session does, as recorded in its log. -/
inductive Action
  /-- The resolver job is submitted to the I/O queue. -/
  | resolve
  /-- `io_.connect` is submitted for an address of this family. -/
  | connect (family : Family)
  /-- `connection_->send` of these bytes is submitted. -/
  | send (bytes : Bytes)
  /-- `connection_->recv` of `len` bytes is submitted. -/
  | recv (len : Nat)
  /-- `connection_->close()`. -/
  | close
  /-- `callback_` is invoked with an error, or with a response. -/
  | callback (result : Except Errno Response)
  deriving DecidableEq, Repr

/-- A submitted operation and the lambda its completion runs. -/
inductive Op
  | resolve
  | connect
  | send (len : Nat)
  | recvHeader (recvLen : Nat)
  deriving DecidableEq, Repr

/-- The members of `ClientSession` the model tracks. -/
structure ClientSession where
  host : Bytes
  port : Nat
  /-- `defaultPort<Connection>`: 80 for TCP, 443 for TLS. -/
  defaultPort : Nat
  connectAddr : Family
  /-- `callback_` holds a function. -/
  callback : Bool
  requestBuffer : Bytes
  responseBuffer : Bytes
  sendCursor : Nat
  /-- `connection_` holds a connection. -/
  connection : Bool
  /-- Submitted operations whose completion has not run, oldest first. -/
  pending : List Op
  log : List Action
  deriving Repr

namespace ClientSession

/-- `ClientSession::create(io, host, port)`: a port of 0 stands for the
default port of the connection type. -/
def create (host : Bytes) (port defaultPort : Nat) : ClientSession :=
  ⟨host, if port ≠ 0 then port else defaultPort, defaultPort, .unspec, false, [], [], 0, false,
    [], []⟩

/-- Record an action. -/
def emit (s : ClientSession) (a : Action) : ClientSession := { s with log := s.log ++ [a] }

/-- Submit an operation and record it. -/
def submit (s : ClientSession) (op : Op) (a : Action) : ClientSession :=
  { s with pending := s.pending ++ [op], log := s.log ++ [a] }

/-- `callback_(ec, response)`. -/
def invoke (s : ClientSession) (result : Except Errno Response) : Except Fault ClientSession :=
  if s.callback then .ok (s.emit (.callback result)) else .error .badCall

/-- `connection_->close()`. -/
def close (s : ClientSession) : ClientSession := s.emit .close

/-- `serializeRequest(method, target, headers, body)`. -/
def serializeRequest (s : ClientSession) (method : Method) (target : Bytes) (headers : HeaderMap)
    (body : Bytes) : Bytes :=
  let req := method.toString ++ " ".toList ++ target ++ " HTTP/1.1\r\n".toList
  let req :=
    if !headers.contains "Host".toList then
      req ++ "Host: ".toList ++ s.host ++
        (if s.port ≠ s.defaultPort then ":".toList ++ toDecimal s.port else []) ++ "\r\n".toList
    else req
  headers.serialize req ++ "\r\n".toList ++ body

/-- `serializeRequest` writes a request line, then the caller's headers in the
format of `serializeEntries`, preceded by a `Host` line when the caller gave
none. -/
theorem serializeRequest_eq (s : ClientSession) (method : Method) (target : Bytes)
    (headers : HeaderMap) (body : Bytes) :
    s.serializeRequest method target headers body =
      method.toString ++ ' ' :: target ++ ' ' :: "HTTP/1.1".toList ++ crlf ++
        serializeEntries ((if headers.contains "Host".toList then [] else
          [("Host".toList,
            s.host ++ if s.port ≠ s.defaultPort then ":".toList ++ toDecimal s.port else [])]) ++
          headers.entries) ++ crlf ++ body := by
  unfold serializeRequest HeaderMap.serialize
  split <;> simp_all [serializeEntries, crlf]

/-- **The server misreads every request the client writes its `Host` line
for.** For every target `Request::parse` accepts and every header map without
`Host` whose entries are `WireHeader`s, on a session whose host name is free of
CR and HTTP whitespace, `Request::parse` of the request reads the `Host` line
as `st` and returns no body. -/
theorem serializeRequest_host_shifted {s : ClientSession} {method : Method} {target body : Bytes}
    {headers : HeaderMap} {maxUrlLength : Nat} {url : Url}
    (hsp : ' ' ∉ target) (hcr : '\r' ∉ target) (hlt : target.length < maxUrlLength)
    (hurl : Url.parse target = .ok (some url)) (hhost : headers.contains "Host".toList = false)
    (hname : WireHeader ("Host".toList, s.host)) (hes : ∀ e ∈ headers.entries, WireHeader e) :
    Request.parse maxUrlLength (s.serializeRequest method target headers body) =
      .ok (some ⟨method, url, "HTTP/1.1".toList, [],
        ⟨("st".toList,
          s.host ++ if s.port ≠ s.defaultPort then ":".toList ++ toDecimal s.port else []) ::
          headers.entries⟩, []⟩) := by
  rw [serializeRequest_eq, hhost]
  refine Request.parse_serialized hsp hcr hlt hurl (.inr rfl) ?_ (by decide)
  obtain ⟨⟨-, hws⟩, -, hhcr⟩ := hname
  have hport : ∀ c ∈ (if s.port ≠ s.defaultPort then ":".toList ++ toDecimal s.port else []),
      c ≠ '\r' ∧ isHttpWhitespace c = false := by
    intro c hc
    split at hc
    · rcases List.mem_append.mp hc with hc | hc
      · simp at hc; subst hc; decide
      · exact mem_toDecimal_wireSafe hc
    · simp at hc
  intro e he
  rcases List.mem_cons.mp he with rfl | he
  · refine ⟨⟨show ':' ∉ "Host".toList by decide, fun c hc => ?_⟩,
      show '\r' ∉ "Host".toList by decide, fun hc => ?_⟩
    · rcases List.mem_append.mp hc with hc | hc
      · exact hws c hc
      · exact (hport c hc).2
    · rcases List.mem_append.mp hc with hc | hc
      · exact hhcr hc
      · exact (hport _ hc).1 rfl
  · exact hes e he

/-- A request for `/` with a body, from a session for host `h` on the default
port: `Request::parse` reads its `Host` header as `st` and drops the body. -/
theorem serialized_request_misparsed :
    Request.parse 1024 ((create "h".toList 80 80).serializeRequest .get "/".toList ⟨[]⟩
        "abc".toList) =
      .ok (some ⟨.get, ⟨"/".toList, "/".toList, none, none, none⟩, "HTTP/1.1".toList, [],
        ⟨[("st".toList, "h".toList)]⟩, []⟩) :=
  @serializeRequest_host_shifted (create "h".toList 80 80) .get "/".toList "abc".toList ⟨[]⟩ 1024
    ⟨"/".toList, "/".toList, none, none, none⟩ (by decide) (by decide) (by decide) (by decide) rfl
    (by decide) (fun _ h => absurd h (List.not_mem_nil _))

/-- `resolve()`. -/
def resolve (s : ClientSession) : ClientSession := s.submit .resolve .resolve

/-- `connect()`, with `sock` the outcome of `::socket`. A failed `::socket`
is reported to the callback, and the connect is submitted all the same. -/
def connect (s : ClientSession) (sock : Except Errno Unit) : Except Fault ClientSession :=
  if s.connection then .error .assertFailed else
  match s.connectAddr with
  | .unspec => .ok s.resolve
  | family => do
      let s ← match sock with
        | .error e => s.invoke (.error e)
        | .ok () => .ok s
      return s.submit .connect (.connect family)

/-- `send()`: send what is left of the request buffer. -/
def send (s : ClientSession) : Except Fault ClientSession :=
  if s.sendCursor < s.requestBuffer.length then
    .ok (s.submit (.send (s.requestBuffer.length - s.sendCursor))
      (.send (s.requestBuffer.drop s.sendCursor)))
  else .error .assertFailed

/-- `recvHeader()`: one recv of 1024 bytes into the response buffer. -/
def recvHeader (s : ClientSession) : ClientSession :=
  let recvLen := 1024
  ({ s with responseBuffer := resize s.responseBuffer recvLen } : ClientSession).submit
    (.recvHeader recvLen) (.recv recvLen)

/-- `request(method, target, headers, requestBody, cb)`: refused while a
callback is stored; otherwise store it, serialize, and connect unless a
connection exists. -/
def request (s : ClientSession) (method : Method) (target : Bytes) (headers : HeaderMap)
    (requestBody : Bytes) (sock : Except Errno Unit) : Except Fault (Bool × ClientSession) :=
  if s.callback then .ok (false, s) else
  let s := { s with callback := true,
                    requestBuffer := s.serializeRequest method target headers requestBody }
  if s.connection then .ok (true, s) else do
    return (true, ← s.connect sock)

/-- The completion lambda of `resolve()`: report an error or an empty list,
else connect to the first address. -/
def onResolve (s : ClientSession) (result : Except Errno (List Family))
    (sock : Except Errno Unit) : Except Fault ClientSession :=
  match result with
  | .error ec => s.invoke (.error ec)
  | .ok [] => s.invoke (.error EHOSTUNREACH)
  | .ok (addr :: _) => ({ s with connectAddr := addr } : ClientSession).connect sock

/-- The completion lambda of `io_.connect`: an error is reported to the
callback, and the connection is created and the send started all the same. -/
def onConnect (s : ClientSession) (result : Except Errno Unit) : Except Fault ClientSession := do
  let s ← match result with
    | .error ec => s.invoke (.error ec)
    | .ok () => .ok s
  ({ s with connection := true } : ClientSession).send

/-- The completion lambda of `send()`. -/
def onSend (s : ClientSession) : Except Errno Nat → Except Fault ClientSession
  | .error ec => return (← s.invoke (.error ec)).close
  | .ok sentBytes =>
      if sentBytes = 0 then return (← s.invoke (.error ENODATA)).close
      else if s.sendCursor + sentBytes < s.requestBuffer.length then
        ({ s with sendCursor := s.sendCursor + sentBytes } : ClientSession).send
      else .ok s.recvHeader

/-- The completion lambda of `recvHeader()`: parse the head, cut the body to
`Content-Length` when enough of it arrived, and hand the response over. -/
def onRecvHeader (s : ClientSession) (recvLen : Nat) :
    Except Errno Bytes → Except Fault ClientSession
  | .error ec => return (← s.invoke (.error ec)).close
  | .ok data =>
      if data.length = 0 then return (← s.invoke (.error EHOSTUNREACH)).close
      else if s.responseBuffer.length < recvLen then .error .sizeWrap
      else do
        let responseBuffer := resize (writeAt s.responseBuffer 0 data)
          (s.responseBuffer.length - recvLen + data.length)
        let s : ClientSession := { s with responseBuffer }
        match ← Response.parse responseBuffer with
        | none => return (← s.invoke (.error EINVAL)).close
        | some response =>
            match response.headers.get "Content-Length".toList with
            | some contentLength =>
                match parseInt contentLength with
                | none => return (← s.invoke (.error EINVAL)).close
                | some length =>
                    let response := if response.body.length < length then response
                      else { response with body := response.body.take length }
                    return { (← s.invoke (.ok response)) with callback := false }
            | none => return { (← s.invoke (.ok response)) with callback := false }

end ClientSession

/-- What the environment does next: complete the oldest submitted operation.
A resolver completion carries the outcome of the `::socket` call its lambda
may make. -/
inductive Event
  | resolveDone (result : Except Errno (List Family)) (sock : Except Errno Unit)
  | connectDone (result : Except Errno Unit)
  | sendDone (result : Except Errno Nat)
  | recvDone (result : Except Errno Bytes)

namespace ClientSession

/-- One event; `none` when the event cannot happen in this state. -/
def step (s : ClientSession) : Event → Option (Except Fault ClientSession)
  | .resolveDone result sock =>
      match s.pending with
      | .resolve :: rest => some (({ s with pending := rest } : ClientSession).onResolve result sock)
      | _ => none
  | .connectDone result =>
      match s.pending with
      | .connect :: rest => some (({ s with pending := rest } : ClientSession).onConnect result)
      | _ => none
  | .sendDone result =>
      match s.pending with
      | .send len :: rest =>
          if fitsSend len result then some (({ s with pending := rest } : ClientSession).onSend result)
          else none
      | _ => none
  | .recvDone result =>
      match s.pending with
      | .recvHeader recvLen :: rest =>
          if fitsRecv recvLen result then
            some (({ s with pending := rest } : ClientSession).onRecvHeader recvLen result)
          else none
      | _ => none

/-- A run of events; `none` when one cannot happen, a `Fault` when one
aborts. -/
def run (s : ClientSession) : List Event → Option (Except Fault ClientSession)
  | [] => some (.ok s)
  | e :: es =>
      match s.step e with
      | some (.ok s') => s'.run es
      | r => r

end ClientSession

/-- Sessions reachable from a fresh one whose one `request()` was accepted,
by events that do not fault. -/
inductive Reachable : ClientSession → Prop
  | request (host : Bytes) (port defaultPort : Nat) (method : Method) (target : Bytes)
      (headers : HeaderMap) (body : Bytes) (sock : Except Errno Unit) {s : ClientSession} :
      (ClientSession.create host port defaultPort).request method target headers body sock =
        .ok (true, s) → Reachable s
  | step {s s' : ClientSession} {e : Event} : Reachable s → s.step e = some (.ok s') → Reachable s'

theorem Reachable.run {s s' : ClientSession} {es : List Event} (h : Reachable s)
    (hr : s.run es = some (.ok s')) : Reachable s' := by
  induction es generalizing s with
  | nil => cases hr; exact h
  | cons e es ih =>
      simp only [ClientSession.run] at hr
      split at hr
      · exact ih (h.step ‹_›) hr
      · exact absurd hr (by simp_all)

theorem ClientSession.run_append {s s₁ : ClientSession} {l₁ : List Event} (l₂ : List Event)
    (h : s.run l₁ = some (.ok s₁)) : s.run (l₁ ++ l₂) = s₁.run l₂ := by
  induction l₁ generalizing s with
  | nil => cases h; rfl
  | cons e l₁ ih =>
      rw [ClientSession.run] at h
      rw [List.cons_append, ClientSession.run]
      split at h
      · exact ih h
      · exact absurd h (by simp_all)

namespace ClientSession

/-- The outcomes handed to `callback_`, in order. -/
def callbacks (log : List Action) : List (Except Errno Response) :=
  log.filterMap fun
    | .callback result => some result
    | _ => none

/-- A fresh session for host `h`, one request, the resolver returning an IPv4
address, and the connect failing with `ECONNREFUSED`: the callback gets the
error, the send is started anyway and fails with `EPIPE`, and the callback is
invoked a second time; nothing is left outstanding. -/
theorem callback_invoked_twice :
    ∃ s, (create "h".toList 80 80).request .get "/".toList ⟨[]⟩ [] (.ok ()) = .ok (true, s) ∧
      ∃ s', s.run [.resolveDone (.ok [.inet]) (.ok ()), .connectDone (.error 111),
          .sendDone (.error 32)] = some (.ok s') ∧
        s'.pending = [] ∧ callbacks s'.log = [.error 111, .error 32] :=
  ⟨_, rfl, _, rfl, rfl, rfl⟩

end ClientSession

end Htcpp.Client
