import Htcpp.Server.Protocol

/-!
# The session invariant

`Inv` is what holds of every reachable session: exactly one thing is
outstanding (a submitted operation, a responder, or nothing once closed);
the buffers stay within their configured sizes; each pending operation finds
the buffers the way its completion lambda expects them; and the log is a run
of the protocol of `Phase` ending in the session's current phase.

The proof follows the callback structure. A completion first removes its
operation, which leaves a session in the middle of a step (`Mid`); each
member function the lambda then calls is proved, once, to take such a session
to one satisfying `Inv`, or to another `Mid` state; and `step_inv` only
assembles these.

## Main results

* `reachable_inv` — every reachable session satisfies `Inv`.
* `session_io_discipline` — at most one operation is outstanding, nothing is
  submitted after `close`, and the log follows the protocol.
* `session_buffers_bounded` — both request buffers stay within their limits,
  and no step wraps a size or fails an `assert`.
-/

namespace Htcpp.Server

open Htcpp.StringView Htcpp.Http

/-- The phase in which an operation is outstanding. -/
def Op.phase : Op → Phase
  | .recvHeader _ => .reading
  | .recvBody _ _ _ => .reading
  | .send _ => .sending
  | .shutdown => .shuttingDown

/-- The phase of a session, read off its pending operations, responders and
`closed` flag. -/
def Session.phase (s : Session) : Phase :=
  if s.closed then .closed else
  match s.pending with
  | op :: _ => op.phase
  | [] => if 0 < s.responders then .handling else .idle

/-- The response being sent is the literal 400, sent without keep-alive, or
`Response::string` of the handler's response, kept alive as `getKeepAlive`
of the request decides. -/
def ResponseShape (s : Session) : Prop :=
  (s.responseBuffer = badRequest ∧ s.keepAlive = false) ∨
    (s.responseBuffer = s.response.string ∧ s.keepAlive = getKeepAlive s.request)

/-- What the completion lambda of each operation needs of the session. -/
def PendingInv (s : Session) : Op → Prop
  | .recvHeader recvLen => recvLen = s.config.maxRequestHeaderSize ∧
      s.headerBuffer = List.replicate recvLen '\x00' ∧ s.bodyBuffer = []
  | .recvBody offset recvLen contentLength => offset + recvLen = contentLength ∧
      offset < contentLength ∧ s.bodyBuffer.length = contentLength ∧
      contentLength ≤ s.config.maxRequestBodySize
  | .send len => s.responseSendOffset < s.responseBuffer.length ∧
      len = s.responseBuffer.length - s.responseSendOffset ∧ ResponseShape s
  | .shutdown => True

/-- The invariant of reachable sessions. -/
structure Inv (s : Session) : Prop where
  header_le : s.headerBuffer.length ≤ s.config.maxRequestHeaderSize
  body_le : s.bodyBuffer.length ≤ s.config.maxRequestBodySize
  one : s.pending.length + s.responders + (if s.closed then 1 else 0) = 1
  pendingInv : ∀ op ∈ s.pending, PendingInv s op
  protocol : Phase.run .idle s.log = some s.phase

/-- A session in the middle of a step: its completed operation removed,
nothing else outstanding, and its log a protocol run ending in `q`. -/
structure Mid (s : Session) (q : Phase) : Prop where
  header_le : s.headerBuffer.length ≤ s.config.maxRequestHeaderSize
  body_le : s.bodyBuffer.length ≤ s.config.maxRequestBodySize
  pending : s.pending = []
  responders : s.responders = 0
  closed : s.closed = false
  protocol : Phase.run .idle s.log = some q

/-! ## Field lemmas -/

namespace Session

variable (s : Session)

@[simp] theorem emit_config (a : Action) : (s.emit a).config = s.config := rfl
@[simp] theorem emit_headerBuffer (a : Action) : (s.emit a).headerBuffer = s.headerBuffer := rfl
@[simp] theorem emit_bodyBuffer (a : Action) : (s.emit a).bodyBuffer = s.bodyBuffer := rfl
@[simp] theorem emit_responseBuffer (a : Action) :
    (s.emit a).responseBuffer = s.responseBuffer := rfl
@[simp] theorem emit_request (a : Action) : (s.emit a).request = s.request := rfl
@[simp] theorem emit_response (a : Action) : (s.emit a).response = s.response := rfl
@[simp] theorem emit_responseSendOffset (a : Action) :
    (s.emit a).responseSendOffset = s.responseSendOffset := rfl
@[simp] theorem emit_keepAlive (a : Action) : (s.emit a).keepAlive = s.keepAlive := rfl
@[simp] theorem emit_closed (a : Action) : (s.emit a).closed = s.closed := rfl
@[simp] theorem emit_pending (a : Action) : (s.emit a).pending = s.pending := rfl
@[simp] theorem emit_responders (a : Action) : (s.emit a).responders = s.responders := rfl
@[simp] theorem emit_log (a : Action) : (s.emit a).log = s.log ++ [a] := rfl

theorem accessLog_eq (line : Bytes) (status size : Nat) :
    s.accessLog line status size = s ∨ s.accessLog line status size = s.emit (.accessLog line status size) := by
  unfold accessLog
  split
  · exact .inr rfl
  · exact .inl rfl

end Session

/-! ## Mid-step states -/

section MidStep

variable {s : Session} {q q' : Phase}

theorem Mid.emit {a : Action} (h : Mid s q) (ha : q.next a = some q') : Mid (s.emit a) q' :=
  ⟨h.header_le, h.body_le, h.pending, h.responders, h.closed, by
    simpa [Phase.run_snoc h.protocol] using ha⟩

theorem Mid.accessLog {line : Bytes} {status size : Nat} (h : Mid s q)
    (hq : q.next (.accessLog line status size) = some q) : Mid (s.accessLog line status size) q := by
  rcases s.accessLog_eq line status size with he | he <;> rw [he]
  · exact h
  · exact h.emit hq

/-- The metrics other than `respTotal` leave a live phase where it is. -/
theorem Mid.metric {m : Metric} (h : Mid s q) (hq : q = .reading ∨ q = .handling ∨ q = .sent)
    : Mid (s.emit (.metric m)) q := by
  refine h.emit ?_
  rcases hq with rfl | rfl | rfl <;> cases m <;> rfl

theorem Mid.close_inv (h : Mid s q) (hq : q.next .close = some .closed) : Inv s.close where
  header_le := h.header_le
  body_le := h.body_le
  one := by simp [Session.close, h.pending, h.responders]
  pendingInv := by simp [Session.close, h.pending]
  protocol := by simpa [Session.close, Session.phase, Phase.run_snoc h.protocol] using hq

theorem Mid.submit_inv {op : Op} {a : Action} (h : Mid s q) (ha : q.next a = some op.phase)
    (hop : PendingInv (s.submit op a) op) : Inv (s.submit op a) where
  header_le := h.header_le
  body_le := h.body_le
  one := by simp [Session.submit, h.pending, h.responders, h.closed]
  pendingInv := by simpa [Session.submit, h.pending] using hop
  protocol := by
    simpa [Session.submit, Session.phase, h.pending, h.closed, Phase.run_snoc h.protocol] using ha

theorem Mid.shutdown_inv (h : Mid s q) (hq : q.next .shutdown = some .shuttingDown) :
    Inv s.shutdown :=
  h.submit_inv hq trivial

theorem Mid.sendResponse_inv (h : Mid s .sending)
    (hlt : s.responseSendOffset < s.responseBuffer.length)
    (hka : ResponseShape s) : ∃ s', s.sendResponse = .ok s' ∧ Inv s' := by
  rw [Session.sendResponse, if_pos hlt]
  exact ⟨_, rfl, h.submit_inv rfl ⟨hlt, rfl, hka⟩⟩

theorem Mid.respondBytes_inv {response : Bytes} {keepAlive : Bool} (h : Mid s q)
    (hq : q.next (.respond response keepAlive) = some .sending) (hne : response ≠ [])
    (hka : (response = badRequest ∧ keepAlive = false) ∨
      (response = s.response.string ∧ keepAlive = getKeepAlive s.request)) :
    ∃ s', s.respondBytes response keepAlive = .ok s' ∧ Inv s' := by
  have hm := h.emit hq
  exact Mid.sendResponse_inv ⟨hm.header_le, hm.body_le, hm.pending, hm.responders, hm.closed,
    hm.protocol⟩ (by simpa [List.length_pos] using hne) (by simpa using hka)

theorem Mid.rejectRequest_inv {line label : Bytes} (h : Mid s .reading) :
    ∃ s', s.rejectRequest line label = .ok s' ∧ Inv s' :=
  ((h.accessLog rfl).metric (.inl rfl)).respondBytes_inv rfl (by simp [badRequest]) (.inl ⟨rfl, rfl⟩)

/-- A handler holding the only responder. -/
theorem Mid.handle_inv (h : Mid s .handling) : Inv { s with responders := s.responders + 1 } where
  header_le := h.header_le
  body_le := h.body_le
  one := by simp [h.pending, h.responders, h.closed]
  pendingInv := by simp [h.pending]
  protocol := by simpa [Session.phase, h.pending, h.closed, h.responders] using h.protocol

theorem Mid.processRequest_inv (h : Mid s .reading) : Inv s.processRequest :=
  (((h.metric (.inl rfl)).metric (.inl rfl)).emit (a := .handle s.request) rfl).handle_inv

theorem Mid.readRequestBody_inv {contentLength : Nat} (h : Mid s .reading)
    (hlt : s.bodyBuffer.length < contentLength)
    (hle : contentLength ≤ s.config.maxRequestBodySize) :
    ∃ s', s.readRequestBody contentLength = .ok s' ∧ Inv s' := by
  rw [Session.readRequestBody, if_pos hlt]
  refine ⟨_, rfl, ?_⟩
  refine Mid.submit_inv ⟨h.header_le, ?_, h.pending, h.responders, h.closed, h.protocol⟩ rfl ?_
  · simp; omega
  · simp [PendingInv, Session.submit]; omega

theorem Mid.start_inv (h : Mid s q) (hq : q.next (.recv s.config.maxRequestHeaderSize) = some .reading) :
    Inv s.start :=
  Mid.submit_inv ⟨by simp, by simp, h.pending, h.responders, h.closed, h.protocol⟩ hq
    (by simp [PendingInv, Session.submit])

theorem Mid.withContentLength_inv {contentLength : Bytes} (h : Mid s .reading)
    (hbody : s.bodyBuffer = []) :
    ∃ s', s.withContentLength contentLength = .ok s' ∧ Inv s' := by
  unfold Session.withContentLength
  split
  · exact h.rejectRequest_inv
  rename_i length _
  split
  · exact h.rejectRequest_inv
  rename_i hmax
  split
  · rename_i hlt
    have hmid : Mid ({ s with bodyBuffer := s.bodyBuffer ++ s.request.body,
                              request := { s.request with body := [] } } : Session) .reading :=
      ⟨h.header_le, by simp [hbody]; omega, h.pending, h.responders, h.closed, h.protocol⟩
    exact hmid.readRequestBody_inv (by simpa [hbody] using hlt) (by dsimp only; omega)
  · exact ⟨_, rfl, Mid.processRequest_inv ⟨h.header_le, h.body_le, h.pending, h.responders,
      h.closed, h.protocol⟩⟩

/-- The header recv leaves the header buffer holding exactly the bytes it
delivered. -/
theorem header_after_recv (recvLen : Nat) (data : Bytes) :
    resize (writeAt (List.replicate recvLen '\x00') 0 data)
      ((List.replicate recvLen '\x00').length - recvLen + data.length) = data := by
  rw [List.length_replicate, Nat.sub_self, Nat.zero_add, resize_of_le (by simp [writeAt])]
  simp [writeAt]

theorem Mid.onRecvHeader_inv {recvLen : Nat} {result : Except Errno Bytes} (h : Mid s .reading)
    (hrl : recvLen = s.config.maxRequestHeaderSize) (hbuf : s.headerBuffer = List.replicate recvLen '\x00')
    (hbody : s.bodyBuffer = []) (hfit : fitsRecv recvLen result) :
    ∃ s', s.onRecvHeader recvLen result = .ok s' ∧ Inv s' := by
  cases result with
  | error ec =>
      have hm := h.metric (m := .recvErrors ec) (.inl rfl)
      refine ⟨_, rfl, ?_⟩
      split
      · exact hm.shutdown_inv rfl
      · exact hm.close_inv rfl
  | ok data =>
      simp only [fitsRecv, decide_eq_true_eq] at hfit
      simp only [Session.onRecvHeader]
      split
      · exact ⟨_, rfl, h.close_inv rfl⟩
      rw [if_neg (by simp [hbuf]), hbuf, header_after_recv]
      have hmid : Mid { s with headerBuffer := data } .reading :=
        ⟨by simp; omega, h.body_le, h.pending, h.responders, h.closed, h.protocol⟩
      obtain ⟨o, ho⟩ := Request.parse_noFault s.config.maxUrlLength data
      simp only [ho, ok_bind]
      split
      · exact hmid.rejectRequest_inv
      · rename_i request
        have hmid' : Mid { s with headerBuffer := data, request } .reading :=
          ⟨hmid.header_le, hmid.body_le, h.pending, h.responders, h.closed, h.protocol⟩
        split
        · exact hmid'.withContentLength_inv hbody
        · exact ⟨_, rfl, hmid'.processRequest_inv⟩

theorem Mid.onRecvBody_inv {offset recvLen contentLength : Nat} {result : Except Errno Bytes}
    (h : Mid s .reading) (hsum : offset + recvLen = contentLength)
    (hlen : s.bodyBuffer.length = contentLength)
    (hle : contentLength ≤ s.config.maxRequestBodySize) (hfit : fitsRecv recvLen result) :
    ∃ s', s.onRecvBody offset recvLen contentLength result = .ok s' ∧ Inv s' := by
  cases result with
  | error ec => exact ⟨_, rfl, (h.metric (.inl rfl)).close_inv rfl⟩
  | ok data =>
      simp only [fitsRecv, decide_eq_true_eq] at hfit
      simp only [Session.onRecvBody]
      split
      · exact ⟨_, rfl, h.close_inv rfl⟩
      rw [if_neg (by omega)]
      generalize hb : resize (writeAt s.bodyBuffer offset data)
        (s.bodyBuffer.length - recvLen + data.length) = body
      have hnew : body.length = offset + data.length := by
        rw [← hb]; simp; omega
      have hmid : Mid { s with bodyBuffer := body } .reading :=
        ⟨h.header_le, by simp only [hnew]; omega, h.pending, h.responders, h.closed, h.protocol⟩
      split
      · exact hmid.readRequestBody_inv (by simpa using ‹body.length < contentLength›) hle
      · rw [if_pos (by omega)]
        exact ⟨_, rfl, Mid.processRequest_inv ⟨hmid.header_le, hmid.body_le, h.pending,
          h.responders, h.closed, h.protocol⟩⟩

/-- The three metrics of a completed send, `respTotal` among them, move the
protocol from `sending` to `sent`. -/
theorem Mid.sent_metrics (h : Mid s .sending) (method : Method) (path : Bytes) (status size : Nat) :
    Mid (((s.emit (.metric (.reqDuration method path))).emit (.metric (.respTotal method path status))).emit
      (.metric (.respSize method path status size))) .sent :=
  ((h.emit (a := .metric (.reqDuration method path)) rfl).emit
    (a := .metric (.respTotal method path status)) rfl).metric (.inr (.inr rfl))

theorem Mid.onSend_inv {result : Except Errno Nat} (h : Mid s .sending) (hka : ResponseShape s) :
    ∃ s', s.onSend result = .ok s' ∧ Inv s' := by
  cases result with
  | error ec => exact ⟨_, rfl, (h.emit (a := .metric (.sendErrors ec)) rfl).close_inv rfl⟩
  | ok sentBytes =>
      simp only [Session.onSend]
      split
      · exact ⟨_, rfl, h.close_inv rfl⟩
      split
      · exact Mid.sendResponse_inv ⟨h.header_le, h.body_le, h.pending, h.responders, h.closed,
          h.protocol⟩ ‹_› hka
      · have hsent := h.sent_metrics s.request.method s.request.url.path s.response.status
          s.responseBuffer.length
        refine ⟨_, rfl, ?_⟩
        split
        · exact hsent.start_inv rfl
        · exact hsent.shutdown_inv rfl

theorem Mid.respond_inv {response : Response} (h : Mid s .handling) :
    ∃ s', s.respond response = .ok s' ∧ Inv s' := by
  have hm : Mid ({ s with response } : Session) .handling :=
    ⟨h.header_le, h.body_le, h.pending, h.responders, h.closed, h.protocol⟩
  exact ((hm.metric (.inr (.inl rfl))).accessLog rfl).respondBytes_inv rfl
    (by simp [Response.string]) (.inr ⟨by simp [Session.accessLog]; split <;> rfl, rfl⟩)

end MidStep

/-! ## Preservation -/

section Preservation

variable {s : Session}

/-- An operation at the head of `pending` is the only thing outstanding;
removing it leaves a mid-step session in its phase. -/
theorem Inv.mid_of_pending {op : Op} {rest : List Op} (hs : Inv s) (hp : s.pending = op :: rest) :
    rest = [] ∧ PendingInv s op ∧ Mid { s with pending := rest } op.phase := by
  have hone := hs.one
  have hphase := hs.protocol
  rw [hp] at hone
  simp only [List.length_cons] at hone
  split at hone
  · omega
  rename_i hc
  have hrest : rest = [] := List.eq_nil_of_length_eq_zero (by omega)
  refine ⟨hrest, hs.pendingInv op (by simp [hp]), hs.header_le, hs.body_le, hrest,
    show s.responders = 0 by omega, by simpa using hc, ?_⟩
  simpa [Session.phase, hc, hp] using hphase

/-- A responder held by the handler is the only thing outstanding. -/
theorem Inv.mid_of_responder (hs : Inv s) (hr : 0 < s.responders) :
    Mid { s with responders := s.responders - 1 } .handling := by
  have hone := hs.one
  have hphase := hs.protocol
  split at hone
  · omega
  rename_i hc
  have hp : s.pending = [] := List.eq_nil_of_length_eq_zero (by omega)
  refine ⟨hs.header_le, hs.body_le, hp, by simp; omega, by simpa using hc, ?_⟩
  simpa [Session.phase, hc, hp, hr] using hphase

/-- **One step keeps the invariant**, and never faults: no `assert` fails, no
size wraps, and the parser does not throw. -/
theorem step_inv {e : Event} {r : Except Fault Session} (hs : Inv s) (he : s.step e = some r) :
    ∃ s', r = .ok s' ∧ Inv s' := by
  cases e with
  | recvDone result =>
      simp only [Session.step] at he
      split at he
      · rename_i recvLen rest hp
        split at he
        · cases he
          obtain ⟨-, ⟨hrl, hbuf, hbody⟩, hmid⟩ := hs.mid_of_pending hp
          exact hmid.onRecvHeader_inv hrl hbuf hbody ‹_›
        · cases he
      · rename_i offset recvLen contentLength rest hp
        split at he
        · cases he
          obtain ⟨-, ⟨hsum, -, hlen, hle⟩, hmid⟩ := hs.mid_of_pending hp
          exact hmid.onRecvBody_inv hsum hlen hle ‹_›
        · cases he
      · cases he
  | sendDone result =>
      simp only [Session.step] at he
      split at he
      · rename_i len rest hp
        split at he
        · cases he
          obtain ⟨-, ⟨-, -, hka⟩, hmid⟩ := hs.mid_of_pending hp
          exact hmid.onSend_inv hka
        · cases he
      · cases he
  | shutdownDone =>
      simp only [Session.step] at he
      split at he
      · rename_i rest hp
        cases he
        exact ⟨_, rfl, (hs.mid_of_pending hp).2.2.close_inv rfl⟩
      · cases he
  | respond response =>
      simp only [Session.step] at he
      split at he
      · cases he
        exact (hs.mid_of_responder ‹_›).respond_inv
      · cases he

theorem init_inv (config : Config) (request : Request) (response : Response) :
    Inv (Session.init config request response) :=
  Mid.start_inv (q := .idle) ⟨by simp, by simp, rfl, rfl, rfl, rfl⟩ rfl

/-- **Every reachable session satisfies `Inv`.** -/
theorem reachable_inv (h : Reachable s) : Inv s := by
  induction h with
  | init config request response => exact init_inv config request response
  | step _ hstep ih =>
      obtain ⟨_, he, hinv⟩ := step_inv ih hstep
      cases he
      exact hinv

/-- **The session's I/O discipline.** In every reachable session at most one
recv, send or shutdown is outstanding; once `close` has been called nothing
is outstanding and no event can occur, so nothing is submitted after it; the
log is a run of the connection protocol; and every handler invocation is
answered, before the next recv, by exactly one response whose last byte was
acknowledged (`respTotal`). -/
theorem session_io_discipline (h : Reachable s) :
    s.pending.length ≤ 1 ∧
    (s.closed = true → s.pending = [] ∧ s.responders = 0 ∧ ∀ e, s.step e = none) ∧
    Phase.run .idle s.log = some s.phase ∧
    ∀ pre r mid n post, s.log = pre ++ .handle r :: mid ++ .recv n :: post →
      (∀ a ∈ mid, a.isRecv = false) →
      (mid.filter Action.isRespond).length = 1 ∧ ∃ m p st, .metric (.respTotal m p st) ∈ mid := by
  have hs := reachable_inv h
  have hone := hs.one
  refine ⟨by split at hone <;> omega, fun hc => ?_, hs.protocol,
    fun pre r mid n post hlog hmid => Phase.answered_before_recv (hlog ▸ hs.protocol) hmid⟩
  rw [if_pos hc] at hone
  have hp : s.pending = [] := List.eq_nil_of_length_eq_zero (by omega)
  have hr : s.responders = 0 := by omega
  refine ⟨hp, hr, fun e => ?_⟩
  cases e <;> simp [Session.step, hp, hr]

set_option maxRecDepth 4000 in
/-- A keep-alive `GET`, a `POST` whose five-byte body comes in two recvs, each
answered, and then the peer closing: the session is closed after two
responses, and both handler invocations were answered before the next recv. -/
theorem session_io_discipline_after_close :
    ∃ s, (Session.init ⟨64, 16, 64, false⟩ default default).run
      [.recvDone (.ok "GET /a HTTP/1.1\r\nHost: h\r\n\r\n".toList),
        .respond (Response.ofCode 200 "hi".toList), .sendDone (.ok 63),
        .recvDone (.ok "POST /p HTTP/1.1\r\nHost: h\r\nContent-Length: 5\r\n\r\n".toList),
        .recvDone (.ok "he".toList), .recvDone (.ok "llo".toList),
        .respond (Response.ofCode 200 "hi".toList), .sendDone (.ok 63), .recvDone (.ok [])] =
        some (.ok s) ∧
      s.closed = true ∧ (s.log.filter Action.isRespond).length = 2 ∧
      (s.pending.length ≤ 1 ∧
        (s.closed = true → s.pending = [] ∧ s.responders = 0 ∧ ∀ e, s.step e = none) ∧
        Phase.run .idle s.log = some s.phase ∧
        ∀ pre r mid n post, s.log = pre ++ .handle r :: mid ++ .recv n :: post →
          (∀ a ∈ mid, a.isRecv = false) →
          (mid.filter Action.isRespond).length = 1 ∧ ∃ m p st, .metric (.respTotal m p st) ∈ mid) := by
  obtain ⟨s, hr, hc, hresp⟩ : ∃ s, (Session.init ⟨64, 16, 64, false⟩ default default).run
      [.recvDone (.ok "GET /a HTTP/1.1\r\nHost: h\r\n\r\n".toList),
        .respond (Response.ofCode 200 "hi".toList), .sendDone (.ok 63),
        .recvDone (.ok "POST /p HTTP/1.1\r\nHost: h\r\nContent-Length: 5\r\n\r\n".toList),
        .recvDone (.ok "he".toList), .recvDone (.ok "llo".toList),
        .respond (Response.ofCode 200 "hi".toList), .sendDone (.ok 63), .recvDone (.ok [])] =
        some (.ok s) ∧ s.closed = true ∧ (s.log.filter Action.isRespond).length = 2 :=
    ⟨_, rfl, rfl, rfl⟩
  exact ⟨s, hr, hc, hresp, session_io_discipline ((Reachable.init _ _ _).run hr)⟩

/-- **Buffers stay bounded, and no step faults.** In every reachable session
both request buffers are within their configured limits; every pending recv
finds its buffer at least `recvLen` long, so `size() - recvLen + readBytes`
cannot wrap; a pending body recv started below the declared length and ends
exactly at it; and no event makes the session fail an `assert`, wrap a size
or throw. -/
theorem session_buffers_bounded (h : Reachable s) :
    s.headerBuffer.length ≤ s.config.maxRequestHeaderSize ∧
    s.bodyBuffer.length ≤ s.config.maxRequestBodySize ∧
    (∀ recvLen, .recvHeader recvLen ∈ s.pending → recvLen ≤ s.headerBuffer.length) ∧
    (∀ offset recvLen contentLength, .recvBody offset recvLen contentLength ∈ s.pending →
      recvLen ≤ s.bodyBuffer.length ∧ offset < contentLength ∧ offset + recvLen = contentLength) ∧
    ∀ e r, s.step e = some r → ∃ s', r = .ok s' := by
  have hs := reachable_inv h
  refine ⟨hs.header_le, hs.body_le, fun recvLen hm => ?_, fun offset recvLen contentLength hm => ?_,
    fun e r he => (step_inv hs he).imp fun _ h => h.1⟩
  · obtain ⟨-, hbuf, -⟩ := hs.pendingInv _ hm
    simp [hbuf]
  · obtain ⟨hsum, hlt, hlen, -⟩ := hs.pendingInv _ hm
    exact ⟨by omega, hlt, hsum⟩

set_option maxRecDepth 4000 in
/-- The same keep-alive `GET`, then a `POST` whose first body recv brings two
of its five bytes: the body recv for the other three is pending. -/
theorem session_buffers_bounded_mid_body :
    ∃ s, (Session.init ⟨64, 16, 64, false⟩ default default).run
      [.recvDone (.ok "GET /a HTTP/1.1\r\nHost: h\r\n\r\n".toList),
        .respond (Response.ofCode 200 "hi".toList), .sendDone (.ok 63),
        .recvDone (.ok "POST /p HTTP/1.1\r\nHost: h\r\nContent-Length: 5\r\n\r\n".toList),
        .recvDone (.ok "he".toList)] = some (.ok s) ∧
      s.pending = [.recvBody 2 3 5] ∧
      (s.headerBuffer.length ≤ s.config.maxRequestHeaderSize ∧
        s.bodyBuffer.length ≤ s.config.maxRequestBodySize ∧
        (∀ recvLen, .recvHeader recvLen ∈ s.pending → recvLen ≤ s.headerBuffer.length) ∧
        (∀ offset recvLen contentLength, .recvBody offset recvLen contentLength ∈ s.pending →
          recvLen ≤ s.bodyBuffer.length ∧ offset < contentLength ∧ offset + recvLen = contentLength) ∧
        ∀ e r, s.step e = some r → ∃ s', r = .ok s') := by
  obtain ⟨s, hr, hp⟩ : ∃ s, (Session.init ⟨64, 16, 64, false⟩ default default).run
      [.recvDone (.ok "GET /a HTTP/1.1\r\nHost: h\r\n\r\n".toList),
        .respond (Response.ofCode 200 "hi".toList), .sendDone (.ok 63),
        .recvDone (.ok "POST /p HTTP/1.1\r\nHost: h\r\nContent-Length: 5\r\n\r\n".toList),
        .recvDone (.ok "he".toList)] = some (.ok s) ∧ s.pending = [.recvBody 2 3 5] :=
    ⟨_, rfl, rfl⟩
  exact ⟨s, hr, hp, session_buffers_bounded ((Reachable.init _ _ _).run hr)⟩

end Preservation

end Htcpp.Server
