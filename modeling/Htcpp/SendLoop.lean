import Htcpp.Server.Session
import Htcpp.Client.Invariant

/-!
# The partial-send loops

`Server::Session::sendResponse` and `ClientSession::send` run one loop. Each
`assert`s that its cursor is inside the buffer and sends what is left of the
buffer from the cursor. When a completion acknowledges `n` bytes and bytes are
left over, it moves the cursor by `n` and sends again. Once the last byte is
acknowledged, it goes on exactly once: the server to its three metrics and
then `start()` or `shutdown()`, the client to `recvHeader()`.

`sendCursors 0 ns` is the list of cursors such a loop sends from when its
completions acknowledge `ns` bytes in turn. Each side has a step lemma for a
completion that leaves bytes over, one for the last completion, and a run
lemma by induction on `ns`. The run lemmas start at any cursor. The entry
theorems start them where the code does: at `respond(std::string, bool)` on
the server, and at the first send of a fresh client session.

## Main results

* `flatten_sendCursors`: the ranges acknowledged from consecutive cursors
  make up the buffer from the first cursor on.
* `Server.Session.run_sendDone`, `Client.ClientSession.run_sendDone`: every
  run of completions that each acknowledge at least one byte, up to the end of
  the buffer, sends from each cursor in turn and then finishes once.
* `partial_sends_cover_buffer`: from `respond()` and from a fresh client's
  `request()`, the sends cover the buffer exactly, every cursor is inside it,
  and the finishing actions come once, after the last byte; on the client,
  also after a failed `::socket` or connect.
-/

namespace Htcpp

open Htcpp.StringView Htcpp.Http

/-! ## Cursors -/

/-- The cursors a partial-send loop sends from, starting at `c`, when its
completions acknowledge `ns` bytes in turn: `sendCursor_ += sentBytes` after
each completion that leaves bytes over. -/
def sendCursors (c : Nat) : List Nat → List Nat
  | [] => []
  | n :: ns => c :: sendCursors (c + n) ns

@[simp] theorem sendCursors_nil (c : Nat) : sendCursors c [] = [] := rfl

@[simp] theorem sendCursors_cons (c n : Nat) (ns : List Nat) :
    sendCursors c (n :: ns) = c :: sendCursors (c + n) ns := rfl

/-- **Consecutive ranges make up the buffer.** The `n` bytes acknowledged from
each cursor, in turn, are the bytes from the first cursor on, up to the total
acknowledged. -/
theorem flatten_sendCursors (buf : Bytes) : ∀ (c : Nat) (ns : List Nat),
    (List.zipWith (fun c n => (buf.drop c).take n) (sendCursors c ns) ns).flatten =
      (buf.drop c).take (ns.foldr (· + ·) 0)
  | c, [] => by simp
  | c, n :: ns => by
      rw [sendCursors_cons, List.zipWith_cons_cons, List.flatten_cons, flatten_sendCursors buf (c + n) ns,
        List.foldr_cons, List.take_add, List.drop_drop]

/-- When every completion acknowledges a byte, every cursor stays short of
the total the completions acknowledge. -/
theorem sendCursors_lt {ns : List Nat} (hpos : ∀ n ∈ ns, 0 < n) :
    ∀ {c : Nat}, ∀ x ∈ sendCursors c ns, x < c + ns.foldr (· + ·) 0 := by
  induction ns with
  | nil => simp
  | cons n ns ih =>
      intro c x hx
      have hn := hpos n (List.mem_cons_self n ns)
      rcases List.mem_cons.mp hx with rfl | hx
      · simp only [List.foldr_cons]; omega
      · have := ih (fun m hm => hpos m (List.mem_cons_of_mem n hm)) x hx
        simp only [List.foldr_cons]; omega


/-! ## The server -/

namespace Server

namespace Session

variable {s : Session} {n : Nat}

/-- What the completion of `sendResponse` does once the last byte is
acknowledged: the three metrics, labelled from `request_` and `response_`,
then `start()` or `shutdown()` as `keepAlive_` says. -/
def sentActions (s : Session) : List Action :=
  [.metric (.reqDuration s.request.method s.request.url.path),
    .metric (.respTotal s.request.method s.request.url.path s.response.status),
    .metric (.respSize s.request.method s.request.url.path s.response.status s.responseBuffer.length),
    if s.keepAlive then .recv s.config.maxRequestHeaderSize else .shutdown]

/-- A completion that leaves bytes over moves the cursor and sends the rest. -/
theorem step_sendDone_more (hp : s.pending = [.send (s.responseBuffer.length - s.responseSendOffset)])
    (hn : 0 < n) (hlt : s.responseSendOffset + n < s.responseBuffer.length) :
    s.step (.sendDone (.ok n)) = some (.ok { s with
      responseSendOffset := s.responseSendOffset + n
      pending := [.send (s.responseBuffer.length - (s.responseSendOffset + n))]
      log := s.log ++ [.send (s.responseBuffer.drop (s.responseSendOffset + n))] }) := by
  have hfit : n ≤ s.responseBuffer.length - s.responseSendOffset := by omega
  simp only [step, hp, fitsSend, decide_eq_true_eq, hfit, ite_true, onSend,
    if_neg (Nat.pos_iff_ne_zero.mp hn), if_pos hlt, sendResponse, submit, List.nil_append]

/-- The completion of the last byte runs the finishing actions. -/
theorem step_sendDone_last (hp : s.pending = [.send (s.responseBuffer.length - s.responseSendOffset)])
    (hn : 0 < n) (heq : s.responseSendOffset + n = s.responseBuffer.length) :
    ∃ s', s.step (.sendDone (.ok n)) = some (.ok s') ∧
      s'.pending = [if s.keepAlive then .recvHeader s.config.maxRequestHeaderSize else .shutdown] ∧
      s'.log = s.log ++ s.sentActions := by
  have hfit : n ≤ s.responseBuffer.length - s.responseSendOffset := by omega
  simp only [step, hp, fitsSend, decide_eq_true_eq, hfit, ite_true, onSend,
    if_neg (Nat.pos_iff_ne_zero.mp hn), if_neg (show ¬ s.responseSendOffset + n < s.responseBuffer.length by omega)]
  rcases hka : s.keepAlive <;>
    exact ⟨_, rfl, by simp [emit, hka, shutdown, start, readRequest, submit],
      by simp [sentActions, emit, hka, shutdown, start, readRequest, submit]⟩

/-- **The server's send loop.** From a session sending from its cursor, every
run of completions that each acknowledge at least one byte, ending at the end
of the buffer, sends from each later cursor in turn and then runs
`sentActions` once. -/
theorem run_sendDone {ns : List Nat} (hpos : ∀ n ∈ ns, 0 < n) (hne : ns ≠ []) :
    ∀ {s : Session}, s.pending = [.send (s.responseBuffer.length - s.responseSendOffset)] →
      s.responseSendOffset + ns.foldr (· + ·) 0 = s.responseBuffer.length →
      ∃ s', s.run (ns.map fun n => .sendDone (.ok n)) = some (.ok s') ∧
        s'.pending = [if s.keepAlive then .recvHeader s.config.maxRequestHeaderSize else .shutdown] ∧
        s'.log = s.log ++ (sendCursors s.responseSendOffset ns).tail.map
          (fun c => .send (s.responseBuffer.drop c)) ++ s.sentActions := by
  induction ns with
  | nil => exact absurd rfl hne
  | cons n ns ih =>
      intro s hp htot
      have hn := hpos n (List.mem_cons_self n ns)
      by_cases hnil : ns = []
      · subst hnil
        obtain ⟨s', hs', hp', hl'⟩ := step_sendDone_last hp hn (by simpa using htot)
        exact ⟨s', by simp [run, hs'], hp', by simpa using hl'⟩
      · obtain ⟨m, ms, rfl⟩ := List.exists_cons_of_ne_nil hnil
        have hm := hpos m (List.mem_cons_of_mem n (List.mem_cons_self m ms))
        simp only [List.foldr_cons] at htot
        obtain ⟨s', hs', hp', hl'⟩ := ih (fun k hk => hpos k (List.mem_cons_of_mem n hk)) hnil
          (s := { s with
            responseSendOffset := s.responseSendOffset + n
            pending := [.send (s.responseBuffer.length - (s.responseSendOffset + n))]
            log := s.log ++ [.send (s.responseBuffer.drop (s.responseSendOffset + n))] })
          rfl (by simp only [List.foldr_cons]; omega)
        refine ⟨s', ?_, hp', ?_⟩
        · simp only [List.map_cons, run, step_sendDone_more hp hn (by omega)]
          exact hs'
        · rw [hl']
          simp [sentActions]

/-- The loop from `respond(std::string, bool)` on a session with nothing
outstanding: the first send is from cursor 0. -/
theorem respondBytes_sends {buf : Bytes} {keepAlive : Bool} {ns : List Nat} (hp : s.pending = [])
    (hbuf : buf ≠ []) (hpos : ∀ n ∈ ns, 0 < n) (htot : ns.foldr (· + ·) 0 = buf.length) :
    ∃ s₀ s', s.respondBytes buf keepAlive = .ok s₀ ∧
      s₀.run (ns.map fun n => .sendDone (.ok n)) = some (.ok s') ∧
      s'.pending = [if keepAlive then .recvHeader s.config.maxRequestHeaderSize else .shutdown] ∧
      s'.log = s.log ++ .respond buf keepAlive :: (sendCursors 0 ns).map (fun c => .send (buf.drop c)) ++
        { s with responseBuffer := buf, keepAlive }.sentActions := by
  have hlt : 0 < buf.length := List.length_pos.mpr hbuf
  have hne : ns ≠ [] := by rintro rfl; simp at htot; omega
  obtain ⟨m, ms, rfl⟩ := List.exists_cons_of_ne_nil hne
  obtain ⟨s', hs', hp', hl'⟩ := run_sendDone hpos hne
    (s := (({ s.emit (.respond buf keepAlive) with responseBuffer := buf, responseSendOffset := 0, keepAlive } :
      Session).submit (.send (buf.length - 0)) (.send (buf.drop 0))))
    (by simp [submit, emit, hp]) (by simpa [submit, emit] using htot)
  refine ⟨_, s', by simp [respondBytes, sendResponse, hlt], hs', hp', ?_⟩
  rw [hl']
  simp [submit, emit, sentActions]

end Session

end Server

/-! ## The client -/

namespace Client

namespace ClientSession

variable {s : ClientSession} {n : Nat}

/-- A completion that leaves bytes over moves the cursor and sends the rest. -/
theorem step_sendDone_more (hp : s.pending = [.send (s.requestBuffer.length - s.sendCursor)])
    (hn : 0 < n) (hlt : s.sendCursor + n < s.requestBuffer.length) :
    s.step (.sendDone (.ok n)) = some (.ok { s with
      sendCursor := s.sendCursor + n
      pending := [.send (s.requestBuffer.length - (s.sendCursor + n))]
      log := s.log ++ [.send (s.requestBuffer.drop (s.sendCursor + n))] }) := by
  have hfit : n ≤ s.requestBuffer.length - s.sendCursor := by omega
  simp only [step, hp, fitsSend, decide_eq_true_eq, hfit, ite_true, onSend,
    if_neg (Nat.pos_iff_ne_zero.mp hn), if_pos hlt, send, submit, List.nil_append]

/-- The completion of the last byte submits the header recv. -/
theorem step_sendDone_last (hp : s.pending = [.send (s.requestBuffer.length - s.sendCursor)])
    (hn : 0 < n) (heq : s.sendCursor + n = s.requestBuffer.length) :
    s.step (.sendDone (.ok n)) = some (.ok ({ s with pending := [] } : ClientSession).recvHeader) := by
  have hfit : n ≤ s.requestBuffer.length - s.sendCursor := by omega
  simp only [step, hp, fitsSend, decide_eq_true_eq, hfit, ite_true, onSend,
    if_neg (Nat.pos_iff_ne_zero.mp hn), if_neg (show ¬ s.sendCursor + n < s.requestBuffer.length by omega)]

/-- **The client's send loop.** From a session sending from its cursor, every
run of completions that each acknowledge at least one byte, ending at the end
of the buffer, sends from each later cursor in turn and then submits the
header recv once. -/
theorem run_sendDone {ns : List Nat} (hpos : ∀ n ∈ ns, 0 < n) (hne : ns ≠ []) :
    ∀ {s : ClientSession}, s.pending = [.send (s.requestBuffer.length - s.sendCursor)] →
      s.sendCursor + ns.foldr (· + ·) 0 = s.requestBuffer.length →
      ∃ s', s.run (ns.map fun n => .sendDone (.ok n)) = some (.ok s') ∧ s'.pending = [.recvHeader 1024] ∧
        s'.log = s.log ++ (sendCursors s.sendCursor ns).tail.map
          (fun c => .send (s.requestBuffer.drop c)) ++ [.recv 1024] := by
  induction ns with
  | nil => exact absurd rfl hne
  | cons n ns ih =>
      intro s hp htot
      have hn := hpos n (List.mem_cons_self n ns)
      by_cases hnil : ns = []
      · subst hnil
        refine ⟨({ s with pending := [] } : ClientSession).recvHeader,
          by simp [run, step_sendDone_last hp hn (by simpa using htot)], rfl, ?_⟩
        simp [recvHeader, submit]
      · obtain ⟨m, ms, rfl⟩ := List.exists_cons_of_ne_nil hnil
        have hm := hpos m (List.mem_cons_of_mem n (List.mem_cons_self m ms))
        simp only [List.foldr_cons] at htot
        obtain ⟨s', hs', hp', hl'⟩ := ih (fun k hk => hpos k (List.mem_cons_of_mem n hk)) hnil
          (s := { s with
            sendCursor := s.sendCursor + n
            pending := [.send (s.requestBuffer.length - (s.sendCursor + n))]
            log := s.log ++ [.send (s.requestBuffer.drop (s.sendCursor + n))] })
          rfl (by simp only [List.foldr_cons]; omega)
        refine ⟨s', ?_, hp', ?_⟩
        · simp only [List.map_cons, run, step_sendDone_more hp hn (by omega)]
          exact hs'
        · rw [hl']
          simp

/-- What the callback hears of the `::socket` call or of the connect: nothing
when it succeeded, its error when it failed. -/
def reportError : Except Errno Unit → List Action
  | .error e => [.callback (.error e)]
  | .ok _ => []

/-- A resolver completion with an address of a known family submits the
connect, whatever the outcome of the `::socket` call: a failure is only
reported to the callback. -/
theorem step_resolveDone {addr : Family} {addrs : List Family} {sock : Except Errno Unit}
    (hp : s.pending = [.resolve]) (hcb : s.callback = true) (hconn : s.connection = false)
    (haddr : addr ≠ .unspec) :
    s.step (.resolveDone (.ok (addr :: addrs)) sock) = some (.ok
      (({ s with pending := [], connectAddr := addr, log := s.log ++ reportError sock } :
        ClientSession).submit .connect (.connect addr))) := by
  cases addr with
  | unspec => exact absurd rfl haddr
  | inet | inet6 =>
      rcases sock with e | ⟨⟨⟩⟩ <;> simp [step, hp, onResolve, connect, hconn, invoke, hcb, emit, reportError]

/-- A connect completion starts the send from the cursor, whether it
succeeded or failed: a failure is only reported to the callback. -/
theorem step_connectDone {result : Except Errno Unit} (hp : s.pending = [.connect])
    (hcb : s.callback = true) (hlt : s.sendCursor < s.requestBuffer.length) :
    s.step (.connectDone result) = some (.ok
      (({ s with pending := [], connection := true, log := s.log ++ reportError result } :
        ClientSession).submit (.send (s.requestBuffer.length - s.sendCursor))
          (.send (s.requestBuffer.drop s.sendCursor)))) := by
  rcases result with e | ⟨⟨⟩⟩
  · simp [step, hp, onConnect, invoke, hcb, emit, send, hlt, reportError]
  · simp [step, hp, onConnect, send, hlt, reportError]

/-- After `request()` on a fresh session, a resolver completion with an
address of a known family, whatever the outcome of its `::socket` call, and a
connect completion, whatever its outcome, reach the first send, from cursor 0,
of the whole request. -/
theorem request_connects {host target body : Bytes} {port defaultPort : Nat} {method : Method}
    {headers : HeaderMap} {addr : Family} (addrs : List Family) (sock result : Except Errno Unit)
    (hreq : (create host port defaultPort).request method target headers body (.ok ()) = .ok (true, s))
    (haddr : addr ≠ .unspec) :
    ∃ s₁ s₂, s.step (.resolveDone (.ok (addr :: addrs)) sock) = some (.ok s₁) ∧
      s₁.step (.connectDone result) = some (.ok s₂) ∧
      s₂.pending = [.send (s₂.requestBuffer.length - s₂.sendCursor)] ∧ s₂.sendCursor = 0 ∧
      s₂.requestBuffer = s.requestBuffer ∧
      s₂.log = s.log ++ reportError sock ++ .connect addr :: reportError result ++
        [.send (s.requestBuffer.drop 0)] ∧
      s.requestBuffer ≠ [] := by
  simp only [request, create, connect, if_false, Bool.false_eq_true, ok_bind] at hreq
  cases hreq
  have hne := serializeRequest_ne_nil (s := create host port defaultPort) method target headers body
  exact ⟨_, _, step_resolveDone rfl rfl rfl haddr, step_connectDone rfl rfl (List.length_pos.mpr hne),
    rfl, rfl, rfl, by simp [submit, resolve], hne⟩

/-- The loop from a fresh session's `request()`. -/
theorem request_sends {host target body : Bytes} {port defaultPort : Nat} {method : Method}
    {headers : HeaderMap} {addr : Family} (addrs : List Family) (sock result : Except Errno Unit)
    {ns : List Nat} (hreq : (create host port defaultPort).request method target headers body (.ok ()) = .ok (true, s))
    (haddr : addr ≠ .unspec) (hpos : ∀ n ∈ ns, 0 < n) (htot : ns.foldr (· + ·) 0 = s.requestBuffer.length) :
    ∃ s', s.run (.resolveDone (.ok (addr :: addrs)) sock :: .connectDone result ::
        ns.map fun n => .sendDone (.ok n)) = some (.ok s') ∧ s'.pending = [.recvHeader 1024] ∧
      s'.log = s.log ++ reportError sock ++ .connect addr :: reportError result ++
        (sendCursors 0 ns).map (fun c => .send (s.requestBuffer.drop c)) ++ [.recv 1024] := by
  obtain ⟨s₁, s₂, h₁, h₂, hp₂, hc₂, hb₂, hl₂, hbuf⟩ := request_connects addrs sock result hreq haddr
  have hne : ns ≠ [] := by rintro rfl; exact hbuf (List.length_eq_zero.mp htot.symm)
  obtain ⟨s', hs', hp', hl'⟩ := run_sendDone hpos hne hp₂ (by rw [hc₂, hb₂]; simpa using htot)
  refine ⟨s', by simp only [run, h₁, h₂]; exact hs', hp', ?_⟩
  obtain ⟨m, ms, rfl⟩ := List.exists_cons_of_ne_nil hne
  rw [hl', hl₂, hc₂, hb₂]
  simp

end ClientSession

end Client

/-! ## Both loops -/

open Server Client ClientSession in
/-- **Both send loops put the buffer on the wire exactly once.** Take every
buffer to be sent, the server's after `respond()` and the client's after
`request()` on a fresh session, and every run of send completions that each
acknowledge at least one byte and together acknowledge the buffer. Then:

* the ranges acknowledged from consecutive cursors make up the buffer, and
  every cursor is inside it;
* the run never faults: no `assert` fails;
* the log shows one send per completion, each from the next cursor, and
  after the last byte the finishing actions once: the server's metrics and
  then `start()` or `shutdown()`, or the client's header recv;
* on the client this holds whatever the outcome of the `::socket` call and of
  the connect: a failure of either is reported to the callback
  (`reportError`), and the request is sent all the same. -/
theorem partial_sends_cover_buffer :
    (∀ (buf : Bytes) (ns : List Nat), (∀ n ∈ ns, 0 < n) → ns.foldr (· + ·) 0 = buf.length →
      (List.zipWith (fun c n => (buf.drop c).take n) (sendCursors 0 ns) ns).flatten = buf ∧
        ∀ c ∈ sendCursors 0 ns, c < buf.length) ∧
    (∀ (s : Session) (buf : Bytes) (keepAlive : Bool) (ns : List Nat), s.pending = [] → buf ≠ [] →
      (∀ n ∈ ns, 0 < n) → ns.foldr (· + ·) 0 = buf.length →
      ∃ s₀ s', s.respondBytes buf keepAlive = .ok s₀ ∧
        s₀.run (ns.map fun n => .sendDone (.ok n)) = some (.ok s') ∧
        s'.pending = [if keepAlive then .recvHeader s.config.maxRequestHeaderSize else .shutdown] ∧
        s'.log = s.log ++ .respond buf keepAlive :: (sendCursors 0 ns).map (fun c => .send (buf.drop c)) ++
          { s with responseBuffer := buf, keepAlive }.sentActions) ∧
    ∀ (host : Bytes) (port defaultPort : Nat) (method : Method) (target : Bytes) (headers : HeaderMap)
      (body : Bytes) (s : ClientSession) (addr : Family) (addrs : List Family)
      (sock result : Except Errno Unit) (ns : List Nat),
      (create host port defaultPort).request method target headers body (.ok ()) = .ok (true, s) →
      addr ≠ .unspec → (∀ n ∈ ns, 0 < n) → ns.foldr (· + ·) 0 = s.requestBuffer.length →
      ∃ s', s.run (.resolveDone (.ok (addr :: addrs)) sock :: .connectDone result ::
          ns.map fun n => .sendDone (.ok n)) = some (.ok s') ∧ s'.pending = [.recvHeader 1024] ∧
        s'.log = s.log ++ reportError sock ++ .connect addr :: reportError result ++
          (sendCursors 0 ns).map (fun c => .send (s.requestBuffer.drop c)) ++ [.recv 1024] := by
  refine ⟨fun buf ns hpos htot => ⟨?_, fun c hc => ?_⟩,
    fun s buf keepAlive ns hp hbuf hpos htot => Session.respondBytes_sends hp hbuf hpos htot,
    fun _ _ _ _ _ _ _ _ _ addrs sock result _ hreq haddr hpos htot =>
      request_sends addrs sock result hreq haddr hpos htot⟩
  · rw [flatten_sendCursors, htot, List.drop_zero, List.take_length]
  · simpa [htot] using sendCursors_lt hpos c hc

open Server Client ClientSession in
theorem partial_sends_on_two_acks :
    ((List.zipWith (fun c n => ("abc".toList.drop c).take n) (sendCursors 0 [1, 2]) [1, 2]).flatten =
        "abc".toList ∧ ∀ c ∈ sendCursors 0 [1, 2], c < "abc".toList.length) ∧
    (∃ s₀ s', ({ Session.init ⟨64, 16, 64, false⟩ default default with pending := [] } : Session).respondBytes
        "abc".toList false = .ok s₀ ∧
      s₀.run ([1, 2].map fun n => .sendDone (.ok n)) = some (.ok s') ∧
      s'.pending = [if false then .recvHeader 64 else .shutdown] ∧
      s'.log = (Session.init ⟨64, 16, 64, false⟩ default default).log ++ .respond "abc".toList false ::
        (sendCursors 0 [1, 2]).map (fun c => .send ("abc".toList.drop c)) ++
          ({ Session.init ⟨64, 16, 64, false⟩ default default with
            pending := [], responseBuffer := "abc".toList, keepAlive := false } : Session).sentActions) ∧
    ∃ s, (create "h".toList 80 80).request .get "/".toList ⟨[]⟩ [] (.ok ()) = .ok (true, s) ∧
      ∃ s', s.run (.resolveDone (.ok [.inet]) (.ok ()) :: .connectDone (.error 111) ::
          [10, 17].map fun n => .sendDone (.ok n)) = some (.ok s') ∧ s'.pending = [.recvHeader 1024] ∧
        s'.log = s.log ++ reportError (.ok ()) ++ .connect .inet :: reportError (.error 111) ++
          (sendCursors 0 [10, 17]).map (fun c => .send (s.requestBuffer.drop c)) ++ [.recv 1024] :=
  ⟨partial_sends_cover_buffer.1 _ _ (by decide) rfl,
    partial_sends_cover_buffer.2.1 _ _ _ _ rfl (by decide) (by decide) rfl,
    _, rfl, partial_sends_cover_buffer.2.2 _ _ _ _ _ _ _ _ _ [] _ _ _ rfl (by decide) (by decide) rfl⟩

end Htcpp
