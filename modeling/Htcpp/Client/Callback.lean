import Htcpp.Client.Exchange

/-!
# The stored callback

`request()` stores its callback in `callback_` and refuses while one is
stored. Every completion lambda may call it; only the success path of the
header lambda clears it, and nothing ever drops the connection. This module
follows the callback along every run: what each lambda does to it
(`KeepsCallback`, `onRecvHeader_cases`), when it is cleared, how often it is
called, and what this leaves for a second `request()`.

How often: the resolver's lambda may be followed by a failed `::socket`, which
calls the callback and connects all the same; a failed connect calls it and
sends all the same; the send's or the header recv's outcome calls it last.
`callBudget` counts the calls the outstanding operation can still cause, and
no step raises calls made plus calls possible.

After its callback a session is spent. An error leaves `callback_` stored, so
`request()` refuses; a response clears it but leaves the connection, so
`request()` accepts, connects no more and submits nothing.

## Main results

* `Reachable.callback_cleared`: `callback_` is cleared exactly when its last
  call delivered a response, and then the connection exists.
* `Reachable.request_unsent`: once the callback is cleared and nothing is
  outstanding, `request()` accepts and no event can follow.
* `idle_request_never_sent`: once nothing is outstanding, `request()` refuses
  and changes nothing unless the last callback call delivered a response, and
  then accepts a request that is never sent.
* `callback_called_at_most_thrice`: the callback of the one request is called
  at most three times, and three calls happen.
-/

namespace Htcpp.Client

open Htcpp.StringView Htcpp.Http

/-! ## What the lambdas do to the callback -/

/-- What a completion lambda may do to the stored callback short of a
response: keep it, and report errors to it. -/
def KeepsCallback (s s' : ClientSession) : Prop :=
  s'.callback = s.callback ∧ ∃ errs : List Errno,
    ClientSession.callbacks s'.log = ClientSession.callbacks s.log ++ errs.map Except.error

namespace KeepsCallback

theorem trans {s₁ s₂ s₃ : ClientSession} (h₁ : KeepsCallback s₁ s₂) (h₂ : KeepsCallback s₂ s₃) :
    KeepsCallback s₁ s₃ := by
  obtain ⟨hc₁, e₁, hl₁⟩ := h₁
  obtain ⟨hc₂, e₂, hl₂⟩ := h₂
  exact ⟨hc₂.trans hc₁, e₁ ++ e₂, by simp [hl₂, hl₁]⟩

theorem of_log {s s' : ClientSession} (hc : s'.callback = s.callback)
    (hl : ClientSession.callbacks s'.log = ClientSession.callbacks s.log) : KeepsCallback s s' :=
  ⟨hc, [], by simp [hl]⟩

end KeepsCallback

namespace ClientSession

variable {s s' : ClientSession}

@[simp] theorem callbacks_append (l₁ l₂ : List Action) :
    callbacks (l₁ ++ l₂) = callbacks l₁ ++ callbacks l₂ := List.filterMap_append _ _ _

/-- A call of the stored callback records it and changes nothing else. -/
theorem invoke_ok {r : Except Errno Response} (h : s.invoke r = .ok s') :
    s' = s.emit (.callback r) := by
  unfold invoke at h
  split at h
  · exact (Except.ok.inj h).symm
  · cases h

/-- The end of every error path: call the callback, then close. -/
theorem invoke_close_ok {r : Except Errno Response}
    (h : (do return (← s.invoke r).close : Except Fault ClientSession) = .ok s') :
    s' = (s.emit (.callback r)).close := by
  obtain ⟨s₁, h₁, h₂⟩ := bind_eq_ok.mp h
  cases h₂
  rw [invoke_ok h₁]

theorem invoke_error_keeps {ec : Errno} (h : s.invoke (.error ec) = .ok s') :
    KeepsCallback s s' := by
  rw [invoke_ok h]
  exact ⟨rfl, [ec], by simp [callbacks, emit]⟩

theorem submit_keeps {op : Op} {a : Action} (ha : callbacks [a] = []) :
    KeepsCallback s (s.submit op a) :=
  .of_log rfl (by simp [submit, ha])

theorem close_keeps : KeepsCallback s s.close := .of_log rfl (by simp [close, emit, callbacks])

/-- The end of every error path: call the callback with an error, then close. -/
theorem invoke_close_keeps {ec : Errno}
    (h : (do return (← s.invoke (.error ec)).close : Except Fault ClientSession) = .ok s') :
    KeepsCallback s s' := by
  obtain ⟨s₁, h₁, h₂⟩ := bind_eq_ok.mp h
  cases h₂
  exact (invoke_error_keeps h₁).trans close_keeps

theorem send_keeps (h : s.send = .ok s') : KeepsCallback s s' := by
  unfold send at h
  split at h
  · cases h; exact submit_keeps rfl
  · cases h

theorem connect_keeps {sock : Except Errno Unit} (h : s.connect sock = .ok s') :
    KeepsCallback s s' := by
  unfold connect at h
  split at h
  · cases h
  split at h
  · cases h; exact submit_keeps rfl
  · rcases sock with e | ⟨⟩
    · obtain ⟨s₁, h₁, h₂⟩ := bind_eq_ok.mp h
      cases h₂
      exact (invoke_error_keeps h₁).trans (submit_keeps rfl)
    · cases h; exact submit_keeps rfl

/-- The resolver, connect and send lambdas only ever report errors to the
callback, and keep it stored. -/
theorem onResolve_keeps {result : Except Errno (List Family)} {sock : Except Errno Unit}
    (h : s.onResolve result sock = .ok s') : KeepsCallback s s' := by
  unfold onResolve at h
  split at h
  · exact invoke_error_keeps h
  · exact invoke_error_keeps h
  · exact (connect_keeps h :)

theorem onConnect_keeps {result : Except Errno Unit} (h : s.onConnect result = .ok s') :
    KeepsCallback s s' := by
  unfold onConnect at h
  rcases result with ec | ⟨⟩
  · obtain ⟨s₁, h₁, h₂⟩ := bind_eq_ok.mp h
    exact (invoke_error_keeps h₁).trans (send_keeps h₂ :)
  · exact (send_keeps h :)

theorem onSend_keeps {result : Except Errno Nat} (h : s.onSend result = .ok s') :
    KeepsCallback s s' := by
  unfold onSend at h
  split at h
  · exact invoke_close_keeps h
  split at h
  · exact invoke_close_keeps h
  split at h
  · exact (send_keeps h :)
  · cases h; exact submit_keeps rfl

/-- The header lambda leaves the connection as it found it, and either keeps
the callback, reporting errors to it, or hands it one response and clears it. -/
theorem onRecvHeader_cases {recvLen : Nat} {result : Except Errno Bytes}
    (h : s.onRecvHeader recvLen result = .ok s') :
    s'.connection = s.connection ∧ (KeepsCallback s s' ∨
      s'.callback = false ∧ ∃ r, callbacks s'.log = callbacks s.log ++ [.ok r]) := by
  have herr : ∀ {s₁ : ClientSession} {ec : Errno},
      (do return (← s₁.invoke (.error ec)).close : Except Fault ClientSession) = .ok s' →
      s'.connection = s₁.connection ∧ KeepsCallback s₁ s' :=
    fun h => ⟨by rw [invoke_close_ok h]; rfl, invoke_close_keeps h⟩
  have hclear : ∀ {s₁ : ClientSession} {r : Response},
      (do return { (← s₁.invoke (.ok r)) with callback := false } : Except Fault ClientSession) =
        .ok s' →
      s'.connection = s₁.connection ∧ s'.callback = false ∧
        callbacks s'.log = callbacks s₁.log ++ [.ok r] := by
    intro s₁ r h
    obtain ⟨s₂, h₁, h₂⟩ := bind_eq_ok.mp h
    cases h₂
    rw [invoke_ok h₁]
    exact ⟨rfl, rfl, by simp [emit, callbacks]⟩
  unfold onRecvHeader at h
  split at h
  · exact (herr h).imp_right .inl
  split at h
  · exact (herr h).imp_right .inl
  split at h
  · cases h
  obtain ⟨o, -, h⟩ := bind_eq_ok.mp h
  repeat' split at h
  all_goals first
    | exact (herr h).imp_right .inl
    | exact (hclear h).imp_right fun h => .inr ⟨h.1, _, h.2⟩

end ClientSession

/-! ## A second request -/

section Idle

variable {s s' : ClientSession}

/-- A step that succeeds runs the lambda of the operation at the head of
`pending`, on the session with that operation removed. -/
theorem step_ok_cases {e : Event} (he : s.step e = some (.ok s')) :
    (∃ rest result sock, s.pending = .resolve :: rest ∧
      ({ s with pending := rest } : ClientSession).onResolve result sock = .ok s') ∨
    (∃ rest result, s.pending = .connect :: rest ∧
      ({ s with pending := rest } : ClientSession).onConnect result = .ok s') ∨
    (∃ len rest result, s.pending = .send len :: rest ∧
      ({ s with pending := rest } : ClientSession).onSend result = .ok s') ∨
    (∃ recvLen rest result, s.pending = .recvHeader recvLen :: rest ∧
      ({ s with pending := rest } : ClientSession).onRecvHeader recvLen result = .ok s') := by
  cases e <;> simp only [ClientSession.step] at he <;> split at he <;> try split at he
  all_goals first
    | exact Option.noConfusion he
    | exact .inl ⟨_, _, _, ‹_›, Option.some.inj he⟩
    | exact .inr (.inl ⟨_, _, ‹_›, Option.some.inj he⟩)
    | exact .inr (.inr (.inl ⟨_, _, _, ‹_›, Option.some.inj he⟩))
    | exact .inr (.inr (.inr ⟨_, _, _, ‹_›, Option.some.inj he⟩))

/-- What one step does to the stored callback: keep it, reporting at most
errors to it, or, in the header lambda, hand it one response and clear it,
with the connection in place. -/
theorem step_callback {e : Event} (hs : Inv s) (he : s.step e = some (.ok s')) :
    KeepsCallback s s' ∨ s'.connection = true ∧ s'.callback = false ∧
      ∃ r, ClientSession.callbacks s'.log = ClientSession.callbacks s.log ++ [.ok r] := by
  rcases step_ok_cases he with ⟨_, _, _, -, h⟩ | ⟨_, _, -, h⟩ | ⟨_, _, _, -, h⟩ | ⟨_, _, _, hp, h⟩
  · exact .inl (ClientSession.onResolve_keeps h :)
  · exact .inl (ClientSession.onConnect_keeps h :)
  · exact .inl (ClientSession.onSend_keeps h :)
  · obtain ⟨-, ⟨hc, -⟩, -⟩ := hs.mid_of_pending hp
    obtain ⟨hconn, hk | ⟨hcb, r, hr⟩⟩ := ClientSession.onRecvHeader_cases h
    · exact .inl hk
    · exact .inr ⟨hconn.trans hc, hcb, r, hr⟩

/-- **`callback_` is cleared exactly when the last call of the callback
delivered a response**, and by then the connection exists. -/
theorem Reachable.callback_cleared (h : Reachable s) :
    (s.callback = false ↔ ∃ r, (ClientSession.callbacks s.log).getLast? = some (.ok r)) ∧
      (s.callback = false → s.connection = true) := by
  induction h with
  | @request _ _ _ _ _ _ _ _ s₁ hreq =>
      have hcb : s₁.callback = true := by
        simp only [ClientSession.request, ClientSession.create, if_false, Bool.false_eq_true]
          at hreq
        obtain ⟨s₁, h₁, h₂⟩ := bind_eq_ok.mp hreq
        cases h₂
        exact (ClientSession.connect_keeps h₁).1
      simp [hcb, (ClientSession.request_fresh hreq).2]
  | @step s₀ _ _ hr he ih =>
      have hs := reachable_inv hr
      rcases step_callback hs he with ⟨hcb, errs, hl⟩ | ⟨hconn, hcb, r, hl⟩
      · have hp : s₀.pending ≠ [] := by
          rcases step_ok_cases he with ⟨_, _, _, hp, -⟩ | ⟨_, _, hp, -⟩ | ⟨_, _, _, hp, -⟩ |
            ⟨_, _, _, hp, -⟩ <;> simp [hp]
        have hcb₀ := hs.callback hp
        refine ⟨⟨fun h => by simp [hcb, hcb₀] at h, fun ⟨r, hr⟩ => ?_⟩, fun h => by
          simp [hcb, hcb₀] at h⟩
        rw [hl] at hr
        rcases errs.eq_nil_or_concat with rfl | ⟨errs, ec, rfl⟩
        · simp only [List.map_nil, List.append_nil] at hr
          simpa [hcb₀] using ih.1.mpr ⟨r, hr⟩
        · simp at hr
      · exact ⟨⟨fun _ => ⟨r, by simp [hl]⟩, fun _ => hcb⟩, fun _ => hconn⟩

/-- With nothing outstanding, no event can happen. -/
theorem ClientSession.step_idle (hp : s.pending = []) (e : Event) : s.step e = none := by
  cases e <;> simp only [ClientSession.step, hp]

/-- Once the last call of the callback delivered a response and nothing is
outstanding, `request()` accepts, and with the connection in place it logs and
submits nothing: no event can follow. -/
theorem Reachable.request_unsent (h : Reachable s) (hp : s.pending = []) (hcb : s.callback = false)
    (method : Method) (target : Bytes) (headers : HeaderMap) (body : Bytes) (sock : Except Errno Unit) :
    ∃ s', s.request method target headers body sock = .ok (true, s') ∧ s'.log = s.log ∧
      ∀ e, s'.step e = none := by
  refine ⟨{ s with callback := true, requestBuffer := s.serializeRequest method target headers body },
    ?_, rfl, ClientSession.step_idle hp⟩
  simp only [ClientSession.request, hcb, h.callback_cleared.2 hcb, Bool.false_eq_true, if_false, if_true]

/-- **A session carries one request.** On every reachable session with nothing
outstanding, `request()` does not fault, and accepts exactly when the last call
of the callback delivered a response. When it refuses (the callback was last
called with an error and is still stored) it changes nothing; when it accepts,
the connection exists, so it logs and submits nothing, and no event can
follow: the new request is never sent and its callback never called. -/
theorem idle_request_never_sent (h : Reachable s) (hp : s.pending = []) (method : Method)
    (target : Bytes) (headers : HeaderMap) (body : Bytes) (sock : Except Errno Unit) :
    ∃ accepted s', s.request method target headers body sock = .ok (accepted, s') ∧
      (accepted = true ↔ ∃ r, (ClientSession.callbacks s.log).getLast? = some (.ok r)) ∧
      (accepted = false → s' = s) ∧ s'.log = s.log ∧ ∀ e, s'.step e = none := by
  have hiff := h.callback_cleared.1
  cases hcb : s.callback with
  | false =>
      obtain ⟨s', hreq, hlog, hnone⟩ := h.request_unsent hp hcb method target headers body sock
      exact ⟨true, s', hreq, by simpa [hcb] using hiff, nofun, hlog, hnone⟩
  | true =>
      exact ⟨false, s, by simp only [ClientSession.request, hcb, if_true],
        by simpa [hcb] using hiff, fun _ => rfl, rfl, ClientSession.step_idle hp⟩

set_option maxRecDepth 8000 in
/-- After a response to a request for `/` from host `h`, a second request for
`/` is accepted and never sent. -/
theorem second_request_accepted_unsent :
    ∃ s, (ClientSession.create "h".toList 80 80).request .get "/".toList ⟨[]⟩ [] (.ok ()) =
        .ok (true, s) ∧
      ∃ s₁, s.run [.resolveDone (.ok [.inet]) (.ok ()), .connectDone (.ok ()), .sendDone (.ok 27),
          .recvDone (.ok "HTTP/1.1 200\r\n\r\n".toList)] = some (.ok s₁) ∧ s₁.pending = [] ∧
        ∃ accepted s₂, s₁.request .get "/".toList ⟨[]⟩ [] (.ok ()) = .ok (accepted, s₂) ∧
          (accepted = true ↔ ∃ r, (ClientSession.callbacks s₁.log).getLast? = some (.ok r)) ∧
          (accepted = false → s₂ = s₁) ∧ s₂.log = s₁.log ∧ ∀ e, s₂.step e = none := by
  have h₀ := Reachable.request "h".toList 80 80 .get "/".toList ⟨[]⟩ [] (.ok ()) (s := _) rfl
  have h₁ := @Reachable.run _ _ [.resolveDone (.ok [.inet]) (.ok ()), .connectDone (.ok ()),
    .sendDone (.ok 27), .recvDone (.ok "HTTP/1.1 200\r\n\r\n".toList)] h₀ rfl
  exact ⟨_, rfl, _, rfl, rfl, idle_request_never_sent h₁ rfl .get "/".toList ⟨[]⟩ [] (.ok ())⟩

end Idle

/-! ## How often the callback is called -/

/-- How many more times the outstanding operation can lead to a call of the
callback: the resolver's lambda may go on to a failed `::socket`, a failed
connect and the send's or recv's outcome; the connect's to the last two; the
send's and the recv's to one. -/
def callBudget : List Op → Nat
  | .resolve :: _ => 3
  | .connect :: _ => 2
  | .send _ :: _ => 1
  | .recvHeader _ :: _ => 1
  | [] => 0

/-- Calls made so far, plus calls the outstanding operation can still make. -/
def callCost (s : ClientSession) : Nat :=
  (ClientSession.callbacks s.log).length + callBudget s.pending

namespace ClientSession

variable {s s' : ClientSession}

theorem connect_callCost {sock : Except Errno Unit} (h : s.connect sock = .ok s')
    (hp : s.pending = []) : callCost s' ≤ (callbacks s.log).length + 3 := by
  unfold connect at h
  split at h
  · cases h
  split at h
  · cases h
    simp [callCost, callBudget, resolve, submit, hp, callbacks]
  · rcases sock with e | ⟨⟩
    · obtain ⟨s₁, h₁, h₂⟩ := bind_eq_ok.mp h
      cases h₂
      rw [invoke_ok h₁]
      simp [callCost, callBudget, submit, emit, hp, callbacks]
    · cases h
      simp [callCost, callBudget, submit, hp, callbacks]

theorem onResolve_callCost {result : Except Errno (List Family)} {sock : Except Errno Unit}
    (h : s.onResolve result sock = .ok s') (hp : s.pending = []) :
    callCost s' ≤ (callbacks s.log).length + 3 := by
  unfold onResolve at h
  split at h
  · rw [invoke_ok h]; simp [callCost, callBudget, emit, hp, callbacks]
  · rw [invoke_ok h]; simp [callCost, callBudget, emit, hp, callbacks]
  · exact (connect_callCost h hp :)

theorem send_callCost (h : s.send = .ok s') (hp : s.pending = []) :
    callCost s' = (callbacks s.log).length + 1 := by
  unfold send at h
  split at h
  · cases h; simp [callCost, callBudget, submit, hp, callbacks]
  · cases h

theorem onConnect_callCost {result : Except Errno Unit} (h : s.onConnect result = .ok s')
    (hp : s.pending = []) : callCost s' ≤ (callbacks s.log).length + 2 := by
  unfold onConnect at h
  rcases result with ec | ⟨⟩
  · obtain ⟨s₁, h₁, h₂⟩ := bind_eq_ok.mp h
    rw [invoke_ok h₁] at h₂
    rw [(send_callCost h₂ hp :)]
    simp [emit, callbacks]
  · have h' := (send_callCost h hp :)
    dsimp only at h'
    omega

theorem onSend_callCost {result : Except Errno Nat} (h : s.onSend result = .ok s')
    (hp : s.pending = []) : callCost s' ≤ (callbacks s.log).length + 1 := by
  unfold onSend at h
  split at h
  · rw [invoke_close_ok h]; simp [callCost, callBudget, emit, close, hp, callbacks]
  split at h
  · rw [invoke_close_ok h]; simp [callCost, callBudget, emit, close, hp, callbacks]
  split at h
  · exact (send_callCost h hp :).le
  · cases h; simp [callCost, callBudget, recvHeader, submit, hp, callbacks]

theorem onRecvHeader_callCost {recvLen : Nat} {result : Except Errno Bytes}
    (h : s.onRecvHeader recvLen result = .ok s') (hp : s.pending = []) :
    callCost s' ≤ (callbacks s.log).length + 1 := by
  unfold onRecvHeader at h
  split at h
  · rw [invoke_close_ok h]; simp [callCost, callBudget, emit, close, hp, callbacks]
  split at h
  · rw [invoke_close_ok h]; simp [callCost, callBudget, emit, close, hp, callbacks]
  split at h
  · cases h
  obtain ⟨o, -, h⟩ := bind_eq_ok.mp h
  repeat' split at h
  all_goals
    obtain ⟨s₁, h₁, h₂⟩ := bind_eq_ok.mp h
    cases h₂
    rw [invoke_ok h₁]
    simp [callCost, callBudget, emit, close, hp, callbacks]

end ClientSession

section Bound

variable {s s' : ClientSession}

/-- No step raises the calls made plus the calls still possible. -/
theorem step_callCost {e : Event} (hs : Inv s) (he : s.step e = some (.ok s')) :
    callCost s' ≤ callCost s := by
  rcases step_ok_cases he with
      ⟨_, _, _, hp, h⟩ | ⟨_, _, hp, h⟩ | ⟨_, _, _, hp, h⟩ | ⟨_, _, _, hp, h⟩ <;>
    obtain ⟨rfl, -, -⟩ := hs.mid_of_pending hp
  · simpa [callCost, hp, callBudget] using (ClientSession.onResolve_callCost h rfl :)
  · simpa [callCost, hp, callBudget] using (ClientSession.onConnect_callCost h rfl :)
  · simpa [callCost, hp, callBudget] using (ClientSession.onSend_callCost h rfl :)
  · simpa [callCost, hp, callBudget] using (ClientSession.onRecvHeader_callCost h rfl :)

/-- **The callback of one request is called at most three times**: for a
failed `::socket`, for a failed connect (the connection is made, and the send
started, all the same), and for the outcome of the send or of the header
recv. -/
theorem callback_called_at_most_thrice (h : Reachable s) :
    (ClientSession.callbacks s.log).length ≤ 3 := by
  suffices callCost s ≤ 3 by unfold callCost at this; omega
  induction h with
  | request _ _ _ _ _ _ _ _ hreq =>
      obtain ⟨hp, hcb⟩ := ClientSession.request_fresh hreq
      simp [callCost, hp, hcb, callBudget]
  | step hr he ih => exact (step_callCost (reachable_inv hr) he).trans ih

/-- A `::socket` that fails with `EMFILE`, a connect that then fails with
`EBADF`, and a send on the bad descriptor failing the same way: the callback is
called three times. -/
theorem callback_called_thrice :
    ∃ s, (ClientSession.create "h".toList 80 80).request .get "/".toList ⟨[]⟩ [] (.ok ()) =
        .ok (true, s) ∧
      ∃ s', s.run [.resolveDone (.ok [.inet]) (.error 24), .connectDone (.error 9),
          .sendDone (.error 9)] = some (.ok s') ∧
        ClientSession.callbacks s'.log = [.error 24, .error 9, .error 9] ∧
        (ClientSession.callbacks s'.log).length ≤ 3 := by
  have hreq : (ClientSession.create "h".toList 80 80).request .get "/".toList ⟨[]⟩ [] (.ok ()) =
      .ok (true, _) := rfl
  have hrun := @Reachable.run _ _ [.resolveDone (.ok [.inet]) (.error 24), .connectDone (.error 9),
    .sendDone (.error 9)] (Reachable.request _ _ _ _ _ _ _ _ hreq) rfl
  exact ⟨_, hreq, _, rfl, rfl, callback_called_at_most_thrice hrun⟩

end Bound

end Htcpp.Client
