import Htcpp.Client.Session

/-!
# What every reachable client session satisfies

A `ClientSession` chains its operations: each completion lambda submits at most
the next one. `PendingInv` says what each pending operation finds when its
lambda runs: the resolver and the connect find no connection and the send
cursor at the start, a send finds the cursor inside the request buffer, and the
header recv finds the response buffer at the length it asks for. While
anything is outstanding the callback is stored, so no call of `callback_`
meets an empty `std::function`; once nothing is outstanding, the callback has
been called.

## Main results

* `reachable_inv`: every reachable session satisfies `Inv`.
* `client_io_discipline`: at most one operation is outstanding, the callback
  has been called once nothing is, and no event makes the session fault.
-/

namespace Htcpp.Client

open Htcpp.StringView Htcpp.Http

/-- What the completion lambda of each operation needs of the session. -/
def PendingInv (s : ClientSession) : Op → Prop
  | .resolve => s.connection = false ∧ s.sendCursor = 0
  | .connect => s.connection = false ∧ s.sendCursor = 0
  | .send len => s.connection = true ∧ s.sendCursor < s.requestBuffer.length ∧
      len = s.requestBuffer.length - s.sendCursor
  | .recvHeader recvLen => s.connection = true ∧ recvLen = 1024 ∧
      s.responseBuffer.length = recvLen

/-- The invariant of reachable client sessions. -/
structure Inv (s : ClientSession) : Prop where
  atMostOne : s.pending.length ≤ 1
  callback : s.pending ≠ [] → s.callback = true
  answered : s.pending = [] → ∃ r, Action.callback r ∈ s.log
  pendingInv : ∀ op ∈ s.pending, PendingInv s op
  request : s.requestBuffer ≠ []

/-- A session inside a completion lambda: its operation removed, nothing else
outstanding, the callback still stored. -/
structure Mid (s : ClientSession) : Prop where
  pending : s.pending = []
  callback : s.callback = true
  request : s.requestBuffer ≠ []

/-! ## Field lemmas -/

namespace ClientSession

variable (s : ClientSession)

@[simp] theorem emit_pending (a : Action) : (s.emit a).pending = s.pending := rfl
@[simp] theorem emit_callback (a : Action) : (s.emit a).callback = s.callback := rfl
@[simp] theorem emit_requestBuffer (a : Action) : (s.emit a).requestBuffer = s.requestBuffer := rfl
@[simp] theorem emit_connection (a : Action) : (s.emit a).connection = s.connection := rfl
@[simp] theorem emit_sendCursor (a : Action) : (s.emit a).sendCursor = s.sendCursor := rfl
@[simp] theorem emit_log (a : Action) : (s.emit a).log = s.log ++ [a] := rfl

/-- The serialized request is never empty: it holds at least its line ends. -/
theorem serializeRequest_ne_nil (method : Method) (target : Bytes) (headers : HeaderMap)
    (body : Bytes) : s.serializeRequest method target headers body ≠ [] := by
  simp [serializeRequest, HeaderMap.serialize]

end ClientSession

/-! ## Inside a completion lambda -/

section MidStep

variable {s : ClientSession}

theorem Mid.emit (h : Mid s) (a : Action) : Mid (s.emit a) := ⟨h.pending, h.callback, h.request⟩

theorem Mid.invoke (h : Mid s) (r : Except Errno Response) :
    s.invoke r = .ok (s.emit (.callback r)) := by
  simp [ClientSession.invoke, h.callback]

/-- Nothing outstanding, and the callback called. -/
theorem Inv.of_done (hp : s.pending = []) (hreq : s.requestBuffer ≠ [])
    (hr : ∃ r, Action.callback r ∈ s.log) : Inv s where
  atMostOne := by simp [hp]
  callback := fun h => absurd hp h
  answered := fun _ => hr
  pendingInv := by simp [hp]
  request := hreq

/-- The end of every error path: call the callback, then close. -/
theorem Mid.invoke_close_inv (h : Mid s) (r : Except Errno Response) :
    ∃ s', (do return (← s.invoke r).close : Except Fault ClientSession) = .ok s' ∧ Inv s' := by
  rw [h.invoke]
  exact ⟨_, rfl, .of_done h.pending h.request ⟨r, by simp [ClientSession.close]⟩⟩

/-- The end of the success path: call the callback, then clear it. -/
theorem Mid.invoke_clear_inv (h : Mid s) (r : Except Errno Response) :
    ∃ s', (do return { (← s.invoke r) with callback := false } : Except Fault ClientSession) =
      .ok s' ∧ Inv s' := by
  rw [h.invoke]
  exact ⟨_, rfl, .of_done h.pending h.request ⟨r, by simp⟩⟩

theorem Mid.submit_inv {op : Op} {a : Action} (h : Mid s) (hop : PendingInv (s.submit op a) op) :
    Inv (s.submit op a) where
  atMostOne := by simp [ClientSession.submit, h.pending]
  callback := fun _ => h.callback
  answered := by simp [ClientSession.submit]
  pendingInv := by simpa [ClientSession.submit, h.pending] using hop
  request := h.request

theorem Mid.send_inv (h : Mid s) (hc : s.connection = true)
    (hlt : s.sendCursor < s.requestBuffer.length) :
    ∃ s', s.send = .ok s' ∧ Inv s' := by
  rw [ClientSession.send, if_pos hlt]
  exact ⟨_, rfl, h.submit_inv ⟨hc, hlt, rfl⟩⟩

theorem Mid.recvHeader_inv (h : Mid s) (hc : s.connection = true) : Inv s.recvHeader :=
  Mid.submit_inv ⟨h.pending, h.callback, h.request⟩ ⟨hc, rfl, by simp [ClientSession.submit]⟩

theorem Mid.connect_inv (h : Mid s) (hc : s.connection = false) (hcur : s.sendCursor = 0)
    (sock : Except Errno Unit) : ∃ s', s.connect sock = .ok s' ∧ Inv s' := by
  rw [ClientSession.connect, if_neg (by simp [hc])]
  split
  · exact ⟨_, rfl, h.submit_inv ⟨hc, hcur⟩⟩
  · cases sock with
    | error e =>
        refine ⟨_, ?_, @Mid.submit_inv _ .connect (.connect s.connectAddr)
          (h.emit (.callback (.error e))) ⟨hc, hcur⟩⟩
        simp only [h.invoke, ok_bind]
        rfl
    | ok u => exact ⟨_, rfl, h.submit_inv ⟨hc, hcur⟩⟩

theorem Mid.onResolve_inv (h : Mid s) (hc : s.connection = false) (hcur : s.sendCursor = 0)
    (result : Except Errno (List Family)) (sock : Except Errno Unit) :
    ∃ s', s.onResolve result sock = .ok s' ∧ Inv s' := by
  rcases result with ec | _ | ⟨addr, _⟩
  · exact ⟨_, h.invoke _, .of_done h.pending h.request ⟨.error ec, by simp⟩⟩
  · exact ⟨_, h.invoke _, .of_done h.pending h.request ⟨.error EHOSTUNREACH, by simp⟩⟩
  · exact Mid.connect_inv (s := { s with connectAddr := addr }) ⟨h.pending, h.callback, h.request⟩
      hc hcur sock

theorem Mid.onConnect_inv (h : Mid s) (hcur : s.sendCursor = 0) (result : Except Errno Unit) :
    ∃ s', s.onConnect result = .ok s' ∧ Inv s' := by
  have hlt : 0 < s.requestBuffer.length := List.length_pos.mpr h.request
  cases result with
  | error ec =>
      have hm := h.emit (.callback (.error ec))
      simp only [ClientSession.onConnect, h.invoke, ok_bind]
      exact Mid.send_inv ⟨hm.pending, hm.callback, hm.request⟩ rfl (by simpa [hcur] using hlt)
  | ok u =>
      exact Mid.send_inv ⟨h.pending, h.callback, h.request⟩ rfl (by simpa [hcur] using hlt)

theorem Mid.onSend_inv (h : Mid s) (hc : s.connection = true) (result : Except Errno Nat) :
    ∃ s', s.onSend result = .ok s' ∧ Inv s' := by
  cases result with
  | error ec => exact h.invoke_close_inv _
  | ok sentBytes =>
      simp only [ClientSession.onSend]
      split
      · exact h.invoke_close_inv _
      split
      · exact Mid.send_inv ⟨h.pending, h.callback, h.request⟩ hc ‹_›
      · exact ⟨_, rfl, h.recvHeader_inv hc⟩

theorem Mid.onRecvHeader_inv {recvLen : Nat} (h : Mid s) (hlen : s.responseBuffer.length = recvLen)
    (result : Except Errno Bytes) : ∃ s', s.onRecvHeader recvLen result = .ok s' ∧ Inv s' := by
  cases result with
  | error ec => exact h.invoke_close_inv _
  | ok data =>
      simp only [ClientSession.onRecvHeader]
      split
      · exact h.invoke_close_inv _
      rw [if_neg (by omega)]
      generalize hb : resize (writeAt s.responseBuffer 0 data)
        (s.responseBuffer.length - recvLen + data.length) = responseBuffer
      have hm : Mid { s with responseBuffer } := ⟨h.pending, h.callback, h.request⟩
      obtain ⟨o, ho⟩ := Response.parse_noFault responseBuffer
      simp only [ho, ok_bind]
      split
      · exact hm.invoke_close_inv _
      split
      · split
        · exact hm.invoke_close_inv _
        · exact hm.invoke_clear_inv _
      · exact hm.invoke_clear_inv _

end MidStep

/-! ## Preservation -/

section Preservation

variable {s : ClientSession}

/-- The operation at the head of `pending` is the only one outstanding. -/
theorem Inv.mid_of_pending {op : Op} {rest : List Op} (hs : Inv s) (hp : s.pending = op :: rest) :
    rest = [] ∧ PendingInv s op ∧ Mid { s with pending := rest } := by
  have hone := hs.atMostOne
  rw [hp, List.length_cons] at hone
  have hrest : rest = [] := List.eq_nil_of_length_eq_zero (by omega)
  exact ⟨hrest, hs.pendingInv op (by simp [hp]), hrest, hs.callback (by simp [hp]), hs.request⟩

/-- **One step keeps the invariant**, and never faults. -/
theorem step_inv {e : Event} {r : Except Fault ClientSession} (hs : Inv s)
    (he : s.step e = some r) : ∃ s', r = .ok s' ∧ Inv s' := by
  cases e with
  | resolveDone result sock =>
      simp only [ClientSession.step] at he
      split at he
      · cases he
        obtain ⟨-, ⟨hc, hcur⟩, hmid⟩ := hs.mid_of_pending ‹_›
        exact hmid.onResolve_inv hc hcur result sock
      · cases he
  | connectDone result =>
      simp only [ClientSession.step] at he
      split at he
      · cases he
        obtain ⟨-, ⟨-, hcur⟩, hmid⟩ := hs.mid_of_pending ‹_›
        exact hmid.onConnect_inv hcur result
      · cases he
  | sendDone result =>
      simp only [ClientSession.step] at he
      split at he
      · split at he
        · cases he
          obtain ⟨-, ⟨hc, -⟩, hmid⟩ := hs.mid_of_pending ‹_›
          exact hmid.onSend_inv hc result
        · cases he
      · cases he
  | recvDone result =>
      simp only [ClientSession.step] at he
      split at he
      · split at he
        · cases he
          obtain ⟨-, ⟨-, -, hlen⟩, hmid⟩ := hs.mid_of_pending ‹_›
          exact hmid.onRecvHeader_inv hlen result
        · cases he
      · cases he

/-- An accepted `request()` on a fresh session starts the resolver. -/
theorem request_inv {host : Bytes} {port defaultPort : Nat} {method : Method} {target : Bytes}
    {headers : HeaderMap} {body : Bytes} {sock : Except Errno Unit}
    (h : (ClientSession.create host port defaultPort).request method target headers body sock =
      .ok (true, s)) : Inv s := by
  simp only [ClientSession.request, ClientSession.create, ClientSession.connect, if_false,
    Bool.false_eq_true, ok_bind] at h
  cases h
  exact Mid.submit_inv ⟨rfl, rfl, ClientSession.serializeRequest_ne_nil _ _ _ _ _⟩ ⟨rfl, rfl⟩

/-- **Every reachable client session satisfies `Inv`.** -/
theorem reachable_inv (h : Reachable s) : Inv s := by
  induction h with
  | request _ _ _ _ _ _ _ _ hreq => exact request_inv hreq
  | step _ hstep ih =>
      obtain ⟨_, he, hinv⟩ := step_inv ih hstep
      cases he
      exact hinv

/-- **The client's I/O discipline.** In every session reachable after one
accepted `request()`, at most one operation is outstanding; once none is, the
callback has been called; and no event makes the session fail an `assert`,
call an empty `callback_` or wrap a size. -/
theorem client_io_discipline (h : Reachable s) :
    s.pending.length ≤ 1 ∧ (s.pending = [] → ∃ r, Action.callback r ∈ s.log) ∧
      ∀ e r, s.step e = some r → ∃ s', r = .ok s' := by
  have hs := reachable_inv h
  exact ⟨hs.atMostOne, hs.answered, fun e r he => (step_inv hs he).imp fun _ h => h.1⟩

/-- After a connect that fails, the error has been reported and the send of
the whole request is outstanding: the discipline holds there. -/
theorem client_io_discipline_after_connect_error :
    ∃ s, (ClientSession.create "h".toList 80 80).request .get "/".toList ⟨[]⟩ [] (.ok ()) =
        .ok (true, s) ∧
      ∃ s', s.run [.resolveDone (.ok [.inet]) (.ok ()), .connectDone (.error 111)] = some (.ok s') ∧
        s'.pending = [.send 27] ∧ ClientSession.callbacks s'.log = [.error 111] ∧
        s'.pending.length ≤ 1 ∧ (s'.pending = [] → ∃ r, Action.callback r ∈ s'.log) ∧
          ∀ e r, s'.step e = some r → ∃ s'', r = .ok s'' := by
  obtain ⟨s, hreq, s', hr, hp, hc⟩ : ∃ s, (ClientSession.create "h".toList 80 80).request .get
      "/".toList ⟨[]⟩ [] (.ok ()) = .ok (true, s) ∧ ∃ s', s.run [.resolveDone (.ok [.inet]) (.ok ()),
        .connectDone (.error 111)] = some (.ok s') ∧ s'.pending = [.send 27] ∧
        ClientSession.callbacks s'.log = [.error 111] := ⟨_, rfl, _, rfl, rfl, rfl⟩
  exact ⟨s, hreq, s', hr, hp, hc, client_io_discipline ((Reachable.request _ _ _ _ _ _ _ _ hreq).run hr)⟩

end Preservation

end Htcpp.Client
