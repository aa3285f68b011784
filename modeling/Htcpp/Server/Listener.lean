import Htcpp.Server.Exchange

/-!
# The listener: sessions interleaved

`Server::accept` keeps one accept submitted at all times: it retries the
submission until it succeeds. `handleAccept` counts an error and accepts
again. Otherwise it counts the connection, starts a new `Session` when the
connection factory can wrap the descriptor (closing the descriptor when it
cannot), and accepts again. Sessions share nothing but the handler and the
configuration. So a run of the server is an interleaving of accept
completions with events of its sessions: a `ListenerEvent` either completes
the accept or addresses one session by its index.

The proof reads each session's own events off the global trace
(`sessionEvents`) and keeps, along every run, the invariant `Traced`: the
sessions are those the accepted connections started, in order, and each is
the run of its own events from a fresh session. One step lemma
(`Traced.step`) gives it for every event; `Traced.run` is the induction.

## Main results

* `Traced.step`: an accept completion appends at most a fresh session, and
  an event of one session changes that session only.
* `listener_runs_are_session_runs`: along every interleaving, no event
  faults, there is one session per connection the factory wrapped, each
  session is the run of its own events from a fresh session, and each is
  reachable, so the per-session results (`session_io_discipline`,
  `session_buffers_bounded`) hold of every session.
-/

namespace Htcpp.Server

open Htcpp.StringView Htcpp.Http

/-- What the listener does, as recorded in its log. -/
inductive ListenerAction
  /-- `Metrics::get().acceptErrors` is counted for a failed accept. -/
  | acceptErrors (ec : Errno)
  /-- `connAccepted` is counted for an accepted connection. -/
  | connAccepted
  /-- `io_.close(fd)`: the connection factory could not wrap the descriptor. -/
  | closeFd
  deriving DecidableEq, Repr

/-- The members of `Server` the model tracks: the configuration, the request
and response every new session is default-constructed with, the sessions
started so far (a closed session stays, with no event left to it), and the
log. The accept that `accept()` submits is always outstanding. -/
structure Listener where
  config : Config
  request : Request
  response : Response
  sessions : List Session
  log : List ListenerAction

/-- What the environment does next: complete the accept, with whether the
connection factory could wrap the descriptor, or an event of one session. -/
inductive ListenerEvent
  | acceptDone (result : Except Errno Unit) (ready : Bool)
  | session (i : Nat) (e : Event)

namespace Listener

/-- `Server::start()`: no session yet, the first accept submitted. -/
def start (config : Config) (request : Request) (response : Response) : Listener :=
  ⟨config, request, response, [], []⟩

/-- `handleAccept(ec, fd)`, up to the `accept()` it ends with. -/
def handleAccept (l : Listener) : Except Errno Unit → Bool → Listener
  | .error ec, _ => { l with log := l.log ++ [.acceptErrors ec] }
  | .ok (), true => { l with
      sessions := l.sessions ++ [Session.init l.config l.request l.response]
      log := l.log ++ [.connAccepted] }
  | .ok (), false => { l with log := l.log ++ [.connAccepted, .closeFd] }

/-- One event; `none` when the event cannot happen in this state. A fault of
a session aborts the whole server. -/
def step (l : Listener) : ListenerEvent → Option (Except Fault Listener)
  | .acceptDone result ready => some (.ok (l.handleAccept result ready))
  | .session i e =>
      match l.sessions[i]? with
      | some s => (s.step e).map fun r => r.map fun s' => { l with sessions := l.sessions.set i s' }
      | none => none

/-- A run of events; `none` when one cannot happen, a `Fault` when one
aborts. -/
def run (l : Listener) : List ListenerEvent → Option (Except Fault Listener)
  | [] => some (.ok l)
  | e :: es =>
      match l.step e with
      | some (.ok l') => l'.run es
      | r => r

end Listener

/-! ## Each session's own events -/

/-- The events of a trace that address session `i`, in order. -/
def sessionEvents (i : Nat) : List ListenerEvent → List Event :=
  List.filterMap fun
    | .session j e => if j = i then some e else none
    | .acceptDone _ _ => none

/-- An accept completion that starts a session. -/
def startsSession : ListenerEvent → Bool
  | .acceptDone (.ok ()) true => true
  | _ => false

@[simp] theorem sessionEvents_nil (i : Nat) : sessionEvents i [] = [] := rfl

theorem sessionEvents_snoc (i : Nat) (pre : List ListenerEvent) (e : ListenerEvent) :
    sessionEvents i (pre ++ [e]) = sessionEvents i pre ++ sessionEvents i [e] :=
  List.filterMap_append _ _ _

@[simp] theorem sessionEvents_acceptDone (i : Nat) (result : Except Errno Unit) (ready : Bool) :
    sessionEvents i [.acceptDone result ready] = [] := rfl

@[simp] theorem sessionEvents_session (i j : Nat) (e : Event) :
    sessionEvents i [.session j e] = if j = i then [e] else [] := by
  by_cases h : j = i <;> simp [sessionEvents, h]

/-- **The listener's invariant along a trace.** The listener keeps a fresh
session `s₀`; there is one session per accept completion of `pre` that
started one; each is the run of its own events from `s₀`; and no event of
`pre` addresses a session not started. -/
structure Traced (s₀ : Session) (l : Listener) (pre : List ListenerEvent) : Prop where
  init : Session.init l.config l.request l.response = s₀
  count : l.sessions.length = (pre.filter startsSession).length
  runs : ∀ i (hi : i < l.sessions.length), s₀.run (sessionEvents i pre) = some (.ok l.sessions[i])
  unused : ∀ i, l.sessions.length ≤ i → sessionEvents i pre = []

namespace Traced

variable {s₀ : Session} {l : Listener} {pre : List ListenerEvent}

/-- An accept completion appends a fresh session exactly when it starts one. -/
theorem handleAccept (ht : Traced s₀ l pre) (result : Except Errno Unit) (ready : Bool) :
    Traced s₀ (l.handleAccept result ready) (pre ++ [.acceptDone result ready]) := by
  obtain ⟨hinit, hcount, hruns, hunused⟩ := ht
  cases result <;> cases ready
  case ok.true =>
    refine ⟨hinit, by simp [Listener.handleAccept, startsSession, hcount], fun i hi => ?_,
      fun i hi => ?_⟩
    · simp only [Listener.handleAccept, List.length_append, List.length_singleton] at hi
      rw [sessionEvents_snoc, sessionEvents_acceptDone, List.append_nil]
      rcases Nat.lt_succ_iff_lt_or_eq.mp hi with hi | rfl
      · simpa [Listener.handleAccept, List.getElem_append_left hi] using hruns i hi
      · simp [Listener.handleAccept, hunused _ le_rfl, Listener.run, hinit, Session.run]
    · simp only [Listener.handleAccept, List.length_append, List.length_singleton] at hi
      simpa [sessionEvents_snoc] using hunused i (by omega)
  all_goals exact ⟨hinit, by simpa [Listener.handleAccept, startsSession] using hcount,
    fun i hi => by simpa [sessionEvents_snoc] using hruns i hi,
    fun i hi => by simpa [sessionEvents_snoc] using hunused i hi⟩

/-- An event of session `i` that steps it changes session `i` alone. -/
theorem session (ht : Traced s₀ l pre) {i : Nat} {e : Event} {s s' : Session}
    (hs : l.sessions[i]? = some s) (he : s.step e = some (.ok s')) :
    Traced s₀ { l with sessions := l.sessions.set i s' } (pre ++ [.session i e]) := by
  obtain ⟨hinit, hcount, hruns, hunused⟩ := ht
  obtain ⟨hi, rfl⟩ := List.getElem?_eq_some_iff.mp hs
  refine ⟨hinit, by simpa [startsSession] using hcount, fun j hj => ?_, fun j hj => ?_⟩
  · simp only [List.length_set] at hj
    rw [sessionEvents_snoc, sessionEvents_session]
    by_cases hij : i = j
    · subst hij
      simp only [if_pos rfl, List.getElem_set_self, Session.run_append _ (hruns i hi), Session.run,
        he]
    · simpa [hij, List.getElem_set_ne hij] using hruns j hj
  · simp only [List.length_set] at hj
    simpa [sessionEvents_snoc, show i ≠ j by omega] using hunused j hj

/-- **One step keeps the invariant, and no step faults.** An accept
completion appends at most a fresh session; an event of session `i` changes
session `i` only, and never aborts, because every session is reachable. -/
theorem step (ht : Traced s₀ l pre) {e : ListenerEvent} {r : Except Fault Listener}
    (h : l.step e = some r) : ∃ l', r = .ok l' ∧ Traced s₀ l' (pre ++ [e]) := by
  cases e with
  | acceptDone result ready =>
      cases h
      exact ⟨_, rfl, ht.handleAccept result ready⟩
  | session i e =>
      simp only [Listener.step] at h
      split at h
      · rename_i s hs
        obtain ⟨hi, rfl⟩ := List.getElem?_eq_some_iff.mp hs
        have hreach : Reachable l.sessions[i] :=
          (ht.init ▸ Reachable.init l.config l.request l.response).run (ht.runs i hi)
        obtain ⟨rs, hrs, rfl⟩ := Option.map_eq_some'.mp h
        obtain ⟨s', rfl, -⟩ := step_inv (reachable_inv hreach) hrs
        exact ⟨_, rfl, ht.session hs hrs⟩
      · cases h

/-- A whole run keeps the invariant, and never faults. -/
theorem run (ht : Traced s₀ l pre) {es : List ListenerEvent} {r : Except Fault Listener}
    (h : l.run es = some r) : ∃ l', r = .ok l' ∧ Traced s₀ l' (pre ++ es) := by
  induction es generalizing l pre with
  | nil => cases h; exact ⟨l, rfl, by simpa using ht⟩
  | cons e es ih =>
      simp only [Listener.run] at h
      split at h
      · obtain ⟨_, he, ht₁⟩ := ht.step ‹l.step e = some (.ok _)›
        cases he
        simpa using ih ht₁ h
      · obtain ⟨l₁, rfl, -⟩ := ht.step ‹l.step e = some r›
        exact absurd ‹l.step e = some (.ok l₁)› (‹∀ l', l.step e = some (.ok l') → False› l₁)

/-- Every session of a traced listener is reachable. -/
theorem reachable (ht : Traced s₀ l pre) : ∀ s ∈ l.sessions, Reachable s := by
  intro s hs
  obtain ⟨i, hi, rfl⟩ := List.getElem_of_mem hs
  exact (ht.init ▸ Reachable.init l.config l.request l.response).run (ht.runs i hi)

end Traced

/-- **Every interleaving is a set of independent session runs.** Along every
run of the server from `start()`, whatever the order of accept completions
and session events: no event faults; there is one session per accept
completion that started one; session `i` is the run, from a fresh session,
of exactly the events addressed to it; and every session is reachable, so
each keeps its I/O discipline and bounded buffers. -/
theorem listener_runs_are_session_runs {config : Config} {request : Request} {response : Response}
    {es : List ListenerEvent} {r : Except Fault Listener}
    (h : (Listener.start config request response).run es = some r) :
    ∃ l, r = .ok l ∧ l.sessions.length = (es.filter startsSession).length ∧
      (∀ i (hi : i < l.sessions.length),
        (Session.init config request response).run (sessionEvents i es) = some (.ok l.sessions[i])) ∧
      ∀ s ∈ l.sessions, Reachable s := by
  have h₀ : Traced (Session.init config request response)
      (Listener.start config request response) [] :=
    ⟨rfl, rfl, fun i hi => absurd hi (Nat.not_lt_zero i), fun _ _ => rfl⟩
  obtain ⟨l, rfl, ht⟩ := h₀.run h
  exact ⟨l, rfl, by simpa using ht.count, by simpa using ht.runs, ht.reachable⟩

/-- Two sessions started around a failed accept, each given one head: both
are the runs of their own events. -/
theorem listener_runs_two_sessions :
    ∃ r, (Listener.start ⟨64, 16, 64, false⟩ default default).run
        [.acceptDone (.ok ()) true, .acceptDone (.error 24) true, .acceptDone (.ok ()) true,
          .session 1 (.recvDone (.ok "GET /x HTTP/1.1\r\nHost: h\r\n\r\n".toList)),
          .session 0 (.recvDone (.ok "BAD\r\n\r\n".toList))] = some r ∧
      ∃ l, r = .ok l ∧
        l.sessions.length = ([.acceptDone (.ok ()) true, .acceptDone (.error 24) true,
          .acceptDone (.ok ()) true, .session 1 (.recvDone (.ok "GET /x HTTP/1.1\r\nHost: h\r\n\r\n".toList)),
          .session 0 (.recvDone (.ok "BAD\r\n\r\n".toList))].filter startsSession).length ∧
        (∀ i (hi : i < l.sessions.length), (Session.init ⟨64, 16, 64, false⟩ default default).run
          (sessionEvents i [.acceptDone (.ok ()) true, .acceptDone (.error 24) true,
            .acceptDone (.ok ()) true,
            .session 1 (.recvDone (.ok "GET /x HTTP/1.1\r\nHost: h\r\n\r\n".toList)),
            .session 0 (.recvDone (.ok "BAD\r\n\r\n".toList))]) = some (.ok l.sessions[i])) ∧
        ∀ s ∈ l.sessions, Reachable s :=
  ⟨_, rfl, listener_runs_are_session_runs rfl⟩

end Htcpp.Server
