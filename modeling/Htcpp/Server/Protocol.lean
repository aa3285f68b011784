import Htcpp.Server.Session

/-!
# The connection protocol a server session follows

An abstract account of what a session is for, independent of buffers and
parsing: read a request, hand it to the handler, send exactly one response in
full, then read the next request or shut down; an I/O error or a closed peer
ends the connection. `Phase.next` reads one logged `Action` and `Phase.run`
a whole log; a log is a protocol run when `Phase.run .idle` accepts it.

Metrics and access-log lines may appear in any live phase; the one metric
with a meaning here is `respTotal`, which `sendResponse` records only after
the last byte of a response is acknowledged ("Only step these counters for
successful sends").

## Main results

* `Phase.run_to_sent` — what a recv-free stretch of log that ends in `sent`
  holds, by the phase it starts in.
* `Phase.answered_before_recv` — in a protocol run, between a handler
  invocation and the next recv there is exactly one response, and its
  `respTotal`.
-/

namespace Htcpp.Server

open Htcpp.StringView Htcpp.Http

/-- Where a connection is in its life. -/
inductive Phase
  /-- Created, not yet started. -/
  | idle
  /-- A recv is outstanding. -/
  | reading
  /-- The handler holds the request and owes one response. -/
  | handling
  /-- A response is being sent. -/
  | sending
  /-- The response has been sent in full. -/
  | sent
  | shuttingDown
  | closed
  deriving DecidableEq, Repr

/-- The transitions of the protocol. -/
def Phase.next : Phase → Action → Option Phase
  | .idle, .recv _ => some .reading
  | .reading, .recv _ => some .reading
  | .sent, .recv _ => some .reading
  | .reading, .handle _ => some .handling
  | .reading, .respond _ _ => some .sending
  | .handling, .respond _ _ => some .sending
  | .sending, .send _ => some .sending
  | .sending, .metric (.respTotal _ _ _) => some .sent
  | .reading, .shutdown => some .shuttingDown
  | .sent, .shutdown => some .shuttingDown
  | .reading, .close => some .closed
  | .sending, .close => some .closed
  | .shuttingDown, .close => some .closed
  | .idle, _ => none
  | .closed, _ => none
  | q, .metric _ => some q
  | q, .accessLog _ _ _ => some q
  | _, _ => none

/-- Run the protocol over a log. -/
def Phase.run (q : Phase) : List Action → Option Phase
  | [] => some q
  | a :: as => (q.next a).bind (Phase.run · as)

@[simp] theorem Phase.run_nil (q : Phase) : q.run [] = some q := rfl

theorem Phase.run_append (q : Phase) (l₁ l₂ : List Action) :
    q.run (l₁ ++ l₂) = (q.run l₁).bind (Phase.run · l₂) := by
  induction l₁ generalizing q with
  | nil => rfl
  | cons a as ih =>
      simp only [List.cons_append, Phase.run]
      cases q.next a <;> simp [ih]

theorem Phase.run_snoc {q q' : Phase} {l : List Action} (h : q.run l = some q') (a : Action) :
    q.run (l ++ [a]) = q'.next a := by
  simp [Phase.run_append, h, Phase.run]

/-- The action submits a recv. -/
def Action.isRecv : Action → Bool
  | .recv _ => true
  | _ => false

/-- The action starts a response. -/
def Action.isRespond : Action → Bool
  | .respond _ _ => true
  | _ => false

/-- The phases after a handler invocation and before the next recv. -/
def Phase.AfterHandle (q : Phase) : Prop := q ≠ .idle ∧ q ≠ .reading

/-- No transition leads back to `idle`. -/
theorem Phase.next_ne_idle {q q' : Phase} {a : Action} (h : q.next a = some q') : q' ≠ .idle := by
  rintro rfl
  unfold Phase.next at h
  split at h <;> cases h <;> simp_all

/-- Only a recv enters `reading` from another phase. -/
theorem Phase.next_eq_reading {q : Phase} {a : Action} (h : q.next a = some .reading) :
    q = .reading ∨ a.isRecv = true := by
  unfold Phase.next at h
  split at h <;> cases h <;> simp_all [Action.isRecv]

theorem Phase.AfterHandle.next {q q' : Phase} {a : Action} (hq : q.AfterHandle)
    (ha : a.isRecv = false) (h : q.next a = some q') : q'.AfterHandle := by
  refine ⟨Phase.next_ne_idle h, ?_⟩
  rintro rfl
  rcases Phase.next_eq_reading h with rfl | hr
  · exact hq.2 rfl
  · simp [hr] at ha

theorem Phase.AfterHandle.run {q q' : Phase} {w : List Action} (hq : q.AfterHandle)
    (hw : ∀ a ∈ w, a.isRecv = false) (h : q.run w = some q') : q'.AfterHandle := by
  induction w generalizing q with
  | nil => cases h; exact hq
  | cons a w ih =>
      simp only [Phase.run, Option.bind_eq_some] at h
      obtain ⟨q₁, h₁, h₂⟩ := h
      exact ih (hq.next (hw a (by simp)) h₁) (fun b hb => hw b (by simp [hb])) h₂

/-! ## Every handler invocation is answered before the next read -/

section Answered

variable {q q' : Phase} {a : Action}

theorem Phase.next_handling (h : Phase.handling.next a = some q) :
    (a.isRespond = true ∧ q = .sending) ∨ (a.isRespond = false ∧ q = .handling) := by
  cases a <;> simp_all [Phase.next, Action.isRespond]

theorem Phase.next_sending (h : Phase.sending.next a = some q) :
    a.isRespond = false ∧ (q = .sending ∨ q = .closed ∨
      (q = .sent ∧ ∃ m p st, a = .metric (.respTotal m p st))) := by
  cases a <;> simp_all [Phase.next, Action.isRespond]
  rename_i m
  cases m <;> simp_all [Phase.next]

theorem Phase.next_sent (h : Phase.sent.next a = some q) (ha : a.isRecv = false) :
    a.isRespond = false ∧ (q = .sent ∨ q = .shuttingDown) := by
  cases a <;> simp_all [Phase.next, Action.isRespond, Action.isRecv]

theorem Phase.next_handle {r : Request} (h : q.next (.handle r) = some q') : q' = .handling := by
  cases q <;> simp only [Phase.next, reduceCtorEq, Option.some.injEq] at h
  exact h.symm

theorem Phase.next_recv {n : Nat} (h : q.next (.recv n) = some q') :
    q = .idle ∨ q = .reading ∨ q = .sent := by
  cases q <;> simp only [Phase.next, reduceCtorEq] at h <;> simp

theorem Phase.run_closed_eq : ∀ {w : List Action}, Phase.closed.run w = some q → q = .closed
  | [], h => by cases h; rfl
  | a :: _, h => by cases a <;> simp [Phase.run, Phase.next] at h

theorem Phase.run_shuttingDown : ∀ {w : List Action}, Phase.shuttingDown.run w = some q →
    q = .shuttingDown ∨ q = .closed
  | [], h => by cases h; exact .inl rfl
  | a :: _, h => by
      cases a <;> simp only [Phase.run, Phase.next, Option.some_bind, Option.none_bind] at h <;>
        first | cases h | exact .inr (Phase.run_closed_eq h) | exact Phase.run_shuttingDown h

/-- What a recv-free stretch of log that ends in `sent` holds, by where it
starts: from `handling` one response and its `respTotal`, from `sending`
the `respTotal` of the response under way, from `sent` no response. -/
theorem Phase.run_to_sent (w : List Action) (hw : ∀ a ∈ w, a.isRecv = false) :
    ∀ q : Phase, q.run w = some .sent →
      (q = .handling → (w.filter Action.isRespond).length = 1 ∧
        ∃ m p st, .metric (.respTotal m p st) ∈ w) ∧
      (q = .sending → (w.filter Action.isRespond).length = 0 ∧
        ∃ m p st, .metric (.respTotal m p st) ∈ w) ∧
      (q = .sent → (w.filter Action.isRespond).length = 0) := by
  induction w with
  | nil => intro q h; cases h; simp
  | cons a w ih =>
      intro q h
      simp only [Phase.run, Option.bind_eq_some] at h
      obtain ⟨q₁, h₁, h₂⟩ := h
      have ihw := ih (fun b hb => hw b (by simp [hb])) q₁ h₂
      have ha := hw a (by simp)
      refine ⟨?_, ?_, ?_⟩ <;> rintro rfl
      · rcases Phase.next_handling h₁ with ⟨hr, rfl⟩ | ⟨hr, rfl⟩
        · obtain ⟨hc, m, p, st, hm⟩ := ihw.2.1 rfl
          exact ⟨by simp [List.filter_cons, hr, hc], m, p, st, by simp [hm]⟩
        · obtain ⟨hc, m, p, st, hm⟩ := ihw.1 rfl
          exact ⟨by simp [List.filter_cons, hr, hc], m, p, st, by simp [hm]⟩
      · obtain ⟨hr, rfl | rfl | ⟨rfl, m, p, st, rfl⟩⟩ := Phase.next_sending h₁
        · obtain ⟨hc, m, p, st, hm⟩ := ihw.2.1 rfl
          exact ⟨by simp [List.filter_cons, hr, hc], m, p, st, by simp [hm]⟩
        · cases Phase.run_closed_eq h₂
        · exact ⟨by simp [List.filter_cons, hr, ihw.2.2 rfl], m, p, st, by simp⟩
      · obtain ⟨hr, rfl | rfl⟩ := Phase.next_sent h₁ ha
        · simp [List.filter_cons, hr, ihw.2.2 rfl]
        · rcases Phase.run_shuttingDown h₂ with h | h <;> cases h

/-- Before the next recv, a handler invocation has been answered by exactly
one response, sent in full. -/
theorem Phase.answered_before_recv {pre mid post : List Action} {r : Request} {n : Nat}
    (h : Phase.idle.run (pre ++ .handle r :: mid ++ .recv n :: post) = some q')
    (hmid : ∀ a ∈ mid, a.isRecv = false) :
    (mid.filter Action.isRespond).length = 1 ∧ ∃ m p st, .metric (.respTotal m p st) ∈ mid := by
  simp only [List.append_assoc, List.cons_append, Phase.run_append, Option.bind_eq_some,
    Phase.run] at h
  obtain ⟨q₀, -, q₁, h₁, q₂, h₂, q₃, h₃, -⟩ := h
  obtain rfl := Phase.next_handle h₁
  have hq₂ := Phase.AfterHandle.run ⟨by decide, by decide⟩ hmid h₂
  obtain rfl : q₂ = .sent := by
    rcases Phase.next_recv h₃ with rfl | rfl | rfl
    · exact absurd rfl hq₂.1
    · exact absurd rfl hq₂.2
    · rfl
  exact (Phase.run_to_sent mid hmid _ h₂).1 rfl

end Answered

end Htcpp.Server