import Htcpp.SendLoop

/-!
# What the client hands to its callback

`Inv` says that a client session always reaches its callback; this module says
with what, along the path on which nothing fails. The resolver's first address
is connected to, the whole request goes out in one send, and the response head
arrives in the single 1024-byte recv of `recvHeader`. The head is read by
`Response::parse`, the parser of `http.cpp`, so by `Response.parse_string`
whatever `Response::string` writes reaches the callback as the response it was
written from.

## Main results

* `callback_gets_parse`: a header completion whose bytes parse to a response
  without `Content-Length` hands exactly that response to the callback, once,
  and clears it.
* `callback_gets_response`: so does every response `Response::string` writes,
  when its headers are `WireHeader`s and it fits the recv.
* `callback_gets_truncated_body`: with `Content-Length`, a header recv that
  brings only part of the body hands the callback that part, and the rest is
  never read.
* `request_sent_whole`: the resolve, the connect and a send of the whole
  request, by `request_sends`, lead to the header recv with no call made.
* `run_request`: one accepted `request()` whose resolve, connect, send and recv
  each complete at once invokes the callback exactly once, with the response.
* `response_body_truncated`: a response whose `Content-Length` is 5, of which
  the header recv brings two body bytes, reaches the callback with those two,
  and the other three can never be delivered.
-/

namespace Htcpp.Client

open Htcpp.StringView Htcpp.Http

namespace ClientSession

variable {s : ClientSession}

/-! ## The steps on the way to the response -/

/-- An accepted `request()` on a fresh session has submitted the resolver and
called nobody. -/
theorem request_fresh {host target body : Bytes} {port defaultPort : Nat} {method : Method}
    {headers : HeaderMap} {sock : Except Errno Unit}
    (hreq : (create host port defaultPort).request method target headers body sock = .ok (true, s)) :
    s.pending = [.resolve] ∧ callbacks s.log = [] := by
  simp only [request, create, connect, if_false, Bool.false_eq_true, ok_bind] at hreq
  cases hreq
  exact ⟨rfl, rfl⟩

/-- **The request goes out whole.** After an accepted `request()` on a fresh
session, a resolver returning an address of a known family, a connect that
succeeds and a send that takes the whole request reach the header recv of 1024
bytes, and the callback has not been called. -/
theorem request_sent_whole {host target body : Bytes} {port defaultPort : Nat} {method : Method}
    {headers : HeaderMap} {addr : Family} (addrs : List Family)
    (hreq : (create host port defaultPort).request method target headers body (.ok ()) = .ok (true, s))
    (haddr : addr ≠ .unspec) :
    ∃ s', s.run [.resolveDone (.ok (addr :: addrs)) (.ok ()), .connectDone (.ok ()),
        .sendDone (.ok s.requestBuffer.length)] = some (.ok s') ∧ Reachable s' ∧
      s'.pending = [.recvHeader 1024] ∧ callbacks s'.log = [] := by
  have h₀ := Reachable.request host port defaultPort method target headers body (.ok ()) hreq
  have hpos : ∀ n ∈ [s.requestBuffer.length], 0 < n := by
    simpa using List.length_pos.mpr (reachable_inv h₀).request
  obtain ⟨s', hs', hp', hl'⟩ := request_sends addrs (.ok ()) (.ok ()) hreq haddr hpos (by simp)
  refine ⟨s', hs', h₀.run hs', hp', ?_⟩
  simpa [hl', callbacks, reportError, sendCursors] using (request_fresh hreq).2

/-! ## The response -/

/-- **The callback gets what `Response::parse` returns.** From every reachable
session waiting on its header recv, a completion whose bytes parse to a
response without `Content-Length` hands that response to the callback, clears
the callback and leaves nothing outstanding: the recv fills the buffer from
its start, so the parser sees exactly the bytes delivered. -/
theorem callback_gets_parse {n : Nat} {data : Bytes} {r : Response} (h : Reachable s)
    (hp : s.pending = [.recvHeader n]) (hne : data ≠ []) (hfit : data.length ≤ n)
    (hparse : Response.parse data = .ok (some r))
    (hcl : r.headers.get "Content-Length".toList = none) :
    ∃ s', s.step (.recvDone (.ok data)) = some (.ok s') ∧ s'.pending = [] ∧ s'.callback = false ∧
      callbacks s'.log = callbacks s.log ++ [.ok r] := by
  obtain ⟨-, ⟨-, -, hlen⟩, hmid⟩ := (reachable_inv h).mid_of_pending hp
  have hcb : s.callback = true := hmid.callback
  simp only [step, hp, fitsRecv, decide_eq_true_eq, hfit, ite_true, onRecvHeader]
  rw [if_neg (by simpa using hne), if_neg (by omega), resize_writeAt (by omega)]
  simp only [List.take_zero, List.nil_append, hparse, ok_bind, hcl, invoke, hcb, if_true]
  exact ⟨_, rfl, rfl, rfl, by simp [callbacks, emit]⟩

/-- **What `Response::string` writes reaches the callback unchanged**, for
every response without `Content-Length` whose headers are `WireHeader`s, whose
status fits in 64 bits and whose bytes fit the recv. -/
theorem callback_gets_response {n : Nat} {r : Response} (h : Reachable s)
    (hp : s.pending = [.recvHeader n]) (hfit : r.string.length ≤ n) (hs : r.status < Nat.pow 2 64)
    (hh : ∀ e ∈ r.headers.entries, WireHeader e)
    (hcl : r.headers.get "Content-Length".toList = none) :
    ∃ s', s.step (.recvDone (.ok r.string)) = some (.ok s') ∧ s'.pending = [] ∧
      callbacks s'.log = callbacks s.log ++ [.ok r] := by
  obtain ⟨s', hs', hp', -, hc'⟩ :=
    callback_gets_parse h hp (by simp [Response.string]) hfit (Response.parse_string hs hh) hcl
  exact ⟨s', hs', hp', hc'⟩

/-! ## A body longer than what arrived -/

/-- **With `Content-Length`, the body is cut to it or passed on short.** From
every reachable session waiting on its header recv, a completion whose bytes
parse to a response whose `Content-Length` reads as `L` hands the callback the
response with its body cut to `L` bytes, or unchanged when fewer arrived: no
further recv is submitted either way. -/
theorem callback_gets_cut {n L : Nat} {data v : Bytes} {r : Response} (h : Reachable s)
    (hp : s.pending = [.recvHeader n]) (hne : data ≠ []) (hfit : data.length ≤ n)
    (hparse : Response.parse data = .ok (some r))
    (hcl : r.headers.get "Content-Length".toList = some v) (hL : parseInt v = some L) :
    ∃ s', s.step (.recvDone (.ok data)) = some (.ok s') ∧ s'.pending = [] ∧
      callbacks s'.log = callbacks s.log ++
        [.ok (if r.body.length < L then r else { r with body := r.body.take L })] := by
  obtain ⟨-, ⟨-, -, hlen⟩, hmid⟩ := (reachable_inv h).mid_of_pending hp
  have hcb : s.callback = true := hmid.callback
  simp only [step, hp, fitsRecv, decide_eq_true_eq, hfit, ite_true, onRecvHeader]
  rw [if_neg (by simpa using hne), if_neg (by omega), resize_writeAt (by omega)]
  simp only [List.take_zero, List.nil_append, hparse, ok_bind, hcl, hL, invoke, hcb, if_true]
  exact ⟨_, rfl, rfl, by simp [callbacks, emit]⟩

/-- **The callback gets a truncated body.** Take any response the server
writes with a `Content-Length` equal to its body's length, and split its bytes
after the head and `j` bytes of the body, for any `j` short of the whole body.
When the first part is what the header recv delivers, the callback gets the
response with only those `j` bytes of body, and nothing is outstanding, so the
rest of the body is never read. -/
theorem callback_gets_truncated_body {n j : Nat} {v : Bytes} {r : Response} (h : Reachable s)
    (hp : s.pending = [.recvHeader n]) (hs : r.status < Nat.pow 2 64)
    (hh : ∀ e ∈ r.headers.entries, WireHeader e)
    (hcl : r.headers.get "Content-Length".toList = some v) (hv : parseInt v = some r.body.length)
    (hj : j < r.body.length) (hfit : { r with body := r.body.take j }.string.length ≤ n) :
    r.string = { r with body := r.body.take j }.string ++ r.body.drop j ∧
      ∃ s', s.step (.recvDone (.ok { r with body := r.body.take j }.string)) = some (.ok s') ∧
        s'.pending = [] ∧ callbacks s'.log = callbacks s.log ++ [.ok { r with body := r.body.take j }] := by
  refine ⟨by simp [Response.string], ?_⟩
  obtain ⟨s', hs', hp', hc'⟩ := callback_gets_cut (r := { r with body := r.body.take j }) h hp
    (by simp [Response.string]) hfit (Response.parse_string hs hh) hcl hv
  have hshort : (r.body.take j).length < r.body.length := by rw [List.length_take]; omega
  dsimp only at hc'
  rw [if_pos hshort] at hc'
  exact ⟨s', hs', hp', hc'⟩

/-! ## A whole request -/

/-- **One request, one response, one callback.** After an accepted `request()`
on a fresh session, a resolver returning an address of a known family, a
connect that succeeds, a send that takes the whole request and a recv that
delivers a response as `Response.parse_string` reads it leave nothing
outstanding and have invoked the callback exactly once, with that response. -/
theorem run_request {host target body : Bytes} {port defaultPort : Nat} {method : Method}
    {headers : HeaderMap} {addr : Family} {addrs : List Family} {r : Response}
    (hreq : (create host port defaultPort).request method target headers body (.ok ()) = .ok (true, s))
    (haddr : addr ≠ .unspec) (hfit : r.string.length ≤ 1024) (hs : r.status < Nat.pow 2 64)
    (hh : ∀ e ∈ r.headers.entries, WireHeader e)
    (hcl : r.headers.get "Content-Length".toList = none) :
    ∃ s', s.run [.resolveDone (.ok (addr :: addrs)) (.ok ()), .connectDone (.ok ()),
        .sendDone (.ok s.requestBuffer.length), .recvDone (.ok r.string)] = some (.ok s') ∧
      s'.pending = [] ∧ callbacks s'.log = [.ok r] := by
  obtain ⟨s₁, hr₁, h₁, hp₁, hc₁⟩ := request_sent_whole addrs hreq haddr
  obtain ⟨s', hs', hp', hc'⟩ := callback_gets_response h₁ hp₁ hfit hs hh hcl
  exact ⟨s', (run_append _ hr₁).trans (by simp only [run, hs']), hp', by rw [hc', hc₁, List.nil_append]⟩

set_option maxRecDepth 8000 in
/-- A fresh session for host `h`, one request, and a response with
`Content-Length: 5` of which the first recv brings two body bytes: the callback
gets the response with body `he`, nothing is outstanding, and the remaining
`llo` can never be delivered. -/
theorem response_body_truncated :
    ∃ s, (create "h".toList 80 80).request .get "/".toList ⟨[]⟩ [] (.ok ()) = .ok (true, s) ∧
      ∃ s', s.run [.resolveDone (.ok [.inet]) (.ok ()), .connectDone (.ok ()),
          .sendDone (.ok s.requestBuffer.length),
          .recvDone (.ok "HTTP/1.1 200\r\nContent-Length: 5\r\n\r\nhe".toList)] = some (.ok s') ∧
        s'.pending = [] ∧
        callbacks s'.log = [.ok ⟨200, ⟨[("Content-Length".toList, "5".toList)]⟩, "he".toList⟩] ∧
        s'.run [.recvDone (.ok "llo".toList)] = none := by
  obtain ⟨s, hreq⟩ : ∃ s, (create "h".toList 80 80).request .get "/".toList ⟨[]⟩ [] (.ok ()) =
      .ok (true, s) := ⟨_, rfl⟩
  obtain ⟨s₁, hr₁, h₁, hp₁, hc₁⟩ := request_sent_whole [] hreq (show Family.inet ≠ .unspec by decide)
  obtain ⟨-, s', hs', hp', hc'⟩ := @callback_gets_truncated_body s₁ 1024 2 "5".toList
    ⟨200, ⟨[("Content-Length".toList, "5".toList)]⟩, "hello".toList⟩ h₁ hp₁ (by decide) (by decide)
    rfl rfl (by decide) (by decide)
  have hhead : s₁.step (.recvDone (.ok "HTTP/1.1 200\r\nContent-Length: 5\r\n\r\nhe".toList)) =
      some (.ok s') := hs'
  exact ⟨s, hreq, s', (run_append _ hr₁).trans (by simp only [run, hhead]), hp',
    by rw [hc', hc₁]; rfl, by simp only [run, step, hp']⟩

end ClientSession

end Htcpp.Client
