import Htcpp.Client.Callback
import Htcpp.Server.Exchange

/-!
# The library's client talking to its server

A `ClientSession` and a server `Session` at the two ends of one connection:
the bytes the client's send submits are what the server's header recv
completes with, and the bytes the server sends for the handler's response are
what the client's header recv completes with. This module runs the two
machines through one exchange along the path where nothing fails and each
transfer completes in one piece.

The client writes `HTTP/1.1` and, when the caller gave no `Host`, writes its
own `Host` line first, so by `serializeRequest_host_shifted` the handler gets
that header as `st` and the caller's headers after it. With no `Connection`
header `getKeepAlive` holds, so once the response is acknowledged the server
keeps the connection and waits for the next head. The client, by
`Reachable.request_unsent`, never sends one: its next `request()` is accepted
and submits nothing. So the exchange ends with the server's recv waiting on a
connection the client no longer writes to, until the server's read deadline
(time is not modelled) cuts it.

## Main results

* `loopback_exchange_then_stall`: the handler gets the client's request with
  its `Host` header renamed `st`, the callback gets the handler's response,
  the server then waits on the next head, and no request the client accepts
  after that is ever sent.
-/

namespace Htcpp

open Htcpp.StringView Htcpp.Http Htcpp.Server Htcpp.Client

/-- A header list whose first entry is not `name` is searched on in the rest. -/
theorem HeaderMap.get_cons_of_nameEq_false {first value name : Bytes} {es : List (Bytes × Bytes)}
    (h : nameEq first name = false) :
    HeaderMap.get ⟨(first, value) :: es⟩ name = HeaderMap.get ⟨es⟩ name := by
  simp [HeaderMap.get, List.find?_cons, h]

/-- After an accepted first `request()` the session keeps its host, and its
request buffer is what `serializeRequest` writes for that host and port. -/
theorem request_on_create_fields {c : ClientSession} {host target body : Bytes}
    {port defaultPort : Nat} {method : Method} {headers : HeaderMap} {sock : Except Errno Unit}
    (hreq : (ClientSession.create host port defaultPort).request method target headers body sock =
      .ok (true, c)) :
    c.host = host ∧ c.requestBuffer = c.serializeRequest method target headers body := by
  simp only [ClientSession.request, ClientSession.create, ClientSession.connect, if_false,
    Bool.false_eq_true, ok_bind] at hreq
  cases hreq
  exact ⟨rfl, rfl⟩

/-- **The library's client and server stall after one exchange.** Take an
accepted first `request()` without `Host`, `Content-Length` or `Connection`
headers, whose target `Request::parse` accepts, and a reachable server session
waiting on a header recv large enough for it. Let the client resolve, connect
and send its request in one piece, the server receive it in one completion,
the handler answer with a response that fits the client's recv, and each side
acknowledge or receive it whole. Then the handler got the client's request
with the `Host` line read as `st`; the callback got the handler's response;
the server waits on the next head; and every later `request()` of the client
is accepted and can never be sent. -/
theorem loopback_exchange_then_stall {c : ClientSession} {s : Session}
    {host target body : Bytes} {port defaultPort n : Nat} {method : Method}
    {headers : HeaderMap} {addr : Family} {addrs : List Family} {url : Url}
    {response : Response}
    (hreq : (ClientSession.create host port defaultPort).request method target headers body (.ok ()) =
      .ok (true, c))
    (haddr : addr ≠ .unspec) (hs : Server.Reachable s) (hp : s.pending = [.recvHeader n])
    (hfit : c.requestBuffer.length ≤ n)
    (hsp : ' ' ∉ target) (hcr : '\r' ∉ target) (hlt : target.length < s.config.maxUrlLength)
    (hurl : Url.parse target = .ok (some url))
    (hhost : headers.contains "Host".toList = false) (hname : WireHeader ("Host".toList, host))
    (hes : ∀ e ∈ headers.entries, WireHeader e)
    (hcl : headers.get "Content-Length".toList = none)
    (hconn : headers.get "Connection".toList = none)
    (hrfit : response.string.length ≤ 1024) (hst : response.status < Nat.pow 2 64)
    (hh : ∀ e ∈ response.headers.entries, WireHeader e)
    (hrcl : response.headers.get "Content-Length".toList = none) :
    ∃ s' c', s.run (exchange c.requestBuffer response) = some (.ok s') ∧
      c.run [.resolveDone (.ok (addr :: addrs)) (.ok ()), .connectDone (.ok ()),
        .sendDone (.ok c.requestBuffer.length), .recvDone (.ok response.string)] = some (.ok c') ∧
      handledRequests s'.log = handledRequests s.log ++
        [⟨method, url, "HTTP/1.1".toList, [],
          ⟨("st".toList, c.host ++ if c.port ≠ c.defaultPort then ":".toList ++ toDecimal c.port
            else []) :: headers.entries⟩, []⟩] ∧
      ClientSession.callbacks c'.log = [.ok response] ∧
      s'.pending = [.recvHeader s.config.maxRequestHeaderSize] ∧
      ∀ method' target' headers' body' sock', ∃ c'',
        c'.request method' target' headers' body' sock' = .ok (true, c'') ∧
          ∀ e, c''.step e = none := by
  obtain ⟨hc, hbuf⟩ := request_on_create_fields hreq
  have hparse := hbuf ▸
    ClientSession.serializeRequest_host_shifted hsp hcr hlt hurl hhost (hc ▸ hname) hes
  obtain ⟨s', hrun, hp', -, hhandled⟩ := run_exchange response hs hp
    (hbuf ▸ ClientSession.serializeRequest_ne_nil _ _ _ _ _) hfit hparse
    (by rw [HeaderMap.get_cons_of_nameEq_false (by decide)]; exact hcl)
    (by rw [getKeepAlive, HeaderMap.get_cons_of_nameEq_false (by decide), hconn]; rfl)
  obtain ⟨c', hcrun, hcp, hcb⟩ := ClientSession.run_request hreq haddr hrfit hst hh hrcl
  have hreach := (Client.Reachable.request _ _ _ _ _ _ _ _ hreq).run hcrun
  refine ⟨s', c', hrun, hcrun, hhandled, hcb, hp', fun method' target' headers' body' sock' => ?_⟩
  obtain ⟨c'', hreq', -, hnone⟩ := hreach.request_unsent hcp
    (hreach.callback_cleared.1.mpr ⟨response, by simp [hcb]⟩) method' target' headers' body' sock'
  exact ⟨c'', hreq', hnone⟩

set_option maxRecDepth 8000 in
/-- A `GET /` from host `h` to a fresh server session, answered `200 hi`. -/
theorem loopback_get_stalls :
    ∃ c, (ClientSession.create "h".toList 80 80).request .get "/".toList ⟨[]⟩ [] (.ok ()) =
        .ok (true, c) ∧
      ∃ s' c', (Session.init ⟨64, 16, 64, false⟩ default default).run
          (exchange c.requestBuffer (Response.ofCode 200 "hi".toList)) = some (.ok s') ∧
        c.run [.resolveDone (.ok [.inet]) (.ok ()), .connectDone (.ok ()),
          .sendDone (.ok c.requestBuffer.length),
          .recvDone (.ok (Response.ofCode 200 "hi".toList).string)] = some (.ok c') ∧
        handledRequests s'.log = handledRequests (Session.init ⟨64, 16, 64, false⟩ default default).log ++
          [⟨.get, ⟨"/".toList, "/".toList, none, none, none⟩, "HTTP/1.1".toList, [],
            ⟨[("st".toList, c.host ++ if c.port ≠ c.defaultPort then ":".toList ++ toDecimal c.port
              else [])]⟩, []⟩] ∧
        ClientSession.callbacks c'.log = [.ok (Response.ofCode 200 "hi".toList)] ∧
        s'.pending = [.recvHeader (Session.init ⟨64, 16, 64, false⟩ default default).config.maxRequestHeaderSize] ∧
        ∀ method' target' headers' body' sock', ∃ c'',
          c'.request method' target' headers' body' sock' = .ok (true, c'') ∧
            ∀ e, c''.step e = none := by
  have hreq : (ClientSession.create "h".toList 80 80).request .get "/".toList ⟨[]⟩ [] (.ok ()) =
      .ok (true, _) := rfl
  have hwire : ∀ e ∈ (Response.ofCode 200 "hi".toList).headers.entries, WireHeader e :=
    Response.build_wireHeaders fun t ht => by
      obtain rfl := Option.some.inj (Option.mem_def.mp ht)
      exact ⟨⟨by decide, by decide⟩, by decide, by decide⟩
  exact ⟨_, hreq, loopback_exchange_then_stall hreq (show Family.inet ≠ .unspec by decide)
    (Server.Reachable.init _ _ _) rfl (by decide) (by decide) (by decide) (by decide) rfl rfl
    ⟨⟨by decide, by decide⟩, by decide, by decide⟩ (fun _ h => absurd h (List.not_mem_nil _))
    rfl rfl (by decide) (by decide) hwire (Response.build_get_contentLength _ _ _)⟩

end Htcpp
