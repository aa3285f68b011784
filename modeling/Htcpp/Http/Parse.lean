import Htcpp.Http.Message

/-!
# `Request::parse` and `Response::parse`

`Request::parse` reads a request line (method, target, version, separated by
single spaces) and then header lines up to an empty line. Two details of the
source shape everything proved about it here: after the request line the
header loop starts at `requestLineEnd + 2` and is then advanced by a further
`lineStart += 2`, and neither `requestLine` nor `body` of the result is ever
assigned. `Response::parse` is defined outside `src/`; it is modelled from the
spec.

## Main results

* `parse_never_faults`: no input makes `Request::parse`, `Url::parse` or
  `removeDotSegments` throw or fail an assertion.
* `Request.parse_eq_some`: an accepted input starts with a request line that
  gives the request's method, URL and version; its headers are what the header
  loop reads from four bytes past that line's end, and its body is empty.
* `Request.parse_sound`: an accepted input starts with a well-formed request
  line that gives the request's method, URL and version, and every header of
  the request has a name without `:` and a value without HTTP whitespace.
* `Request.parse_url_limit`: `maxUrlLength` changes nothing but whether the
  target fits: under any limit, an accepted input gives the same request or
  none.
-/

namespace Htcpp.Http

open Htcpp.StringView

/-- The two scanning loops of the header loop, `while (i < line.size() &&
p(line[i])) i++;`, for `p` = `isHttpWhitespace` (skip to the value) and its
negation (find the value's end). -/
@[semireducible] def scanWhile (line : Bytes) (p : Char → Bool) (i : Nat) : Except Fault Nat :=
  if i < line.length then do
    if p (← charAt line i) then scanWhile line p (i + 1) else return i
  else return i
termination_by line.length - i

/-- The `while (lineStart < requestStr.size())` header loop: each line must
hold a `:`, the name is what precedes it, and the value is the first
whitespace-delimited token after it. Returns the headers and the final
`lineStart`. -/
@[semireducible] def parseHeaderLines (requestStr : Bytes) (lineStart : Nat) (headers : HeaderMap) :
    Except Fault (Option (HeaderMap × Nat)) :=
  if hlt : lineStart < requestStr.length then
    match hEnd : findStr requestStr crlf lineStart with
    | none => return none
    | some lineEnd =>
      if lineStart = lineEnd then return some (headers, lineStart + 2) else do
      let line ← substr requestStr lineStart (some (lineEnd - lineStart))
      let some colon := find line ':' | return none
      let name ← substr line 0 (some colon)
      let valueStart ← scanWhile line isHttpWhitespace (colon + 1)
      let valueEnd ← scanWhile line (fun c => !isHttpWhitespace c) valueStart
      let value ← substr line valueStart (some (valueEnd - valueStart))
      parseHeaderLines requestStr (lineEnd + 2) (headers.add name value)
  else return some (headers, lineStart)
termination_by requestStr.length - lineStart
decreasing_by have := (findStr_spec hEnd).1; omega

/-- `Request::parse(requestStr)`, with `Config::get().maxUrlLength` as a
parameter. -/
def Request.parse (maxUrlLength : Nat) (requestStr : Bytes) : Except Fault (Option Request) := do
  let some requestLineEnd := findStr requestStr crlf | return none
  let requestLine ← substr requestStr 0 (some requestLineEnd)
  let some methodDelim := find requestLine ' ' | return none
  let some method := parseMethod (← substr requestLine 0 (some methodDelim)) | return none
  let urlStart := methodDelim + 1
  if urlStart ≥ requestLine.length then return none else
  let some urlLen := find (← substr requestLine urlStart (some maxUrlLength)) ' ' | return none
  let some url ← Url.parse (← substr requestLine urlStart (some urlLen)) | return none
  let versionStart := urlStart + urlLen + 1
  if versionStart > requestLine.length then return none else
  let version ← substr requestLine versionStart
  if version.length ≠ 8 then return none else
  if (← substr version 0 (some 7)) ≠ "HTTP/1.".toList then return none else
  let last ← charAt version 7
  if last ≠ '0' ∧ last ≠ '1' then return none else
  let lineStart := requestLineEnd + 2
  let lineStart := lineStart + 2
  let some (headers, _) ← parseHeaderLines requestStr lineStart ⟨[]⟩ | return none
  return some ⟨method, url, version, [], headers, []⟩

example : Request.parse 1024 "GET /x HTTP/1.1\r\nHost: h\r\n\r\n".toList =
    .ok (some ⟨.get, ⟨"/x".toList, "/x".toList, none, none, none⟩, "HTTP/1.1".toList, [],
      ⟨[("st".toList, "h".toList)]⟩, []⟩) := by
  decide

/-- Modelled from the spec: `Response::parse`, declared in `http.hpp` and
defined outside `src/`. "Symmetric: status line is `HTTP/1.x SP code SP reason
\r\n`; headers as above; remainder is body (unparsed)." The header lines are
read by the loop of `Request::parse`, from just after the status line; the
reason phrase may be missing, as it is in what `Response::string` writes. -/
def Response.parse (responseStr : Bytes) : Except Fault (Option Response) := do
  let some statusLineEnd := findStr responseStr crlf | return none
  let statusLine := responseStr.take statusLineEnd
  let version := statusLine.take 8
  if ¬ (version = "HTTP/1.0".toList ∨ version = "HTTP/1.1".toList) ∨ statusLine.get? 8 ≠ some ' ' then
    return none
  else
  let codeAndReason := statusLine.drop 9
  let code := match find codeAndReason ' ' with
    | some codeEnd => codeAndReason.take codeEnd
    | none => codeAndReason
  let some status := parseInt code | return none
  let some (headers, lineStart) ← parseHeaderLines responseStr (statusLineEnd + 2) ⟨[]⟩ | return none
  return some ⟨status, headers, responseStr.drop lineStart⟩

example : Response.parse (Response.ofCode 200 "hi".toList).string =
    .ok (some (Response.ofCode 200 "hi".toList)) := by
  decide

/-! ## One turn of the header loop -/

theorem scanWhile_spec {line : Bytes} {p : Char → Bool} {i : Nat} (h : i ≤ line.length) :
    ∃ j, scanWhile line p i = .ok j ∧ i ≤ j ∧ j ≤ line.length := by
  induction i using scanWhile.induct line p with
  | case1 i hi ih =>
      rw [scanWhile, if_pos hi, charAt_of_lt hi, ok_bind]
      split
      · obtain ⟨j, hj, h1, h2⟩ := ih hi
        exact ⟨j, hj, by omega, h2⟩
      · exact ⟨i, rfl, le_rfl, h⟩
  | case2 i hi => exact ⟨i, by rw [scanWhile, if_neg hi]; rfl, le_rfl, h⟩

/-- Every byte `scanWhile` steps over satisfies its predicate. -/
theorem scanWhile_all {line : Bytes} {p : Char → Bool} {i j : Nat} (h : scanWhile line p i = .ok j) :
    ∀ k (hk : k < line.length), i ≤ k → k < j → p (line.get ⟨k, hk⟩) = true := by
  induction i using scanWhile.induct line p with
  | case1 i hi ih =>
      rw [scanWhile, if_pos hi, charAt_of_lt hi, ok_bind] at h
      intro k hk hik hkj
      split at h
      · rcases Nat.eq_or_lt_of_le hik with rfl | hlt
        · assumption
        · exact ih h k hk hlt hkj
      · cases h; omega
  | case2 i hi =>
      rw [scanWhile, if_neg hi] at h
      cases h
      intro k hk _ _; omega

/-- What every header of a parsed request satisfies: its name holds no `:`,
its value no HTTP whitespace. -/
def HeaderOk (e : Bytes × Bytes) : Prop := ':' ∉ e.1 ∧ ∀ c ∈ e.2, isHttpWhitespace c = false

/-- The name before the first `:` of a line, and the token that the value
scan stops after. -/
theorem headerOk_of_line {line : Bytes} {colon valueStart valueEnd : Nat}
    (hColon : find line ':' = some colon)
    (hEnd : scanWhile line (fun c => !isHttpWhitespace c) valueStart = .ok valueEnd) :
    HeaderOk (line.take colon, (line.drop valueStart).take (valueEnd - valueStart)) := by
  obtain ⟨a, b, rfl, rfl, ha⟩ := find_split hColon
  refine ⟨by simpa using ha, fun c hc => ?_⟩
  obtain ⟨i, hi, rfl⟩ := List.mem_iff_getElem.mp hc
  simp only [List.length_take, List.length_drop, Nat.lt_min] at hi
  have := scanWhile_all hEnd (valueStart + i) (by omega) (by omega) (by omega)
  simpa [List.getElem_take, List.getElem_drop] using this

/-- One turn of the header loop over a line that is not empty: a line without
`:` ends the loop with `nullopt`; any other adds a `HeaderOk` entry and moves
past the line's CRLF. -/
theorem parseHeaderLines_line_cases {requestStr : Bytes} {lineStart lineEnd : Nat}
    (headers : HeaderMap) (hlt : lineStart < requestStr.length)
    (hEnd : findStr requestStr crlf lineStart = some lineEnd) (hne : lineStart ≠ lineEnd) :
    parseHeaderLines requestStr lineStart headers = .ok none ∨
      ∃ e, HeaderOk e ∧ parseHeaderLines requestStr lineStart headers =
        parseHeaderLines requestStr (lineEnd + 2) (headers.add e.1 e.2) := by
  rw [parseHeaderLines, dif_pos hlt]
  split
  · simp_all
  rename_i lineEnd' hEnd'
  obtain rfl : lineEnd' = lineEnd := Option.some.inj (hEnd'.symm.trans hEnd)
  simp only [if_neg hne, substr_some (Nat.le_of_lt hlt), ok_bind]
  split
  · rename_i colon hColon
    obtain ⟨j, hj, -, hj2⟩ :=
      scanWhile_spec (p := isHttpWhitespace) (Nat.succ_le_of_lt (find_lt_length hColon))
    obtain ⟨k, hk, -, -⟩ := scanWhile_spec (p := fun c => !isHttpWhitespace c) hj2
    simp only [substr_zero, ok_bind, hj, hk, substr_some hj2]
    exact .inr ⟨_, headerOk_of_line hColon hk, rfl⟩
  · exact .inl rfl

/-! ## Safety: parsing never faults -/

theorem parseHeaderLines_noFault (requestStr : Bytes) (lineStart : Nat) (headers : HeaderMap) :
    NoFault (parseHeaderLines requestStr lineStart headers) := by
  induction lineStart, headers using parseHeaderLines.induct requestStr with
  | case1 lineStart headers hlt hEnd =>
      rw [parseHeaderLines, dif_pos hlt]
      split <;> simp_all
  | case2 headers lineEnd hlt hEnd =>
      rw [parseHeaderLines, dif_pos hlt]
      split <;> simp_all
  | case3 lineStart headers hlt lineEnd hEnd hne ih =>
      rcases parseHeaderLines_line_cases headers hlt hEnd hne with h | ⟨e, -, h⟩
      · exact ⟨_, h⟩
      · exact h ▸ ih _ _
  | case4 lineStart headers hlt =>
      rw [parseHeaderLines, dif_neg hlt]
      exact noFault_ok _

theorem Request.parse_noFault (maxUrlLength : Nat) (requestStr : Bytes) :
    NoFault (Request.parse maxUrlLength requestStr) := by
  unfold Request.parse
  split
  case h_2 => exact noFault_ok _
  simp only [substr_zero, ok_bind]
  split
  case h_2 => exact noFault_ok _
  rename_i methodDelim hDelim
  split
  case h_2 => exact noFault_ok _
  split
  case isTrue => exact noFault_ok _
  rename_i hUrlStart
  have hle : methodDelim + 1 ≤ _ := Nat.le_of_not_le hUrlStart
  simp only [substr_some hle, ok_bind]
  split
  case h_2 => exact noFault_ok _
  refine (Url.parse_noFault _).bind fun url _ => ?_
  split
  case h_2 => exact noFault_ok _
  split
  case isTrue => exact noFault_ok _
  rename_i hVersion
  simp only [substr_none (Nat.le_of_not_lt hVersion), ok_bind]
  split
  case isTrue => exact noFault_ok _
  rename_i hLen
  rw [not_not] at hLen
  rw [charAt_of_lt (by omega), ok_bind]
  split
  case isTrue => exact noFault_ok _
  split
  case isTrue => exact noFault_ok _
  refine (parseHeaderLines_noFault _ _ _).bind fun r _ => ?_
  split <;> exact noFault_ok _

theorem Response.parse_noFault (responseStr : Bytes) : NoFault (Response.parse responseStr) := by
  unfold Response.parse
  split
  case h_2 => exact noFault_ok _
  dsimp only
  split
  case isTrue => exact noFault_ok _
  split
  case h_2 => exact noFault_ok _
  refine (parseHeaderLines_noFault _ _ _).bind fun r _ => ?_
  split <;> exact noFault_ok _

/-- **Parsing never faults.** For every input and every `maxUrlLength`,
`Request::parse` ends normally in a request or `nullopt`: no `substr` start
position is past the end, no `operator[]` index is out of range, and no
`assert` of `removeDotSegments` fails, in `Request::parse`, in `Url::parse`,
and in `removeDotSegments` on every input its `assert` admits. Every loop is a
definition by well-founded recursion, so all three also terminate. -/
theorem parse_never_faults (maxUrlLength : Nat) (s : Bytes) :
    NoFault (Request.parse maxUrlLength s) ∧ NoFault (Url.parse s) ∧
      ∀ t, NoFault (removeDotSegments ('/' :: t)) :=
  ⟨Request.parse_noFault maxUrlLength s, Url.parse_noFault s, removeDotSegments_ok⟩

/-! ## Soundness: what an accepted request was read from -/

theorem parseHeaderLines_headerOk {requestStr : Bytes} {lineStart : Nat} {headers : HeaderMap}
    {r : HeaderMap × Nat} (hh : ∀ e ∈ headers.entries, HeaderOk e)
    (h : parseHeaderLines requestStr lineStart headers = .ok (some r)) :
    ∀ e ∈ r.1.entries, HeaderOk e := by
  induction lineStart, headers using parseHeaderLines.induct requestStr with
  | case1 lineStart headers hlt hEnd =>
      rw [parseHeaderLines, dif_pos hlt] at h
      split at h <;> simp_all
  | case2 headers lineEnd hlt hEnd =>
      rw [parseHeaderLines, dif_pos hlt] at h
      split at h
      · cases h
      · rename_i lineEnd' hEnd'
        obtain rfl : lineEnd' = lineEnd := Option.some.inj (hEnd'.symm.trans hEnd)
        rw [if_pos rfl] at h
        cases h
        exact hh
  | case3 lineStart headers hlt lineEnd hEnd hne ih =>
      rcases parseHeaderLines_line_cases headers hlt hEnd hne with h' | ⟨e, he, h'⟩
      · simp [h'] at h
      · rw [h'] at h
        refine ih _ _ (fun e' he' => ?_) h
        simp only [HeaderMap.entries_add, List.mem_append, List.mem_singleton] at he'
        rcases he' with he' | rfl
        · exact hh e' he'
        · exact he
  | case4 lineStart headers hlt =>
      rw [parseHeaderLines, dif_neg hlt] at h
      cases h
      exact hh

/-- The three version checks leave exactly two versions. -/
theorem version_of_checks {version : Bytes} (hLen : version.length = 8)
    (hPre : version.take 7 = "HTTP/1.".toList) {h7 : 7 < version.length}
    (hLast : version.get ⟨7, h7⟩ = '0' ∨ version.get ⟨7, h7⟩ = '1') :
    version = "HTTP/1.0".toList ∨ version = "HTTP/1.1".toList := by
  have hv : version = version.take 7 ++ [version.get ⟨7, h7⟩] := by
    conv_lhs => rw [← List.take_append_drop 7 version, List.drop_eq_getElem_cons h7,
      List.drop_of_length_le (by omega)]
    rfl
  rw [hv, hPre]
  rcases hLast with h | h <;> rw [h] <;> decide

/-- **Inversion of `Request::parse`.** An accepted input starts with the
request line `method SP target SP version CRLF`: the method's name, a target
without spaces, shorter than `maxUrlLength`, that `Url::parse` turns into the
request's URL, and `HTTP/1.0` or `HTTP/1.1`. The headers are what the header
loop reads from four bytes past the end of the request line (the `+ 2` is
applied twice), and `body` and `requestLine` are left empty. -/
theorem Request.parse_eq_some {maxUrlLength : Nat} {requestStr : Bytes} {r : Request}
    (h : Request.parse maxUrlLength requestStr = .ok (some r)) :
    ∃ target rest,
      requestStr = r.method.toString ++ ' ' :: target ++ ' ' :: r.version ++ crlf ++ rest ∧
      ' ' ∉ target ∧ target.length < maxUrlLength ∧ Url.parse target = .ok (some r.url) ∧
      (r.version = "HTTP/1.0".toList ∨ r.version = "HTTP/1.1".toList) ∧
      (∃ n, parseHeaderLines requestStr
        ((r.method.toString ++ ' ' :: target ++ ' ' :: r.version).length + 4) ⟨[]⟩ =
          .ok (some (r.headers, n))) ∧
      r.body = [] ∧ r.requestLine = [] := by
  unfold Request.parse at h
  split at h
  case h_2 => cases h
  rename_i requestLineEnd hLineEnd
  obtain ⟨requestLine, rest, rfl, rfl⟩ := findStr_split hLineEnd
  simp only [substr_zero, ok_bind, List.append_assoc, List.take_left] at h
  split at h
  case h_2 => cases h
  rename_i methodDelim hDelim
  obtain ⟨methodStr, afterMethod, rfl, rfl, hsp⟩ := find_split hDelim
  simp only [substr_zero, ok_bind, List.take_left] at h
  split at h
  case h_2 => cases h
  rename_i method hMethod
  obtain rfl := parseMethod_eq_some hMethod
  split at h
  case isTrue => cases h
  have hdrop : (method.toString ++ ' ' :: afterMethod).drop (method.toString.length + 1) =
      afterMethod := by simp [List.drop_append_eq_append_drop]
  rw [substr_some (by simp), ok_bind, hdrop] at h
  split at h
  case h_2 => cases h
  rename_i urlLen hUrlLen
  obtain ⟨target, v, rfl, rfl, hspT, hlt⟩ := find_take_split hUrlLen
  rw [substr_some (by simp), ok_bind, hdrop, List.take_left] at h
  obtain ⟨o, hUrl, h⟩ := bind_eq_ok.mp h
  split at h
  case h_2 => cases h
  split at h
  case isTrue => cases h
  rename_i hVersionStart
  have hv : (method.toString ++ ' ' :: (target ++ ' ' :: v)).drop
      (method.toString.length + 1 + target.length + 1) = v := by
    rw [show method.toString ++ ' ' :: (target ++ ' ' :: v) =
      (method.toString ++ ' ' :: target ++ [' ']) ++ v by simp, List.drop_left' (by simp; omega)]
  rw [substr_none (by omega), ok_bind, hv] at h
  split at h
  case isTrue => cases h
  rename_i hLen
  split at h
  case isTrue => cases h
  rename_i hPre
  rw [charAt_of_lt (by omega), ok_bind] at h
  split at h
  case isTrue => cases h
  rename_i hLast
  obtain ⟨o', hHeaders, h⟩ := bind_eq_ok.mp h
  split at h
  case h_2 => cases h
  cases h
  exact ⟨target, rest, by simp, hspT, hlt, hUrl,
    version_of_checks (not_not.mp hLen) (not_not.mp hPre)
      (by simpa only [not_and_or, not_not] using hLast),
    ⟨_, by simpa using hHeaders⟩, rfl, rfl⟩

/-- **What `Request::parse` accepts.** An accepted input starts with the
request line `method SP target SP version CRLF`: the method's name, a target
without spaces, shorter than `maxUrlLength`, that `Url::parse` turns into the
request's URL, and `HTTP/1.0` or `HTTP/1.1`. Every header the request carries
has a name without `:` and a value without HTTP whitespace. -/
theorem Request.parse_sound {maxUrlLength : Nat} {requestStr : Bytes} {r : Request}
    (h : Request.parse maxUrlLength requestStr = .ok (some r)) :
    ∃ target rest,
      requestStr = r.method.toString ++ ' ' :: target ++ ' ' :: r.version ++ crlf ++ rest ∧
      ' ' ∉ target ∧ target.length < maxUrlLength ∧ Url.parse target = .ok (some r.url) ∧
      (r.version = "HTTP/1.0".toList ∨ r.version = "HTTP/1.1".toList) ∧
      ∀ e ∈ r.headers.entries, HeaderOk e := by
  obtain ⟨target, rest, hs, hsp, hlt, hUrl, hv, ⟨_, hh⟩, -⟩ := Request.parse_eq_some h
  exact ⟨target, rest, hs, hsp, hlt, hUrl, hv, parseHeaderLines_headerOk (by simp) hh⟩

theorem parse_sound_on_get :
    ∃ r, Request.parse 1024 "GET /x HTTP/1.1\r\nHost: h\r\n\r\n".toList = .ok (some r) ∧
      ∃ target rest, "GET /x HTTP/1.1\r\nHost: h\r\n\r\n".toList =
          r.method.toString ++ ' ' :: target ++ ' ' :: r.version ++ crlf ++ rest ∧
        ' ' ∉ target ∧ target.length < 1024 ∧ Url.parse target = .ok (some r.url) ∧
        (r.version = "HTTP/1.0".toList ∨ r.version = "HTTP/1.1".toList) ∧
        ∀ e ∈ r.headers.entries, HeaderOk e :=
  ⟨_, rfl, Request.parse_sound rfl⟩

/-- A request line alone, with no empty line after it, is accepted as a
complete request: the header loop runs while bytes are left and returns
whatever it has when they run out. -/
theorem parse_accepts_head_without_empty_line :
    Request.parse 1024 "GET / HTTP/1.1\r\n".toList =
      .ok (some ⟨.get, ⟨"/".toList, "/".toList, none, none, none⟩, "HTTP/1.1".toList, [], ⟨[]⟩, []⟩) := by
  decide

/-! ## The URL length limit -/

/-- `Url::parse` keeps the text it was given as `fullRaw`. -/
theorem Url.parse_fullRaw {u : Bytes} {url : Url} (h : Url.parse u = .ok (some url)) :
    url.fullRaw = u := by
  unfold Url.parse at h
  dsimp only at h
  split at h
  · cases h; rfl
  obtain ⟨⟨fragment, u1⟩, -, h⟩ := bind_eq_ok.mp h
  split at h
  · cases h
  obtain ⟨u2, -, h⟩ := bind_eq_ok.mp h
  obtain ⟨u3, -, h⟩ := bind_eq_ok.mp h
  obtain ⟨⟨query, u4⟩, -, h⟩ := bind_eq_ok.mp h
  obtain ⟨⟨params, u5⟩, -, h⟩ := bind_eq_ok.mp h
  split at h
  · cases h
  obtain ⟨c, -, h⟩ := bind_eq_ok.mp h
  split at h
  · cases h
  obtain ⟨path, -, h⟩ := bind_eq_ok.mp h
  cases h
  rfl

/-- A split at the first `c` is unique. -/
theorem append_cons_eq_of_not_mem {c : Char} {a b x y : Bytes} (ha : c ∉ a) (hb : c ∉ b)
    (h : a ++ c :: x = b ++ c :: y) : a = b ∧ x = y := by
  have hl := congrArg (find · c) h
  simp only [find_append ha, find_append hb, Option.some.injEq] at hl
  obtain ⟨rfl, hxy⟩ := List.append_inj h hl
  exact ⟨rfl, (List.cons.inj hxy).2⟩

/-- **The URL length limit, exactly.** If `Request::parse` accepts an input
under some `maxUrlLength`, then under any other limit it returns the same
request when the target is shorter than that limit, and rejects the input
otherwise: the limit affects nothing but whether the target fits. -/
theorem Request.parse_url_limit {m : Nat} {s : Bytes} {r : Request}
    (h : Request.parse m s = .ok (some r)) (m' : Nat) :
    Request.parse m' s = if r.url.fullRaw.length < m' then .ok (some r) else .ok none := by
  obtain ⟨target', rest', hs, hsp', -, hUrl', -⟩ := Request.parse_eq_some h
  unfold Request.parse at h ⊢
  split at h
  case h_2 => cases h
  rename_i requestLineEnd hLineEnd
  obtain ⟨requestLine, rest, rfl, rfl⟩ := findStr_split hLineEnd
  simp only [substr_zero, ok_bind, List.append_assoc, List.take_left] at h ⊢
  split at h
  case h_2 => cases h
  rename_i methodDelim hDelim
  obtain ⟨methodStr, afterMethod, rfl, rfl, hsp⟩ := find_split hDelim
  simp only [substr_zero, ok_bind, List.take_left] at h ⊢
  split at h
  case h_2 => cases h
  rename_i method hMethod
  obtain rfl := parseMethod_eq_some hMethod
  split at h
  case isTrue => cases h
  rename_i hUrlStart
  rw [if_neg hUrlStart]
  have hdrop : (method.toString ++ ' ' :: afterMethod).drop (method.toString.length + 1) =
      afterMethod := by simp [List.drop_append_eq_append_drop]
  rw [substr_some (by simp), ok_bind, hdrop] at h ⊢
  split at h
  case h_2 => cases h
  rename_i urlLen hUrlLen
  obtain ⟨target, v, rfl, rfl, hspT, hlt⟩ := find_take_split hUrlLen
  have hfull : r.url.fullRaw = target := by
    have hm : ' ' ∉ r.method.toString := by cases r.method <;> decide
    simp only [List.append_assoc, List.cons_append] at hs
    obtain ⟨-, hs⟩ := append_cons_eq_of_not_mem hsp hm hs
    rw [Url.parse_fullRaw hUrl', (append_cons_eq_of_not_mem hspT hsp' hs).1]
  by_cases hm' : target.length < m'
  · simp only [find_take_append hspT hm', hfull, if_pos hm']
    exact h
  · rw [List.take_append_of_le_length (by omega), find_eq_none_of_not_mem
      (fun hc => hspT (List.mem_of_mem_take hc)), hfull, if_neg hm']
    rfl

/-- `GET /x` is accepted under a limit of 1024 and refused under a limit of 2,
which its two-byte target does not fit. -/
theorem parse_url_limit_on_get :
    ∃ r, Request.parse 1024 "GET /x HTTP/1.1\r\nHost: h\r\n\r\n".toList = .ok (some r) ∧
      Request.parse 2 "GET /x HTTP/1.1\r\nHost: h\r\n\r\n".toList =
        if r.url.fullRaw.length < 2 then .ok (some r) else .ok none := by
  obtain ⟨r, hr⟩ : ∃ r, Request.parse 1024 "GET /x HTTP/1.1\r\nHost: h\r\n\r\n".toList =
      .ok (some r) := ⟨_, rfl⟩
  exact ⟨r, hr, Request.parse_url_limit hr 2⟩

end Htcpp.Http
