import Htcpp.Http.Parse

/-!
# What the parsers read back from what is written

`Response::string` writes a status line, one `name: value` line per header
and the body; `Response::parse` reads the header lines with the loop of
`Request::parse`. That loop finds each line by its CRLF, takes the name up to
the first `:` and the value as the one token after the blank, so a header comes
back unchanged exactly when it fits that reading: `WireHeader`.

The proofs follow the loop: `parseHeaderLines_line` is one turn of it over a
line that `serializeEntries` wrote, `parseHeaderLines_empty` its exit at the
empty line, and `parseHeaderLines_serializeEntries` the whole run, by
induction on the entries. Each is stated over the bytes before and after the
lines, as the loop sees them inside a whole message.

`Request::parse` starts the same loop four bytes after its request line
instead of two, so on a request head written in this format it reads the
first line from its third byte on.

## Main results

* `parseHeaderLines_serializeEntries` — the header loop reads back every line
  that `serializeEntries` writes and stops after the empty line.
* `Response.parse_string` — a response whose headers are `WireHeader`s and
  whose status fits in 64 bits is read back unchanged.
* `Response.build_wireHeaders` — the headers every `Response` constructor
  writes read back, when its content type is a `WireHeader` value.
* `Request.parse_of_head` — the converse of `Request.parse_eq_some`: a
  well-formed request line is accepted, with the headers read from four bytes
  past its end.
* `Request.parse_serialized` — so a head written in the format of
  `serializeEntries` comes back with two bytes cut from its first header's
  name and with no body.
-/

namespace Htcpp.Http

open Htcpp.StringView

/-- A header that the header loop reads back as written: a name without `:`
or CR, and a value without CR or HTTP whitespace. -/
def WireHeader (e : Bytes × Bytes) : Prop := HeaderOk e ∧ '\r' ∉ e.1 ∧ '\r' ∉ e.2

instance WireHeader.decidable (e : Bytes × Bytes) : Decidable (WireHeader e) :=
  inferInstanceAs (Decidable ((':' ∉ e.1 ∧ ∀ c ∈ e.2, isHttpWhitespace c = false) ∧
    '\r' ∉ e.1 ∧ '\r' ∉ e.2))

/-- The digits `std::to_string` writes are neither CR nor HTTP whitespace. -/
theorem mem_toDecimal_wireSafe {n : Nat} {c : Char} (hc : c ∈ toDecimal n) :
    c ≠ '\r' ∧ isHttpWhitespace c = false := by
  have hd := (toDecimal_digits n).2.1 c hc
  simp only [isHttpWhitespace, Bool.or_eq_false_iff, beq_eq_false_iff_ne]
  refine ⟨?_, ?_, ?_⟩ <;> rintro rfl <;> simp at hd

/-- `scanWhile` steps over a run `u` of bytes satisfying `p` and stops where
`p` first fails, or at the end. -/
theorem scanWhile_append (p : Char → Bool) (pre u post : Bytes) (hu : ∀ c ∈ u, p c = true)
    (hpost : ∀ c ∈ post.head?, p c = false) :
    scanWhile (pre ++ u ++ post) p pre.length = .ok (pre.length + u.length) := by
  induction u generalizing pre with
  | nil =>
      rw [scanWhile]
      cases post with
      | nil => simp
      | cons x post => simp [charAt_append_length, hpost x rfl]
  | cons x u ih =>
      have hx := hu x (List.mem_cons_self x u)
      have := ih (pre ++ [x]) (fun c hc => hu c (List.mem_cons_of_mem x hc))
      simp only [List.append_assoc, List.singleton_append, List.cons_append, List.nil_append,
        List.length_append, List.length_cons, List.length_nil, Nat.zero_add] at this ⊢
      rw [scanWhile, if_pos (by simp), charAt_append_length, ok_bind, if_pos hx, this]
      congr 1
      omega

/-! ## The header loop over serialized entries -/

/-- The empty line ends the loop, two bytes past its start. -/
theorem parseHeaderLines_empty (pre rest : Bytes) (headers : HeaderMap) :
    parseHeaderLines (pre ++ crlf ++ rest) pre.length headers =
      .ok (some (headers, pre.length + 2)) := by
  have hfind := findStr_crlf pre [] rest (List.not_mem_nil _)
  simp only [List.append_nil, List.length_nil, Nat.add_zero] at hfind
  rw [parseHeaderLines, dif_pos (by simp [crlf])]
  split
  · simp_all
  · rename_i lineEnd hEnd
    rw [hfind] at hEnd
    cases hEnd
    rw [if_pos rfl]
    rfl

/-- One turn of the loop over a line `name: value` adds exactly that entry and
moves past the line's CRLF. -/
theorem parseHeaderLines_line {name value : Bytes} (hw : WireHeader (name, value))
    (pre rest : Bytes) (headers : HeaderMap) :
    parseHeaderLines (pre ++ (name ++ ": ".toList ++ value) ++ crlf ++ rest) pre.length headers =
      parseHeaderLines (pre ++ (name ++ ": ".toList ++ value) ++ crlf ++ rest)
        (pre.length + (name ++ ": ".toList ++ value).length + 2) (headers.add name value) := by
  obtain ⟨⟨hcolon, hws⟩, hcr1, hcr2⟩ := hw
  have hfind := findStr_crlf pre (name ++ ": ".toList ++ value) rest (by simp_all)
  have hline : ∀ line : Bytes,
      ((pre ++ line ++ crlf ++ rest).drop pre.length).take line.length = line := by
    simp
  rw [parseHeaderLines,
    dif_pos (by simp only [List.length_append, crlf, List.length_cons, List.length_nil]; omega)]
  split
  · simp_all
  rename_i lineEnd hEnd
  rw [hfind] at hEnd
  cases hEnd
  rw [if_neg (by simp), substr_some (by simp), ok_bind, Nat.add_sub_cancel_left, hline]
  have hsep : name ++ ": ".toList ++ value = name ++ ':' :: ' ' :: value := by simp
  have hvs : scanWhile (name ++ ':' :: ' ' :: value) isHttpWhitespace (name.length + 1) =
      .ok (name.length + 2) := by
    simpa using scanWhile_append isHttpWhitespace (name ++ [':']) [' '] value
      (by simp [isHttpWhitespace]) (fun c hc => hws c (List.mem_of_mem_head? hc))
  have hve : scanWhile (name ++ ':' :: ' ' :: value) (fun c => !isHttpWhitespace c)
      (name.length + 2) = .ok (name.length + 2 + value.length) := by
    simpa using scanWhile_append (fun c => !isHttpWhitespace c) (name ++ [':', ' ']) value []
      (by simpa using hws) (by simp)
  have hv : ((name ++ ':' :: ' ' :: value).drop (name.length + 2)).take value.length = value := by
    rw [show name ++ ':' :: ' ' :: value = (name ++ [':', ' ']) ++ value by simp,
      List.drop_left' (by simp), List.take_length]
  rw [hsep, find_append hcolon]
  simp only [substr_zero, ok_bind, List.take_left, hvs, hve, Nat.add_sub_cancel_left,
    substr_some (show name.length + 2 ≤ (name ++ ':' :: ' ' :: value).length by simp), hv]

/-- **The header loop reads back what `serializeEntries` writes.** Started at
the first of the lines, with entries `hs` so far, it returns `hs` followed by
every serialized entry, and the position just past the empty line. -/
theorem parseHeaderLines_serializeEntries {es : List (Bytes × Bytes)}
    (hes : ∀ e ∈ es, WireHeader e) (pre body : Bytes) (hs : List (Bytes × Bytes)) :
    parseHeaderLines (pre ++ serializeEntries es ++ crlf ++ body) pre.length ⟨hs⟩ =
      .ok (some (⟨hs ++ es⟩, pre.length + (serializeEntries es).length + 2)) := by
  induction es generalizing pre hs with
  | nil => simpa [serializeEntries] using parseHeaderLines_empty pre body ⟨hs⟩
  | cons e es ih =>
      obtain ⟨name, value⟩ := e
      have hline := parseHeaderLines_line (hes (name, value) (List.mem_cons_self _ _)) pre
        (serializeEntries es ++ crlf ++ body) ⟨hs⟩
      have hrest := ih (fun e he => hes e (List.mem_cons_of_mem _ he))
        (pre ++ (name ++ ": ".toList ++ value) ++ crlf) (hs ++ [(name, value)])
      simp only [serializeEntries, List.append_assoc, List.length_append] at hline hrest ⊢
      have hend : pre.length + (name.length + (": ".toList.length + value.length)) + 2 =
          pre.length + (name.length + (": ".toList.length + (value.length + crlf.length))) := by
        simp only [crlf, List.length_cons, List.length_nil]; omega
      rw [hline, hend, HeaderMap.add, hrest]
      simp only [List.singleton_append, crlf, List.length_cons, List.length_nil]
      congr 3
      omega

/-! ## Whole responses -/

/-- The status line that `Response::string` writes holds no CR, and the checks
of `Response::parse` read `HTTP/1.1`, a space and the status back from it. -/
theorem statusLine_reads {status : Nat} (hs : status < Nat.pow 2 64) :
    '\r' ∉ "HTTP/1.1 ".toList ++ toDecimal status ∧
      ("HTTP/1.1 ".toList ++ toDecimal status).take 8 = "HTTP/1.1".toList ∧
      ("HTTP/1.1 ".toList ++ toDecimal status).get? 8 = some ' ' ∧
      find (("HTTP/1.1 ".toList ++ toDecimal status).drop 9) ' ' = none ∧
      parseInt (("HTTP/1.1 ".toList ++ toDecimal status).drop 9) = some status := by
  obtain ⟨-, hdig, -⟩ := toDecimal_digits status
  have hcode : ("HTTP/1.1 ".toList ++ toDecimal status).drop 9 = toDecimal status :=
    List.drop_left' rfl
  rw [hcode, parseInt_toDecimal hs, List.take_append_of_le_length (by decide),
    List.get?_eq_getElem?, List.getElem?_append_left (by decide)]
  refine ⟨?_, rfl, rfl, ?_, rfl⟩
  · simp only [List.mem_append, not_or]
    exact ⟨by decide, fun h => absurd (hdig _ h) (by decide)⟩
  · simp only [find, List.drop_zero, Option.map_eq_none', findChar_eq_none]
    exact fun h => absurd (hdig _ h) (by decide)

/-- **`Response::parse` reads back what `Response::string` writes**, for every
response whose headers are `WireHeader`s and whose status fits in 64 bits. -/
theorem Response.parse_string {r : Response} (hs : r.status < Nat.pow 2 64)
    (hh : ∀ e ∈ r.headers.entries, WireHeader e) : Response.parse r.string = .ok (some r) := by
  obtain ⟨status, ⟨es⟩, body⟩ := r
  obtain ⟨hcr, hversion, hsp, hnosp, hcode⟩ := statusLine_reads hs
  unfold Response.parse Response.string
  generalize "HTTP/1.1 ".toList ++ toDecimal status = line at *
  have hfind := findStr_crlf [] line (serializeEntries es ++ crlf ++ body) hcr
  have hheaders := parseHeaderLines_serializeEntries hh (line ++ crlf) body []
  have hlen : (line ++ crlf).length = line.length + 2 := by simp [crlf]
  have hbody : (line ++ crlf ++ serializeEntries es ++ crlf ++ body).drop
      (line.length + 2 + (serializeEntries es).length + 2) = body :=
    List.drop_left' (by simp only [List.length_append, crlf, List.length_cons, List.length_nil])
  simp only [List.nil_append, List.length_nil, Nat.zero_add, List.append_assoc]
    at hfind hheaders hbody
  rw [hlen] at hheaders
  simp only [List.append_assoc, hfind, List.take_left, hversion, hsp, hnosp, hcode, or_true,
    not_true_eq_false, ne_eq, false_or, if_false, hheaders, ok_bind, hbody]
  rfl

/-- Every `Response` constructor writes `Connection: close` and, when it has
one, the content type: both read back when the content type does. -/
theorem Response.build_wireHeaders {status : Nat} {body : Bytes} {contentType : Option Bytes}
    (ht : ∀ t ∈ contentType, WireHeader ("Content-Type".toList, t)) :
    ∀ e ∈ (Response.build status body contentType).headers.entries, WireHeader e := by
  cases contentType with
  | none => simp only [Response.build, Option.map_none', Option.toList_none]; decide
  | some t =>
      simp only [Response.build, Option.map_some', Option.toList_some, List.mem_cons,
        List.mem_singleton, List.not_mem_nil, or_false]
      rintro e (rfl | rfl)
      · decide
      · exact ht t rfl

/-- No `Response` constructor writes `Content-Length`. -/
theorem Response.build_get_contentLength (status : Nat) (body : Bytes) (contentType : Option Bytes) :
    (Response.build status body contentType).headers.get "Content-Length".toList = none := by
  cases contentType <;> rfl

/-! ## Requests -/

/-- **What `Request::parse` accepts, conversely.** A request line
`method SP target SP version CRLF` with a target free of spaces and CR, shorter
than `maxUrlLength`, that `Url::parse` accepts, and version `HTTP/1.0` or
`HTTP/1.1`, is accepted, with the headers the header loop reads from four bytes
past the line's end: the converse of `Request.parse_eq_some`. -/
theorem Request.parse_of_head {maxUrlLength : Nat} {m : Method} {target version rest : Bytes}
    {url : Url} {headers : HeaderMap}
    (hsp : ' ' ∉ target) (hcr : '\r' ∉ target) (hlt : target.length < maxUrlLength)
    (hurl : Url.parse target = .ok (some url))
    (hv : version = "HTTP/1.0".toList ∨ version = "HTTP/1.1".toList)
    (hh : ∃ n, parseHeaderLines (m.toString ++ ' ' :: target ++ ' ' :: version ++ crlf ++ rest)
      ((m.toString ++ ' ' :: target ++ ' ' :: version).length + 4) ⟨[]⟩ = .ok (some (headers, n))) :
    Request.parse maxUrlLength (m.toString ++ ' ' :: target ++ ' ' :: version ++ crlf ++ rest) =
      .ok (some ⟨m, url, version, [], headers, []⟩) := by
  obtain ⟨n, hh⟩ := hh
  have hm : ' ' ∉ m.toString ∧ '\r' ∉ m.toString := by cases m <;> decide
  have hvl : '\r' ∉ version ∧ version.length = 8 ∧ version.take 7 = "HTTP/1.".toList ∧
      ∃ h7 : 7 < version.length, version.get ⟨7, h7⟩ = '0' ∨ version.get ⟨7, h7⟩ = '1' := by
    rcases hv with rfl | rfl <;> decide
  obtain ⟨hvcr, hvlen, hvpre, h7, hvlast⟩ := hvl
  have hfind := findStr_crlf [] (m.toString ++ ' ' :: target ++ ' ' :: version) rest
    (by simp [hm.2, hcr, hvcr])
  simp only [List.nil_append, List.length_nil, Nat.zero_add] at hfind
  have hlen : (m.toString ++ ' ' :: target ++ ' ' :: version).length =
      m.toString.length + 1 + target.length + 1 + 8 := by simp [hvlen]; omega
  have hafter : (m.toString ++ ' ' :: target ++ ' ' :: version).drop (m.toString.length + 1) =
      target ++ ' ' :: version := by
    simp [List.drop_append_eq_append_drop]
  have hdelim : find (m.toString ++ ' ' :: target ++ ' ' :: version) ' ' = some m.toString.length := by
    simpa using find_append (b := target ++ ' ' :: version) hm.1
  have hmeth : (m.toString ++ ' ' :: target ++ ' ' :: version).take m.toString.length = m.toString := by
    simp
  have hver : (m.toString ++ ' ' :: target ++ ' ' :: version).drop
      (m.toString.length + 1 + target.length + 1) = version := by
    rw [show m.toString ++ ' ' :: target ++ ' ' :: version =
      (m.toString ++ ' ' :: target ++ [' ']) ++ version by simp, List.drop_left' (by simp; omega)]
  have hurl' := find_take_append (b := version) (n := maxUrlLength) hsp hlt
  generalize m.toString ++ ' ' :: target ++ ' ' :: version = L at *
  have hlast : ¬(version.get ⟨7, h7⟩ ≠ '0' ∧ version.get ⟨7, h7⟩ ≠ '1') := by
    simpa only [not_and_or, not_not] using hvlast
  unfold Request.parse
  rw [hfind]
  rw [show L.length + 4 = L.length + 2 + 2 from rfl] at hh
  simp only [List.append_assoc] at hh
  simp only [substr_zero, ok_bind, List.append_assoc, List.take_left, hdelim, hmeth,
    parseMethod_toString, if_neg (show ¬ m.toString.length + 1 ≥ L.length by omega),
    substr_some (show m.toString.length + 1 ≤ L.length by omega), hafter, hurl', List.take_left, hurl,
    if_neg (show ¬ m.toString.length + 1 + target.length + 1 > L.length by omega),
    substr_none (show m.toString.length + 1 + target.length + 1 ≤ L.length by omega), hver, hvlen,
    ne_eq, not_true_eq_false, if_false, hvpre, charAt_of_lt h7, hlast, hh]
  rfl

/-- **A head written line by line loses two bytes of its first header.** For
every request line as above and every list of `WireHeader` entries written as
`serializeEntries` writes them, `Request::parse` returns the first entry with
the first two bytes of its name cut off, the others as written, and an empty
body, whatever follows the empty line. -/
theorem Request.parse_serialized {maxUrlLength : Nat} {m : Method} {target version body : Bytes}
    {url : Url} {name value : Bytes} {es : List (Bytes × Bytes)}
    (hsp : ' ' ∉ target) (hcr : '\r' ∉ target) (hlt : target.length < maxUrlLength)
    (hurl : Url.parse target = .ok (some url))
    (hv : version = "HTTP/1.0".toList ∨ version = "HTTP/1.1".toList)
    (hes : ∀ e ∈ (name, value) :: es, WireHeader e) (hname : 2 ≤ name.length) :
    Request.parse maxUrlLength (m.toString ++ ' ' :: target ++ ' ' :: version ++ crlf ++
        serializeEntries ((name, value) :: es) ++ crlf ++ body) =
      .ok (some ⟨m, url, version, [], ⟨(name.drop 2, value) :: es⟩, []⟩) := by
  have hw : ∀ e ∈ (name.drop 2, value) :: es, WireHeader e := by
    obtain ⟨⟨hcolon, hws⟩, hcr1, hcr2⟩ := hes (name, value) (List.mem_cons_self _ _)
    intro e he
    rcases List.mem_cons.mp he with rfl | he
    · exact ⟨⟨fun h => hcolon (List.mem_of_mem_drop h), hws⟩, fun h => hcr1 (List.mem_of_mem_drop h),
        hcr2⟩
    · exact hes e (List.mem_cons_of_mem _ he)
  have hh := parseHeaderLines_serializeEntries hw
    (m.toString ++ ' ' :: target ++ ' ' :: version ++ crlf ++ name.take 2) body []
  have hsplit : m.toString ++ ' ' :: target ++ ' ' :: version ++ crlf ++
      serializeEntries ((name, value) :: es) ++ crlf ++ body =
      m.toString ++ ' ' :: target ++ ' ' :: version ++ crlf ++
        (name.take 2 ++ serializeEntries ((name.drop 2, value) :: es) ++ crlf ++ body) := by
    simp only [serializeEntries, List.append_assoc]
    rw [← List.append_assoc (name.take 2) (name.drop 2), List.take_append_drop]
  have hpos : (m.toString ++ ' ' :: target ++ ' ' :: version ++ crlf ++ name.take 2).length =
      (m.toString ++ ' ' :: target ++ ' ' :: version).length + 4 := by
    simp only [List.length_append, crlf, List.length_cons, List.length_nil, List.length_take,
      Nat.min_eq_left hname]
  rw [hpos, List.nil_append] at hh
  rw [hsplit]
  exact Request.parse_of_head hsp hcr hlt hurl hv ⟨_, by simpa only [List.append_assoc] using hh⟩

end Htcpp.Http
