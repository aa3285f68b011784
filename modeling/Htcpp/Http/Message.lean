import Htcpp.Http.Url

/-!
# HTTP messages: methods, header maps, requests and responses

The data model shared by the codec and both sessions. `http.hpp`, which
declares `Method`, `HeaderMap`, `Request` and `Response`, is not among the
sources, so the pieces it alone defines (the method names, the header map and
its case-insensitive lookup, `isHttpWhitespace`, `parseInt`) are modelled from
the spec; what `http.cpp` defines (`parseMethod`, the `Response`
constructors and `Response::string`) is translated from it.
-/

namespace Htcpp.Http

open Htcpp.StringView

/-! ## Methods -/

/-- The request methods of `parseMethod`. -/
inductive Method
  | get | head | post | put | delete | connect | options | trace | patch
  deriving DecidableEq, Repr, Inhabited

/-- `parseMethod(method)`: case-sensitive, as RFC 2616 §5.1.1 requires. -/
def parseMethod (method : Bytes) : Option Method :=
  if method = "GET".toList then some .get
  else if method = "HEAD".toList then some .head
  else if method = "POST".toList then some .post
  else if method = "PUT".toList then some .put
  else if method = "DELETE".toList then some .delete
  else if method = "CONNECT".toList then some .connect
  else if method = "OPTIONS".toList then some .options
  else if method = "TRACE".toList then some .trace
  else if method = "PATCH".toList then some .patch
  else none

/-- Modelled from the spec: `toString(Method)`, declared outside `src/`, gives
the upper-case name that `parseMethod` accepts. -/
def Method.toString : Method → Bytes
  | .get => "GET".toList
  | .head => "HEAD".toList
  | .post => "POST".toList
  | .put => "PUT".toList
  | .delete => "DELETE".toList
  | .connect => "CONNECT".toList
  | .options => "OPTIONS".toList
  | .trace => "TRACE".toList
  | .patch => "PATCH".toList

@[simp] theorem parseMethod_toString (m : Method) : parseMethod m.toString = some m := by
  cases m <;> decide

/-- `parseMethod` accepts exactly the method names. -/
theorem parseMethod_eq_some {x : Bytes} {m : Method} (h : parseMethod x = some m) :
    x = m.toString := by
  unfold parseMethod at h
  iterate 9
    obtain ⟨hx, h⟩ | ⟨-, h⟩ := ite_eq_iff.mp h
    · cases h; exact hx
  cases h

/-! ## Header maps -/

/-- Modelled from the spec: `isHttpWhitespace`, space or horizontal tab. -/
def isHttpWhitespace (ch : Char) : Bool := ch == ' ' || ch == '\t'

/-- Header names compare without regard to ASCII case. -/
def nameEq (a b : Bytes) : Bool := a.map Char.toLower == b.map Char.toLower

/-- Modelled from the spec: `HeaderMap` of `http.hpp`, an ordered multimap
from header name to value. -/
structure HeaderMap where
  entries : List (Bytes × Bytes)
  deriving DecidableEq, Repr, Inhabited

/-- `add(name, value)` appends an entry. -/
def HeaderMap.add (h : HeaderMap) (name value : Bytes) : HeaderMap :=
  ⟨h.entries ++ [(name, value)]⟩

/-- `get(name)`: the value of the first entry whose name matches. -/
def HeaderMap.get (h : HeaderMap) (name : Bytes) : Option Bytes :=
  (h.entries.find? fun e => nameEq e.1 name).map Prod.snd

/-- `contains(name)`. -/
def HeaderMap.contains (h : HeaderMap) (name : Bytes) : Bool := (h.get name).isSome

/-- The lines `name: value\r\n` of a list of entries, in order. -/
def serializeEntries : List (Bytes × Bytes) → Bytes
  | [] => []
  | (name, value) :: rest => name ++ ": ".toList ++ value ++ crlf ++ serializeEntries rest

/-- `serialize(buf)` appends every entry to `buf`. -/
def HeaderMap.serialize (h : HeaderMap) (buf : Bytes) : Bytes := buf ++ serializeEntries h.entries

@[simp] theorem HeaderMap.entries_add (h : HeaderMap) (name value : Bytes) :
    (h.add name value).entries = h.entries ++ [(name, value)] := rfl

/-! ## Numbers -/

/-- `std::to_string` of a non-negative number. -/
def toDecimal (n : Nat) : Bytes := (Nat.repr n).toList

/-- Modelled from the spec: `parseInt<uint64_t>` of `util.hpp`, which is not
under `src/`. The spec only says that an unparseable Content-Length is
rejected; this is the reading `std::from_chars` gives when the whole string
must be consumed: one or more decimal digits, with a value below `2 ^ 64`. -/
def parseInt (str : Bytes) : Option Nat :=
  if str ≠ [] ∧ str.all Char.isDigit then
    let value := str.foldl (fun acc c => 10 * acc + (c.toNat - '0'.toNat)) 0
    if value < Nat.pow 2 64 then some value else none
  else none

/-- With enough fuel, `Nat.toDigitsCore` puts in front of `ds` a non-empty run
of decimal digits that the fold of `parseInt` reads as `n`. -/
theorem toDigitsCore_ten : ∀ {fuel n : Nat} {ds : Bytes}, n < fuel →
    ∃ l, Nat.toDigitsCore 10 fuel n ds = l ++ ds ∧ l ≠ [] ∧ (∀ c ∈ l, c.isDigit) ∧
      l.foldl (fun acc c => 10 * acc + (c.toNat - '0'.toNat)) 0 = n
  | 0, _, _, h => absurd h (Nat.not_lt_zero _)
  | fuel + 1, n, ds, h => by
      have hd : ∀ k < 10, (Nat.digitChar k).isDigit ∧ (Nat.digitChar k).toNat - '0'.toNat = k := by
        decide
      obtain ⟨hdig, hval⟩ := hd (n % 10) (Nat.mod_lt _ (by decide))
      dsimp only [Nat.toDigitsCore]
      split
      · exact ⟨[Nat.digitChar (n % 10)], rfl, by simp, by simpa using hdig,
          by simp only [List.foldl_cons, List.foldl_nil, hval]; omega⟩
      · obtain ⟨l, hl, -, hall, hfold⟩ :=
          @toDigitsCore_ten fuel (n / 10) (Nat.digitChar (n % 10) :: ds) (by omega)
        refine ⟨l ++ [Nat.digitChar (n % 10)], by simp [hl], by simp, ?_, ?_⟩
        · simpa [or_imp, forall_and, hdig] using hall
        · simp only [List.foldl_append, hfold, List.foldl_cons, List.foldl_nil, hval]
          omega

theorem toDecimal_digits (n : Nat) :
    toDecimal n ≠ [] ∧ (∀ c ∈ toDecimal n, c.isDigit) ∧
      (toDecimal n).foldl (fun acc c => 10 * acc + (c.toNat - '0'.toNat)) 0 = n := by
  obtain ⟨l, hl, hne, hall, hfold⟩ := @toDigitsCore_ten (n + 1) n [] (Nat.lt_succ_self n)
  have : toDecimal n = l := by simpa using hl
  exact this ▸ ⟨hne, hall, hfold⟩

/-- `parseInt` reads back what `std::to_string` writes, up to its 64-bit
bound. -/
theorem parseInt_toDecimal {n : Nat} (h : n < Nat.pow 2 64) : parseInt (toDecimal n) = some n := by
  obtain ⟨hne, hall, hfold⟩ := toDecimal_digits n
  unfold parseInt
  rw [if_pos ⟨hne, List.all_eq_true.mpr hall⟩]
  dsimp only
  rw [hfold, if_pos h]

/-! ## Requests and responses -/

/-- A parsed request. `requestLine` and `body` are members that
`Request::parse` never assigns. -/
structure Request where
  method : Method
  url : Url
  version : Bytes
  requestLine : Bytes
  headers : HeaderMap
  body : Bytes
  deriving DecidableEq, Repr, Inhabited

/-- A response: numeric status code, headers in insertion order, owned body. -/
structure Response where
  status : Nat
  headers : HeaderMap
  body : Bytes
  deriving DecidableEq, Repr, Inhabited

/-- What every constructor of `Response` does: set the status and the body,
add `Connection: close`, then the `Content-Type` if the constructor has one. -/
def Response.build (status : Nat) (body : Bytes) (contentType : Option Bytes) : Response :=
  ⟨status, ⟨("Connection".toList, "close".toList) ::
    (contentType.map fun t => ("Content-Type".toList, t)).toList⟩, body⟩

/-- `Response()`; `defaultStatus` is the initial value of the status member,
declared in `http.hpp`. -/
def Response.new (defaultStatus : Nat) : Response := Response.build defaultStatus [] none

/-- `Response(body)`. -/
def Response.ofBody (defaultStatus : Nat) (body : Bytes) : Response :=
  Response.build defaultStatus body (some "text/plain".toList)

/-- `Response(body, contentType)`. -/
def Response.ofBodyType (defaultStatus : Nat) (body contentType : Bytes) : Response :=
  Response.build defaultStatus body (some contentType)

/-- `Response(code, body)`. -/
def Response.ofCode (code : Nat) (body : Bytes) : Response :=
  Response.build code body (some "text/plain".toList)

/-- `Response::string()`: status line without a reason phrase, the header
lines, an empty line, the body. -/
def Response.string (r : Response) : Bytes :=
  "HTTP/1.1 ".toList ++ toDecimal r.status ++ crlf ++ serializeEntries r.headers.entries ++ crlf ++
    r.body

example : (Response.ofCode 200 "hi".toList).string =
    "HTTP/1.1 200\r\nConnection: close\r\nContent-Type: text/plain\r\n\r\nhi".toList := by
  decide

end Htcpp.Http
