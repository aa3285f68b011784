import Htcpp.StringView

/-!
# URL parsing and `removeDotSegments`

`Url::parse` of `http.cpp` splits a request target into fragment, query and
params, drops a scheme and skips an authority, and normalises what is left
with `removeDotSegments`, the segment-at-a-time variant of RFC 3986 §5.2.4.
Every `substr`, `operator[]` and `assert` of the source is kept, as a
possible `Fault`.

## Main results

* `removeDotSegments_ok` — on every input that starts with `/`, the loop of
  `removeDotSegments` keeps its input slash-led, so its `assert`s hold and its
  `substr` and `operator[]` stay in range.
* `isSchemeLoop_eq` — the scheme check accepts every prefix: the last
  disjunct of `isAlphaNum`, `ch >= 'A' || ch <= 'Z'`, holds of every byte.
* `Url.parse_noFault` — `Url::parse` never throws and never fails an assertion.
-/

namespace Htcpp.Http

open Htcpp.StringView

/-! ## `removeDotSegments` -/

/-- The `if` chain on one segment of the input: `/.` is dropped, `/..`
truncates the output at its last slash, anything else is appended. -/
def applySegment (output segment : Bytes) : Except Fault Bytes :=
  if segment = "/.".toList then .ok output
  else if segment = "/..".toList then
    match rfind output '/' with
    | some lastSlash => .ok (resize output lastSlash)
    | none => if output = [] then .ok output else .error .assertFailed
  else .ok (output ++ segment)

/-- One pass of the body of the `while (!input.empty())` loop of
`removeDotSegments`: the output after a `break` (`.inl`), or the input and
output the next pass starts from (`.inr`). -/
def removeDotSegmentsIter (input output : Bytes) : Except Fault (Bytes ⊕ Bytes × Bytes) := do
  if (← charAt input 0) ≠ '/' then throw .assertFailed else
  if input = "/".toList then return .inl (output ++ ['/']) else
  let output ← applySegment output (← substr input 0 (find input '/' 1))
  match find input '/' 1 with
  | none => return .inl output
  | some segmentLength => return .inr ((← substr input segmentLength), output)

/-- A pass that does not break leaves a shorter input: `find('/', 1)` is at
least 1, so `input.substr(segmentLength)` drops the leading `/` at least. -/
theorem removeDotSegmentsIter_shorter {input output rest output' : Bytes}
    (h : removeDotSegmentsIter input output = .ok (.inr (rest, output'))) :
    rest.length < input.length := by
  unfold removeDotSegmentsIter at h
  obtain ⟨c, -, h⟩ := bind_eq_ok.mp h
  split at h
  · cases h
  split at h
  · cases h
  obtain ⟨segment, -, h⟩ := bind_eq_ok.mp h
  obtain ⟨output, -, h⟩ := bind_eq_ok.mp h
  split at h
  · cases h
  · rename_i k hk
    obtain ⟨r, hr, h⟩ := bind_eq_ok.mp h
    cases h
    rw [substr_none (Nat.le_of_lt (find_lt_length hk))] at hr
    cases hr
    have := le_find hk
    have := find_lt_length hk
    simp only [List.length_drop]
    omega

/-- The `while (!input.empty())` loop of `removeDotSegments`: its body,
`removeDotSegmentsIter`, repeated until it breaks. -/
@[semireducible] def removeDotSegmentsLoop (input output : Bytes) : Except Fault Bytes :=
  if input = [] then .ok output else
  match _h : removeDotSegmentsIter input output with
  | .error e => .error e
  | .ok (.inl output) => .ok output
  | .ok (.inr (rest, output)) => removeDotSegmentsLoop rest output
termination_by input.length
decreasing_by exact removeDotSegmentsIter_shorter _h

/-- The loop is its body repeated until it breaks. -/
theorem removeDotSegmentsLoop_eq {input : Bytes} (output : Bytes) (hne : input ≠ []) :
    removeDotSegmentsLoop input output = removeDotSegmentsIter input output >>= fun
      | .inl output => .ok output
      | .inr (rest, output) => removeDotSegmentsLoop rest output := by
  rw [removeDotSegmentsLoop, if_neg hne]
  split <;> rename_i h <;> rw [h] <;> rfl

/-- `removeDotSegments(input)`: its precondition is an `assert`, and an empty
result becomes `/`. -/
def removeDotSegments (input : Bytes) : Except Fault Bytes := do
  if input = [] then throw .assertFailed else
  if (← charAt input 0) ≠ '/' then throw .assertFailed else
  let output ← removeDotSegmentsLoop input []
  return if output = [] then ['/'] else output

example : removeDotSegments "/a/b/c/./../../g".toList = .ok "/a/g".toList := by decide
example : removeDotSegments "/mid/content=5/../6".toList = .ok "/mid/6".toList := by decide
example : removeDotSegments "/../".toList = .ok "/".toList := by decide

/-! ## `Url::parse` -/

/-- `isAlphaNum(ch)` as written: its last disjunct `ch >= 'A' || ch <= 'Z'`
holds for every byte. -/
def isAlphaNum (ch : Char) : Bool :=
  (ch ≥ 'a' && ch ≤ 'z') || (ch ≥ '0' && ch ≤ '9') || (ch ≥ 'A' || ch ≤ 'Z')

/-- `isSchemeChar(ch)`. -/
def isSchemeChar (ch : Char) : Bool :=
  isAlphaNum ch || ch == '+' || ch == '.' || ch == '-'

/-- The parsed request target. The client-side fields of the C++ `Url`
(`scheme`, `host`, `port`, `targetRaw`) are never assigned by `Url::parse`
and are left out. -/
structure Url where
  fullRaw : Bytes
  path : Bytes
  query : Option Bytes
  params : Option Bytes
  fragment : Option Bytes
  deriving DecidableEq, Repr, Inhabited

/-- The `for (i < colon)` loop deciding whether `[0, colon)` is a scheme. -/
@[semireducible] def isSchemeLoop (urlStr : Bytes) (colon i : Nat) : Except Fault Bool :=
  if i < colon then do
    if !isSchemeChar (← charAt urlStr i) then return false else
    isSchemeLoop urlStr colon (i + 1)
  else return true
termination_by colon - i

/-- The three splits of `Url::parse` at `#`, `?` and `;`: the part after the
first `delim`, if there is one, and the part before it. -/
def splitOff (urlStr : Bytes) (delim : Char) : Except Fault (Option Bytes × Bytes) :=
  match find urlStr delim with
  | some start => do
      let after ← substr urlStr (start + 1)
      let before ← substr urlStr 0 (some start)
      return (some after, before)
  | none => return (none, urlStr)

/-- The scheme step: drop `[0, colon]` when every byte before the first `:`
is a scheme character. -/
def dropScheme (urlStr : Bytes) : Except Fault Bytes :=
  match find urlStr ':' with
  | some colon => do
      if ← isSchemeLoop urlStr colon 0 then substr urlStr (colon + 1) else return urlStr
  | none => return urlStr

/-- The authority step, `urlStr.substr(2, urlStr.find("/", 2))` after a
leading `//`: the second argument is a count, not an end position. -/
def skipAuthority (urlStr : Bytes) : Except Fault Bytes := do
  if urlStr.length ≥ 2 then
    if (← substr urlStr 0 (some 2)) = "//".toList then
      return ← substr urlStr 2 (findStr urlStr "/".toList 2)
  return urlStr

/-- `Url::parse(urlStr)`. -/
def Url.parse (urlStr : Bytes) : Except Fault (Option Url) := do
  let url : Url := ⟨urlStr, [], none, none, none⟩
  if url.fullRaw = "*".toList then return some url else
  let (fragment, urlStr) ← splitOff urlStr '#'
  if urlStr = [] then return none else
  let urlStr ← dropScheme urlStr
  let urlStr ← skipAuthority urlStr
  let (query, urlStr) ← splitOff urlStr '?'
  let (params, urlStr) ← splitOff urlStr ';'
  if urlStr = [] then return none else
  if (← charAt urlStr 0) ≠ '/' then return none else
  let path ← removeDotSegments urlStr
  return some { url with path, query, params, fragment }

example : (Url.parse "/a/./b?x=1#top".toList) =
    .ok (some ⟨"/a/./b?x=1#top".toList, "/a/b".toList, some "x=1".toList, none, some "top".toList⟩) := by
  decide

/-! ## Safety: no `Fault` is reachable -/

/-- A view that is empty or starts with `/`: what `removeDotSegments` keeps
true of its output buffer. -/
def SlashLed (s : Bytes) : Prop := s = [] ∨ ∃ t, s = '/' :: t

theorem find_drop_slashLed {s : Bytes} {pos k : Nat} (h : find s '/' pos = some k) :
    SlashLed (s.drop k) := by
  obtain ⟨-, hk, hget⟩ := find_spec h
  right
  refine ⟨s.drop (k + 1), ?_⟩
  rw [List.drop_eq_getElem_cons hk, show s[k] = '/' by simpa using hget]

theorem SlashLed.take {s : Bytes} (h : SlashLed s) (n : Nat) : SlashLed (s.take n) := by
  rcases h with rfl | ⟨t, rfl⟩
  · simp [SlashLed]
  · cases n <;> simp [SlashLed]

theorem SlashLed.append {s t : Bytes} (hs : SlashLed s) (ht : SlashLed t) :
    SlashLed (s ++ t) := by
  rcases hs with rfl | ⟨u, rfl⟩
  · simpa
  · exact .inr ⟨u ++ t, rfl⟩

theorem applySegment_ok {output segment : Bytes} (hOut : SlashLed output)
    (hSeg : SlashLed segment) :
    ∃ output', applySegment output segment = .ok output' ∧ SlashLed output' := by
  unfold applySegment
  split
  · exact ⟨_, rfl, hOut⟩
  split
  · split
    · rename_i k hk
      exact ⟨_, rfl, by rw [resize_of_le (Nat.le_of_lt (rfind_lt_length hk))]; exact hOut.take k⟩
    · rename_i hnone
      rcases hOut with rfl | ⟨t, rfl⟩
      · exact ⟨[], rfl, .inl rfl⟩
      · simp [rfind_eq_none] at hnone
  · exact ⟨_, rfl, hOut.append hSeg⟩

/-- A pass over a slash-led input does not fault and, when it goes on, leaves
both views slash-led. -/
theorem removeDotSegmentsIter_ok {t output : Bytes} (hOut : SlashLed output) :
    ∃ r, removeDotSegmentsIter ('/' :: t) output = .ok r ∧
      ∀ rest output', r = .inr (rest, output') → SlashLed rest ∧ SlashLed output' := by
  simp only [removeDotSegmentsIter, charAt_cons_zero, ok_bind, ne_eq, not_true_eq_false, if_false]
  split
  · exact ⟨_, rfl, fun _ _ h => by cases h⟩
  cases hk : find ('/' :: t) '/' 1 with
  | none =>
      obtain ⟨o, ho, -⟩ := applySegment_ok hOut (.inr ⟨t, rfl⟩)
      simp only [substr_zero, ok_bind, ho]
      exact ⟨_, rfl, fun _ _ h => by cases h⟩
  | some k =>
      obtain ⟨o, ho, hO⟩ := applySegment_ok hOut (SlashLed.take (.inr ⟨t, rfl⟩) k)
      simp only [substr_zero, ok_bind, ho, substr_none (Nat.le_of_lt (find_lt_length hk))]
      exact ⟨_, rfl, fun _ _ h => by cases h; exact ⟨find_drop_slashLed hk, hO⟩⟩

theorem removeDotSegmentsLoop_ok (input output : Bytes) (hIn : SlashLed input)
    (hOut : SlashLed output) : NoFault (removeDotSegmentsLoop input output) := by
  induction input, output using removeDotSegmentsLoop.induct with
  | case1 output => simp [removeDotSegmentsLoop]
  | case2 input output hne e h =>
      obtain ⟨t, rfl⟩ := hIn.resolve_left hne
      obtain ⟨r, hr, -⟩ := removeDotSegmentsIter_ok (t := t) hOut
      rw [hr] at h
      cases h
  | case3 input output hne output' h => simp [removeDotSegmentsLoop_eq _ hne, h]
  | case4 input output hne rest output' h ih =>
      obtain ⟨t, rfl⟩ := hIn.resolve_left hne
      obtain ⟨r, hr, hslash⟩ := removeDotSegmentsIter_ok (t := t) hOut
      obtain ⟨hr', ho'⟩ := hslash rest output' (Except.ok.inj (hr.symm.trans h))
      rw [removeDotSegmentsLoop_eq _ hne, h, ok_bind]
      exact ih hr' ho'

theorem removeDotSegments_ok (t : Bytes) : NoFault (removeDotSegments ('/' :: t)) := by
  simp only [removeDotSegments, reduceCtorEq, if_false, charAt_cons_zero, ok_bind, ne_eq,
    not_true_eq_false]
  exact (removeDotSegmentsLoop_ok _ [] (.inr ⟨t, rfl⟩) (.inl rfl)).bind fun _ _ => noFault_ok _

/-- `isAlphaNum` accepts every byte: `ch >= 'A' || ch <= 'Z'` is always true. -/
theorem isAlphaNum_eq_true (ch : Char) : isAlphaNum ch = true := by
  have : 'A' ≤ ch ∨ ch ≤ 'Z' := by
    simp only [Char.le_def, UInt32.le_def]
    show 65 ≤ ch.val.toNat ∨ ch.val.toNat ≤ 90
    omega
  simp [isAlphaNum, this]

theorem isSchemeChar_eq_true (ch : Char) : isSchemeChar ch = true := by
  simp [isSchemeChar, isAlphaNum_eq_true]

theorem isSchemeLoop_eq {s : Bytes} {colon : Nat} (h : colon ≤ s.length) (i : Nat) :
    isSchemeLoop s colon i = .ok true := by
  induction i using isSchemeLoop.induct s colon with
  | case1 i hi ih =>
      rw [isSchemeLoop, if_pos hi, charAt_of_lt (by omega), ok_bind, isSchemeChar_eq_true]
      exact ih
  | case2 i hi => rw [isSchemeLoop, if_neg hi]; rfl

theorem splitOff_of_find_some {s : Bytes} {delim : Char} {k : Nat} (hk : find s delim = some k) :
    splitOff s delim = .ok (some (s.drop (k + 1)), s.take k) := by
  have := find_lt_length hk
  simp [splitOff, hk, substr_none (show k + 1 ≤ s.length by omega)]

theorem splitOff_of_find_none {s : Bytes} {delim : Char} (hk : find s delim = none) :
    splitOff s delim = .ok (none, s) := by
  simp [splitOff, hk]

theorem splitOff_noFault (s : Bytes) (delim : Char) : ∃ a b, splitOff s delim = .ok (a, b) := by
  rcases hk : find s delim with _ | k
  · exact ⟨_, _, splitOff_of_find_none hk⟩
  · exact ⟨_, _, splitOff_of_find_some hk⟩

theorem dropScheme_of_find_some {s : Bytes} {colon : Nat} (hc : find s ':' = some colon) :
    dropScheme s = .ok (s.drop (colon + 1)) := by
  have := find_lt_length hc
  simp [dropScheme, hc, isSchemeLoop_eq (Nat.le_of_lt this),
    substr_none (show colon + 1 ≤ s.length by omega)]

theorem dropScheme_of_find_none {s : Bytes} (hc : find s ':' = none) : dropScheme s = .ok s := by
  simp [dropScheme, hc]

theorem dropScheme_noFault (s : Bytes) : ∃ t, dropScheme s = .ok t := by
  rcases hc : find s ':' with _ | colon
  · exact ⟨_, dropScheme_of_find_none hc⟩
  · exact ⟨_, dropScheme_of_find_some hc⟩

theorem skipAuthority_eq (s : Bytes) :
    skipAuthority s = .ok (if 2 ≤ s.length ∧ s.take 2 = "//".toList then
      match findStr s "/".toList 2 with | some n => (s.drop 2).take n | none => s.drop 2
      else s) := by
  unfold skipAuthority
  by_cases h2 : 2 ≤ s.length
  · simp only [h2, if_true, substr_zero, ok_bind, true_and]
    split
    · rw [substr_of_le h2]
      cases findStr s "/".toList 2 <;> rfl
    · rfl
  · simp [h2]

/-- **`Url::parse` never faults**: no `substr` throws, no index is out of
range and no `assert` of `removeDotSegments` fails, on any input. -/
theorem Url.parse_noFault (urlStr : Bytes) : NoFault (Url.parse urlStr) := by
  unfold Url.parse
  dsimp only
  split
  · exact noFault_ok _
  obtain ⟨fragment, u1, h1⟩ := splitOff_noFault urlStr '#'
  rw [h1, ok_bind]
  dsimp only
  split
  · exact noFault_ok _
  obtain ⟨u2, h2⟩ := dropScheme_noFault u1
  obtain ⟨u2', h2'⟩ : ∃ t, skipAuthority u2 = .ok t := ⟨_, skipAuthority_eq u2⟩
  obtain ⟨query, u3, h3⟩ := splitOff_noFault u2' '?'
  rw [h2, ok_bind, h2', ok_bind, h3, ok_bind]
  dsimp only
  obtain ⟨params, u4, h4⟩ := splitOff_noFault u3 ';'
  rw [h4, ok_bind]
  dsimp only
  split
  · exact noFault_ok _
  obtain ⟨c, t, rfl⟩ := List.exists_cons_of_ne_nil ‹_›
  rw [charAt_cons_zero, ok_bind]
  split
  · exact noFault_ok _
  · rename_i hc
    simp only [ne_eq, Decidable.not_not] at hc
    subst hc
    exact (removeDotSegments_ok t).bind fun _ _ => noFault_ok _
end Htcpp.Http
