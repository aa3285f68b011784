import Htcpp.Http.DotSegments

/-!
# `removeDotSegments` against RFC 3986 §5.2.4

The comment of `removeDotSegments` names RFC 3986 §5.2.4 and says its loop is
"a bit different": it leaves the slash after a segment in the input. This
module writes the RFC's own algorithm, rules A to E on an input and an output
buffer, as `rfcRemoveDotSegments`, and compares the two on every path that
starts with `/`. Both are folds of `pushSegment` over the path's segments
(`rfcRemoveDotSegmentsLoop_joinSegments`), except at the last one: rules B and
C replace a final `/.` or `/..` by `/`, which rule E then moves to the output,
while the code's loop breaks without writing it.

## Main results

* `rfcRemoveDotSegments_eq_loop`: the RFC's result is the output of the code's
  loop, followed by `/` when the path's last segment is `.` or `..`.
* `removeDotSegments_eq_rfc_unless_final_dot`: the code returns the RFC's
  result on every path, less the RFC's final `/` when the last segment is `.`
  or `..`.
* `removeDotSegments_drops_final_slash`: `/a/.` and `/a/b/..` give `/a`, where
  the RFC gives `/a/`.
-/

namespace Htcpp.Http

open Htcpp.StringView

/-! ## The RFC's algorithm -/

/-- Modelled from RFC 3986 §5.2.4, rule C: "remove the last segment and its
preceding "/" (if any) from the output buffer". -/
def rfcRemoveLastSegment (output : Bytes) : Bytes :=
  match rfind output '/' with
  | some lastSlash => output.take lastSlash
  | none => []

/-- Modelled from RFC 3986 §5.2.4: while the input buffer is not empty, apply
the first of its rules that matches. A: drop a leading `../` or `./`. B: replace
a leading `/./`, or an input `/.`, by `/`. C: the same for `/../` and `/..`,
removing the output's last segment. D: drop an input that is `.` or `..`. E:
move the first path segment, with its leading `/` if any, up to the next `/`,
to the output. -/
@[semireducible] def rfcRemoveDotSegmentsLoop : Bytes → Bytes → Bytes
  | '.' :: '.' :: '/' :: rest, output => rfcRemoveDotSegmentsLoop rest output
  | '.' :: '/' :: rest, output => rfcRemoveDotSegmentsLoop rest output
  | '/' :: '.' :: '/' :: rest, output => rfcRemoveDotSegmentsLoop ('/' :: rest) output
  | ['/', '.'], output => rfcRemoveDotSegmentsLoop ['/'] output
  | '/' :: '.' :: '.' :: '/' :: rest, output =>
      rfcRemoveDotSegmentsLoop ('/' :: rest) (rfcRemoveLastSegment output)
  | ['/', '.', '.'], output => rfcRemoveDotSegmentsLoop ['/'] (rfcRemoveLastSegment output)
  | ['.'], output => output
  | ['.', '.'], output => output
  | [], output => output
  | c :: rest, output =>
      rfcRemoveDotSegmentsLoop (rest.dropWhile (· != '/')) (output ++ c :: rest.takeWhile (· != '/'))
termination_by input => input.length
decreasing_by
  all_goals simp_wf
  all_goals try omega
  have := (List.dropWhile_sublist (l := rest) (· != '/')).length_le
  omega

/-- `remove_dot_segments` of RFC 3986 §5.2.4, from an empty output buffer. -/
def rfcRemoveDotSegments (input : Bytes) : Bytes := rfcRemoveDotSegmentsLoop input []

example : rfcRemoveDotSegments "/a/b/c/./../../g".toList = "/a/g".toList := by decide
example : rfcRemoveDotSegments "mid/content=5/../6".toList = "mid/6".toList := by decide

/-! ## Rule by rule, on segments -/

theorem rfcRemoveLastSegment_joinSegments {acc : List Bytes} (hacc : ∀ a ∈ acc, '/' ∉ a) :
    rfcRemoveLastSegment (joinSegments acc) = joinSegments acc.dropLast := by
  rcases List.eq_nil_or_concat acc with rfl | ⟨acc', a, rfl⟩
  · rfl
  · have hr := rfind_append (a := joinSegments acc') (hacc a (by simp))
    simp only [joinSegments_append, joinSegments_cons, joinSegments_nil, List.append_nil] at hr ⊢
    simp [rfcRemoveLastSegment, hr]

/-- Rule E on an input that starts with `/`, when no rule before it matches. -/
theorem rfcRemoveDotSegmentsLoop_move {rest : Bytes} (output : Bytes)
    (hB : ∀ r, rest ≠ '.' :: '/' :: r) (hB' : rest ≠ ['.'])
    (hC : ∀ r, rest ≠ '.' :: '.' :: '/' :: r) (hC' : rest ≠ ['.', '.']) :
    rfcRemoveDotSegmentsLoop ('/' :: rest) output =
      rfcRemoveDotSegmentsLoop (rest.dropWhile (· != '/')) (output ++ '/' :: rest.takeWhile (· != '/')) :=
  rfcRemoveDotSegmentsLoop.eq_10 output '/' rest (by simp) (by simp) (fun r _ h => hB r h)
    (fun _ h => hB' h) (fun r _ h => hC r h) (fun _ h => hC' h) (by simp) (by simp)

theorem bne_slash_of_not_mem {s : Bytes} (hs : '/' ∉ s) : ∀ a ∈ s, (a != '/') = true :=
  fun _ ha => bne_iff_ne.mpr fun e => hs (e ▸ ha)

theorem takeWhile_segment {s : Bytes} (hs : '/' ∉ s) (rest : Bytes) :
    (s ++ '/' :: rest).takeWhile (· != '/') = s := by
  rw [List.takeWhile_append_of_pos (bne_slash_of_not_mem hs),
    List.takeWhile_cons_of_neg (by simp), List.append_nil]

theorem dropWhile_segment {s : Bytes} (hs : '/' ∉ s) (rest : Bytes) :
    (s ++ '/' :: rest).dropWhile (· != '/') = '/' :: rest := by
  rw [List.dropWhile_append_of_pos (bne_slash_of_not_mem hs),
    List.dropWhile_cons_of_neg (by simp)]

theorem eq_of_append_slash {s p rest rest' : Bytes} (hs : '/' ∉ s) (hp : '/' ∉ p)
    (h : s ++ '/' :: rest = p ++ '/' :: rest') : s = p := by
  have hl := congrArg (findChar '/') h
  rw [findChar_append hs, findChar_append hp] at hl
  exact (List.append_inj h (Option.some.inj hl)).1

/-- The last segment: rules B and C turn a final `.` or `..` into an empty
segment, which rule E moves to the output. -/
theorem rfcRemoveDotSegmentsLoop_last {acc : List Bytes} {s : Bytes} (hacc : ∀ a ∈ acc, '/' ∉ a)
    (hs : '/' ∉ s) :
    rfcRemoveDotSegmentsLoop ('/' :: s) (joinSegments acc) =
      joinSegments (pushSegment acc s) ++ if DotSegment s then ['/'] else [] := by
  by_cases h1 : s = ".".toList
  · subst h1
    simp [rfcRemoveDotSegmentsLoop, pushSegment, DotSegment]
  by_cases h2 : s = "..".toList
  · subst h2
    simp [rfcRemoveDotSegmentsLoop, pushSegment, DotSegment, rfcRemoveLastSegment_joinSegments hacc]
  have hslash : ∀ r : Bytes, s ≠ '.' :: '/' :: r ∧ s ≠ '.' :: '.' :: '/' :: r := fun r =>
    ⟨fun e => hs (by simp [e]), fun e => hs (by simp [e])⟩
  rw [rfcRemoveDotSegmentsLoop_move _ (fun r => (hslash r).1) h1 (fun r => (hslash r).2) h2,
    List.takeWhile_eq_self_iff.mpr (bne_slash_of_not_mem hs),
    List.dropWhile_eq_nil_iff.mpr (bne_slash_of_not_mem hs),
    rfcRemoveDotSegmentsLoop, pushSegment_of_not_dot (fun hd => hd.elim h1 h2),
    if_neg (fun hd => hd.elim h1 h2)]
  simp

/-- Any other segment: rules B, C and E do what `pushSegment` does. -/
theorem rfcRemoveDotSegmentsLoop_cons {acc : List Bytes} {s : Bytes} (hacc : ∀ a ∈ acc, '/' ∉ a)
    (hs : '/' ∉ s) (rest : Bytes) :
    rfcRemoveDotSegmentsLoop ('/' :: (s ++ '/' :: rest)) (joinSegments acc) =
      rfcRemoveDotSegmentsLoop ('/' :: rest) (joinSegments (pushSegment acc s)) := by
  by_cases h1 : s = ".".toList
  · subst h1
    simp [rfcRemoveDotSegmentsLoop, pushSegment]
  by_cases h2 : s = "..".toList
  · subst h2
    simp [rfcRemoveDotSegmentsLoop, pushSegment, rfcRemoveLastSegment_joinSegments hacc]
  rw [rfcRemoveDotSegmentsLoop_move _
      (fun r e => h1 (eq_of_append_slash (p := ['.']) hs (by decide) (by simpa using e)))
      (fun e => by simpa using congrArg (fun l => '/' ∈ l) e)
      (fun r e => h2 (eq_of_append_slash (p := ['.', '.']) hs (by decide) (by simpa using e)))
      (fun e => by simpa using congrArg (fun l => '/' ∈ l) e),
    takeWhile_segment hs, dropWhile_segment hs, pushSegment_of_not_dot (fun hd => hd.elim h1 h2)]
  simp

/-- On `/s₁/…/sₙ`, the RFC's loop is the fold of `pushSegment`, followed by a
`/` when `sₙ` is `.` or `..`. -/
theorem rfcRemoveDotSegmentsLoop_joinSegments {segs acc : List Bytes} (hne : segs ≠ [])
    (hsegs : ∀ s ∈ segs, '/' ∉ s) (hacc : ∀ a ∈ acc, '/' ∉ a) :
    rfcRemoveDotSegmentsLoop (joinSegments segs) (joinSegments acc) =
      joinSegments (segs.foldl pushSegment acc) ++
        if DotSegment (segs.getLast hne) then ['/'] else [] := by
  induction segs generalizing acc with
  | nil => exact absurd rfl hne
  | cons s segs ih =>
      have hs := hsegs s (List.mem_cons_self _ _)
      cases segs with
      | nil =>
          simpa using rfcRemoveDotSegmentsLoop_last hacc hs
      | cons s' rest =>
          rw [joinSegments_cons, joinSegments_cons, rfcRemoveDotSegmentsLoop_cons hacc hs,
            ← joinSegments_cons, List.foldl_cons, List.getLast_cons (List.cons_ne_nil _ _)]
          exact ih (List.cons_ne_nil _ _) (fun x hx => hsegs x (List.mem_cons_of_mem _ hx))
            fun a ha => (mem_pushSegment ha).elim (hacc a) fun h => h.1 ▸ hs

/-! ## The two algorithms compared -/

/-- The last `/`-separated segment of a path. -/
def lastSegment (p : Bytes) : Bytes := (p.splitOn '/').getLast (List.splitOnP_ne_nil _ _)

/-- **The RFC's algorithm and the code's loop.** On every path that starts with
`/`, `removeDotSegments` returns the output `r` of its loop, or `/` when `r` is
empty, and RFC 3986 §5.2.4 returns `r` followed by `/` when the path's last
segment is `.` or `..`, and `r` otherwise. -/
theorem rfcRemoveDotSegments_eq_loop (t : Bytes) :
    ∃ r, removeDotSegmentsLoop ('/' :: t) [] = .ok r ∧
      removeDotSegments ('/' :: t) = .ok (if r = [] then "/".toList else r) ∧
      rfcRemoveDotSegments ('/' :: t) = r ++ if DotSegment (lastSegment ('/' :: t)) then ['/'] else [] := by
  obtain ⟨segs, hne, hsegs, ht⟩ := exists_joinSegments t
  have hloop := removeDotSegmentsLoop_joinSegments hne hsegs (List.forall_mem_nil _)
  have hrfc := rfcRemoveDotSegmentsLoop_joinSegments hne hsegs (List.forall_mem_nil _)
  have hlast : lastSegment ('/' :: t) = segs.getLast hne := by
    simp only [lastSegment, ht, splitOn_joinSegments hsegs hne, List.getLast_cons hne]
  simp only [joinSegments_nil] at hloop hrfc
  refine ⟨_, ht ▸ hloop, ?_, by rw [rfcRemoveDotSegments, hlast, ht, hrfc]⟩
  simp only [removeDotSegments, reduceCtorEq, if_false, charAt_cons_zero, ok_bind, ne_eq,
    not_true_eq_false, ht ▸ hloop]
  rfl

/-- A path whose last segment is neither `.` nor `..` keeps that segment, so
the output of the loop is not empty. -/
theorem removeDotSegmentsLoop_ne_nil {t r : Bytes} (h : ¬ DotSegment (lastSegment ('/' :: t)))
    (hloop : removeDotSegmentsLoop ('/' :: t) [] = .ok r) : r ≠ [] := by
  obtain ⟨segs, hne, hsegs, ht⟩ := exists_joinSegments t
  have hlast : lastSegment ('/' :: t) = segs.getLast hne := by
    simp only [lastSegment, ht, splitOn_joinSegments hsegs hne, List.getLast_cons hne]
  have := removeDotSegmentsLoop_joinSegments hne hsegs (List.forall_mem_nil _)
  rw [joinSegments_nil, ← ht, hloop] at this
  cases this
  rw [ne_eq, joinSegments_eq_nil, ← List.dropLast_append_getLast hne, List.foldl_append,
    List.foldl_cons, List.foldl_nil, pushSegment_of_not_dot (hlast ▸ h)]
  simp

/-- **The code's result is the RFC's, but for a final `/.` or `/..`.** On every
path that starts with `/`, `removeDotSegments` returns what RFC 3986 §5.2.4
returns, except when the path's last segment is `.` or `..`: then the RFC ends
in a `/` that the code leaves out, unless that `/` is all there is. -/
theorem removeDotSegments_eq_rfc_unless_final_dot (t : Bytes) :
    removeDotSegments ('/' :: t) = .ok
      (if DotSegment (lastSegment ('/' :: t)) ∧ rfcRemoveDotSegments ('/' :: t) ≠ "/".toList then
        (rfcRemoveDotSegments ('/' :: t)).dropLast
      else rfcRemoveDotSegments ('/' :: t)) := by
  obtain ⟨r, hloop, hrds, hrfc⟩ := rfcRemoveDotSegments_eq_loop t
  rw [hrds]
  by_cases hdot : DotSegment (lastSegment ('/' :: t))
  · rw [if_pos hdot] at hrfc
    rw [hrfc]
    by_cases hr : r = []
    · subst hr
      rw [if_pos rfl, if_neg (fun h => h.2 rfl)]
      rfl
    · have hslash : r ++ ['/'] ≠ "/".toList := by simpa using hr
      rw [if_neg hr, if_pos ⟨hdot, hslash⟩, List.dropLast_concat]
  · rw [if_neg hdot, List.append_nil] at hrfc
    rw [hrfc, if_neg (removeDotSegmentsLoop_ne_nil hdot hloop),
      if_neg (show ¬ (DotSegment _ ∧ r ≠ "/".toList) from fun h => hdot h.1)]

/-- A final `.` or `..` segment: the RFC keeps the slash before it, the code
does not. -/
theorem removeDotSegments_drops_final_slash :
    removeDotSegments "/a/.".toList = .ok "/a".toList ∧ rfcRemoveDotSegments "/a/.".toList = "/a/".toList ∧
      removeDotSegments "/a/b/..".toList = .ok "/a".toList ∧
      rfcRemoveDotSegments "/a/b/..".toList = "/a/".toList := by
  decide

end Htcpp.Http
