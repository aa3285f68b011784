import Htcpp.Http.Url

/-!
# `removeDotSegments` as a fold over segments

A path that starts with `/` is a list of segments, `/s₁/s₂…/sₙ`, none of which
holds a `/`. The loop of `removeDotSegments` takes one segment per pass: the
`segment` it cuts is `/sᵢ`, and `input.substr(segmentLength)` is the path of the
segments after it. So the loop is a fold of `pushSegment` over the segments,
with the output held as the path of the segments kept so far: `.` keeps them,
`..` drops the last one, anything else is appended. The comment in the source,
that it is "not very clear, why this works in all cases", is answered by
`LoopState.segments`: at every pass the input is the path of the segments not
yet read, and the output the path of segments none of which is `.` or `..`.

## Main results

* `removeDotSegmentsIter_last`, `removeDotSegmentsIter_cons`: one pass of the
  loop body applies one segment.
* `removeDotSegmentsLoop_joinSegments`: on `/s₁/…/sₙ` the loop returns the path
  of `normalizeSegments`.
* `removeDotSegments_loop_invariant`: at every pass the input starts with `/`,
  the output is a path of `/`-free segments that are neither `.` nor `..`, so
  `rfind('/')` fails only on an empty output, the pass does not fault, and a
  pass that does not break leaves a shorter input.
* `removeDotSegments_result`: the result starts with `/`, holds no byte that
  is not `/` or a byte of the input, and has no `.` or `..` segment.
* `removeDotSegments_sublist`: the result is a subsequence of the input, so
  never longer than it.
* `removeDotSegments_fixed_points`: `removeDotSegments p = p` exactly when `p`
  has no `.` or `..` segment, so `removeDotSegments` is idempotent.
-/

namespace Htcpp.Http

open Htcpp.StringView

/-! ## Paths as lists of segments -/

/-- The path `/s₁/s₂…/sₙ` of the segments `s₁, …, sₙ`. -/
def joinSegments (segs : List Bytes) : Bytes := segs.flatMap fun s => '/' :: s

@[simp] theorem joinSegments_nil : joinSegments [] = [] := rfl

@[simp] theorem joinSegments_cons (s : Bytes) (segs : List Bytes) :
    joinSegments (s :: segs) = '/' :: (s ++ joinSegments segs) := rfl

@[simp] theorem joinSegments_append (l₁ l₂ : List Bytes) :
    joinSegments (l₁ ++ l₂) = joinSegments l₁ ++ joinSegments l₂ := by
  simp [joinSegments]

theorem joinSegments_eq_nil {segs : List Bytes} : joinSegments segs = [] ↔ segs = [] := by
  cases segs <;> simp

theorem mem_joinSegments {segs : List Bytes} {c : Char} :
    c ∈ joinSegments segs ↔ ∃ s ∈ segs, c = '/' ∨ c ∈ s := by
  simp [joinSegments]

/-- Every path that starts with `/` is the path of its segments. -/
theorem exists_joinSegments (t : Bytes) :
    ∃ segs, segs ≠ [] ∧ (∀ s ∈ segs, '/' ∉ s) ∧ '/' :: t = joinSegments segs := by
  induction' h : t.length using Nat.strong_induction_on with n ih generalizing t
  · cases hk : findChar '/' t with
      | none => exact ⟨[t], by simp, by simpa using findChar_eq_none.mp hk, by simp⟩
      | some k =>
          obtain ⟨a, b, rfl, -, ha⟩ := findChar_split hk
          obtain ⟨segs, hne, hsegs, hb⟩ := ih b.length (by simp at h; omega) b rfl
          refine ⟨a :: segs, by simp, ?_, by simp [← hb]⟩
          simp only [List.mem_cons, forall_eq_or_imp]
          exact ⟨ha, hsegs⟩

theorem splitOn_append_joinSegments {s : Bytes} {segs : List Bytes} (hs : '/' ∉ s)
    (hsegs : ∀ x ∈ segs, '/' ∉ x) : (s ++ joinSegments segs).splitOn '/' = s :: segs := by
  induction segs generalizing s with
  | nil =>
      simpa [List.splitOn] using List.splitOnP_eq_single (· == '/') s
        (by simpa using fun x hx (e : x = '/') => hs (e ▸ hx))
  | cons x segs ih =>
      have hx := hsegs x (List.mem_cons_self _ _)
      simp only [joinSegments_cons, List.splitOn]
      rw [List.splitOnP_first (· == '/') s (by simpa using fun x hx (e : x = '/') => hs (e ▸ hx))
        '/' (by simp)]
      exact congrArg (s :: ·) (ih hx fun y hy => hsegs y (List.mem_cons_of_mem _ hy))

/-- The `/`-separated pieces of `/s₁/…/sₙ` are the empty piece before the first
`/`, then the segments. -/
theorem splitOn_joinSegments {segs : List Bytes} (hsegs : ∀ x ∈ segs, '/' ∉ x) (hne : segs ≠ []) :
    (joinSegments segs).splitOn '/' = [] :: segs := by
  obtain ⟨s, segs, rfl⟩ := List.exists_cons_of_ne_nil hne
  have h := splitOn_append_joinSegments (hsegs s (List.mem_cons_self _ _))
    fun x hx => hsegs x (List.mem_cons_of_mem _ hx)
  simp only [List.splitOn] at h ⊢
  simp [h]

theorem joinSegments_inj {xs ys : List Bytes} (hx : ∀ s ∈ xs, '/' ∉ s) (hy : ∀ s ∈ ys, '/' ∉ s)
    (hxne : xs ≠ []) (hyne : ys ≠ []) (h : joinSegments xs = joinSegments ys) : xs = ys := by
  have := congrArg (List.splitOn '/') h
  rw [splitOn_joinSegments hx hxne, splitOn_joinSegments hy hyne] at this
  exact List.cons.inj this |>.2

/-! ## What one segment does to the output -/

/-- A segment that is `.` or `..`. -/
def DotSegment (s : Bytes) : Prop := s = ".".toList ∨ s = "..".toList

instance DotSegment.decidable : DecidablePred DotSegment := fun s =>
  inferInstanceAs (Decidable (s = ".".toList ∨ s = "..".toList))

/-- No `/`-separated segment of the path is `.` or `..`. -/
def NoDotSegments (p : Bytes) : Prop := ∀ seg ∈ p.splitOn '/', ¬ DotSegment seg

instance NoDotSegments.decidable : DecidablePred NoDotSegments := fun p =>
  inferInstanceAs (Decidable (∀ seg ∈ p.splitOn '/', ¬ DotSegment seg))

theorem noDotSegments_joinSegments {segs : List Bytes} (hsegs : ∀ s ∈ segs, '/' ∉ s) (hne : segs ≠ []) :
    NoDotSegments (joinSegments segs) ↔ ∀ s ∈ segs, ¬ DotSegment s := by
  simp only [NoDotSegments, splitOn_joinSegments hsegs hne, List.mem_cons, forall_eq_or_imp]
  exact and_iff_right (by decide)

/-- What one segment does to the segments of the output, as the branches of
the loop body do it: `.` nothing, `..` drops the last segment, any other is
appended. -/
def pushSegment (acc : List Bytes) (s : Bytes) : List Bytes :=
  if s = ".".toList then acc else if s = "..".toList then acc.dropLast else acc ++ [s]

/-- The segments `removeDotSegments` keeps of a path's segments. -/
def normalizeSegments (segs : List Bytes) : List Bytes := segs.foldl pushSegment []

theorem mem_pushSegment {acc : List Bytes} {s a : Bytes} (h : a ∈ pushSegment acc s) :
    a ∈ acc ∨ (a = s ∧ s ≠ ".".toList ∧ s ≠ "..".toList) := by
  unfold pushSegment at h
  split at h
  · exact .inl h
  split at h
  · exact .inl (List.dropLast_subset _ h)
  · rcases List.mem_append.mp h with h | h
    · exact .inl h
    · exact .inr ⟨List.mem_singleton.mp h, ‹_›, ‹_›⟩

theorem pushSegment_of_not_dot {acc : List Bytes} {s : Bytes} (h : ¬ DotSegment s) :
    pushSegment acc s = acc ++ [s] := by
  simp only [DotSegment, not_or] at h
  rw [pushSegment, if_neg h.1, if_neg h.2]

theorem length_pushSegment_le (acc : List Bytes) (s : Bytes) :
    (pushSegment acc s).length ≤ acc.length + 1 := by
  unfold pushSegment
  split
  · omega
  split
  · simp; omega
  · simp

theorem length_pushSegment_lt {acc : List Bytes} {s : Bytes} (h : DotSegment s) :
    (pushSegment acc s).length < acc.length + 1 := by
  rcases h with rfl | rfl
  · simp [pushSegment]
  · simp [pushSegment]; omega

theorem mem_foldl_pushSegment {segs acc : List Bytes} {a : Bytes} (h : a ∈ segs.foldl pushSegment acc) :
    a ∈ acc ∨ (a ∈ segs ∧ ¬ DotSegment a) := by
  induction segs generalizing acc with
  | nil => exact .inl h
  | cons s segs ih =>
      rcases ih h with h | ⟨h1, h2⟩
      · rcases mem_pushSegment h with h | ⟨rfl, h1, h2⟩
        · exact .inl h
        · exact .inr ⟨List.mem_cons_self _ _, fun hd => hd.elim h1 h2⟩
      · exact .inr ⟨List.mem_cons_of_mem _ h1, h2⟩

theorem foldl_pushSegment_of_noDot {segs : List Bytes} (acc : List Bytes)
    (h : ∀ s ∈ segs, ¬ DotSegment s) : segs.foldl pushSegment acc = acc ++ segs := by
  induction segs generalizing acc with
  | nil => simp
  | cons s segs ih =>
      rw [List.foldl_cons, pushSegment_of_not_dot (h s (List.mem_cons_self _ _)),
        ih _ fun x hx => h x (List.mem_cons_of_mem _ hx)]
      simp

theorem length_foldl_pushSegment_le (segs acc : List Bytes) :
    (segs.foldl pushSegment acc).length ≤ acc.length + segs.length := by
  induction segs generalizing acc with
  | nil => simp
  | cons s segs ih =>
      have := length_pushSegment_le acc s
      have := ih (pushSegment acc s)
      simp only [List.foldl_cons, List.length_cons]
      omega

theorem length_foldl_pushSegment_lt {segs : List Bytes} (acc : List Bytes)
    (h : ∃ s ∈ segs, DotSegment s) : (segs.foldl pushSegment acc).length < acc.length + segs.length := by
  induction segs generalizing acc with
  | nil => simp at h
  | cons s segs ih =>
      simp only [List.foldl_cons, List.length_cons]
      by_cases hs : DotSegment s
      · have : (pushSegment acc s).length < acc.length + 1 := length_pushSegment_lt hs
        have := length_foldl_pushSegment_le segs (pushSegment acc s)
        omega
      · obtain ⟨x, hx, hdot⟩ := h
        have hx' : x ∈ segs := (List.mem_cons.mp hx).resolve_left fun e => hs (e ▸ hdot)
        have := ih (pushSegment acc s) ⟨x, hx', hdot⟩
        have := length_pushSegment_le acc s
        omega

/-! ## One pass of the loop -/

theorem find_next_slash {s : Bytes} (hs : '/' ∉ s) (rest : Bytes) :
    find ('/' :: (s ++ '/' :: rest)) '/' 1 = some (s.length + 1) := by
  simp [find, findChar_append hs]

theorem find_no_next_slash {s : Bytes} (hs : '/' ∉ s) : find ('/' :: s) '/' 1 = none := by
  simp [find, findChar_eq_none.mpr hs]

/-- The `if` chain on one segment `/s` is `pushSegment` on the output's
segments: the last `/` of the output is the one that starts its last segment. -/
theorem applySegment_joinSegments {acc : List Bytes} {s : Bytes} (hacc : ∀ a ∈ acc, '/' ∉ a)
    (hs : '/' ∉ s) : applySegment (joinSegments acc) ('/' :: s) = .ok (joinSegments (pushSegment acc s)) := by
  unfold applySegment pushSegment
  by_cases h1 : s = ".".toList
  · simp [h1]
  by_cases h2 : s = "..".toList
  · subst h2
    rcases List.eq_nil_or_concat acc with rfl | ⟨acc', a, rfl⟩
    · rfl
    · have ha : '/' ∉ a := hacc a (by simp)
      have hr := rfind_append (a := joinSegments acc') ha
      simp only [joinSegments_append, joinSegments_cons, joinSegments_nil, List.append_nil] at hr ⊢
      simp [hr, resize_of_le]
  · have h1' : s ≠ ['.'] := h1
    have h2' : s ≠ ['.', '.'] := h2
    simp [h1', h2']

/-- A pass over the last segment breaks with it applied; `/` itself is the
empty segment, pushed by `output.push_back('/')`. -/
theorem removeDotSegmentsIter_last {acc : List Bytes} {s : Bytes} (hacc : ∀ a ∈ acc, '/' ∉ a)
    (hs : '/' ∉ s) :
    removeDotSegmentsIter ('/' :: s) (joinSegments acc) = .ok (.inl (joinSegments (pushSegment acc s))) := by
  unfold removeDotSegmentsIter
  simp only [charAt_cons_zero, ok_bind, ne_eq, not_true_eq_false, if_false]
  by_cases h0 : s = []
  · subst h0
    simp [pushSegment]
  · rw [if_neg (by simpa using h0), find_no_next_slash hs]
    simp [applySegment_joinSegments hacc hs]

/-- A pass over any other segment applies it and continues with the segments
after it. -/
theorem removeDotSegmentsIter_cons {acc segs : List Bytes} {s : Bytes} (hacc : ∀ a ∈ acc, '/' ∉ a)
    (hs : '/' ∉ s) (hne : segs ≠ []) :
    removeDotSegmentsIter ('/' :: (s ++ joinSegments segs)) (joinSegments acc) =
      .ok (.inr (joinSegments segs, joinSegments (pushSegment acc s))) := by
  obtain ⟨s', rest, rfl⟩ := List.exists_cons_of_ne_nil hne
  unfold removeDotSegmentsIter
  simp only [joinSegments_cons, charAt_cons_zero, ok_bind, ne_eq, not_true_eq_false, if_false,
    find_next_slash hs]
  rw [if_neg (by simp), substr_zero]
  simp only [ok_bind, List.take_succ_cons, List.take_left, applySegment_joinSegments hacc hs]
  rw [substr_none (by simp)]
  simp

/-! ## The loop is a fold over segments -/

theorem removeDotSegmentsLoop_joinSegments {segs acc : List Bytes} (hne : segs ≠ [])
    (hsegs : ∀ s ∈ segs, '/' ∉ s) (hacc : ∀ a ∈ acc, '/' ∉ a) :
    removeDotSegmentsLoop (joinSegments segs) (joinSegments acc) =
      .ok (joinSegments (segs.foldl pushSegment acc)) := by
  induction segs generalizing acc with
  | nil => exact absurd rfl hne
  | cons s segs ih =>
      have hs := hsegs s (List.mem_cons_self _ _)
      rw [removeDotSegmentsLoop_eq _ (by simp), joinSegments_cons]
      by_cases hne' : segs = []
      · subst hne'
        simp only [List.append_nil, joinSegments_nil] at *
        rw [removeDotSegmentsIter_last hacc hs]
        rfl
      · rw [removeDotSegmentsIter_cons hacc hs hne', ok_bind]
        exact ih hne' (fun x hx => hsegs x (List.mem_cons_of_mem _ hx)) fun a ha =>
          (mem_pushSegment ha).elim (hacc a) fun h => h.1 ▸ hs

theorem removeDotSegments_joinSegments {segs : List Bytes} (hne : segs ≠ [])
    (hsegs : ∀ s ∈ segs, '/' ∉ s) :
    removeDotSegments (joinSegments segs) = .ok
      (if normalizeSegments segs = [] then "/".toList else joinSegments (normalizeSegments segs)) := by
  obtain ⟨s, rest, rfl⟩ := List.exists_cons_of_ne_nil hne
  have hloop := removeDotSegmentsLoop_joinSegments hne hsegs (List.forall_mem_nil _)
  simp only [joinSegments_nil] at hloop
  simp only [removeDotSegments, joinSegments_cons, reduceCtorEq, if_false, charAt_cons_zero, ok_bind,
    ne_eq, not_true_eq_false]
  rw [← joinSegments_cons, hloop, ok_bind, normalizeSegments]
  simp only [joinSegments_eq_nil]
  rfl

theorem removeDotSegments_spec (t : Bytes) :
    ∃ segs, segs ≠ [] ∧ (∀ s ∈ segs, '/' ∉ s) ∧ '/' :: t = joinSegments segs ∧
      removeDotSegments ('/' :: t) = .ok
        (if normalizeSegments segs = [] then "/".toList else joinSegments (normalizeSegments segs)) ∧
      ∀ s ∈ normalizeSegments segs, s ∈ segs ∧ ¬ DotSegment s := by
  obtain ⟨segs, hne, hsegs, ht⟩ := exists_joinSegments t
  refine ⟨segs, hne, hsegs, ht, ht ▸ removeDotSegments_joinSegments hne hsegs, fun s hs => ?_⟩
  exact (mem_foldl_pushSegment hs).resolve_left (List.not_mem_nil _)

theorem removeDotSegments_result (t : Bytes) :
    ∃ q, removeDotSegments ('/' :: t) = .ok q ∧ (∃ x, q = '/' :: x) ∧ NoDotSegments q ∧
      ∀ c ∈ q, c = '/' ∨ c ∈ t := by
  obtain ⟨segs, hne, hsegs, ht, hrds, hnorm⟩ := removeDotSegments_spec t
  refine ⟨_, hrds, ?_, ?_, ?_⟩
  · split
    · exact ⟨[], rfl⟩
    · obtain ⟨s, rest, h⟩ := List.exists_cons_of_ne_nil ‹_›
      exact ⟨_, by rw [h, joinSegments_cons]⟩
  · split
    · decide
    · exact (noDotSegments_joinSegments (fun s hs => hsegs s (hnorm s hs).1) ‹_›).mpr
        fun s hs => (hnorm s hs).2
  · intro c hc
    split at hc
    · exact .inl (by simpa using hc)
    · obtain ⟨s, hs, hcs⟩ := mem_joinSegments.mp hc
      have : c ∈ '/' :: t := ht ▸ mem_joinSegments.mpr ⟨s, (hnorm s hs).1, hcs⟩
      simpa [eq_comm] using this

/-- `pushSegment` keeps, drops or appends: it never writes a segment it was
not given. -/
theorem foldl_pushSegment_sublist (segs acc : List Bytes) :
    List.Sublist (segs.foldl pushSegment acc) (acc ++ segs) := by
  induction segs generalizing acc with
  | nil => simp
  | cons s segs ih =>
      have hpush : List.Sublist (pushSegment acc s) (acc ++ [s]) := by
        unfold pushSegment
        split_ifs
        · exact List.sublist_append_left _ _
        · exact (List.dropLast_sublist _).trans (List.sublist_append_left _ _)
        · exact List.Sublist.refl _
      simpa using (ih (pushSegment acc s)).trans (hpush.append_right segs)

theorem joinSegments_sublist {xs ys : List Bytes} (h : List.Sublist xs ys) :
    List.Sublist (joinSegments xs) (joinSegments ys) := by
  induction h with
  | slnil => exact .slnil
  | cons s _ ih =>
      rw [joinSegments_cons]
      exact ih.trans ((List.sublist_append_right _ _).cons _)
  | cons₂ s _ ih =>
      rw [joinSegments_cons, joinSegments_cons]
      exact (ih.append_left s).cons₂ _

/-- **`removeDotSegments` only deletes.** Its output is a subsequence of its
input, so it is never longer: the `output.reserve(input.size())` of the source
is never exceeded. -/
theorem removeDotSegments_sublist (t : Bytes) :
    ∃ q, removeDotSegments ('/' :: t) = .ok q ∧ List.Sublist q ('/' :: t) := by
  obtain ⟨segs, hne, -, ht, hrds, -⟩ := removeDotSegments_spec t
  refine ⟨_, hrds, ht ▸ ?_⟩
  split
  · obtain ⟨s, rest, rfl⟩ := List.exists_cons_of_ne_nil hne
    simp
  · exact joinSegments_sublist (by simpa using foldl_pushSegment_sublist segs [])

/-! ## The loop invariant -/

/-- The states in which the loop of `removeDotSegments p` starts a pass: the
first, and each one a pass continues with. -/
inductive LoopState (p : Bytes) : Bytes → Bytes → Prop
  | start : LoopState p p []
  | next {input output input' output' : Bytes} : LoopState p input output →
      removeDotSegmentsIter input output = .ok (.inr (input', output')) → LoopState p input' output'

/-- At every pass the input is the path of the segments not yet read, and the
output the path of segments none of which is `.` or `..`. -/
theorem LoopState.segments {t input output : Bytes} (h : LoopState ('/' :: t) input output) :
    ∃ segs acc, segs ≠ [] ∧ (∀ s ∈ segs, '/' ∉ s) ∧ input = joinSegments segs ∧
      (∀ a ∈ acc, '/' ∉ a ∧ ¬ DotSegment a) ∧ output = joinSegments acc := by
  induction h with
  | start =>
      obtain ⟨segs, hne, hsegs, ht⟩ := exists_joinSegments t
      exact ⟨segs, [], hne, hsegs, ht, by simp, rfl⟩
  | next _ hiter ih =>
      obtain ⟨segs, acc, hne, hsegs, rfl, hacc, rfl⟩ := ih
      obtain ⟨s, rest, rfl⟩ := List.exists_cons_of_ne_nil hne
      have hs := hsegs s (List.mem_cons_self _ _)
      by_cases hrest : rest = []
      · subst hrest
        rw [joinSegments_cons, joinSegments_nil, List.append_nil,
          removeDotSegmentsIter_last (fun a ha => (hacc a ha).1) hs] at hiter
        cases hiter
      · rw [joinSegments_cons, removeDotSegmentsIter_cons (fun a ha => (hacc a ha).1) hs hrest] at hiter
        cases hiter
        refine ⟨rest, pushSegment acc s, hrest, fun x hx => hsegs x (List.mem_cons_of_mem _ hx), rfl,
          fun a ha => ?_, rfl⟩
        rcases mem_pushSegment ha with ha | ⟨rfl, h1, h2⟩
        · exact hacc a ha
        · exact ⟨hs, fun hd => hd.elim h1 h2⟩

/-- **The loop invariant of `removeDotSegments`.** For every input that starts
with `/`, at every pass of the loop: the input starts with `/` (so is not
empty); the output is a path of `/`-free segments none of which is `.` or `..`,
so `output.rfind('/')` is `npos` only on an empty output; the pass does not
fault, so the `assert`s of the loop body hold; and a pass that does not break
leaves a shorter input. -/
theorem removeDotSegments_loop_invariant {t input output : Bytes} (h : LoopState ('/' :: t) input output) :
    (∃ rest, input = '/' :: rest) ∧
      (∃ segs, output = joinSegments segs ∧ ∀ s ∈ segs, '/' ∉ s ∧ ¬ DotSegment s) ∧
      (rfind output '/' = none → output = []) ∧
      ∃ r, removeDotSegmentsIter input output = .ok r ∧
        ∀ input' output', r = .inr (input', output') → input'.length < input.length := by
  obtain ⟨segs, acc, hne, hsegs, rfl, hacc, rfl⟩ := h.segments
  obtain ⟨s, rest, rfl⟩ := List.exists_cons_of_ne_nil hne
  have hs := hsegs s (List.mem_cons_self _ _)
  have hacc' : ∀ a ∈ acc, '/' ∉ a := fun a ha => (hacc a ha).1
  refine ⟨⟨_, joinSegments_cons _ _⟩, ⟨acc, rfl, hacc⟩, fun hr => ?_, ?_⟩
  · cases acc with
    | nil => rfl
    | cons a acc => exact absurd (rfind_eq_none.mp hr) (by simp)
  · by_cases hrest : rest = []
    · subst hrest
      refine ⟨_, by rw [joinSegments_cons, joinSegments_nil, List.append_nil,
        removeDotSegmentsIter_last hacc' hs], fun _ _ h => by cases h⟩
    · refine ⟨_, by rw [joinSegments_cons, removeDotSegmentsIter_cons hacc' hs hrest],
        fun _ _ h => ?_⟩
      cases h
      simp only [joinSegments_cons, List.length_cons, List.length_append]
      omega

/-- The pass after `/a` and `/..` of `/a/../b`. -/
theorem loop_invariant_after_dotdot :
    LoopState ('/' :: "a/../b".toList) "/b".toList [] ∧
      ((∃ rest, "/b".toList = '/' :: rest) ∧
        (∃ segs, ([] : Bytes) = joinSegments segs ∧ ∀ s ∈ segs, '/' ∉ s ∧ ¬ DotSegment s) ∧
        (rfind ([] : Bytes) '/' = none → ([] : Bytes) = []) ∧
        ∃ r, removeDotSegmentsIter "/b".toList [] = .ok r ∧
          ∀ input' output', r = .inr (input', output') → input'.length < "/b".toList.length) :=
  have h₁ : LoopState ('/' :: "a/../b".toList) "/../b".toList "/a".toList := .next .start (by decide)
  have h₂ : LoopState ('/' :: "a/../b".toList) "/b".toList [] := .next h₁ (by decide)
  ⟨h₂, removeDotSegments_loop_invariant h₂⟩

/-! ## Fixed points -/

theorem removeDotSegments_eq_self_iff (t : Bytes) :
    removeDotSegments ('/' :: t) = .ok ('/' :: t) ↔ NoDotSegments ('/' :: t) := by
  obtain ⟨segs, hne, hsegs, ht, hrds, hnorm⟩ := removeDotSegments_spec t
  have hnormSlash : ∀ s ∈ normalizeSegments segs, '/' ∉ s := fun s hs => hsegs s (hnorm s hs).1
  rw [hrds, ht, noDotSegments_joinSegments hsegs hne]
  constructor
  · intro h
    by_contra hdot
    push_neg at hdot
    have hlt := length_foldl_pushSegment_lt [] hdot
    have heq : (if normalizeSegments segs = [] then [[]] else normalizeSegments segs) = segs := by
      refine joinSegments_inj ?_ hsegs (by split <;> simp_all) hne ?_
      · split
        · simp
        · exact hnormSlash
      · split <;> simp_all
    split at heq
    · subst heq
      simp [DotSegment] at hdot
    · have hshort : (normalizeSegments segs).length < segs.length := by
        simpa [normalizeSegments] using hlt
      rw [heq] at hshort
      exact lt_irrefl _ hshort
  · intro h
    have hid : normalizeSegments segs = segs := by
      simpa using foldl_pushSegment_of_noDot [] h
    rw [hid, if_neg hne]

/-- **`removeDotSegments` fixes exactly the paths without dot segments.** For
every path that starts with `/`, `removeDotSegments` returns it unchanged
exactly when none of its segments is `.` or `..`; so, since what it returns
has none, it is idempotent. -/
theorem removeDotSegments_fixed_points :
    (∀ t : Bytes, removeDotSegments ('/' :: t) = .ok ('/' :: t) ↔ NoDotSegments ('/' :: t)) ∧
      ∀ t : Bytes, (removeDotSegments ('/' :: t) >>= removeDotSegments) = removeDotSegments ('/' :: t) := by
  refine ⟨removeDotSegments_eq_self_iff, fun t => ?_⟩
  obtain ⟨q, hq, ⟨x, rfl⟩, hnd, -⟩ := removeDotSegments_result t
  rw [hq, ok_bind, (removeDotSegments_eq_self_iff x).mpr hnd]

end Htcpp.Http
