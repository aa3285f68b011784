import Htcpp.Http.DotSegments

/-!
# The request-target forms `Url::parse` reads

`Url::parse` cuts a target in fixed order: the fragment at the first `#`, a
scheme at the first `:`, an authority after a leading `//`, the query at the
first `?`, the params at the first `;`, and what is left must be a path
starting with `/`. This module says what comes out for each of the three
forms the spec lists, over every target of the form.

Every target that parses to a URL has a path that `removeDotSegments`
produced from a `/`-led view free of `?`, `;` and `#` (`Url.parse_eq_some`), so
the path is normalized. An origin-form target with no `:` parses to exactly
its parts. The scheme step, though, accepts every byte as a scheme character
(`isSchemeChar_eq_true`), so the first `:` of an origin-form target cuts it,
and the authority step keeps the authority in place of the path.

## Main results

* `Url.parse_path_normalized`: every parsed path starts with `/`, holds none
  of `?`, `;`, `#` and no `.` or `..` segment.
* `Url.parse_origin_form`: an origin-form target without `:` parses to its
  own path, params, query and fragment.
* `Url.parse_colon_rejected`: a `:` that is not followed by `/`, before any
  `#`, rejects the target.
* `Url.parse_absolute_rejected`: every absolute URI with a nonempty authority
  and a path is rejected.
-/

namespace Htcpp.Http

open Htcpp.StringView

/-! ## What each cut keeps -/

/-- What `splitOff` keeps before the delimiter is free of it and drawn from
the view. -/
theorem splitOff_subset {s b : Bytes} {d : Char} {x : Option Bytes} (h : splitOff s d = .ok (x, b)) :
    d ∉ b ∧ b ⊆ s := by
  rcases hk : find s d with _ | k
  · rw [splitOff_of_find_none hk] at h
    cases h
    exact ⟨findChar_eq_none.mp (by simpa [find] using hk), List.Subset.refl _⟩
  · rw [splitOff_of_find_some hk] at h
    cases h
    obtain ⟨a, c, rfl, rfl, ha⟩ := find_split hk
    exact ⟨by simpa using ha, List.take_subset _ _⟩

/-- It is also a prefix of the view. -/
theorem splitOff_isPrefix {s b : Bytes} {d : Char} {x : Option Bytes} (h : splitOff s d = .ok (x, b)) :
    b <+: s := by
  rcases hk : find s d with _ | k
  · rw [splitOff_of_find_none hk] at h
    cases h
    exact List.prefix_refl _
  · rw [splitOff_of_find_some hk] at h
    cases h
    exact List.take_prefix _ _

/-- A prefix free of the delimiter stays in front of what is kept. -/
theorem splitOff_append {p t b : Bytes} {d : Char} {x : Option Bytes} (hp : d ∉ p)
    (h : splitOff t d = .ok (x, b)) : splitOff (p ++ t) d = .ok (x, p ++ b) := by
  rcases hk : find t d with _ | k
  · rw [splitOff_of_find_none hk] at h
    cases h
    exact splitOff_of_find_none (by rw [find_append_of_not_mem hp, hk]; rfl)
  · rw [splitOff_of_find_some hk] at h
    cases h
    rw [splitOff_of_find_some (k := p.length + k)
      (by rw [find_append_of_not_mem hp, hk, Option.map_some', Nat.add_comm]),
      Nat.add_assoc, List.drop_append, List.take_append]

theorem dropScheme_subset {s t : Bytes} (h : dropScheme s = .ok t) : t ⊆ s := by
  rcases hc : find s ':' with _ | colon
  · rw [dropScheme_of_find_none hc] at h
    cases h
    exact List.Subset.refl _
  · rw [dropScheme_of_find_some hc] at h
    cases h
    exact List.drop_subset _ _

theorem skipAuthority_subset {s t : Bytes} (h : skipAuthority s = .ok t) : t ⊆ s := by
  rw [skipAuthority_eq] at h
  cases h
  split
  · split
    · exact fun c hc => List.drop_subset _ _ (List.take_subset _ _ hc)
    · exact List.drop_subset _ _
  · exact List.Subset.refl _

/-- A view that does not start with `/` has no authority to skip. -/
theorem skipAuthority_of_head {s : Bytes} (h : s.head? ≠ some '/') : skipAuthority s = .ok s := by
  rw [skipAuthority_eq, if_neg]
  rintro ⟨-, ht⟩
  rcases s with _ | ⟨c, _ | ⟨c', s⟩⟩ <;> simp_all

theorem head?_ne_of_isPrefix {u s : Bytes} {c : Char} (hu : u <+: s) (hs : s.head? ≠ some c) :
    u.head? ≠ some c := by
  obtain ⟨r, rfl⟩ := hu
  cases u <;> simp_all

/-! ## Inverting `Url::parse` -/

/-- **Inversion of `Url::parse`.** Every target other than `*` that parses to
a URL has its path made by `removeDotSegments` from a view `/t` with `t` free
of `?`, `;` and `#`, and that view is a prefix of what the scheme and
authority steps left of the target's part before `#`. -/
theorem Url.parse_eq_some {u : Bytes} {url : Url} (hstar : u ≠ "*".toList)
    (h : Url.parse u = .ok (some url)) :
    ∃ t, removeDotSegments ('/' :: t) = .ok url.path ∧ '?' ∉ t ∧ ';' ∉ t ∧ '#' ∉ t ∧
      ∃ u1 v, splitOff u '#' = .ok (url.fragment, u1) ∧ (dropScheme u1 >>= skipAuthority) = .ok v ∧
        '/' :: t <+: v := by
  unfold Url.parse at h
  obtain ⟨fragment, u1, h1⟩ := splitOff_noFault u '#'
  obtain ⟨h1', -⟩ := splitOff_subset h1
  simp only [if_neg hstar, h1, ok_bind] at h
  split at h
  · cases h
  obtain ⟨u2, h2⟩ := dropScheme_noFault u1
  obtain ⟨u2', h2'⟩ : ∃ t, skipAuthority u2 = .ok t := ⟨_, skipAuthority_eq u2⟩
  obtain ⟨query, u3, h3⟩ := splitOff_noFault u2' '?'
  obtain ⟨params, u4, h4⟩ := splitOff_noFault u3 ';'
  obtain ⟨h3', hsub3⟩ := splitOff_subset h3
  obtain ⟨h4', hsub4⟩ := splitOff_subset h4
  have hsub : u4 ⊆ u1 := fun c hc =>
    dropScheme_subset h2 (skipAuthority_subset h2' (hsub3 (hsub4 hc)))
  have hpre : u4 <+: u2' := (splitOff_isPrefix h4).trans (splitOff_isPrefix h3)
  simp only [h2, h2', h3, h4, ok_bind] at h
  split at h
  · cases h
  obtain ⟨c, t, rfl⟩ := List.exists_cons_of_ne_nil ‹_›
  rw [charAt_cons_zero, ok_bind] at h
  split at h
  · cases h
  rename_i hc
  simp only [ne_eq, Decidable.not_not] at hc
  subst hc
  obtain ⟨q, hq, -⟩ := removeDotSegments_result t
  rw [hq] at h
  cases h
  refine ⟨t, hq, fun ht => h3' (hsub4 (List.mem_cons_of_mem _ ht)),
    fun ht => h4' (List.mem_cons_of_mem _ ht), fun ht => h1' (hsub (List.mem_cons_of_mem _ ht)),
    u1, u2', h1, by rw [h2, ok_bind, h2'], hpre⟩

/-- So a target whose scheme and authority steps leave a view that does not
start with `/` is rejected. -/
theorem Url.parse_none_of_head {u u1 v : Bytes} {fragment : Option Bytes} (hstar : u ≠ "*".toList)
    (h1 : splitOff u '#' = .ok (fragment, u1)) (h2 : (dropScheme u1 >>= skipAuthority) = .ok v)
    (hv : v.head? ≠ some '/') : Url.parse u = .ok none := by
  obtain ⟨o, ho⟩ := Url.parse_noFault u
  rcases o with _ | url
  · exact ho
  obtain ⟨t, -, -, -, -, u1', v', h1', h2', hpre⟩ := Url.parse_eq_some hstar ho
  rw [h1] at h1'
  cases h1'
  rw [h2] at h2'
  cases h2'
  obtain ⟨r, rfl⟩ := hpre
  exact absurd rfl hv

/-! ## The path is normalized -/

/-- **The parsed path is normalized.** For every target other than `*` that
`Url::parse` accepts, the path starts with `/`, holds none of `?`, `;`, `#`,
and has no `.` or `..` segment. -/
theorem Url.parse_path_normalized {u : Bytes} {url : Url} (hstar : u ≠ "*".toList)
    (h : Url.parse u = .ok (some url)) :
    (∃ x, url.path = '/' :: x) ∧ '?' ∉ url.path ∧ ';' ∉ url.path ∧ '#' ∉ url.path ∧
      NoDotSegments url.path := by
  obtain ⟨t, ht, hq, hs, hh, -⟩ := Url.parse_eq_some hstar h
  obtain ⟨q, hq', hslash, hnd, hchars⟩ := removeDotSegments_result t
  rw [ht] at hq'
  cases hq'
  have hnot : ∀ c, c ≠ '/' → c ∉ t → c ∉ url.path := fun c h1 h2 hc =>
    (hchars c hc).elim h1 h2
  exact ⟨hslash, hnot _ (by decide) hq, hnot _ (by decide) hs, hnot _ (by decide) hh, hnd⟩

theorem parse_path_normalized_on_dotdot :
    "/a/../b/./c?x=1#top".toList ≠ "*".toList ∧
      Url.parse "/a/../b/./c?x=1#top".toList = .ok (some ⟨"/a/../b/./c?x=1#top".toList, "/b/c".toList,
        some "x=1".toList, none, some "top".toList⟩) ∧
      ((∃ x, "/b/c".toList = '/' :: x) ∧ '?' ∉ "/b/c".toList ∧ ';' ∉ "/b/c".toList ∧
        '#' ∉ "/b/c".toList ∧ NoDotSegments "/b/c".toList) :=
  have hstar : "/a/../b/./c?x=1#top".toList ≠ "*".toList := by decide
  have h : Url.parse "/a/../b/./c?x=1#top".toList = .ok (some ⟨"/a/../b/./c?x=1#top".toList,
      "/b/c".toList, some "x=1".toList, none, some "top".toList⟩) := by decide
  ⟨hstar, h, Url.parse_path_normalized hstar h⟩

/-! ## Origin form -/

/-- An optional part after its delimiter: nothing when absent. -/
def delimited (c : Char) : Option Bytes → Bytes
  | none => []
  | some x => c :: x

/-- The origin-form target `w [';' p] ['?' q] ['#' f]`. -/
def originForm (w : Bytes) (params query fragment : Option Bytes) : Bytes :=
  w ++ delimited ';' params ++ delimited '?' query ++ delimited '#' fragment

theorem mem_delimited {c e : Char} {x : Option Bytes} : e ∈ delimited c x ↔ ∃ y ∈ x, e = c ∨ e ∈ y := by
  cases x <;> simp [delimited]

theorem splitOff_delimited {a : Bytes} {c : Char} (x : Option Bytes) (ha : c ∉ a) :
    splitOff (a ++ delimited c x) c = .ok (x, a) := by
  cases x with
  | none => simpa [delimited] using splitOff_of_find_none (find_eq_none_of_not_mem ha)
  | some x =>
      rw [delimited, splitOff_of_find_some (find_append ha)]
      simp

theorem not_mem_delimited {c e : Char} {x : Option Bytes} (hc : e ≠ c) (hx : ∀ y ∈ x, e ∉ y) :
    e ∉ delimited c x := fun h => by
  obtain ⟨y, hy, h | h⟩ := mem_delimited.mp h
  · exact hc h
  · exact hx y hy h

/-- **An origin-form target without `:` parses to its parts.** When `w`
starts with `/` but not `//`, holds none of `;`, `?`, `#`, the params hold
neither `?` nor `#`, the query holds no `#`, and no `:` stands before the
fragment, `Url::parse` keeps the target as the raw URL and returns
`removeDotSegments w` as the path, with the params, query and fragment as
written. -/
theorem Url.parse_origin_form {w : Bytes} {params query fragment : Option Bytes}
    (hw : ∃ x, w = '/' :: x) (hww : w.take 2 ≠ "//".toList) (hwd : ';' ∉ w ∧ '?' ∉ w ∧ '#' ∉ w)
    (hp : ∀ p ∈ params, '?' ∉ p ∧ '#' ∉ p) (hq : ∀ q ∈ query, '#' ∉ q)
    (hcolon : ':' ∉ w ∧ (∀ p ∈ params, ':' ∉ p) ∧ ∀ q ∈ query, ':' ∉ q) :
    ∃ path, removeDotSegments w = .ok path ∧
      Url.parse (originForm w params query fragment) =
        .ok (some ⟨originForm w params query fragment, path, query, params, fragment⟩) := by
  obtain ⟨x, rfl⟩ := hw
  obtain ⟨path, hpath, -⟩ := removeDotSegments_result x
  refine ⟨path, hpath, ?_⟩
  have hB : ∀ e, e ≠ ';' → e ≠ '?' → e ∉ '/' :: x → (∀ p ∈ params, e ∉ p) → (∀ q ∈ query, e ∉ q) →
      e ∉ '/' :: x ++ delimited ';' params ++ delimited '?' query := fun e h1 h2 hx hp' hq' => by
    simp only [List.mem_append, not_or]
    exact ⟨⟨hx, not_mem_delimited h1 hp'⟩, not_mem_delimited h2 hq'⟩
  have hhash := hB '#' (by decide) (by decide) hwd.2.2 (fun p hp' => (hp p hp').2) hq
  have hcol := hB ':' (by decide) (by decide) hcolon.1 hcolon.2.1 hcolon.2.2
  have hskip : ¬ (2 ≤ ('/' :: x ++ delimited ';' params ++ delimited '?' query).length ∧
      ('/' :: x ++ delimited ';' params ++ delimited '?' query).take 2 = "//".toList) := by
    rintro ⟨-, h2⟩
    cases x with
    | nil => cases params <;> cases query <;> simp [delimited] at h2
    | cons y x => exact hww (by simpa using h2)
  have hA : ';' ∉ '/' :: x := hwd.1
  have hA' : '?' ∉ '/' :: x ++ delimited ';' params := by
    simp only [List.mem_append, not_or]
    exact ⟨hwd.2.1, not_mem_delimited (by decide) fun p hp' => (hp p hp').1⟩
  have hstar : '/' :: x ++ delimited ';' params ++ delimited '?' query ++ delimited '#' fragment ≠
      "*".toList := by simp
  have hBne : '/' :: x ++ delimited ';' params ++ delimited '?' query ≠ [] := by simp
  unfold Url.parse originForm
  simp only [if_neg hstar, splitOff_delimited fragment hhash, ok_bind, if_neg hBne,
    dropScheme_of_find_none (find_eq_none_of_not_mem hcol), skipAuthority_eq, if_neg hskip,
    splitOff_delimited query hA', splitOff_delimited params hA, if_neg (List.cons_ne_nil _ _),
    charAt_cons_zero, ne_eq, not_true_eq_false, if_false, hpath]
  rfl

/-- `/a/../b;p?q=1#top:1` parses to its parts, with the dot segments of the
path removed. -/
theorem parse_origin_form_with_parts :
    ∃ path, removeDotSegments "/a/../b".toList = .ok path ∧
      Url.parse (originForm "/a/../b".toList (some "p".toList) (some "q=1".toList) (some "top:1".toList)) =
        .ok (some ⟨originForm "/a/../b".toList (some "p".toList) (some "q=1".toList)
          (some "top:1".toList), path, some "q=1".toList, some "p".toList, some "top:1".toList⟩) :=
  Url.parse_origin_form ⟨"a/../b".toList, rfl⟩ (by decide) (by decide) (by decide) (by decide)
    (by decide)

/-! ## Where a colon cuts -/

/-- **A colon cuts the target.** Since `isSchemeChar` holds of every byte, the
scheme step drops everything up to the first `:` before any `#`; when what
follows does not start with `/`, no path is left and the target is rejected.
This covers a `:` in a path segment or in the query of an origin-form
target. -/
theorem Url.parse_colon_rejected {a b : Bytes} (ha : ':' ∉ a ∧ '#' ∉ a) (hb : b.head? ≠ some '/') :
    Url.parse (a ++ ':' :: b) = .ok none := by
  obtain ⟨x, b', hb'⟩ := splitOff_noFault b '#'
  have h1 := splitOff_append (p := a ++ [':']) (by simp [ha.2]) hb'
  simp only [List.append_assoc, List.singleton_append] at h1
  refine Url.parse_none_of_head (fun h => by simpa using congrArg (':' ∈ ·) h) h1 ?_
    (head?_ne_of_isPrefix (splitOff_isPrefix hb') hb)
  rw [dropScheme_of_find_some (find_append ha.1), List.drop_append, List.drop_one, List.tail_cons, ok_bind,
    skipAuthority_of_head (head?_ne_of_isPrefix (splitOff_isPrefix hb') hb)]

/-- A colon in a path segment or in the query rejects the target; one right
before a `/` cuts the path there. -/
theorem origin_form_with_colon_misparsed :
    Url.parse "/a:b".toList = .ok none ∧ Url.parse "/p?t=1:2".toList = .ok none ∧
      Url.parse "/a:/b".toList = .ok (some ⟨"/a:/b".toList, "/b".toList, none, none, none⟩) :=
  ⟨@Url.parse_colon_rejected "/a".toList "b".toList (by decide) (by decide),
    @Url.parse_colon_rejected "/p?t=1".toList "2".toList (by decide) (by decide), by decide⟩

/-! ## Absolute form -/

/-- **Every absolute URI with an authority is rejected.** The authority step
takes `substr(2, find("/", 2))`, a count where an end position is meant, so the
view it leaves starts with the authority instead of the path: for every
scheme free of `:` and `#`, every nonempty authority free of `/` and `#`, and
every path, `Url::parse` returns no URL. -/
theorem Url.parse_absolute_rejected {scheme authority t : Bytes} (hs : ':' ∉ scheme ∧ '#' ∉ scheme)
    (ha : authority ≠ [] ∧ '/' ∉ authority ∧ '#' ∉ authority) (ht : ∃ x, t = '/' :: x) :
    Url.parse (scheme ++ "://".toList ++ authority ++ t) = .ok none := by
  obtain ⟨x, rfl⟩ := ht
  obtain ⟨f, x', hx'⟩ := splitOff_noFault x '#'
  have h1 := splitOff_append (p := scheme ++ "://".toList ++ authority ++ ['/']) (by simp [hs.2, ha.2.2]) hx'
  obtain ⟨c, a, rfl⟩ := List.exists_cons_of_ne_nil ha.1
  have hc : c ≠ '/' := fun e => ha.2.1 (e ▸ List.mem_cons_self c a)
  simp only [List.append_assoc, List.singleton_append] at h1
  refine Url.parse_none_of_head (fun h => by simpa using congrArg (':' ∈ ·) h) (by simpa using h1) (v := c :: (a ++ '/' :: x').take (a.length + 2)) ?_ (by simpa using hc)
  have hfind : findStr ('/' :: '/' :: c :: (a ++ '/' :: x')) "/".toList 2 = some (a.length + 3) := by
    have := findSub_append (b := x') (p := []) ha.2.1
    simp only [List.cons_append, List.nil_append, List.append_assoc, List.length_cons] at this
    simp [findStr, this]
  rw [dropScheme_of_find_some (find_append hs.1), List.drop_append, List.drop_one, List.tail_cons, ok_bind,
    skipAuthority_eq, if_pos (by simp), hfind]
  rfl

/-- `http://h:80/a` is rejected, though its path `/a` on its own parses. -/
theorem absolute_form_misparsed :
    Url.parse "http://h:80/a".toList = .ok none ∧
      Url.parse "/a".toList = .ok (some ⟨"/a".toList, "/a".toList, none, none, none⟩) :=
  ⟨@Url.parse_absolute_rejected "http".toList "h:80".toList "/a".toList (by decide) (by decide)
    ⟨"a".toList, rfl⟩, by decide⟩

end Htcpp.Http
