import Mathlib.Data.List.Basic

/-!
# `std::string_view` over byte lists

The codec in `http.cpp` works on `std::string_view` through `find`, `rfind`,
`substr` and `operator[]`, and the sessions resize `std::string` buffers in
place. Here a view is a list of bytes, a position is a `Nat`, and `npos` is
`none`.

Two of these operations can leave the normal control flow of the C++ code:
`substr` throws `std::out_of_range` when its start position lies past the
end, and `operator[]` past the end is undefined behaviour. Both are `Fault`s
of the `Except Fault` monad, next to a failed `assert`, so that "the parser
never throws and never fails an assertion" becomes "the model never returns
`.error`".
-/

namespace Htcpp.StringView

/-- Bytes of a `std::string` or a `std::string_view`. -/
abbrev Bytes := List Char

/-- The ways the C++ code leaves its normal control flow. -/
inductive Fault
  /-- `std::out_of_range` from `substr` with a start position past the end. -/
  | outOfRange
  /-- `operator[]` with an index past the end. -/
  | badIndex
  /-- A failed `assert`. -/
  | assertFailed
  /-- `size() - recvLen + readBytes` wrapped below zero before a `resize`. -/
  | sizeWrap
  /-- A call of an empty `std::function`, which throws `std::bad_function_call`. -/
  | badCall
  deriving DecidableEq, Repr

instance Except.decEq {ε α : Type} [DecidableEq ε] [DecidableEq α] : DecidableEq (Except ε α)
  | .ok a, .ok b =>
      if h : a = b then isTrue (h ▸ rfl) else isFalse (fun e => h (Except.ok.inj e))
  | .error a, .error b =>
      if h : a = b then isTrue (h ▸ rfl) else isFalse (fun e => h (Except.error.inj e))
  | .ok _, .error _ => isFalse Except.noConfusion
  | .error _, .ok _ => isFalse Except.noConfusion

/-- The computation ends normally, with no `Fault`. -/
def NoFault {α : Type} (x : Except Fault α) : Prop := ∃ a, x = .ok a

section Monad

variable {α β : Type}

@[simp] theorem ok_bind (a : α) (f : α → Except Fault β) : (Except.ok a >>= f) = f a := rfl

@[simp] theorem error_bind (e : Fault) (f : α → Except Fault β) :
    (Except.error e >>= f) = Except.error e := rfl

@[simp] theorem pure_eq_ok (a : α) : (pure a : Except Fault α) = .ok a := rfl

@[simp] theorem throw_eq_error (e : Fault) : (throw e : Except Fault α) = .error e := rfl

@[simp] theorem noFault_ok (a : α) : NoFault (Except.ok a : Except Fault α) := ⟨a, rfl⟩

/-- Peel one bind of a computation that ended normally. -/
theorem bind_eq_ok {x : Except Fault α} {f : α → Except Fault β} {b : β} :
    (x >>= f) = .ok b ↔ ∃ a, x = .ok a ∧ f a = .ok b := by
  cases x <;> simp

theorem NoFault.bind {x : Except Fault α} {f : α → Except Fault β} (hx : NoFault x)
    (hf : ∀ a, x = .ok a → NoFault (f a)) : NoFault (x >>= f) := by
  obtain ⟨a, rfl⟩ := hx
  exact hf a rfl

end Monad

/-! ## Searching -/

/-- Index of the first `c` in `s`. -/
def findChar (c : Char) : Bytes → Option Nat
  | [] => none
  | x :: xs => if x = c then some 0 else (findChar c xs).map (· + 1)

/-- `s.find(c, pos)`: the first index at or after `pos` holding `c`. -/
def find (s : Bytes) (c : Char) (pos : Nat := 0) : Option Nat :=
  (findChar c (s.drop pos)).map (· + pos)

/-- Index of the first occurrence of the pattern `pat` in `s`. -/
def findSub (pat : Bytes) : Bytes → Option Nat
  | [] => if pat = [] then some 0 else none
  | x :: xs => if pat.isPrefixOf (x :: xs) then some 0 else (findSub pat xs).map (· + 1)

/-- `s.find(pat, pos)` for a string pattern. -/
def findStr (s pat : Bytes) (pos : Nat := 0) : Option Nat :=
  if pos ≤ s.length then (findSub pat (s.drop pos)).map (· + pos) else none

/-- `s.rfind(c)`: the last index holding `c`. -/
def rfind (s : Bytes) (c : Char) : Option Nat :=
  (findChar c s.reverse).map (s.length - 1 - ·)

/-! ## Slicing and indexing -/

/-- `s.substr(pos, count)`; a `count` of `none` is `npos`, which takes the
rest of the view. -/
def substr (s : Bytes) (pos : Nat) (count : Option Nat := none) : Except Fault Bytes :=
  if pos ≤ s.length then
    match count with
    | none => .ok (s.drop pos)
    | some n => .ok ((s.drop pos).take n)
  else .error .outOfRange

/-- `s[i]`. -/
def charAt (s : Bytes) (i : Nat) : Except Fault Char :=
  if h : i < s.length then .ok (s.get ⟨i, h⟩) else .error .badIndex

/-- `std::string::resize(n)`: truncate, or pad with NUL bytes. -/
def resize (s : Bytes) (n : Nat) : Bytes :=
  s.take n ++ List.replicate (n - s.length) '\x00'

/-- The line terminator `\r\n`. -/
def crlf : Bytes := ['\r', '\n']

/-! ## Specifications -/

section Find

variable {c : Char} {s pat : Bytes} {pos k : Nat}

theorem findChar_spec : ∀ {s : Bytes} {k : Nat}, findChar c s = some k →
    ∃ hk : k < s.length, s.get ⟨k, hk⟩ = c ∧ ∀ j < k, ∀ hj : j < s.length, s.get ⟨j, hj⟩ ≠ c
  | [], _, h => by simp [findChar] at h
  | x :: xs, k, h => by
      unfold findChar at h
      split at h
      · cases h
        exact ⟨by simp, by simpa, fun j hj => absurd hj (Nat.not_lt_zero j)⟩
      · obtain ⟨k', hk', rfl⟩ := Option.map_eq_some'.mp h
        obtain ⟨hlt, hget, hmin⟩ := findChar_spec hk'
        refine ⟨by simpa using hlt, by simpa using hget, fun j hj hjl => ?_⟩
        cases j with
        | zero => simpa
        | succ j => simpa using hmin j (by omega) (by simpa using hjl)

theorem findChar_eq_none : ∀ {s : Bytes}, findChar c s = none ↔ c ∉ s
  | [] => by simp [findChar]
  | x :: xs => by
      unfold findChar
      split
      · simp_all
      · simp [findChar_eq_none (s := xs), Ne.symm ‹_›]

theorem find_spec (h : find s c pos = some k) :
    pos ≤ k ∧ ∃ hk : k < s.length, s.get ⟨k, hk⟩ = c := by
  obtain ⟨k', hk', rfl⟩ := Option.map_eq_some'.mp h
  obtain ⟨hlt, hget, -⟩ := findChar_spec hk'
  refine ⟨by omega, by simp at hlt; omega, ?_⟩
  simpa [List.getElem_drop, Nat.add_comm] using hget

theorem find_eq_none_of_not_mem (h : c ∉ s) : find s c = none := by
  simp [find, findChar_eq_none.mpr h]

theorem find_lt_length (h : find s c pos = some k) : k < s.length :=
  (find_spec h).2.1

theorem le_find (h : find s c pos = some k) : pos ≤ k :=
  (find_spec h).1

theorem findSub_le : ∀ {s : Bytes} {k : Nat}, findSub pat s = some k → k ≤ s.length
  | [], k, h => by
      unfold findSub at h
      split at h <;> simp_all
  | x :: xs, k, h => by
      unfold findSub at h
      split at h
      · cases h; simp
      · obtain ⟨k', hk', rfl⟩ := Option.map_eq_some'.mp h
        simpa using findSub_le hk'

theorem findStr_spec (h : findStr s pat pos = some k) : pos ≤ k ∧ k ≤ s.length := by
  unfold findStr at h
  split at h
  · obtain ⟨k', hk', rfl⟩ := Option.map_eq_some'.mp h
    have := findSub_le hk'
    simp at this
    omega
  · cases h

/-- A found character splits the view around its first occurrence. -/
theorem findChar_split : ∀ {s : Bytes} {k : Nat}, findChar c s = some k →
    ∃ a b, s = a ++ c :: b ∧ a.length = k ∧ c ∉ a
  | [], _, h => by simp [findChar] at h
  | x :: xs, k, h => by
      unfold findChar at h
      split at h
      · cases h
        exact ⟨[], xs, by simp_all, rfl, by simp⟩
      · obtain ⟨k', hk', rfl⟩ := Option.map_eq_some'.mp h
        obtain ⟨a, b, rfl, rfl, hc⟩ := findChar_split hk'
        exact ⟨x :: a, b, rfl, rfl, by simp [hc, Ne.symm ‹_›]⟩

theorem find_split (h : find s c = some k) : ∃ a b, s = a ++ c :: b ∧ a.length = k ∧ c ∉ a := by
  simpa [find] using findChar_split (c := c) (s := s) (by simpa [find] using h)

/-- A character found in the first `n` bytes splits the whole view there. -/
theorem find_take_split {n : Nat} (h : find (s.take n) c = some k) :
    ∃ a b, s = a ++ c :: b ∧ a.length = k ∧ c ∉ a ∧ k < n := by
  obtain ⟨a, u, hsplit, rfl, hc⟩ := find_split h
  have hlt : a.length < n := by
    have := congrArg List.length hsplit
    simp at this
    omega
  refine ⟨a, u ++ s.drop n, ?_, rfl, hc, hlt⟩
  calc s = s.take n ++ s.drop n := (List.take_append_drop _ _).symm
    _ = _ := by rw [hsplit]; simp

theorem findSub_split : ∀ {s : Bytes} {k : Nat}, findSub pat s = some k →
    ∃ a b, s = a ++ pat ++ b ∧ a.length = k
  | [], k, h => by
      unfold findSub at h
      split at h
      · cases h; exact ⟨[], [], by simp_all, rfl⟩
      · cases h
  | x :: xs, k, h => by
      unfold findSub at h
      split at h
      · cases h
        obtain ⟨b, hb⟩ := List.isPrefixOf_iff_prefix.mp ‹_›
        exact ⟨[], b, by simp [hb], rfl⟩
      · obtain ⟨k', hk', rfl⟩ := Option.map_eq_some'.mp h
        obtain ⟨a, b, rfl, rfl⟩ := findSub_split hk'
        exact ⟨x :: a, b, by simp, rfl⟩

theorem findStr_split (h : findStr s pat = some k) : ∃ a b, s = a ++ pat ++ b ∧ a.length = k := by
  simp only [findStr, Nat.zero_le, if_true, List.drop_zero, Option.map_eq_some', Nat.add_zero] at h
  obtain ⟨k', hk', rfl⟩ := h
  exact findSub_split hk'

/-- A character absent from `a` is first found right after `a`. -/
theorem findChar_append {a b : Bytes} (h : c ∉ a) : findChar c (a ++ c :: b) = some a.length := by
  induction a with
  | nil => simp [findChar]
  | cons x a ih =>
      have hx : x ≠ c := fun e => h (e ▸ List.mem_cons_self x a)
      simp [findChar, hx, ih (fun h' => h (List.mem_cons_of_mem x h'))]

theorem find_append {a b : Bytes} (h : c ∉ a) : find (a ++ c :: b) c = some a.length := by
  simp [find, findChar_append h]

/-- Past a prefix free of `c`, the search goes on in what follows. -/
theorem findChar_append_of_not_mem {a b : Bytes} (h : c ∉ a) :
    findChar c (a ++ b) = (findChar c b).map (· + a.length) := by
  induction a with
  | nil => simp
  | cons x a ih =>
      have hx : x ≠ c := fun e => h (e ▸ List.mem_cons_self x a)
      simp [findChar, hx, ih (fun h' => h (List.mem_cons_of_mem x h')), Option.map_map,
        Function.comp_def, Nat.add_assoc]

theorem find_append_of_not_mem {a b : Bytes} (h : c ∉ a) :
    find (a ++ b) c = (find b c).map (· + a.length) := by
  simp [find, findChar_append_of_not_mem h, Option.map_map, Function.comp_def]

/-- The same within the first `n` bytes, when `a` is shorter than `n`. -/
theorem find_take_append {a b : Bytes} {n : Nat} (h : c ∉ a) (hn : a.length < n) :
    find ((a ++ c :: b).take n) c = some a.length := by
  obtain ⟨k, rfl⟩ : ∃ k, n = a.length + (k + 1) := ⟨n - a.length - 1, by omega⟩
  rw [List.take_append_eq_append_take, List.take_of_length_le (by omega),
    show a.length + (k + 1) - a.length = k + 1 by omega, List.take_succ_cons]
  exact find_append h

/-- A pattern whose first character is absent from `a` is first found right
after `a`. -/
theorem findSub_append {a b p : Bytes} (h : c ∉ a) :
    findSub (c :: p) (a ++ c :: p ++ b) = some a.length := by
  induction a with
  | nil => simp [findSub]
  | cons x a ih =>
      have hx : x ≠ c := fun e => h (e ▸ List.mem_cons_self x a)
      have ih := ih (fun h' => h (List.mem_cons_of_mem x h'))
      simp only [List.append_assoc, List.cons_append] at ih ⊢
      simp [findSub, Ne.symm hx, ih]

/-- Searching from `pre.length`, the first CRLF is the one that ends `a` when
`a` holds no CR. -/
theorem findStr_crlf (pre a b : Bytes) (h : '\r' ∉ a) :
    findStr (pre ++ a ++ crlf ++ b) crlf pre.length = some (pre.length + a.length) := by
  have := findSub_append (b := b) (p := ['\n']) h
  simp only [crlf, List.append_assoc, List.cons_append, List.nil_append] at this ⊢
  simp [findStr, this, Nat.add_comm]

theorem rfind_lt_length (h : rfind s c = some k) : k < s.length := by
  obtain ⟨k', hk', rfl⟩ := Option.map_eq_some'.mp h
  obtain ⟨hlt, -, -⟩ := findChar_spec hk'
  simp at hlt
  omega

theorem rfind_eq_none : rfind s c = none ↔ c ∉ s := by
  simp [rfind, findChar_eq_none]

/-- The last `c` of `a ++ c :: b`, when `b` holds none, is the one after `a`. -/
theorem rfind_append {a b : Bytes} (h : c ∉ b) : rfind (a ++ c :: b) c = some a.length := by
  have hb := findChar_append (c := c) (a := b.reverse) (b := a.reverse) (by simpa using h)
  simp only [rfind, List.reverse_append, List.reverse_cons, List.append_assoc, List.singleton_append,
    hb, Option.map_some', List.length_append, List.length_cons, List.length_reverse]
  congr 1
  omega

end Find

section Slice

variable {s : Bytes} {pos i : Nat} {count : Option Nat}

theorem substr_of_le (h : pos ≤ s.length) :
    substr s pos count = .ok (match count with | none => s.drop pos | some n => (s.drop pos).take n) := by
  simp only [substr, if_pos h]
  cases count <;> rfl

@[simp] theorem substr_none (h : pos ≤ s.length) : substr s pos none = .ok (s.drop pos) :=
  substr_of_le h

@[simp] theorem substr_some {n : Nat} (h : pos ≤ s.length) :
    substr s pos (some n) = .ok ((s.drop pos).take n) :=
  substr_of_le h

@[simp] theorem substr_zero : substr s 0 count = .ok (match count with | none => s | some n => s.take n) := by
  simp [substr]
  cases count <;> rfl

theorem charAt_of_lt (h : i < s.length) : charAt s i = .ok (s.get ⟨i, h⟩) := by
  simp [charAt, h]

@[simp] theorem charAt_cons_zero {x : Char} {xs : Bytes} : charAt (x :: xs) 0 = .ok x := by
  simp [charAt]

theorem charAt_append_length {pre rest : Bytes} {x : Char} :
    charAt (pre ++ x :: rest) pre.length = .ok x := by
  rw [charAt_of_lt (by simp)]
  simp [List.getElem_append_right]

theorem resize_of_le {n : Nat} (h : n ≤ s.length) : resize s n = s.take n := by
  simp [resize, Nat.sub_eq_zero_of_le h]

@[simp] theorem length_resize (n : Nat) : (resize s n).length = n := by
  simp [resize]
  omega

end Slice

end Htcpp.StringView
