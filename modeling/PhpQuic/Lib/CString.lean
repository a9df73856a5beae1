import Mathlib.Data.List.TakeWhile

/-!
# Searches and numbers in C strings

A C string is the list of its bytes, without the NUL that ends it. Pointers into it are positions.

* `strchr`, `strrchr`: the first and the last position of a byte that is not NUL. `strchr_eq_some`,
  `strrchr_eq_some`: they split the string there; `split_last_inj`: in one way.
* `strtol`: the number at the head of a string, in base 10 and in the C locale, and what is left
  behind it. A `long` has 64 bits.
* `strtol_digits`: a string of digits is read to its end, with its value; `digits_of_strtol`: a
  string that is read to its end is all digits if it starts with one.
-/

namespace CString

variable {b c : UInt8} {s t : List UInt8} {i : Nat}

/-! ## Searches -/

def strchr (c : UInt8) : List UInt8 → Option Nat
  | [] => none
  | b :: s => if b = c then some 0 else (strchr c s).map (· + 1)

def strrchr (c : UInt8) : List UInt8 → Option Nat
  | [] => none
  | b :: s =>
    match strrchr c s with
    | some i => some (i + 1)
    | none => if b = c then some 0 else none

/-- What stands before the first `c` has none. -/
theorem strchr_eq_some :
    strchr c s = some i ↔ ∃ pre post, s = pre ++ c :: post ∧ c ∉ pre ∧ pre.length = i := by
  induction s generalizing i with
  | nil => simp [strchr]
  | cons b s ih =>
    rw [strchr]
    split
    case isTrue hb =>
      constructor
      · rintro ⟨⟩
        exact ⟨[], s, by rw [hb]; rfl, List.not_mem_nil, rfl⟩
      · rintro ⟨pre, post, heq, hpre, rfl⟩
        cases pre with
        | nil => rfl
        | cons x pre =>
          obtain ⟨rfl, -⟩ := List.cons.inj heq
          exact absurd (List.mem_cons.mpr (.inl hb.symm)) hpre
    case isFalse hb =>
      rw [Option.map_eq_some_iff]
      constructor
      · rintro ⟨j, hj, rfl⟩
        obtain ⟨pre, post, rfl, hpre, rfl⟩ := ih.mp hj
        refine ⟨b :: pre, post, rfl, ?_, rfl⟩
        simp only [List.mem_cons, not_or]
        exact ⟨Ne.symm hb, hpre⟩
      · rintro ⟨pre, post, heq, hpre, rfl⟩
        cases pre with
        | nil => exact absurd (List.cons.inj heq).1 hb
        | cons x pre =>
          obtain ⟨rfl, rfl⟩ := List.cons.inj heq
          have hpre' : c ∉ pre := fun h => hpre (List.mem_cons_of_mem _ h)
          exact ⟨pre.length, ih.mpr ⟨pre, post, rfl, hpre', rfl⟩, rfl⟩

theorem strrchr_eq_none : strrchr c s = none ↔ c ∉ s := by
  induction s with
  | nil => simp [strrchr]
  | cons b s ih =>
    rw [strrchr, List.mem_cons, not_or]
    cases hs : strrchr c s with
    | some i =>
      have hmem : ¬c ∉ s := fun h => by simp [ih.mpr h] at hs
      simp [hmem]
    | none =>
      have hmem := ih.mp hs
      simp only [hmem, ite_eq_right_iff, reduceCtorEq, imp_false, not_false_eq_true, and_true]
      exact ne_comm

/-- What stands behind the last `c` has none. -/
theorem strrchr_eq_some :
    strrchr c s = some i ↔ ∃ pre post, s = pre ++ c :: post ∧ c ∉ post ∧ pre.length = i := by
  induction s generalizing i with
  | nil => simp [strrchr]
  | cons b s ih =>
    rw [strrchr]
    cases hs : strrchr c s with
    | some j =>
      obtain ⟨pre, post, hsplit, hpost, rfl⟩ := ih.mp hs
      constructor
      · rintro ⟨⟩
        exact ⟨b :: pre, post, by rw [hsplit]; rfl, hpost, rfl⟩
      · rintro ⟨pre', post', heq, hpost', rfl⟩
        cases pre' with
        | nil =>
          obtain ⟨-, rfl⟩ := List.cons.inj heq
          exact absurd (hsplit ▸ List.mem_append_right pre List.mem_cons_self) hpost'
        | cons x pre' =>
          obtain ⟨-, heq⟩ := List.cons.inj heq
          have hj : strrchr c s = some pre'.length := ih.mpr ⟨pre', post', heq, hpost', rfl⟩
          rw [List.length_cons, Option.some.inj (hs.symm.trans hj)]
    | none =>
      have hnot := strrchr_eq_none.mp hs
      by_cases hb : b = c
      · rw [if_pos hb]
        constructor
        · rintro ⟨⟩
          exact ⟨[], s, by rw [hb]; rfl, hnot, rfl⟩
        · rintro ⟨pre, post, heq, -, rfl⟩
          cases pre with
          | nil => rfl
          | cons x pre =>
            obtain ⟨-, rfl⟩ := List.cons.inj heq
            exact absurd (List.mem_append_right pre List.mem_cons_self) hnot
      · rw [if_neg hb]
        constructor
        · rintro ⟨⟩
        · rintro ⟨pre, post, heq, -, rfl⟩
          have hmem : c ∈ b :: s := heq ▸ List.mem_append_right pre List.mem_cons_self
          rcases List.mem_cons.mp hmem with rfl | hmem
          · exact absurd rfl hb
          · exact absurd hmem hnot

/-- A byte that occurs once is found in the same place from both ends. -/
theorem strchr_eq_strrchr {pre post : List UInt8} (hpre : c ∉ pre) (hpost : c ∉ post) :
    strchr c (pre ++ c :: post) = some pre.length ∧ strrchr c (pre ++ c :: post) = some pre.length :=
  ⟨strchr_eq_some.mpr ⟨pre, post, rfl, hpre, rfl⟩, strrchr_eq_some.mpr ⟨pre, post, rfl, hpost, rfl⟩⟩

/-- The last `c` of a string splits it in one way. -/
theorem split_last_inj {pre post pre' post' : List UInt8} (hpost : c ∉ post) (hpost' : c ∉ post')
    (heq : pre ++ c :: post = pre' ++ c :: post') : pre = pre' ∧ post = post' := by
  have hlast := strrchr_eq_some.mpr ⟨pre, post, heq.symm, hpost, rfl⟩
  have hlast' := strrchr_eq_some.mpr ⟨pre', post', rfl, hpost', rfl⟩
  have hlen := Option.some.inj (hlast.symm.trans hlast')
  obtain ⟨hpre, hrest⟩ := List.append_inj heq hlen
  exact ⟨hpre, (List.cons.inj hrest).2⟩

/-! ## Numbers -/

/-- `isspace`. -/
def isSpace (b : UInt8) : Bool := b = 32 || (9 ≤ b && b ≤ 13)

/-- `isdigit`. -/
def isDigit (b : UInt8) : Bool := 48 ≤ b && b ≤ 57

/-- The value of a string of digits, in base 10. -/
def value (ds : List UInt8) : Nat := ds.foldl (fun n d => 10 * n + (d.toNat - 48)) 0

/-- The next value of type `long`, from `LONG_MIN` to `LONG_MAX`. -/
def clamp (n : Int) : Int :=
  if n < -9223372036854775808 then -9223372036854775808
  else if n > 9223372036854775807 then 9223372036854775807
  else n

/-- The string behind a sign, `'-'` or `'+'`, if there is one. -/
def skipSign (t : List UInt8) : List UInt8 :=
  if t.head? = some 45 ∨ t.head? = some 43 then t.tail else t

/-- The number that a string starts with, and the string from `endptr` on. -/
def strtol (s : List UInt8) : Int × List UInt8 :=
  let t := s.dropWhile isSpace
  let u := skipSign t
  let ds := u.takeWhile isDigit
  -- no digits: nothing is read
  if ds = [] then (0, s)
  else
    let n : Int := if t.head? = some 45 then -(value ds : Int) else value ds
    (clamp n, u.dropWhile isDigit)

theorem isSpace_of_isDigit (h : isDigit b = true) : isSpace b = false := by
  simp only [isDigit, Bool.and_eq_true, decide_eq_true_eq, UInt8.le_iff_toNat_le] at h
  simp only [isSpace, Bool.or_eq_false_iff, decide_eq_false_iff_not, Bool.and_eq_false_iff,
    UInt8.le_iff_toNat_le, ← UInt8.toNat_inj]
  simp at *
  omega

/-- A string that starts with a digit has neither white space nor a sign before its number. -/
theorem strtol_of_isDigit (h : isDigit b = true) :
    strtol (b :: s) = (clamp (value ((b :: s).takeWhile isDigit)), (b :: s).dropWhile isDigit) := by
  have hspace := isSpace_of_isDigit h
  have h45 : b ≠ 45 := by
    rintro rfl
    exact absurd h (by decide)
  have h43 : b ≠ 43 := by
    rintro rfl
    exact absurd h (by decide)
  simp [strtol, skipSign, hspace, h45, h43, h]

/-- Digits are read to the end. -/
theorem strtol_digits (hne : s ≠ []) (hall : ∀ d ∈ s, isDigit d = true) :
    strtol s = (clamp (value s), []) := by
  cases s with
  | nil => exact absurd rfl hne
  | cons b s =>
    rw [strtol_of_isDigit (hall b List.mem_cons_self), List.takeWhile_eq_self_iff.mpr hall,
      List.dropWhile_eq_nil_iff.mpr hall]

/-- What is read to its end from a digit on is all digits. -/
theorem digits_of_strtol (hdigit : isDigit b = true) (hrest : (strtol (b :: s)).2 = []) :
    ∀ d ∈ b :: s, isDigit d = true := by
  rw [strtol_of_isDigit hdigit] at hrest
  exact List.dropWhile_eq_nil_iff.mp hrest

theorem mem_skipSign (hb : b ∈ t) : b = 45 ∨ b = 43 ∨ b ∈ skipSign t := by
  unfold skipSign
  split
  · rename_i hsign
    cases t with
    | nil => cases hb
    | cons x t =>
      rcases List.mem_cons.mp hb with rfl | hb
      · simp only [List.head?_cons, Option.some.injEq] at hsign
        rcases hsign with h | h
        · exact .inl h
        · exact .inr (.inl h)
      · exact .inr (.inr hb)
  · exact .inr (.inr hb)

/-- A string that is read to its end has only white space, a sign and digits. -/
theorem mem_of_strtol (hrest : (strtol s).2 = []) (hb : b ∈ s) :
    isSpace b = true ∨ b = 45 ∨ b = 43 ∨ isDigit b = true := by
  unfold strtol at hrest
  by_cases hds : (skipSign (s.dropWhile isSpace)).takeWhile isDigit = []
  · rw [if_pos hds] at hrest
    rw [show s = [] from hrest] at hb
    exact absurd hb List.not_mem_nil
  · rw [if_neg hds] at hrest
    have hdigits := List.dropWhile_eq_nil_iff.mp hrest
    rw [← List.takeWhile_append_dropWhile (p := isSpace) (l := s), List.mem_append] at hb
    rcases hb with hb | hb
    · exact .inl (List.mem_takeWhile_imp hb)
    · rcases mem_skipSign hb with h | h | h
      · exact .inr (.inl h)
      · exact .inr (.inr (.inl h))
      · exact .inr (.inr (.inr (hdigits b h)))

/-- A colon ends every number. -/
theorem colon_not_mem_of_strtol (hrest : (strtol s).2 = []) : 58 ∉ s := by
  intro hmem
  have h := mem_of_strtol hrest hmem
  exact absurd h (by decide)

/-- Below `LONG_MAX` nothing is clamped. -/
theorem clamp_of_le {n : Nat} (hn : clamp n ≤ 65535) : clamp n = n := by
  unfold clamp at *
  split at hn
  · omega
  · split at hn
    · omega
    · rw [if_neg (by assumption), if_neg (by assumption)]

theorem clamp_nat {n : Nat} (hn : n ≤ 65535) : clamp n = n := by
  unfold clamp
  rw [if_neg (by omega), if_neg (by omega)]

/-! ## Printed numbers -/

theorem value_append (ds : List UInt8) (d : UInt8) :
    value (ds ++ [d]) = 10 * value ds + (d.toNat - 48) := by
  simp [value]

/-- Zeros in front of a number do not count. -/
theorem value_zeros (n : Nat) (ds : List UInt8) : value (List.replicate n 48 ++ ds) = value ds := by
  induction n with
  | zero => rfl
  | succ n ih => exact ih

end CString
