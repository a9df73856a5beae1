import Mathlib.Logic.Basic

/-!
# The least of the values that a loop finds

A loop over optional values that keeps the least so far and a flag that one was found (`note`). The
kept value counts only with the flag, so what it starts from is of no account.

* `least_eq_none`: no value is found if and only if there is none.
* `least_isLeast`: a value that is found is the least one.
-/

universe u

namespace Least

variable {α : Type u} [LT α] [DecidableLT α]

/-- One more value, on the least so far and the flag. -/
def note (acc : α × Bool) : Option α → α × Bool
  | some v => (if !acc.2 || decide (v < acc.1) then v else acc.1, true)
  | none => acc

/-- The loop from the value `start`. -/
def least (start : α) (vs : List (Option α)) : Option α :=
  let acc := vs.foldl note (start, false)
  if acc.2 then some acc.1 else none

/-- The flag is set by the first value that there is. -/
theorem foldl_note_found (acc : α × Bool) (vs : List (Option α)) :
    (vs.foldl note acc).2 = (acc.2 || vs.any Option.isSome) := by
  induction vs generalizing acc with
  | nil => exact (Bool.or_false _).symm
  | cons v vs ih =>
    rw [List.foldl_cons, ih, List.any_cons]
    cases v with
    | none => rfl
    | some v => simp [note]

theorem least_eq_none {start : α} {vs : List (Option α)} :
    least start vs = none ↔ ∀ v ∈ vs, v = none := by
  unfold least
  simp only [foldl_note_found, Bool.false_or, ite_eq_right_iff, reduceCtorEq, imp_false,
    Bool.not_eq_true, List.any_eq_false, Option.isSome_eq_false_iff, Option.isNone_iff_eq_none]

end Least

namespace Least

variable {α : Type u} [LE α] [LT α] [DecidableLT α] [Std.IsLinearOrder α] [Std.LawfulOrderLT α]

/-- What is kept behind some values, if there is one: one of them or the one before, and none is
less. -/
theorem foldl_note_spec (acc : α × Bool) (vs : List (Option α))
    (h : (vs.foldl note acc).2 = true) :
    ((acc.2 = true ∧ (vs.foldl note acc).1 = acc.1) ∨ some (vs.foldl note acc).1 ∈ vs) ∧
      (acc.2 = true → (vs.foldl note acc).1 ≤ acc.1) ∧
      ∀ v, some v ∈ vs → (vs.foldl note acc).1 ≤ v := by
  induction vs generalizing acc with
  | nil => exact ⟨.inl ⟨h, rfl⟩, fun _ => Std.le_refl _, fun v hv => by cases hv⟩
  | cons w vs ih =>
    obtain ⟨hfrom, hacc, hall⟩ := ih (note acc w) h
    rw [List.foldl_cons]
    cases w with
    | none =>
      refine ⟨hfrom.imp_right (List.mem_cons_of_mem _), hacc, fun v hv => ?_⟩
      rcases List.mem_cons.mp hv with hv | hv
      · cases hv
      · exact hall v hv
    | some w =>
      have hle := hacc rfl
      -- the value that is kept of `acc` and `w` is one of the two and not above either
      have hkept : ((note acc (some w)).1 = w ∨ (acc.2 = true ∧ (note acc (some w)).1 = acc.1)) ∧
          (note acc (some w)).1 ≤ w ∧ (acc.2 = true → (note acc (some w)).1 ≤ acc.1) := by
        unfold note
        simp only [Bool.or_eq_true, Bool.not_eq_true', decide_eq_true_eq]
        by_cases hw : acc.2 = false ∨ w < acc.1
        · rw [if_pos hw]
          refine ⟨.inl rfl, Std.le_refl _, fun hf => ?_⟩
          rcases hw with hw | hw
          · rw [hf] at hw; cases hw
          · exact Std.le_of_lt hw
        · rw [if_neg hw]
          obtain ⟨hf, hw⟩ := not_or.mp hw
          rw [Bool.not_eq_false] at hf
          exact ⟨.inr ⟨hf, rfl⟩, Std.not_lt.mp hw, fun _ => Std.le_refl _⟩
      obtain ⟨heq, hlew, hleacc⟩ := hkept
      refine ⟨?_, fun hf => Std.le_trans hle (hleacc hf), fun v hv => ?_⟩
      · rcases hfrom with ⟨-, hfrom⟩ | hfrom
        · rw [hfrom]
          rcases heq with heq | ⟨hf, heq⟩
          · rw [heq]; exact .inr List.mem_cons_self
          · exact .inl ⟨hf, heq⟩
        · exact .inr (List.mem_cons_of_mem _ hfrom)
      · rcases List.mem_cons.mp hv with hv | hv
        · cases hv; exact Std.le_trans hle hlew
        · exact hall v hv

theorem least_isLeast {start m : α} {vs : List (Option α)} (h : least start vs = some m) :
    some m ∈ vs ∧ ∀ v, some v ∈ vs → m ≤ v := by
  unfold least at h
  simp only at h
  split at h
  · rename_i hfound
    obtain ⟨hfrom, -, hall⟩ := foldl_note_spec (start, false) vs hfound
    obtain rfl := Option.some.inj h
    refine ⟨?_, hall⟩
    rcases hfrom with ⟨hf, -⟩ | hfrom
    · cases hf
    · exact hfrom
  · cases h

end Least
