import Mathlib.Data.List.Infix

/-!
# The history of several parties

A joint history is one order of the acts of several parties, newest first, each with the party that
it is of. `of i h` is the history of the party `i`. The parties act at the same time, so any order
that keeps each party's own is a joint history.

* `of_suffix`: an earlier joint history gives an earlier history of each party.
-/

universe u v

namespace Joint

variable {ι : Type u} {α : Type v} [DecidableEq ι]

/-- The history of the party `i`. -/
def of (i : ι) : List (ι × α) → List α
  | [] => []
  | (j, a) :: h => if j = i then a :: of i h else of i h

variable {i j : ι} {a : α} {h h' : List (ι × α)}

@[simp] theorem of_nil : of i ([] : List (ι × α)) = [] := rfl

@[simp] theorem of_cons_self : of i ((i, a) :: h) = a :: of i h := if_pos rfl

theorem of_cons_ne (hne : j ≠ i) : of i ((j, a) :: h) = of i h := if_neg hne

theorem of_suffix (hs : h' <:+ h) : of i h' <:+ of i h := by
  induction h with
  | nil => rw [List.suffix_nil.mp hs]
  | cons x h ih =>
    obtain ⟨j, a⟩ := x
    rcases List.suffix_cons_iff.mp hs with rfl | hs
    · exact List.suffix_rfl
    · by_cases hj : j = i
      · subst hj
        rw [of_cons_self]
        exact (ih hs).trans (List.suffix_cons _ _)
      · rw [of_cons_ne hj]
        exact ih hs

end Joint
