import Mathlib.Data.List.Forall2
import Mathlib.Data.Option.Basic

/-!
# One of a list

A call on one of several objects names it by its position. `focus l i` is the `i`-th of a list, with
what stands before and behind it; `argument l i` is an argument that may be left out.

* `focus_eq`: the list is put together again.
* `focus_rel`, `argument_rel`: two lists whose elements are related have related elements there.
-/

universe u v

/-- The `i`-th of a list, with what stands before and behind it. -/
def focus {α : Type u} (l : List α) (i : Nat) : Option (List α × α × List α) :=
  match l.drop i with
  | [] => none
  | x :: rest => some (l.take i, x, rest)

/-- The argument of a call that is one of the objects `l`, or left out; `none`: there is no such
object. -/
def argument {α : Type u} (l : List α) (i : Option Nat) : Option (Option α) :=
  match i with
  | none => some none
  | some i => (focus l i).map fun x => some x.2.1

section

variable {α : Type u} {β : Type v} {R : α → β → Prop} {xs : List α} {ys : List β}

theorem focus_eq {x : α} {before behind : List α} {i : Nat}
    (h : focus xs i = some (before, x, behind)) : xs = before ++ x :: behind := by
  have hxs := List.take_append_drop i xs
  unfold focus at h
  generalize xs.drop i = d at h hxs
  cases d with
  | nil => cases h
  | cons y d =>
    cases h
    exact hxs.symm

theorem focus_mem {x : α} {before behind : List α} {i : Nat}
    (h : focus xs i = some (before, x, behind)) : x ∈ xs := by
  rw [focus_eq h]
  exact List.mem_append_right _ List.mem_cons_self

theorem focus_rel (h : List.Forall₂ R xs ys) (i : Nat) : (focus xs i = none ∧ focus ys i = none) ∨
    ∃ x before behind y before' behind', focus xs i = some (before, x, behind) ∧
      focus ys i = some (before', y, behind') ∧ xs = before ++ x :: behind ∧
        List.Forall₂ R before before' ∧ R x y ∧ List.Forall₂ R behind behind' := by
  have htake := List.forall₂_take i h
  have hdrop := List.forall₂_drop i h
  have hxs := List.take_append_drop i xs
  unfold focus
  generalize xs.drop i = d at hdrop hxs ⊢
  generalize ys.drop i = d' at hdrop ⊢
  cases hdrop with
  | nil => exact .inl ⟨rfl, rfl⟩
  | cons hxy hbehind => exact .inr ⟨_, _, _, _, _, _, rfl, rfl, hxs.symm, htake, hxy, hbehind⟩

theorem argument_rel (h : List.Forall₂ R xs ys) (i : Option Nat) :
    (argument xs i = none ∧ argument ys i = none) ∨ ∃ r r', argument xs i = some r ∧
      argument ys i = some r' ∧ Option.Rel (fun x y => x ∈ xs ∧ R x y) r r' := by
  cases i with
  | none => exact .inr ⟨_, _, rfl, rfl, .none⟩
  | some i =>
    unfold argument
    simp only
    rcases focus_rel h i with ⟨hx, hy⟩ | ⟨x, _, _, y, _, _, hx, hy, hxs, -, hxy, -⟩
    · rw [hx, hy]
      exact .inl ⟨rfl, rfl⟩
    · rw [hx, hy]
      refine .inr ⟨_, _, rfl, rfl, .some ⟨?_, hxy⟩⟩
      rw [hxs]
      exact List.mem_append_right _ List.mem_cons_self

end
