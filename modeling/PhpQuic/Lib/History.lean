import Mathlib.Data.List.Infix

/-!
# Histories

A history is a list of acts, newest first, so that the tail behind an act is the history before it.
`Each P h`: `P a h'` for every act `a` of `h` and the history `h'` before it. An assumption about
what one party answers is of this form; it holds of every earlier history too (`Each.of_suffix`).
-/

universe u

namespace History

variable {α : Type u} {P : α → List α → Prop} {a : α} {h h' : List α}

/-- `P` of every act and the history before it. -/
def Each (P : α → List α → Prop) (h : List α) : Prop := ∀ a h', a :: h' <:+ h → P a h'

theorem each_nil : Each P [] := by
  intro a h' hs
  exact absurd (List.suffix_nil.mp hs) (List.cons_ne_nil a h')

theorem each_cons : Each P (a :: h) ↔ P a h ∧ Each P h := by
  constructor
  · intro he
    exact ⟨he a h List.suffix_rfl, fun b h' hs => he b h' (hs.trans (List.suffix_cons a h))⟩
  · rintro ⟨ha, he⟩ b h' hs
    rcases List.suffix_cons_iff.mp hs with heq | hs
    · obtain ⟨rfl, rfl⟩ := List.cons.inj heq
      exact ha
    · exact he b h' hs

/-- What holds of every act of a history holds of every act of an earlier one. -/
theorem Each.of_suffix (he : Each P h) (hs : h' <:+ h) : Each P h' :=
  fun b h'' hb => he b h'' (hb.trans hs)

/-- `Each` can be checked act by act. -/
instance decidableEach [∀ a h, Decidable (P a h)] : (h : List α) → Decidable (Each P h)
  | [] => isTrue each_nil
  | _ :: h => @decidable_of_iff _ _ each_cons.symm (@instDecidableAnd _ _ _ (decidableEach h))

end History
