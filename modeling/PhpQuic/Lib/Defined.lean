import Mathlib.Data.Option.Basic

/-!
# Programs that are defined

A program whose behaviour can be undefined (an access to an object that is gone, a write past the
end of a buffer) is an `Option`: `none` is undefined behaviour. `Defined m Q` is total correctness:
the behaviour is defined, and `Q` holds of the result.

* `Defined.pure`, `Defined.bind`, `Defined.map`, `Defined.mono`: the rules. A proof about a program
  goes through it with them, one specification for each call.
* `Defined.foldlM`: a run is defined, and keeps an invariant, if each step does.
-/

universe u v w

/-- The behaviour of `m` is defined, with a result that meets `Q`. -/
def Defined {α : Type u} (m : Option α) (Q : α → Prop) : Prop := ∃ a, m = some a ∧ Q a

namespace Defined

variable {α : Type u} {β : Type v} {m : Option α} {Q Q' : α → Prop}

theorem pure {a : α} (h : Q a) : Defined (some a) Q := ⟨a, rfl, h⟩

theorem bind {f : α → Option β} {R : β → Prop} (h : Defined m Q)
    (hf : ∀ a, Q a → Defined (f a) R) : Defined (m.bind f) R := by
  obtain ⟨a, rfl, ha⟩ := h
  exact hf a ha

theorem bind_some {o : Option α} {a : α} {f : α → Option β} {R : β → Prop} (ho : o = some a)
    (hf : Defined (f a) R) : Defined (o.bind f) R := by
  rw [ho]
  exact hf

theorem map {f : α → β} {R : β → Prop} (h : Defined m Q) (hf : ∀ a, Q a → R (f a)) :
    Defined (m.map f) R := by
  obtain ⟨a, rfl, ha⟩ := h
  exact ⟨f a, rfl, hf a ha⟩

theorem mono (h : Defined m Q) (hQ : ∀ a, Q a → Q' a) : Defined m Q' := by
  obtain ⟨a, ha, hq⟩ := h
  exact ⟨a, ha, hQ a hq⟩

/-- Another property of every result. -/
theorem also (h : Defined m Q) (hm : ∀ a, m = some a → Q' a) : Defined m fun a => Q a ∧ Q' a := by
  obtain ⟨a, ha, hq⟩ := h
  exact ⟨a, ha, hq, hm a ha⟩

/-- The result meets what is known of it. -/
theorem of_eq (h : Defined m Q) {a : α} (ha : m = some a) : Q a := by
  obtain ⟨b, hb, hq⟩ := h
  cases ha.symm.trans hb
  exact hq

/-- A run whose steps keep an invariant, of the state and the operations so far, is defined, and the
invariant holds at its end. -/
theorem foldlM {ο : Type w} {step : α → ο → Option α} {I : α → List ο → Prop}
    (hstep : ∀ a os o, I a os → Defined (step a o) (I · (os ++ [o]))) (ops : List ο) {a : α}
    {os : List ο} (h : I a os) : Defined (ops.foldlM step a) (I · (os ++ ops)) := by
  induction ops generalizing a os with
  | nil =>
    rw [List.append_nil]
    exact pure h
  | cons o ops ih =>
    rw [List.foldlM_cons]
    refine (hstep a os o h).bind fun a' h' => ?_
    rw [← List.singleton_append, ← List.append_assoc]
    exact ih h'

end Defined
