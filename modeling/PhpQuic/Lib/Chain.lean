import Mathlib.Data.List.Nodup
import Mathlib.Logic.Function.Basic

/-!
# Chains of cells in a heap

A heap is a partial function from addresses to cells; a cell has a value and the address of the next
cell, or none. `Links h p l q`: from `p` on, the cells `l` (their addresses and values, in order)
follow one another, and the last one points to `q`. A list in the heap is a chain to `none`.

* `links_append`: a chain is cut anywhere.
* `Links.inj`: a list is determined by where it starts; so no cell is in it twice (`Links.nodup`).
* `Links.frame`: changes to other cells.
* `Links.snoc`, `Links.tail`: a new last cell, and the first cell freed.
-/

universe u

namespace Chain

structure Cell (α : Type u) where
  val : α
  next : Option Nat

/-- `none`: not allocated. -/
abbrev Heap (α : Type u) := Nat → Option (Cell α)

variable {α : Type u} {h h' : Heap α} {p q : Option Nat} {a b : Nat} {v w : α}
  {l l' : List (Nat × α)}

/-- The cells `l` lead from `p` to `q`. -/
def Links (h : Heap α) : Option Nat → List (Nat × α) → Option Nat → Prop
  | p, [], q => p = q
  | p, (a, v) :: l, q => p = some a ∧ ∃ next, h a = some ⟨v, next⟩ ∧ Links h next l q

theorem links_append :
    Links h p (l ++ l') q ↔ ∃ m, Links h p l m ∧ Links h m l' q := by
  induction l generalizing p with
  | nil =>
    constructor
    · intro hl
      exact ⟨p, rfl, hl⟩
    · rintro ⟨m, rfl, hl⟩
      exact hl
  | cons c l ih =>
    obtain ⟨a, v⟩ := c
    constructor
    · rintro ⟨hp, next, ha, hl⟩
      obtain ⟨m, hm, hl'⟩ := ih.mp hl
      exact ⟨m, ⟨hp, next, ha, hm⟩, hl'⟩
    · rintro ⟨m, ⟨hp, next, ha, hm⟩, hl'⟩
      exact ⟨hp, next, ha, ih.mpr ⟨m, hm, hl'⟩⟩

/-- Every cell of a chain is allocated. -/
theorem Links.allocated (hl : Links h p l q) (ha : a ∈ l.map Prod.fst) : h a ≠ none := by
  induction l generalizing p with
  | nil => cases ha
  | cons c l ih =>
    obtain ⟨b, v⟩ := c
    obtain ⟨-, next, hb, hl⟩ := hl
    rcases List.mem_cons.mp ha with rfl | ha
    · rw [hb]
      exact Option.some_ne_none _
    · exact ih hl ha

theorem Links.frame (hl : Links h p l q) (hsame : ∀ a ∈ l.map Prod.fst, h' a = h a) :
    Links h' p l q := by
  induction l generalizing p with
  | nil => exact hl
  | cons c l ih =>
    obtain ⟨b, v⟩ := c
    obtain ⟨hp, next, hb, hl⟩ := hl
    obtain ⟨hhead, htail⟩ := List.forall_mem_cons.mp hsame
    exact ⟨hp, next, hhead.trans hb, ih hl htail⟩

/-- The list that starts at `p`. -/
theorem Links.inj (hl : Links h p l none) (hl' : Links h p l' none) : l = l' := by
  induction l generalizing p l' with
  | nil =>
    obtain rfl : p = none := hl
    cases l' with
    | nil => rfl
    | cons c l' => cases hl'.1
  | cons c l ih =>
    obtain ⟨a, v⟩ := c
    obtain ⟨rfl, next, ha, hl⟩ := hl
    cases l' with
    | nil => cases hl'
    | cons c' l' =>
      obtain ⟨a', v'⟩ := c'
      obtain ⟨heq, next', ha', hl'⟩ := hl'
      obtain rfl := Option.some.inj heq
      obtain ⟨rfl, rfl⟩ := Cell.mk.inj (Option.some.inj (ha.symm.trans ha'))
      rw [ih hl hl']

/-- A list does not come back to a cell. -/
theorem Links.nodup (hl : Links h p l none) : (l.map Prod.fst).Nodup := by
  induction l generalizing p with
  | nil => exact List.nodup_nil
  | cons c l ih =>
    obtain ⟨a, v⟩ := c
    have hlong := hl
    obtain ⟨rfl, next, ha, hl⟩ := hl
    refine List.nodup_cons.mpr ⟨?_, ih hl⟩
    intro hmem
    obtain ⟨⟨a', w⟩, hc, heq⟩ := List.mem_map.mp hmem
    obtain rfl : a' = a := heq
    obtain ⟨front, back, rfl⟩ := List.append_of_mem hc
    -- the list from the second occurrence on is the list from the first one on
    obtain ⟨m, -, hback⟩ := links_append.mp hl
    obtain rfl : m = some a' := hback.1
    have hlen := congrArg List.length (hlong.inj hback)
    simp at hlen
    omega

/-- A new cell behind the last one. -/
theorem Links.snoc (hl : Links h p (l ++ [(a, v)]) none) (hb : h b = none) :
    Links (Function.update (Function.update h b (some ⟨w, none⟩)) a (some ⟨v, some b⟩)) p
      (l ++ [(a, v)] ++ [(b, w)]) none := by
  have hdistinct := hl.nodup
  have hne : ∀ c ∈ (l ++ [(a, v)]).map Prod.fst, c ≠ b := by
    rintro c hc rfl
    exact hl.allocated hc hb
  obtain ⟨m, hfront, hlast⟩ := links_append.mp hl
  rw [List.map_append, List.nodup_append] at hdistinct
  have hba : b ≠ a := (hne a (by simp)).symm
  rw [List.append_assoc]
  refine links_append.mpr ⟨m, hfront.frame ?_, hlast.1, some b, ?_, rfl, none, ?_, rfl⟩
  · intro c hc
    have hca : c ≠ a := hdistinct.2.2 c hc a (by simp)
    have hcb : c ≠ b := hne c (by simp only [List.map_append, List.mem_append]; exact .inl hc)
    rw [Function.update_of_ne hca, Function.update_of_ne hcb]
  · exact Function.update_self ..
  · rw [Function.update_of_ne hba, Function.update_self]

/-- The first cell is freed. -/
theorem Links.tail (hl : Links h p ((a, v) :: l) none) :
    ∃ next, h a = some ⟨v, next⟩ ∧ Links (Function.update h a none) next l none := by
  have hdistinct := hl.nodup
  obtain ⟨-, next, ha, hl⟩ := hl
  refine ⟨next, ha, hl.frame ?_⟩
  rintro c hc
  have hca : c ≠ a := by
    rintro rfl
    exact (List.nodup_cons.mp hdistinct).1 hc
  exact Function.update_of_ne hca ..

end Chain
