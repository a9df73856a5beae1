import PhpQuic.Lib.Defined

/-!
# Objects that are allocated and freed

`Store α`: the objects of a program that are alive, by their addresses. An address is never used
again, and nothing is alive at an address that was not allocated (`fresh`).

* `alloc`, `free`, `modify`: the last two are undefined at an address where nothing is alive, which
  is a double free or a use after free.
* `Owns l`: the objects alive are those of `l`, one each. `Owns.alloc`, `Owns.free`, `Owns.modify`:
  what the operations do to it. A program that ends with `Owns []` has leaked nothing.
-/

universe u

/-- The objects alive; the addresses from `next` on have not been used. -/
structure Store (α : Type u) where
  next : Nat
  get : Nat → Option α
  fresh : ∀ p, next ≤ p → get p = none

namespace Store

variable {α : Type u} {s s' : Store α} {p q : Nat} {a : α} {l : List Nat}

def empty : Store α := ⟨0, fun _ => none, fun _ _ => rfl⟩

/-- A new object; its address is `next`. -/
def alloc (s : Store α) (a : α) : Store α where
  next := s.next + 1
  get q := if q = s.next then some a else s.get q
  fresh q hq := by rw [if_neg (by omega)]; exact s.fresh q (by omega)

/-- Frees the object at an address. -/
def free (s : Store α) (p : Nat) : Option (Store α) :=
  if (s.get p).isSome then
    some ⟨s.next, fun q => if q = p then none else s.get q, fun q hq => by
      split
      · rfl
      · exact s.fresh q hq⟩
  else none

/-- Changes the object at an address; `f` is undefined for an object of another kind. -/
def modify (s : Store α) (p : Nat) (f : α → Option α) : Option (Store α) :=
  match s.get p with
  | none => none
  | some a => (f a).map fun b =>
    ⟨s.next, fun q => if q = p ∧ (s.get q).isSome then some b else s.get q, fun q hq => by
      rw [s.fresh q hq, if_neg (by simp)]⟩

/-! ## What an address holds afterwards -/

@[simp] theorem get_alloc_self (s : Store α) (a : α) : (s.alloc a).get s.next = some a := if_pos rfl

theorem lt_next (h : (s.get p).isSome) : p < s.next := by
  by_contra hp
  rw [s.fresh p (by omega)] at h
  cases h

theorem get_alloc (h : (s.get p).isSome) : (s.alloc a).get p = s.get p :=
  if_neg (Nat.ne_of_lt (lt_next h))

theorem free_eq (h : (s.get p).isSome) :
    Defined (s.free p) fun s' => s'.get p = none ∧ ∀ q, q ≠ p → s'.get q = s.get q := by
  unfold free
  rw [if_pos h]
  exact .pure ⟨if_pos rfl, fun q hq => if_neg hq⟩

theorem modify_eq {f : α → Option α} {b : α} (h : s.get p = some a) (hf : f a = some b) :
    Defined (s.modify p f) fun s' => s'.get p = some b ∧ ∀ q, q ≠ p → s'.get q = s.get q := by
  unfold modify
  rw [h]
  simp only [hf, Option.map_some]
  exact .pure ⟨by simp [h], fun q hq => if_neg fun hq' => hq hq'.1⟩

theorem free_next (h : s.free p = some s') : s'.next = s.next := by
  unfold free at h
  split at h
  · cases h
    rfl
  · cases h

theorem modify_next {f : α → Option α} (h : s.modify p f = some s') : s'.next = s.next := by
  unfold modify at h
  split at h
  · cases h
  · obtain ⟨b, -, rfl⟩ := Option.map_eq_some_iff.mp h
    rfl

/-! ## Who owns the objects -/

/-- The objects alive are those of the list. -/
structure Owns (s : Store α) (l : List Nat) : Prop where
  nodup : l.Nodup
  alive : ∀ p, (s.get p).isSome ↔ p ∈ l

theorem Owns.empty : (Store.empty : Store α).Owns [] :=
  ⟨List.nodup_nil, fun p => by simp [Store.empty]⟩

namespace Owns

theorem perm {l' : List Nat} (h : s.Owns l) (hl : l.Perm l') : s.Owns l' :=
  ⟨hl.nodup_iff.mp h.nodup, fun p => (h.alive p).trans hl.mem_iff⟩

theorem ne_next (h : s.Owns l) (hp : p ∈ l) : p ≠ s.next :=
  Nat.ne_of_lt (lt_next ((h.alive p).mpr hp))

theorem alloc (h : s.Owns l) (a : α) : (s.alloc a).Owns (s.next :: l) := by
  refine ⟨List.nodup_cons.mpr ⟨fun hn => h.ne_next hn rfl, h.nodup⟩, fun p => ?_⟩
  rw [List.mem_cons, ← h.alive]
  by_cases hp : p = s.next
  · simp [hp]
  · simp [Store.alloc, hp]

theorem free (h : s.Owns (p :: l)) :
    Defined (s.free p) fun s' => s'.Owns l ∧ ∀ q ∈ l, s'.get q = s.get q := by
  obtain ⟨hp, hl⟩ := List.nodup_cons.mp h.nodup
  refine (free_eq ((h.alive p).mpr List.mem_cons_self)).mono fun s' ⟨hnone, hrest⟩ => ?_
  have hne : ∀ q ∈ l, q ≠ p := fun q hq hqp => hp (hqp ▸ hq)
  refine ⟨⟨hl, fun q => ?_⟩, fun q hq => hrest q (hne q hq)⟩
  by_cases hq : q = p
  · subst hq
    simp [hnone, hp]
  · rw [hrest q hq, h.alive, List.mem_cons]
    exact or_iff_right hq

theorem modify {f : α → Option α} {b : α} (h : s.Owns l) (hp : s.get p = some a)
    (hf : f a = some b) : Defined (s.modify p f) fun s' =>
      s'.Owns l ∧ s'.get p = some b ∧ ∀ q, q ≠ p → s'.get q = s.get q := by
  refine (modify_eq hp hf).mono fun s' ⟨hself, hrest⟩ => ⟨⟨h.nodup, fun q => ?_⟩, hself, hrest⟩
  by_cases hq : q = p
  · rw [hq, hself, ← h.alive, hp]
    rfl
  · rw [hrest q hq]
    exact h.alive q

end Owns

end Store
