import PhpQuic.Lib.Store
import Mathlib.Data.List.Count

/-!
# Objects that are counted

`Refs α`: objects that several holders share, each with the number of references to it. The object is
freed with its last reference.

* `new`, `addref`, `release`, `write`: all but the first are undefined for an object that was freed.
* `Held l`: the references are those of the list `l`, which has an object as often as it is held. A
  program that keeps such a list of its own pointers neither uses nor frees a freed object, and what
  no pointer is left to has been freed (`Held.alive`). `Held.new`, `Held.addref`, `Held.release`: what
  the operations do to the list, and that a held object keeps its value.
-/

universe u

/-- Objects with their counts. -/
abbrev Refs (α : Type u) := Store (α × Nat)

namespace Refs

variable {α : Type u} {s s' : Refs α} {p q : Nat} {a : α} {l l' : List Nat}

/-- A new object with one reference. -/
def new (s : Refs α) (a : α) : Refs α × Nat := (s.alloc (a, 1), s.next)

/-- One more reference. -/
def addref (s : Refs α) (p : Nat) : Option (Refs α) := s.modify p fun x => some (x.1, x.2 + 1)

/-- One reference less; the object is freed with its last. -/
def release (s : Refs α) (p : Nat) : Option (Refs α) :=
  (s.get p).bind fun x =>
    if x.2 = 1 then s.free p else s.modify p fun x => some (x.1, x.2 - 1)

/-- One reference less to each object of a list. -/
def releaseAll (s : Refs α) (ps : List Nat) : Option (Refs α) := ps.foldlM release s

/-- Another value for an object. -/
def write (s : Refs α) (p : Nat) (a : α) : Option (Refs α) := s.modify p fun x => some (a, x.2)

/-- The value of an object. -/
def val (s : Refs α) (p : Nat) : Option α := (s.get p).map Prod.fst

/-- The number of references to an object. -/
def refcount (s : Refs α) (p : Nat) : Nat := (s.get p).elim 0 Prod.snd

theorem addref_next (h : s.addref p = some s') : s'.next = s.next := Store.modify_next h

theorem write_next (h : s.write p a = some s') : s'.next = s.next := Store.modify_next h

theorem release_next (h : s.release p = some s') : s'.next = s.next := by
  obtain ⟨x, -, h⟩ := Option.bind_eq_some_iff.mp h
  split at h
  · exact Store.free_next h
  · exact Store.modify_next h

/-- The references are those of the list. -/
structure Held (s : Refs α) (l : List Nat) : Prop where
  count : ∀ p, s.refcount p = l.count p
  pos : ∀ p x, s.get p = some x → 0 < x.2

/-- The objects of the list keep their values. -/
def Keeps (s s' : Refs α) (l : List Nat) : Prop := ∀ p ∈ l, s'.val p = s.val p

namespace Keeps

variable {s'' : Refs α}

theorem trans (h : s.Keeps s' l) (h' : s'.Keeps s'' l) : s.Keeps s'' l :=
  fun p hp => (h' p hp).trans (h p hp)

theorem subset (h : s.Keeps s' l) (hl : l' ⊆ l) : s.Keeps s' l' := fun p hp => h p (hl hp)

theorem append : s.Keeps s' (l ++ l') ↔ s.Keeps s' l ∧ s.Keeps s' l' := List.forall_mem_append

end Keeps

namespace Held

theorem empty : Held (Store.empty : Refs α) [] := ⟨fun _ => rfl, nofun⟩

/-- The order of the list is of no account. -/
theorem of_count (h : s.Held l) (hl : ∀ p, l'.count p = l.count p) : s.Held l' :=
  ⟨fun p => (h.count p).trans (hl p).symm, h.pos⟩

/-- The objects alive are those that are held. -/
theorem alive (h : s.Held l) (p : Nat) : (s.get p).isSome ↔ p ∈ l := by
  rw [← List.count_pos_iff, ← h.count]
  unfold refcount
  cases hp : s.get p with
  | none => simp
  | some x => simpa using h.pos p x hp

theorem ne_next (h : s.Held l) (hp : p ∈ l) : p ≠ s.next :=
  Nat.ne_of_lt (Store.lt_next ((h.alive p).mpr hp))

theorem new (h : s.Held l) (a : α) :
    (s.new a).1.Held ((s.new a).2 :: l) ∧ (s.new a).1.val (s.new a).2 = some a ∧
      s.Keeps (s.new a).1 l := by
  have hself : (s.new a).1.get (s.new a).2 = some (a, 1) := Store.get_alloc_self s (a, 1)
  have hother : ∀ q, q ≠ (s.new a).2 → (s.new a).1.get q = s.get q := fun q hq => if_neg hq
  refine ⟨⟨fun q => ?_, fun q x hx => ?_⟩, ?_, fun q hq => ?_⟩
  · have hfresh : l.count s.next = 0 := List.count_eq_zero.mpr fun hmem => h.ne_next hmem rfl
    by_cases hq : q = (s.new a).2
    · subst hq
      rw [List.count_cons_self]
      unfold refcount
      rw [hself]
      show 1 = l.count s.next + 1
      rw [hfresh]
    · rw [List.count_cons_of_ne (Ne.symm hq), ← h.count]
      unfold refcount
      rw [hother q hq]
  · by_cases hq : q = (s.new a).2
    · rw [hq, hself] at hx
      cases hx
      exact Nat.one_pos
    · rw [hother q hq] at hx
      exact h.pos q x hx
  · unfold val
    rw [hself]
    rfl
  · unfold val
    rw [hother q (h.ne_next hq)]

/-- What a change of one object's count does. -/
theorem recount {x : α × Nat} {n : Nat} (h : s.Held l) (hp : s.get p = some x) (hn : 0 < n)
    (hl : l'.count p = n) (hl' : ∀ q, q ≠ p → l'.count q = l.count q)
    (hself : s'.get p = some (x.1, n)) (hother : ∀ q, q ≠ p → s'.get q = s.get q) :
    s'.Held l' ∧ ∀ q, s'.val q = s.val q := by
  refine ⟨⟨fun q => ?_, fun q y hy => ?_⟩, fun q => ?_⟩
  · by_cases hq : q = p
    · subst hq
      unfold refcount
      rw [hself, hl]
      rfl
    · rw [hl' q hq, ← h.count]
      unfold refcount
      rw [hother q hq]
  · by_cases hq : q = p
    · rw [hq, hself] at hy
      cases hy
      exact hn
    · rw [hother q hq] at hy
      exact h.pos q y hy
  · unfold val
    by_cases hq : q = p
    · rw [hq, hself, hp]
      rfl
    · rw [hother q hq]

theorem addref (h : s.Held l) (hp : p ∈ l) :
    Defined (s.addref p) fun s' => s'.Held (p :: l) ∧ ∀ q, s'.val q = s.val q := by
  obtain ⟨x, hx⟩ := Option.isSome_iff_exists.mp ((h.alive p).mpr hp)
  have hcount : x.2 = l.count p := by
    rw [← h.count]
    unfold refcount
    rw [hx]
    rfl
  refine (Store.modify_eq (b := (x.1, x.2 + 1)) hx rfl).mono fun s' ⟨hself, hother⟩ => ?_
  refine h.recount hx (Nat.succ_pos x.2) ?_ (fun q hq => ?_) hself hother
  · rw [List.count_cons_self, hcount]
  · exact List.count_cons_of_ne (Ne.symm hq)

theorem release (h : s.Held (p :: l)) :
    Defined (s.release p) fun s' => s'.Held l ∧ s.Keeps s' l := by
  obtain ⟨x, hx⟩ := Option.isSome_iff_exists.mp ((h.alive p).mpr List.mem_cons_self)
  have hcount : x.2 = l.count p + 1 := by
    rw [← List.count_cons_self (a := p), ← h.count]
    unfold refcount
    rw [hx]
    rfl
  have hother' : ∀ q, q ≠ p → l.count q = (p :: l).count q := fun q hq =>
    (List.count_cons_of_ne (Ne.symm hq)).symm
  unfold Refs.release
  rw [hx]
  simp only [Option.bind_some]
  split
  · -- the last reference
    rename_i hone
    have hzero : l.count p = 0 := by omega
    have hnot : p ∉ l := List.count_eq_zero.mp hzero
    refine (Store.free_eq (by rw [hx]; rfl)).mono fun s' ⟨hnone, hother⟩ => ?_
    refine ⟨⟨fun q => ?_, fun q y hy => ?_⟩, fun q hq => ?_⟩
    · by_cases hq : q = p
      · subst hq
        unfold refcount
        rw [hnone, hzero]
        rfl
      · rw [hother' q hq, ← h.count]
        unfold refcount
        rw [hother q hq]
    · by_cases hq : q = p
      · rw [hq, hnone] at hy
        cases hy
      · rw [hother q hq] at hy
        exact h.pos q y hy
    · have hne : q ≠ p := fun heq => hnot (heq ▸ hq)
      unfold val
      rw [hother q hne]
  · rename_i hmore
    refine (Store.modify_eq (b := (x.1, x.2 - 1)) hx rfl).mono fun s' ⟨hself, hother⟩ => ?_
    have hre : Held s' l ∧ ∀ q, val s' q = s.val q :=
      h.recount (n := x.2 - 1) hx (by omega) (by omega) hother' hself hother
    exact ⟨hre.1, fun q _ => hre.2 q⟩

theorem releaseAll {ps : List Nat} (h : s.Held (ps ++ l)) :
    Defined (s.releaseAll ps) fun s' => (s'.Held l ∧ s.Keeps s' l) ∧ s'.next = s.next := by
  unfold Refs.releaseAll
  induction ps generalizing s with
  | nil => exact .pure ⟨⟨h, fun _ _ => rfl⟩, rfl⟩
  | cons p ps ih =>
    rw [List.foldlM_cons]
    refine (h.release.also fun _ => release_next).bind fun s₁ ⟨⟨h₁, hk₁⟩, hn₁⟩ => ?_
    refine (ih h₁).mono fun s₂ ⟨⟨h₂, hk₂⟩, hn₂⟩ => ⟨⟨h₂, ?_⟩, hn₂.trans hn₁⟩
    exact (hk₁.subset (List.subset_append_right _ _)).trans hk₂

/-- A held object with another value. -/
theorem write (h : s.Held l) (hp : p ∈ l) (a : α) : Defined (s.write p a) fun s' =>
    s'.Held l ∧ s'.val p = some a ∧ ∀ q, q ≠ p → s'.val q = s.val q := by
  obtain ⟨x, hx⟩ := Option.isSome_iff_exists.mp ((h.alive p).mpr hp)
  refine (Store.modify_eq (b := (a, x.2)) hx rfl).mono fun s' ⟨hself, hother⟩ => ?_
  refine ⟨⟨fun q => ?_, fun q y hy => ?_⟩, ?_, fun q hq => ?_⟩
  · rw [← h.count]
    unfold refcount
    by_cases hq : q = p
    · rw [hq, hself, hx]
      rfl
    · rw [hother q hq]
  · by_cases hq : q = p
    · rw [hq, hself] at hy
      cases hy
      exact h.pos p x hx
    · rw [hother q hq] at hy
      exact h.pos q y hy
  · unfold val
    rw [hself]
    rfl
  · unfold val
    rw [hother q hq]

end Held

end Refs
