import Mathlib.Data.List.Nodup
import PhpQuic.Lib.History

/-!
# Tickets: numbers granted in order, and numbers promised ahead

A service grants the numbers `0, 1, 2, …` in this order. A clerk in front of it hands out numbers:
the one that the service grants, when it grants one at once (`grant`), and otherwise the clerk's own
next number (`promise`), which the service is to grant later (`redeem`). The clerk's next number
follows the numbers that it has handed out. A history is newest first.

* `granted h`, `next h`: the service's next number and the clerk's.
* `handed h`, `promised h`: the numbers handed out, and those of them that were promised.
* `mem_promised`: every number from the service's next one to the clerk's is a promise.
* `handed_nodup_iff`: no number is handed out twice if and only if whenever the service grants a
  number at once, every promise has been redeemed (`PromisesFirst`).
* `granted_eq_iff`: a promise that the service has not reached is its next number if and only if
  every smaller promise has been redeemed.
-/

namespace Tickets

inductive Act where
  | grant
  | promise
  | redeem
  deriving DecidableEq

open Act

/-- The service's next number. -/
def granted : List Act → Nat
  | [] => 0
  | grant :: h | redeem :: h => granted h + 1
  | promise :: h => granted h

/-- The clerk's next number. -/
def next : List Act → Nat
  | [] => 0
  | grant :: h => if granted h ≥ next h then granted h + 1 else next h
  | promise :: h => next h + 1
  | redeem :: h => next h

/-- The numbers handed out, newest first. -/
def handed : List Act → List Nat
  | [] => []
  | grant :: h => granted h :: handed h
  | promise :: h => next h :: handed h
  | redeem :: h => handed h

/-- The numbers promised. -/
def promised : List Act → List Nat
  | [] => []
  | promise :: h => next h :: promised h
  | grant :: h | redeem :: h => promised h

variable {h : List Act} {k : Nat}

theorem handed_lt (hk : k ∈ handed h) : k < next h := by
  induction h with
  | nil => cases hk
  | cons a h ih =>
    cases a with
    | grant =>
      unfold next
      rcases List.mem_cons.mp hk with rfl | hk
      · split <;> omega
      · have := ih hk
        split <;> omega
    | promise =>
      unfold next
      rcases List.mem_cons.mp hk with rfl | hk
      · omega
      · have := ih hk
        omega
    | redeem => exact ih hk

theorem promised_subset (hk : k ∈ promised h) : k ∈ handed h := by
  induction h with
  | nil => cases hk
  | cons a h ih =>
    cases a with
    | grant => exact List.mem_cons_of_mem _ (ih hk)
    | promise =>
      rcases List.mem_cons.mp hk with rfl | hk
      · exact List.mem_cons_self
      · exact List.mem_cons_of_mem _ (ih hk)
    | redeem => exact ih hk

/-- What the clerk has passed and the service has not reached was promised. -/
theorem mem_promised (hg : granted h ≤ k) (hn : k < next h) : k ∈ promised h := by
  induction h generalizing k with
  | nil => cases hn
  | cons a h ih =>
    cases a with
    | grant =>
      unfold next at hn
      have hg' : granted h + 1 ≤ k := hg
      split at hn
      · omega
      · exact ih (by omega) hn
    | promise =>
      have hn' : k < next h + 1 := hn
      rcases Nat.lt_or_ge k (next h) with hlt | hge
      · exact List.mem_cons_of_mem _ (ih hg hlt)
      · have heq : k = next h := by omega
        rw [heq]; exact List.mem_cons_self
    | redeem =>
      have hg' : granted h + 1 ≤ k := hg
      exact ih (by omega) hn

/-- The clerk is not ahead of the service if and only if all promises are redeemed. -/
theorem next_le_granted_iff : next h ≤ granted h ↔ ∀ k ∈ promised h, k < granted h := by
  constructor
  · intro hle k hk
    have := handed_lt (promised_subset hk)
    omega
  · intro hall
    rcases Nat.lt_or_ge (granted h) (next h) with hlt | hge
    · have := hall _ (mem_promised (Nat.le_refl _) hlt)
      omega
    · exact hge

/-- A number granted at once is new if and only if the clerk is not ahead of the service. -/
theorem granted_notMem_handed_iff : granted h ∉ handed h ↔ next h ≤ granted h := by
  constructor
  · intro hnot
    rcases Nat.lt_or_ge (granted h) (next h) with hlt | hge
    · exact absurd (promised_subset (mem_promised (Nat.le_refl _) hlt)) hnot
    · exact hge
  · intro hle hmem
    have := handed_lt hmem
    omega

/-- The service grants a number at once only when every promise has been redeemed. -/
def PromisesFirst : List Act → Prop :=
  History.Each fun a h => a = grant → ∀ k ∈ promised h, k < granted h

theorem promisesFirst_grant :
    PromisesFirst (grant :: h) ↔ (∀ k ∈ promised h, k < granted h) ∧ PromisesFirst h :=
  History.each_cons.trans (and_congr_left' ⟨fun hall => hall rfl, fun hall _ => hall⟩)

theorem promisesFirst_promise : PromisesFirst (promise :: h) ↔ PromisesFirst h :=
  History.each_cons.trans (and_iff_right fun he => by cases he)

theorem promisesFirst_redeem : PromisesFirst (redeem :: h) ↔ PromisesFirst h :=
  History.each_cons.trans (and_iff_right fun he => by cases he)

theorem handed_nodup_iff : (handed h).Nodup ↔ PromisesFirst h := by
  induction h with
  | nil => exact iff_of_true List.nodup_nil History.each_nil
  | cons a h ih =>
    cases a with
    | grant =>
      have hcons : (handed (grant :: h)).Nodup ↔ granted h ∉ handed h ∧ (handed h).Nodup :=
        List.nodup_cons
      rw [promisesFirst_grant, hcons, granted_notMem_handed_iff, next_le_granted_iff, ih]
    | promise =>
      have hcons : (handed (promise :: h)).Nodup ↔ next h ∉ handed h ∧ (handed h).Nodup :=
        List.nodup_cons
      have hnew : next h ∉ handed h := fun hmem => Nat.lt_irrefl _ (handed_lt hmem)
      rw [promisesFirst_promise, hcons, ih]
      exact and_iff_right hnew
    | redeem => rw [promisesFirst_redeem, ← ih]; rfl

/-- The service is not ahead of the clerk when it only redeems promises. -/
theorem granted_le_next (hr : History.Each (fun a h => a = redeem → granted h ∈ promised h) h) :
    granted h ≤ next h := by
  induction h with
  | nil => exact Nat.le_refl _
  | cons a h ih =>
    obtain ⟨ha, hr⟩ := History.each_cons.mp hr
    have hle := ih hr
    cases a with
    | grant =>
      show granted h + 1 ≤ if granted h ≥ next h then granted h + 1 else next h
      split <;> omega
    | promise => exact Nat.le_succ_of_le hle
    | redeem => exact handed_lt (promised_subset (ha rfl))

theorem granted_eq_iff (hk : k ∈ promised h) (hg : granted h ≤ k) :
    granted h = k ↔ ∀ j ∈ promised h, j < k → j < granted h := by
  constructor
  · rintro rfl j - hj
    exact hj
  · intro hall
    rcases Nat.lt_or_ge (granted h) k with hlt | hge
    · have hn := handed_lt (promised_subset hk)
      have := hall _ (mem_promised (Nat.le_refl _) (by omega)) hlt
      omega
    · omega

end Tickets
