import PhpQuic.Lib.Runs

/-!
# Progress of a machine

A machine gets done by steps that pay a price off what it still has to do. `Progress` says so of one
step: nothing adds to the rank, what is done stays done, and a step that pays gets the machine done
or lowers the rank by the price. `Progress.run`: over a run, all that was paid is off the rank;
`Progress.done_of_lt`: so a run in which enough is paid ends done, whatever its other steps are.
-/

universe u v

/-- What one step, under the condition `P`, does to a machine's rank. -/
structure Progress {σ : Type u} {ο : Type v} (step : σ → ο → σ) (P pays : σ → ο → Prop)
    (done : σ → Prop) (rank : σ → Nat) (price : Nat) : Prop where
  keeps : ∀ s o, P s o → done s → done (step s o)
  rank_le : ∀ s o, P s o → rank (step s o) ≤ rank s
  pays : ∀ s o, P s o → pays s o → done (step s o) ∨ rank (step s o) + price ≤ rank s

namespace Progress

open Runs (Along)

variable {σ : Type u} {ο : Type v}

/-- The number of steps of the run that pay. -/
def payments (step : σ → ο → σ) (pays : σ → ο → Prop) [∀ s o, Decidable (pays s o)] :
    σ → List ο → Nat
  | _, [] => 0
  | s, o :: ops => (if pays s o then 1 else 0) + payments step pays (step s o) ops

variable {step : σ → ο → σ} {P pays : σ → ο → Prop} {done : σ → Prop} {rank : σ → Nat} {price : Nat}

/-- What is done stays done. -/
theorem done_run (h : Progress step P pays done rank price) {s : σ} {ops : List ο}
    (hP : Along step P s ops) (hdone : done s) : done (Runs.run step s ops) :=
  hP.run_inv (fun s o _ => h.keeps s o) hdone

/-- All that was paid is off the rank. -/
theorem run [∀ s o, Decidable (pays s o)] (h : Progress step P pays done rank price) {s : σ}
    {ops : List ο} (hP : Along step P s ops) :
    done (Runs.run step s ops) ∨
      rank (Runs.run step s ops) + price * payments step pays s ops ≤ rank s := by
  induction ops generalizing s with
  | nil => exact .inr (Nat.le_refl _)
  | cons o ops ih =>
    rw [Runs.run_cons]
    rcases ih hP.2 with hdone | hle
    · exact .inl hdone
    · unfold payments
      split
      · rename_i hpays
        rcases h.pays s o hP.1 hpays with hdone | hpaid
        · exact .inl (h.done_run hP.2 hdone)
        · right
          rw [Nat.mul_add, Nat.mul_one]
          omega
      · right
        rw [Nat.zero_add]
        exact Nat.le_trans hle (h.rank_le s o hP.1)

/-- With more paid than there was to do, the machine is done. -/
theorem done_of_lt [∀ s o, Decidable (pays s o)] (h : Progress step P pays done rank price) {s : σ}
    {ops : List ο} (hP : Along step P s ops) (hlt : rank s < price * payments step pays s ops) :
    done (Runs.run step s ops) := by
  rcases h.run hP with hdone | hle
  · exact hdone
  · exact absurd (Nat.le_trans (Nat.le_add_left ..) hle) (Nat.not_le_of_lt hlt)

end Progress
