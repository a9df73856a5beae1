import Mathlib.Logic.Relation

/-!
# Runs of a machine, and the moves they are made of

A machine is a function `step : σ → ο → σ`: the state after one operation. `run` is the state
after a list of operations. Proofs about runs go through a second, smaller relation
`Move : σ → σ → Prop`, the atomic changes of the state: one operation is a sequence of moves
(`Moves`), proved once for each operation, and an invariant is then a fact about one move.

* `run_inv`: an invariant of the steps holds after every run; `Along.run_inv` needs it only of the
  steps of a run that meet a condition. `along_iff`: the condition, by the prefixes of the run.
* `outputs`: what the operations of a run return; `run_recorded`: a record of it that the state keeps.
* `run_simulated`: a simulation by another machine, from one step to a run.
* `Moves.of_run`: a run is a sequence of moves when each step is.
* `Moves.keeps`: what no move changes, no sequence of moves does.
* `Moves.inv`: an invariant of the moves, under a condition `C` that can only get harder to meet
  (an assumption about the history of the run): if `C` holds at the end, it held all along.
-/

universe u v w

namespace Runs

variable {σ : Type u} {ο : Type v}

/-- The state after the operations `ops`. -/
def run (step : σ → ο → σ) (s : σ) (ops : List ο) : σ := ops.foldl step s

section

variable {step : σ → ο → σ}

@[simp] theorem run_nil (s : σ) : run step s [] = s := rfl

@[simp] theorem run_cons (s : σ) (o : ο) (ops : List ο) :
    run step s (o :: ops) = run step (step s o) ops := rfl

theorem run_append (s : σ) (ops ops' : List ο) :
    run step s (ops ++ ops') = run step (run step s ops) ops' := List.foldl_append

theorem run_inv {I : σ → Prop} (hI : ∀ s o, I s → I (step s o)) {s : σ} (h : I s)
    (ops : List ο) : I (run step s ops) := by
  induction ops generalizing s with
  | nil => exact h
  | cons o ops ih => exact ih (hI s o h)

/-- `P` of every step of the run, in the state before it. -/
def Along (step : σ → ο → σ) (P : σ → ο → Prop) : σ → List ο → Prop
  | _, [] => True
  | s, o :: ops => P s o ∧ Along step P (step s o) ops

theorem along_append {P : σ → ο → Prop} {s : σ} {ops ops' : List ο} :
    Along step P s (ops ++ ops') ↔ Along step P s ops ∧ Along step P (run step s ops) ops' := by
  induction ops generalizing s with
  | nil => simp [Along]
  | cons o ops ih =>
    show P s o ∧ Along step P (step s o) (ops ++ ops') ↔ _
    rw [ih]
    exact and_assoc.symm

/-- `P` of every step of the run: of the last step of every prefix. -/
theorem along_iff {P : σ → ο → Prop} {s : σ} {ops : List ο} :
    Along step P s ops ↔ ∀ pre o, pre ++ [o] <+: ops → P (run step s pre) o := by
  constructor
  · rintro h pre o ⟨rest, rfl⟩
    exact (along_append.mp (along_append.mp h).1).2.1
  · intro h
    induction ops generalizing s with
    | nil => trivial
    | cons o ops ih =>
      refine ⟨h [] o (List.prefix_append [o] ops), ih fun pre o' hpre => ?_⟩
      exact h (o :: pre) o' ((List.prefix_cons_inj o).mpr hpre)

/-- An invariant of the steps that meet a condition. -/
theorem Along.run_inv {P : σ → ο → Prop} {I : σ → Prop} {ops : List ο}
    (hI : ∀ s, ∀ o ∈ ops, P s o → I s → I (step s o)) {s : σ} (hP : Along step P s ops)
    (h : I s) : I (run step s ops) := by
  induction ops generalizing s with
  | nil => exact h
  | cons o ops ih =>
    refine ih (fun s o ho => hI s o (List.mem_cons_of_mem _ ho)) hP.2 ?_
    exact hI s o List.mem_cons_self hP.1 h

end

/-- What the operations of a run return, in their order. -/
def outputs {τ : Type w} (step : σ → ο → σ) (out : σ → ο → List τ) : σ → List ο → List τ
  | _, [] => []
  | s, o :: ops => out s o ++ outputs step out (step s o) ops

/-- A record to which every step adds what it returns. -/
theorem run_recorded {τ : Type w} {step : σ → ο → σ} {out : σ → ο → List τ} {R : σ → List τ}
    (h : ∀ s o, R (step s o) = R s ++ out s o) (s : σ) (ops : List ο) :
    R (run step s ops) = R s ++ outputs step out s ops := by
  induction ops generalizing s with
  | nil => exact (List.append_nil _).symm
  | cons o ops ih =>
    rw [run_cons, ih, h, List.append_assoc]
    rfl

/-- A run of another machine, from a state and with operations that are related step by step. -/
theorem run_simulated {σ' : Type*} {ο' : Type*} {step : σ → ο → σ} {step' : σ' → ο' → σ'}
    {R : σ → σ' → Prop} {f : ο → ο'} (hR : ∀ s s' o, R s s' → R (step s o) (step' s' (f o))) {s : σ}
    {s' : σ'} (h : R s s') (ops : List ο) : R (run step s ops) (run step' s' (ops.map f)) := by
  induction ops generalizing s s' with
  | nil => exact h
  | cons o ops ih => exact ih (hR s s' o h)

/-- A sequence of moves. -/
abbrev Moves (Move : σ → σ → Prop) : σ → σ → Prop := Relation.ReflTransGen Move

namespace Moves

variable {Move : σ → σ → Prop} {step : σ → ο → σ}

theorem one {s s' : σ} (h : Move s s') : Moves Move s s' := Relation.ReflTransGen.single h

theorem refl (s : σ) : Moves Move s s := Relation.ReflTransGen.refl

/-- A run is a sequence of moves when each step is. -/
theorem of_run (hstep : ∀ s o, Moves Move s (step s o)) (s : σ) (ops : List ο) :
    Moves Move s (run step s ops) := by
  induction ops generalizing s with
  | nil => exact refl s
  | cons o ops ih => exact (hstep s o).trans (ih (step s o))

/-- A condition that holds after some moves held before them. -/
theorem back {C : σ → Prop} (hC : ∀ s s', Move s s' → C s' → C s) {s s' : σ}
    (h : Moves Move s s') (hc : C s') : C s := by
  induction h with
  | refl => exact hc
  | tail _ hm ih => exact ih (hC _ _ hm hc)

/-- An invariant of the moves that end in a state with `C`. -/
theorem inv {C I : σ → Prop} (hC : ∀ s s', Move s s' → C s' → C s)
    (hI : ∀ s s', Move s s' → C s' → I s → I s') {s s' : σ} (h : Moves Move s s') (hc : C s')
    (h0 : I s) : I s' := by
  induction h with
  | refl => exact h0
  | tail _ hm ih => exact hI _ _ hm hc (ih (hC _ _ hm hc))

/-- An invariant of all moves. -/
theorem inv' {I : σ → Prop} (hI : ∀ s s', Move s s' → I s → I s') {s s' : σ}
    (h : Moves Move s s') (h0 : I s) : I s' :=
  inv (C := fun _ => True) (fun _ _ _ _ => trivial) (fun s s' hm _ => hI s s' hm) h trivial h0

/-- What no move changes. -/
theorem keeps {τ : Type*} {f : σ → τ} (hf : ∀ s s', Move s s' → f s' = f s) {s s' : σ}
    (h : Moves Move s s') : f s' = f s := by
  induction h with
  | refl => rfl
  | tail _ hm ih => exact (hf _ _ hm).trans ih

end Moves

end Runs
