import Mathlib.Data.List.Nodup

/-!
# Service at the head of a line

A server that always serves the client at the head of a line. The line `queue` lists the clients that
wait, each once; `served` is the history of service, newest first. Clients leave the line, from
anywhere, and none joins it.

* `HeadOnly`: a client that was served and still waits stands at the head and was served last.
  `HeadOnly.serve` is the step: the head is served any number of times, and some clients leave.
* `HeadOnly.all_served_iff`: all who wait were served if and only if no one waits but the client who
  was served last.
-/

universe u

namespace Line

variable {κ : Type u} {served now queue rest : List κ} {k : κ}

/-- The head of a line stays at the head while it waits. -/
theorem head_of_sublist (hnodup : queue.Nodup) (hsub : rest.Sublist queue) (hk : k ∈ rest)
    (hhead : queue.head? = some k) : rest.head? = some k := by
  cases hsub with
  | slnil => cases hk
  | cons a hsub =>
    obtain rfl := Option.some.inj hhead
    exact absurd (hsub.subset hk) (List.nodup_cons.mp hnodup).1
  | cons_cons a hsub => exact hhead

/-- Served clients that still wait stand at the head, and were served last. -/
def HeadOnly (served queue : List κ) : Prop :=
  ∀ k ∈ queue, k ∈ served → queue.head? = some k ∧ served.head? = some k

theorem HeadOnly.nil (queue : List κ) : HeadOnly [] queue := fun _ _ h => absurd h List.not_mem_nil

/-- The head is served (`now`), and some clients leave. -/
theorem HeadOnly.serve (h : HeadOnly served queue) (hnodup : queue.Nodup)
    (hsub : rest.Sublist queue) (hnow : ∀ k ∈ now, queue.head? = some k) :
    HeadOnly (now ++ served) rest := by
  intro k hk hserved
  have hq := hsub.subset hk
  cases now with
  | nil =>
    obtain ⟨hhead, hlast⟩ := h k hq hserved
    exact ⟨head_of_sublist hnodup hsub hk hhead, hlast⟩
  | cons a now =>
    -- the last service went to the head, and no one else who was served waits
    have ha : queue.head? = some a := hnow a List.mem_cons_self
    have hka : queue.head? = some k := by
      rcases List.mem_append.mp hserved with hn | hs
      · exact hnow k hn
      · exact (h k hq hs).1
    refine ⟨head_of_sublist hnodup hsub hk hka, ?_⟩
    rw [List.cons_append, List.head?_cons, ← ha, hka]

theorem HeadOnly.all_served_iff (h : HeadOnly served queue) :
    (∀ k ∈ queue, k ∈ served) ↔ ∀ k ∈ queue, served.head? = some k := by
  constructor
  · intro hall k hk
    exact (h k hk (hall k hk)).2
  · intro hlast k hk
    exact List.mem_of_mem_head? (hlast k hk)

end Line
