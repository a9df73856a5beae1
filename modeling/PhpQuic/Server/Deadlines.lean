import PhpQuic.Lib.Least
import PhpQuic.Server.Endpoint
import PhpQuic.Timers

/-!
# The timers of an endpoint

`ServerEndpoint::getNextTimeout` and `getNextExpiry` call the method of the same name of every
registered connection and return the least of the values that come back; `getTimeoutAt` is
`getNextExpiry`.

* `getNextTimeout_spec`, `getNextExpiry_spec`: `null` if and only if every connection answers
  `null`, and otherwise the least of their values.
* `Connection.NullMeansNoTimer`: a connection answers `null` if and only if it has no timer, which
  ngtcp2 reports as the expiry `UINT64_MAX`.
* `null_means_no_timer_iff`: the connection takes that expiry for a time; `never_is_reported`.
-/

namespace PhpQuic

namespace Server

/-- What the connections of a loop answered, as one value. -/
def leastOf (message : String) :
    Server × EachEnd (Option Int64) → Server × Result (Option Int64)
  | (w', .done outs none) => (w', .returned (Least.least 0 (outs.map Prod.snd)))
  | (w', .done _ (some e)) => (w', .threw e)
  | (w', .failure) => (w', .threw (.exception message))
  | (w', .running) => (w', .running)

/-- `ServerEndpoint::getNextExpiry`. -/
def getNextExpiry (php : Php) (w : Server) (a : Nat → TimerReading) :
    Server × Result (Option Int64) :=
  leastOf "ServerEndpoint::getNextExpiry: deadline dispatch failed" <|
    w.callEach php (fun h s => (s, .returned (s.conn.getNextExpiry64 (a h)))) [] none w.registered

/-- `ServerEndpoint::getNextTimeout`. -/
def getNextTimeout (php : Php) (w : Server) (a : Nat → TimerReading) :
    Server × Result (Option Int64) :=
  leastOf "ServerEndpoint::getNextTimeout: timeout dispatch failed" <|
    w.callEach php (fun h s => (s, .returned (s.conn.getNextTimeout64 (a h)))) [] none w.registered

/-! ## The loop -/

theorem setObject_object (w : Server) (handle : Nat) : w.setObject handle (w.object handle) = w := by
  have hsame : w.objects.set handle (w.object handle) = w.objects := by
    by_cases h : handle < w.objects.length
    · unfold object
      rw [List.getD_eq_getElem?_getD, List.getElem?_eq_getElem h, Option.getD_some]
      exact List.set_getElem_self h
    · exact List.set_eq_of_length_le (Nat.le_of_not_lt h)
  unfold setObject
  simp only [hsame]

/-- A method that leaves its connection as it is. -/
theorem callEach_getter {α : Type} (php : Php) (out : Nat → State → α) (w : Server)
    (outs : List (Nat × α)) (handles : List Nat) :
    w.callEach php (fun h s => (s, .returned (out h s))) outs none handles =
      (w, .done (outs ++ handles.map fun h => (h, out h (w.object h))) none) := by
  induction handles generalizing outs with
  | nil => rw [List.map_nil, List.append_nil]; rfl
  | cons h handles ih =>
    unfold callEach call
    simp only
    rw [setObject_object, ih, List.append_assoc]
    rfl

/-- The value of an endpoint: `null` if every connection answers `null`, else the least value. -/
structure LeastValue (w : Server) (value : Nat → Option Int64) (r : Option Int64) : Prop where
  null_iff : r = none ↔ ∀ h ∈ w.registered, value h = none
  found : ∀ v, r = some v → ∃ h ∈ w.registered, value h = some v
  least : ∀ v, r = some v → ∀ h ∈ w.registered, ∀ v', value h = some v' → v ≤ v'

theorem leastValue_of_least (w : Server) (value : Nat → Option Int64) :
    w.LeastValue value (Least.least 0 (w.registered.map value)) where
  null_iff := by
    rw [Least.least_eq_none]
    exact List.forall_mem_map
  found v h := by
    obtain ⟨i, hi, hv⟩ := List.mem_map.mp (Least.least_isLeast h).1
    exact ⟨i, hi, hv⟩
  least v h i hi v' hv' := (Least.least_isLeast h).2 v' (List.mem_map.mpr ⟨i, hi, hv'⟩)

/-- A loop over a method that only answers. -/
theorem leastOf_getter (php : Php) (w : Server) (message : String)
    (value : Nat → State → Option Int64) :
    leastOf message (w.callEach php (fun h s => (s, .returned (value h s))) [] none w.registered) =
      (w, .returned (Least.least 0 (w.registered.map fun h => value h (w.object h)))) := by
  rw [callEach_getter, List.nil_append]
  unfold leastOf
  simp only [List.map_map]
  rfl

/-- `ServerEndpoint::getNextTimeout` changes nothing, and answers the least timeout. -/
theorem getNextTimeout_spec (php : Php) (w : Server) (a : Nat → TimerReading) :
    ∃ r, w.getNextTimeout php a = (w, .returned r) ∧
      w.LeastValue (fun h => (w.object h).conn.getNextTimeout64 (a h)) r :=
  ⟨_, leastOf_getter php w _ fun h s => s.conn.getNextTimeout64 (a h), leastValue_of_least w _⟩

/-- `ServerEndpoint::getNextExpiry` changes nothing, and answers the least deadline. -/
theorem getNextExpiry_spec (php : Php) (w : Server) (a : Nat → TimerReading) :
    ∃ r, w.getNextExpiry php a = (w, .returned r) ∧
      w.LeastValue (fun h => (w.object h).conn.getNextExpiry64 (a h)) r :=
  ⟨_, leastOf_getter php w _ fun h s => s.conn.getNextExpiry64 (a h), leastValue_of_least w _⟩

end Server

/-! ## No timer -/

namespace TimerReading

/-- ngtcp2 has no timer: the expiry is `UINT64_MAX`. -/
def never (r : TimerReading) : Bool := r.expiry.toNat = 0xFFFFFFFFFFFFFFFF

end TimerReading

namespace Connection

/-- A connection answers `null` if and only if it is not initialised, is closed, or has no timer. -/
structure NullMeansNoTimer (c : Connection) (r : TimerReading) : Prop where
  timeout : c.getNextTimeout64 r = none ↔ c.conn = none ∨ c.closed = true ∨ r.never = true
  expiry : c.getNextExpiry64 r = none ↔ c.conn = none ∨ c.closed = true ∨ r.never = true

theorem getNextTimeout64_eq_none {c : Connection} {r : TimerReading} :
    c.getNextTimeout64 r = none ↔ c.conn = none ∨ c.closed = true := by
  rw [← Option.isNone_iff_eq_none (o := c.conn)]
  exact getNextTimeoutMs64_eq_none

theorem getNextExpiry64_eq_none {c : Connection} {r : TimerReading} :
    c.getNextExpiry64 r = none ↔ c.conn = none ∨ c.closed = true := by
  unfold getNextExpiry64
  rw [Option.map_eq_none_iff]
  exact getNextTimeout64_eq_none

end Connection

/-- Both levels, for a connection and an endpoint: what the endpoint answers is always right; the
connection answers right if and only if it does not have an open connection without a timer. -/
theorem null_means_no_timer_iff (c : Connection) (r : TimerReading) (php : Php) (w : Server)
    (a : Nat → TimerReading) :
    (c.NullMeansNoTimer r ∧
      (∃ v, w.getNextTimeout php a = (w, .returned v) ∧
        w.LeastValue (fun h => (w.object h).conn.getNextTimeout64 (a h)) v) ∧
      ∃ v, w.getNextExpiry php a = (w, .returned v) ∧
        w.LeastValue (fun h => (w.object h).conn.getNextExpiry64 (a h)) v) ↔
      ¬ (c.conn ≠ none ∧ c.closed = false ∧ r.never = true) := by
  rw [and_iff_left ⟨w.getNextTimeout_spec php a, w.getNextExpiry_spec php a⟩]
  constructor
  · rintro h ⟨hconn, hclosed, hnever⟩
    rcases Connection.getNextTimeout64_eq_none.mp (h.timeout.mpr (.inr (.inr hnever))) with hc | hc
    · exact hconn hc
    · rw [hclosed] at hc; cases hc
  · intro h
    have hnever (hn : r.never = true) : c.conn = none ∨ c.closed = true := by
      by_cases hconn : c.conn = none
      · exact .inl hconn
      · refine .inr (Bool.of_not_eq_false fun hclosed => ?_)
        exact h ⟨hconn, hclosed, hn⟩
    have hiff : c.conn = none ∨ c.closed = true ↔
        c.conn = none ∨ c.closed = true ∨ r.never = true := by
      constructor
      · exact Or.imp_right Or.inl
      · rintro (hc | hc | hn)
        · exact .inl hc
        · exact .inr hc
        · exact hnever hn
    exact ⟨Connection.getNextTimeout64_eq_none.trans hiff,
      Connection.getNextExpiry64_eq_none.trans hiff⟩

/-- A client without a timer is told to come back in some 584 years. -/
theorem never_is_reported :
    ¬ ∀ (c : Connection) (r : TimerReading), c.NullMeansNoTimer r := by
  intro h
  have hnull := ((h (.fresh .client {} none none) { now := 5, expiry := 18446744073709551615 }).timeout).mpr
    (.inr (.inr (by decide)))
  revert hnull
  decide

end PhpQuic
