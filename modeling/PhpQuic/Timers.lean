import Mathlib.Algebra.Ring.Int.Defs
import PhpQuic.System

/-!
# The timer of a connection

`getNextTimeout` and `getNextExpiry` in the types of C, where the clock and the expiry are unsigned
and a result is a signed number of milliseconds.

* `getNextTimeout64_toInt`, `getNextExpiry64_toInt`: nothing overflows, so the results are those of
  `getNextTimeout` and `getNextExpiry`.
* `SleepsUntil now expiry t`: `t` milliseconds from `now` the timer is due, and not one earlier.
* `sleepsUntil_iff`: the milliseconds are rounded down, so the timer is due behind them only if
  nothing was cut off. `wakes_early`: a timer that is reported as due before it is.
-/

namespace PhpQuic

/-- What the clocks and `ngtcp2_conn_get_expiry` answer in one call: the monotonic clock and the
expiry in nanoseconds, and the wall clock in milliseconds. -/
structure TimerReading where
  now : UInt64
  expiry : UInt64
  epochMs : Int64 := 0
  deriving DecidableEq

namespace Connection

/-- `php_quic_connection_get_next_timeout_ms`; `none` is `has_timeout = 0`. -/
def getNextTimeoutMs64 (c : Connection) (r : TimerReading) : Option Int64 :=
  if c.conn.isNone || c.closed then none
  else if r.expiry ≤ r.now then some 0
  -- `NGTCP2_MILLISECONDS`
  else some ((r.expiry - r.now) / 1000000).toInt64

/-- `Connection::getNextTimeout`. -/
def getNextTimeout64 (c : Connection) (r : TimerReading) : Option Int64 := c.getNextTimeoutMs64 r

/-- `Connection::getNextExpiry`. -/
def getNextExpiry64 (c : Connection) (r : TimerReading) : Option Int64 :=
  (c.getNextTimeoutMs64 r).map fun ms => r.epochMs + ms

end Connection

/-- The cast to `zend_long` of a number of milliseconds. -/
theorem toInt_milliseconds (x : UInt64) :
    (x / 1000000).toInt64.toInt = (x.toNat / 1000000 : Nat) := by
  have hdiv : (x / 1000000).toBitVec.toNat = x.toNat / 1000000 := UInt64.toNat_div x 1000000
  have hlt := x.toNat_lt
  have hsmall : 2 * (x / 1000000).toBitVec.toNat < 2 ^ 64 := by
    rw [hdiv]
    omega
  show (x / 1000000).toBitVec.toInt = _
  rw [BitVec.toInt_eq_toNat_of_lt hsmall, hdiv]

namespace Connection

variable {c : Connection} {r : TimerReading}

theorem getNextTimeoutMs64_eq_none : c.getNextTimeoutMs64 r = none ↔
    c.conn.isNone = true ∨ c.closed = true := by
  unfold getNextTimeoutMs64
  rw [← Bool.or_eq_true]
  split
  · rename_i h
    exact iff_of_true rfl h
  · rename_i h
    refine iff_of_false ?_ h
    split <;> simp

/-- The value in the numbers of mathematics. -/
theorem getNextTimeoutMs64_some {t : Int64} (h : c.getNextTimeoutMs64 r = some t) :
    t.toInt = ((r.expiry.toNat - r.now.toNat) / 1000000 : Nat) := by
  unfold getNextTimeoutMs64 at h
  split at h
  · cases h
  · split at h
    · rename_i hle
      obtain rfl := Option.some.inj h
      have hnat := UInt64.le_iff_toNat_le.mp hle
      rw [Nat.sub_eq_zero_of_le hnat]
      rfl
    · rename_i hlt
      obtain rfl := Option.some.inj h
      have hnat : r.now ≤ r.expiry := by
        rw [UInt64.le_iff_toNat_le] at hlt ⊢
        omega
      rw [toInt_milliseconds, UInt64.toNat_sub_of_le _ _ hnat]

theorem getNextTimeout64_toInt (c : Connection) (r : TimerReading) :
    (c.getNextTimeout64 r).map Int64.toInt = c.getNextTimeout r.now.toNat r.expiry.toNat := by
  unfold getNextTimeout64 getNextTimeout getNextTimeoutMs getNextExpiryNs
  cases h : c.getNextTimeoutMs64 r with
  | none =>
    rw [if_pos (by rw [Bool.or_eq_true]; exact getNextTimeoutMs64_eq_none.mp h)]
    rfl
  | some t =>
    have hopen : ¬ (c.conn.isNone || c.closed) = true := by
      rw [Bool.or_eq_true, ← getNextTimeoutMs64_eq_none (r := r), h]
      exact Option.some_ne_none t
    rw [if_neg hopen]
    simp only [Option.map_some, Option.some.injEq]
    rw [getNextTimeoutMs64_some h]
    split
    · rename_i hle
      rw [Nat.sub_eq_zero_of_le hle]
    · rfl

theorem getNextTimeoutMs64_bounds {t : Int64} (h : c.getNextTimeoutMs64 r = some t) :
    0 ≤ t.toInt ∧ t.toInt < 2 ^ 62 := by
  have hexpiry := r.expiry.toNat_lt
  rw [getNextTimeoutMs64_some h]
  omega

theorem getNextExpiry64_toInt (c : Connection) (r : TimerReading) (hepoch : r.epochMs.toInt < 2 ^ 62) :
    (c.getNextExpiry64 r).map Int64.toInt =
      c.getNextExpiry r.now.toNat r.expiry.toNat r.epochMs.toInt := by
  have htimeout := c.getNextTimeout64_toInt r
  unfold getNextTimeout64 getNextTimeout at htimeout
  unfold getNextExpiry64 getNextExpiry
  cases hms : c.getNextTimeoutMs64 r with
  | none =>
    rw [hms] at htimeout
    cases hnat : c.getNextTimeoutMs r.now.toNat r.expiry.toNat with
    | none => rfl
    | some t => rw [hnat] at htimeout; cases htimeout
  | some t =>
    obtain ⟨hpos, hlt⟩ := getNextTimeoutMs64_bounds hms
    rw [hms] at htimeout
    cases hnat : c.getNextTimeoutMs r.now.toNat r.expiry.toNat with
    | none => rw [hnat] at htimeout; cases htimeout
    | some ms =>
      rw [hnat] at htimeout
      have hms : t.toInt = ms := Option.some.inj htimeout
      have hlow := r.epochMs.le_toInt
      simp only [Option.map_some, Option.some.injEq]
      rw [Int64.toInt_add, hms, Int.bmod_eq_of_le (by omega) (by omega)]

end Connection

/-- `t` milliseconds from `now` the timer is due, and not one earlier. -/
structure SleepsUntil (now expiry : Nat) (t : Int) : Prop where
  zero_iff : t = 0 ↔ expiry ≤ now
  due : expiry ≤ now + t * 1000000
  not_before : 0 < t → now + (t - 1) * 1000000 < expiry

/-- Milliseconds that are rounded down. -/
theorem sleepsUntil_floor_iff (now expiry : Nat) :
    SleepsUntil now expiry ((expiry - now) / 1000000 : Nat) ↔
      expiry ≤ now ∨ 1000000 ∣ expiry - now := by
  constructor
  · intro h
    have hdue := h.due
    rw [Nat.dvd_iff_mod_eq_zero]
    omega
  · intro h
    have hmod : (expiry - now) % 1000000 = 0 := by
      rcases h with h | h
      · rw [Nat.sub_eq_zero_of_le h]
      · exact Nat.dvd_iff_mod_eq_zero.mp h
    refine ⟨?_, ?_, ?_⟩
    · omega
    · omega
    · omega

/-- A connection that reports a timer: the time to sleep is right if and only if the timer is due or
the time until it is due is a whole number of milliseconds. Neither the cast to a signed value nor
the sum with the wall clock overflows. -/
theorem sleepsUntil_iff (c : Connection) (r : TimerReading) (t : Int64)
    (h : c.getNextTimeout64 r = some t) (hepoch : r.epochMs.toInt < 2 ^ 62) :
    (SleepsUntil r.now.toNat r.expiry.toNat t.toInt ∧
        c.getNextTimeout r.now.toNat r.expiry.toNat = some t.toInt ∧
        (c.getNextExpiry64 r).map Int64.toInt = some (r.epochMs.toInt + t.toInt)) ↔
      r.expiry.toNat ≤ r.now.toNat ∨ 1000000 ∣ r.expiry.toNat - r.now.toNat := by
  have hvalue : t.toInt = ((r.expiry.toNat - r.now.toNat) / 1000000 : Nat) :=
    Connection.getNextTimeoutMs64_some h
  have htimeout : c.getNextTimeout r.now.toNat r.expiry.toNat = some t.toInt := by
    rw [← c.getNextTimeout64_toInt r, h]
    rfl
  have hexpiry : (c.getNextExpiry64 r).map Int64.toInt = some (r.epochMs.toInt + t.toInt) := by
    rw [c.getNextExpiry64_toInt r hepoch]
    unfold Connection.getNextTimeout at htimeout
    unfold Connection.getNextExpiry
    cases hnat : c.getNextTimeoutMs r.now.toNat r.expiry.toNat with
    | none => rw [hnat] at htimeout; cases htimeout
    | some ms =>
      rw [hnat] at htimeout
      simp only [Option.map_some, Option.some.injEq] at htimeout ⊢
      rw [htimeout]
  have hfloor := sleepsUntil_floor_iff r.now.toNat r.expiry.toNat
  rw [← hvalue] at hfloor
  rw [and_iff_left ⟨htimeout, hexpiry⟩]
  exact hfloor

/-- An open connection whose timer is due in a millisecond and `ns` nanoseconds. -/
def dueIn (ns : UInt64) : TimerReading := { now := 5, expiry := 1000005 + ns, epochMs := 1700000000000 }

theorem sleepsUntil_iff_wholeMillisecond :
    let c := Connection.fresh .client {} none none
    c.getNextTimeout64 (dueIn 0) = some 1 ∧ SleepsUntil 5 1000005 1 := by
  have h : (Connection.fresh .client {} none none).getNextTimeout64 (dueIn 0) = some 1 := by decide
  exact ⟨h, ((sleepsUntil_iff _ (dueIn 0) 1 h (by decide)).mpr (.inr (by decide))).1⟩

/-- A timer that is due in half a millisecond is reported as due. -/
theorem wakes_early :
    ¬ ∀ (c : Connection) (r : TimerReading) (t : Int64), c.getNextTimeout64 r = some t →
      r.epochMs.toInt < 2 ^ 62 → SleepsUntil r.now.toNat r.expiry.toNat t.toInt := by
  intro h
  have hbad := h (Connection.fresh .client {} none none) { now := 5, expiry := 500005 } 0 (by decide)
    (by decide)
  have hdue : (500005 : Nat) ≤ 5 := hbad.zero_iff.mp rfl
  omega

end PhpQuic
