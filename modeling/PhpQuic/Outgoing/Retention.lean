import PhpQuic.Outgoing.Buffer

/-!
# What the outgoing buffer retains

`ngtcp2_conn_writev_stream` refers to the bytes it takes until they are acknowledged, so the buffer
has to keep them until then (`Retained`). It lets go of all that was taken when the unsent bytes run
out, acknowledged or not, so it keeps them exactly when those are acknowledged (`retention_iff`).
-/

namespace PhpQuic

variable {id : Int} {e : StreamEntry} {t : Trace}

/-- The buffer holds the bytes that were taken but not acknowledged, then the unsent ones. -/
def Retained (id : Int) (e : StreamEntry) (t : Trace) : Prop :=
  (t.taken id).drop (t.acked id) ++ e.unsent <:+ e.txBuffer

instance (id : Int) (e : StreamEntry) (t : Trace) : Decidable (Retained id e t) :=
  inferInstanceAs (Decidable (_ <:+ _))

/-- Of two ends of a list, each with the same list behind it, the shorter is an end of the longer. -/
theorem drop_append_suffix_iff {α : Type} {l : List α} (u : List α) {m n : Nat}
    (hm : m ≤ l.length) (hn : n ≤ l.length) : l.drop m ++ u <:+ l.drop n ++ u ↔ n ≤ m := by
  constructor
  · intro h
    have hlen := h.length_le
    rw [List.length_append, List.length_append, List.length_drop, List.length_drop] at hlen
    omega
  · intro h
    obtain ⟨k, rfl⟩ := Nat.exists_eq_add_of_le h
    obtain ⟨pre, hpre⟩ := List.drop_suffix k (l.drop n)
    exact ⟨pre, by rw [← List.drop_drop, ← List.append_assoc, hpre]⟩

theorem StreamEntry.Holds.retained_iff (h : StreamEntry.Holds id e t)
    (hacked : t.acked id ≤ (t.taken id).length) :
    Retained id e t ↔ t.released id ≤ t.acked id := by
  unfold Retained
  rw [h.unsent, h.txBuffer]
  exact drop_append_suffix_iff (t.unsent id) hacked h.released_le

/-- The bytes that ngtcp2 has taken of a stream but not acknowledged are in its buffer if and only
if ngtcp2 has acknowledged what it had taken when the stream's unsent bytes last ran out. -/
theorem retention_iff (start : Start) (ops : List Op) (id : Int)
    (hacked : (start.run ops).trace.acked id ≤ ((start.run ops).trace.taken id).length) :
    Retained id ((start.run ops).conn.entry id) (start.run ops).trace ↔
      (start.run ops).trace.released id ≤ (start.run ops).trace.acked id :=
  (start.run_holds ops id).retained_iff hacked

/-- Two bytes are taken in one packet, and the next datagram brings `acks`. -/
def ackedLate (acks : List Callback) : List Op :=
  [.openStream (.ok 0), .write 0 [1, 2],
    .drainOutgoingDatagrams { loop := [
      { writev := { result := .ok [7], wdatalen := 2 } },
      { writev := { result := .ok [] } }] },
    .recv (fun _ _ => some [{ family := .inet }]) ⟨[9], some ⟨[49], 1⟩, none⟩
      { callbacks := acks }]

theorem retention_iff_ackedLate :
    let s := (Start.client {} none none).run (ackedLate [.ackedStreamDataOffset 0 0 2])
    s.trace.acked 0 ≤ (s.trace.taken 0).length ∧
      (Retained 0 (s.conn.entry 0) s.trace ↔ s.trace.released 0 ≤ s.trace.acked 0) ∧
      s.trace.acked 0 = 2 :=
  have h : ((Start.client {} none none).run (ackedLate [.ackedStreamDataOffset 0 0 2])).trace.acked 0
      ≤ (((Start.client {} none none).run
        (ackedLate [.ackedStreamDataOffset 0 0 2])).trace.taken 0).length := by decide
  ⟨h, retention_iff _ _ 0 h, by decide⟩

/-- Bytes that ngtcp2 has taken and not acknowledged are not in the buffer. -/
theorem retention_fails :
    ¬ ∀ (start : Start) (ops : List Op) (id : Int) (e : StreamEntry),
      (start.run ops).conn.getStreamEntry id = some e → e.closed = false → e.reset = false →
      (start.run ops).trace.acked id ≤ ((start.run ops).trace.taken id).length →
      Retained id e (start.run ops).trace := by
  intro h
  have hbad := h (.client {} none none) (ackedLate []) 0
    (((Start.client {} none none).run (ackedLate [])).conn.entry 0) (by decide) (by decide)
    (by decide) (by decide)
  revert hbad
  decide

end PhpQuic
