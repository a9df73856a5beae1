import PhpQuic.Connection.Base

/-!
# What the send loop does to a stream entry

`pick_tx_stream`, `update_tx_entry` and `discard_tx_entry` of `src/connection.c`.

* `StreamEntry.eligible`: the test by which `pickTxStream` chooses; it takes the first entry of the
  table that passes and offers all of its unsent bytes (`StreamEntry.offer`).
* `StreamEntry.updateTx`: the entry after an answer of `ngtcp2_conn_writev_stream`, up to the last
  test, which queues a `StreamWritable` (`becomesWritable`).
-/

namespace PhpQuic

namespace StreamEntry

/-- Neither closed nor reset, with unsent bytes or a pending FIN. -/
def eligible (e : StreamEntry) : Bool :=
  !(e.closed || e.reset) && (decide (e.txOffset < e.txBuffer.length) || e.finPending)

def clampTxOffset (e : StreamEntry) : StreamEntry :=
  if e.txOffset > e.txBuffer.length then { e with txOffset := e.txBuffer.length } else e

/-- What `pick_tx_stream` hands over of the entry. -/
def offer (e : StreamEntry) : Offer where
  streamId := e.streamId
  data := e.unsent
  fin := e.finPending

/-- `php_quic_connection_update_tx_entry` up to its last test. -/
def updateTx (e : StreamEntry) (wdatalen : Int) (finAttempted packetEmitted : Bool) :
    StreamEntry :=
  let e := if wdatalen > 0 then { e with txOffset := e.txOffset + wdatalen.toNat } else e
  let txLen := e.txBuffer.length
  let e := if e.txOffset > txLen then { e with txOffset := txLen } else e
  let e :=
    if finAttempted && packetEmitted && e.finPending && decide (e.txOffset ≥ txLen) then
      { e with finPending := false, finSent := true, writable := false }
    else e
  if e.txOffset ≥ txLen ∧ txLen > 0 then { e with txBuffer := [], txOffset := 0 } else e

/-- The last test of `php_quic_connection_update_tx_entry`. -/
def becomesWritable (e : StreamEntry) : Bool :=
  !e.finPending && !e.finSent && !e.closed && !e.writable && decide (e.txOffset = 0) &&
    decide (e.txBuffer.length = 0)

/-- `php_quic_connection_discard_tx_entry`. -/
def discardTx (e : StreamEntry) : StreamEntry :=
  { e with txBuffer := [], txOffset := 0, finPending := false, finSent := true, writable := false }

/-- The clamp writes to the offset alone. -/
theorem clampTxOffset_eq (e : StreamEntry) :
    e.clampTxOffset = { e with txOffset := min e.txOffset e.txBuffer.length } := by
  unfold clampTxOffset
  split
  · rename_i h
    rw [Nat.min_eq_right (Nat.le_of_lt h)]
  · rename_i h
    rw [Nat.min_eq_left (Nat.le_of_not_lt h)]

theorem clampTxOffset_self {e : StreamEntry} (h : e.txOffset ≤ e.txBuffer.length) :
    e.clampTxOffset = e := by
  rw [clampTxOffset_eq, Nat.min_eq_left h]

@[simp] theorem clampTxOffset_streamId (e : StreamEntry) : e.clampTxOffset.streamId = e.streamId := by
  rw [clampTxOffset_eq]

theorem withWritable_streamId (e : StreamEntry) (w : Bool) :
    { e with writable := w }.streamId = e.streamId := rfl

@[simp] theorem updateTx_streamId (e : StreamEntry) (w : Int) (f p : Bool) :
    (e.updateTx w f p).streamId = e.streamId := by
  unfold updateTx
  simp only
  repeat' split
  all_goals rfl

/-- `updateTx` in one piece: `out` is that nothing is left to send. -/
theorem updateTx_eq (e : StreamEntry) (w : Int) (f p : Bool) :
    e.updateTx w f p =
      let out := decide (e.txBuffer.length ≤ e.txOffset + w.toNat)
      let fin := f && p && e.finPending && out
      { e with
        txBuffer := if out then [] else e.txBuffer
        txOffset := if out then 0 else e.txOffset + w.toNat
        finPending := e.finPending && !fin
        finSent := e.finSent || fin
        writable := e.writable && !fin } := by
  have hw : (if w > 0 then { e with txOffset := e.txOffset + w.toNat } else e) =
      { e with txOffset := e.txOffset + w.toNat } := by
    split
    · rfl
    · rw [Int.toNat_of_nonpos (by omega)]; rfl
  unfold updateTx
  simp only [hw]
  by_cases hout : e.txBuffer.length ≤ e.txOffset + w.toNat
  · -- all is taken: the offset is the length
    have hclamp : (if e.txOffset + w.toNat > e.txBuffer.length then
        { e with txOffset := e.txBuffer.length } else { e with txOffset := e.txOffset + w.toNat }) =
        { e with txOffset := e.txBuffer.length } := by
      split
      · rfl
      · rw [show e.txOffset + w.toNat = e.txBuffer.length by omega]
    simp only [hclamp, hout]
    have hnil : ¬ e.txBuffer.length > 0 → e.txBuffer = [] := fun h =>
      List.length_eq_zero_iff.mp (by omega)
    cases hfin : f && p && e.finPending <;> by_cases hlen : e.txBuffer.length > 0
    · simp [hlen]
    · simp [hlen, hnil]
    · simp [hlen]
    · simp [hlen, hnil]
  · have hclamp : ¬ e.txOffset + w.toNat > e.txBuffer.length := by omega
    simp [hclamp, hout]
end StreamEntry

namespace Connection

/-- `php_quic_connection_pick_tx_stream`: the first eligible entry's offer; `none` is its `NULL`. -/
def pickTxStream (c : Connection) : Connection × Option Offer :=
  match c.streams.vals.find? StreamEntry.eligible with
  | none => (c, none)
  | some e =>
    (c.modifyEntry e.streamId StreamEntry.clampTxOffset StreamEntry.clampTxOffset_streamId,
      some e.clampTxOffset.offer)

/-- `php_quic_connection_update_tx_entry`; the entry `none` is `NULL`. -/
def updateTxEntry (c : Connection) (entry : Option Int) (wdatalen : Int)
    (finAttempted packetEmitted : Bool) : Connection :=
  match entry with
  | none => c
  | some id =>
    let c := c.modifyEntry id (·.updateTx wdatalen finAttempted packetEmitted)
      fun e => e.updateTx_streamId wdatalen finAttempted packetEmitted
    if (c.getStreamEntry id).any StreamEntry.becomesWritable then
      (c.modifyEntry id (fun e => { e with writable := true })
          fun e => e.withWritable_streamId true).pushEvent
        .streamWritable id 0 false none
    else c

/-- `php_quic_connection_discard_tx_entry`. -/
def discardTxEntry (c : Connection) (entry : Option Int) : Connection :=
  match entry with
  | none => c
  | some id => c.modifyEntry id StreamEntry.discardTx fun _ => rfl

end Connection

end PhpQuic
