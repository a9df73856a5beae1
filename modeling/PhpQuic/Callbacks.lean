import PhpQuic.Connection.Base

/-!
# The callbacks of `src/callbacks.c`

What ngtcp2's callbacks do to the connection. `Connection.callback` is the table of
`php_quic_callbacks_init`; `State.runCallbacks` runs the callbacks that one call of ngtcp2 makes,
in their order, and records each.
-/

namespace PhpQuic

/-- `php_quic_buffer_append` (`src/buffer.c`). -/
def bufferAppend (buffer data : Bytes) : Bytes := if data.length = 0 then buffer else buffer ++ data

@[simp] theorem bufferAppend_eq (buffer data : Bytes) : bufferAppend buffer data = buffer ++ data := by
  unfold bufferAppend
  split
  · rename_i h; rw [List.length_eq_zero_iff.mp h, List.append_nil]
  · rfl

namespace Connection

/-- `php_quic_handshake_completed_cb`. -/
def handshakeCompletedCb (c : Connection) : Connection :=
  if c.established then c
  else { c with established := true }.pushEvent .handshakeCompleted (-1) 0 false none

/-- `php_quic_stream_open_cb`. Without a connection of ngtcp2 no callback runs; the role is then of
no account. -/
def streamOpenCb (c : Connection) (streamId : Int) : Connection :=
  let localStream := isLocalStream (c.conn.getD .client) streamId
  let bidiStream := isBidiStream streamId
  ((c.openStreamEntry streamId).modifyEntry streamId
    (fun e => { e with writable := localStream || bidiStream }) fun _ => rfl).pushEvent
      .streamOpened streamId 0 true none

/-- `php_quic_recv_stream_data_cb`. -/
def recvStreamDataCb (c : Connection) (fin : Bool) (streamId : Int) (data : Bytes) : Connection :=
  let c := (c.openStreamEntry streamId).modifyEntry streamId
    (fun e => { e with rxBuffer := bufferAppend e.rxBuffer data }) fun _ => rfl
  let c :=
    if (c.getStreamEntry streamId).any fun e => !e.readable && decide (e.rxBuffer.length > 0) then
      (c.modifyEntry streamId (fun e => { e with readable := true }) fun _ => rfl).pushEvent
        .streamReadable streamId 0 true none
    else c
  if fin then c.modifyEntry streamId (fun e => { e with finRecv := true }) fun _ => rfl else c

/-- `php_quic_stream_close_cb`. -/
def streamCloseCb (c : Connection) (appErrorCodeSet : Bool) (streamId : Int)
    (appErrorCode : UInt64) : Connection :=
  ((c.openStreamEntry streamId).modifyEntry streamId
    (fun e => { e with closed := true, writable := false }) fun _ => rfl).pushEvent
      .streamClosed streamId (if appErrorCodeSet then appErrorCode else 0) true none

/-- `php_quic_stream_reset_cb`. -/
def streamResetCb (c : Connection) (streamId : Int) (appErrorCode : UInt64) : Connection :=
  ((c.openStreamEntry streamId).modifyEntry streamId
    (fun e => { e with reset := true, closed := true, writable := false }) fun _ => rfl).pushEvent
      .streamReset streamId appErrorCode true none

/-- `php_quic_acked_stream_data_offset_cb`: the offset and the length are ignored. -/
def ackedStreamDataOffsetCb (c : Connection) (streamId : Int) : Connection :=
  match c.getStreamEntry streamId with
  | none => c
  | some entry =>
    if entry.closed || entry.reset || entry.finSent then c
    else if !entry.writable then
      (c.modifyEntry streamId (fun e => { e with writable := true }) fun _ => rfl).pushEvent
        .streamWritable streamId 0 true none
    else c

/-- `php_quic_callbacks_init`. -/
def callback (c : Connection) : Callback → Connection
  | .handshakeCompleted => c.handshakeCompletedCb
  | .streamOpen id => c.streamOpenCb id
  | .recvStreamData fin id _ data => c.recvStreamDataCb fin id data
  | .streamClose set id code => c.streamCloseCb set id code
  | .streamReset id _ code => c.streamResetCb id code
  | .ackedStreamDataOffset id _ _ => c.ackedStreamDataOffsetCb id

end Connection

namespace State

def runCallback (s : State) (cb : Callback) : State :=
  (s.withConn (s.conn.callback cb)).log (.callback cb)

/-- The callbacks of one call of ngtcp2. -/
def runCallbacks (s : State) (cbs : List Callback) : State := cbs.foldl runCallback s

end State

end PhpQuic
