import PhpQuic.Callbacks

/-!
# The methods of `Varion\Ngtcp2\Stream`

The PHP methods of `src/stream.c`. A `Stream` object is a connection with a stream id, so each
method takes the state of the connection and the id; its answer is the state after it and how it
ended (`Result`).

* `State.throw` ends a method with an exception.
* `read`, `write`, `end_`, `reset`; `isReadable`, `isWritable`, `isClosed` read the entry.
-/

namespace PhpQuic

/-- Ends a method with an exception. The state keeps what was done before. -/
def State.throw {α : Type} (s : State) (e : Exn) : State × Result α := (s.log (.threw e), .threw e)

@[simp] theorem State.throw_fst {α : Type} (s : State) (e : Exn) :
    (s.throw e : State × Result α).1 = s.log (.threw e) := rfl

/-- Writes to the entry of `streamId`. -/
def State.modifyEntry (s : State) (streamId : Int) (f : StreamEntry → StreamEntry)
    (hf : ∀ e, (f e).streamId = e.streamId) : State :=
  s.withConn (s.conn.modifyEntry streamId f hf)

@[simp] theorem State.modifyEntry_trace (s : State) (id : Int) (f : StreamEntry → StreamEntry)
    (hf : ∀ e, (f e).streamId = e.streamId) : (s.modifyEntry id f hf).trace = s.trace := rfl

@[simp] theorem State.modifyEntry_conn (s : State) (id : Int) (f : StreamEntry → StreamEntry)
    (hf : ∀ e, (f e).streamId = e.streamId) :
    (s.modifyEntry id f hf).conn = s.conn.modifyEntry id f hf := rfl

/-- `php_quic_buffer_read` (`src/buffer.c`): the chunk and what is left of the buffer. -/
def bufferRead (buffer : Bytes) (maxLen : Nat) : Bytes × Bytes :=
  if buffer.length = 0 ∨ maxLen = 0 then ([], buffer)
  else
    let readLen := if maxLen < buffer.length then maxLen else buffer.length
    (buffer.take readLen, buffer.drop readLen)

/-- `php_quic_stream_is_remote_unidirectional`. -/
def Connection.isRemoteUnidirectional (c : Connection) (streamId : Int) : Bool :=
  match c.conn with
  | none => false
  | some role => !isBidiStream streamId && !isLocalStream role streamId

namespace StreamEntry

/-- The writes of `Stream::write` to the entry. -/
def write (e : StreamEntry) (data : Bytes) : StreamEntry :=
  { e with txBuffer := bufferAppend e.txBuffer data, writable := false }

/-- The writes of `Stream::end` to the entry. -/
def end_ (e : StreamEntry) (data : Bytes) : StreamEntry :=
  { e with txBuffer := bufferAppend e.txBuffer data, finPending := true, writable := false }

/-- The writes of `Stream::reset` to the entry. -/
def resetLocal (e : StreamEntry) : StreamEntry :=
  { e with
    reset := true
    closed := true
    readable := false
    writable := false
    finPending := false
    pendingOpen := false }

/-- The writes of `Stream::read` to the entry: `rest` is what is left of the buffer. -/
def readRest (e : StreamEntry) (rest : Bytes) : StreamEntry :=
  { e with rxBuffer := rest, readable := decide (rest.length > 0) }

end StreamEntry

namespace Stream

/-- `Stream::read`. -/
def read (s : State) (streamId : Int) (length : Int) : State × Result Bytes :=
  if length ≤ 0 then s.throw (.valueError "must be greater than 0")
  else
    match s.conn.getStreamEntry streamId with
    | none => (s.log (.chunk streamId []), .returned [])
    | some entry =>
      if entry.rxBuffer.length = 0 then (s.log (.chunk streamId []), .returned [])
      else
        let (chunk, rest) := bufferRead entry.rxBuffer length.toNat
        let s := s.modifyEntry streamId (·.readRest rest) fun _ => rfl
        (s.log (.chunk streamId chunk), .returned chunk)

/-- `Stream::write`. -/
def write (s : State) (streamId : Int) (data : Bytes) : State × Result Nat :=
  match s.conn.getStreamEntry streamId with
  | none => s.throw (.exception "Stream entry does not exist")
  | some entry =>
    if s.conn.isRemoteUnidirectional streamId then
      s.throw (.exception "Cannot write to a remote unidirectional stream")
    else if entry.closed || entry.finSent || entry.finPending then
      s.throw (.exception "Stream is not writable")
    else
      let s := s.modifyEntry streamId (·.write data) fun _ => rfl
      (s.log (.wrote streamId data), .returned data.length)

/-- `Stream::end`. -/
def end_ (s : State) (streamId : Int) (finalData : Option Bytes) : State × Result Unit :=
  match s.conn.getStreamEntry streamId with
  | none => s.throw (.exception "Stream entry does not exist")
  | some _ =>
    if s.conn.isRemoteUnidirectional streamId then
      s.throw (.exception "Cannot end a remote unidirectional stream")
    else
      let s := s.modifyEntry streamId (·.end_ (finalData.getD [])) fun _ => rfl
      (s.log (.ended streamId (finalData.getD [])), .returned ())

/-- The call of `ngtcp2_conn_shutdown_stream` in `Stream::reset`. -/
def shutdownStream (s : State) (streamId : Int) (errorCode : UInt64) (a : ShutdownAnswer) :
    State × Option Err :=
  if s.conn.conn.isSome && !s.conn.closed then
    ((s.runCallbacks a.callbacks).log (.shutdownStream streamId errorCode a.rv), a.rv)
  else (s, none)

/-- `Stream::reset`. -/
def reset (s : State) (streamId : Int) (errorCode : Int64) (a : ShutdownAnswer) :
    State × Result Unit :=
  match s.conn.getStreamEntry streamId with
  | none => s.throw (.exception "Stream entry does not exist")
  | some _ =>
    match shutdownStream s streamId errorCode.toUInt64 a with
    | (s, some rv) => s.throw (.ngtcp2 "ngtcp2_conn_shutdown_stream" rv)
    | (s, none) =>
      let s := s.modifyEntry streamId StreamEntry.resetLocal fun _ => rfl
      let s := s.withConn
        (s.conn.pushEvent .streamReset streamId errorCode.toUInt64 false none)
      (s.log (.wasReset streamId errorCode.toUInt64), .returned ())

/-- `Stream::isReadable`. -/
def isReadable (s : State) (streamId : Int) : Bool :=
  (s.conn.getStreamEntry streamId).any StreamEntry.readable

/-- `Stream::isWritable`. -/
def isWritable (s : State) (streamId : Int) : Bool :=
  (s.conn.getStreamEntry streamId).any fun e => e.writable && !e.closed

/-- `Stream::isClosed`. -/
def isClosed (s : State) (streamId : Int) : Bool :=
  (s.conn.getStreamEntry streamId).all StreamEntry.closed

end Stream

end PhpQuic
