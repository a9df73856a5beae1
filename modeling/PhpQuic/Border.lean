import PhpQuic.Types

/-!
# The border of the extension: ngtcp2 on one side, the application on the other

ngtcp2 is not part of the extension. Its answers are inputs of the model: each call takes what
ngtcp2 answers (`WritevAnswer`, `ReadPktAnswer` and so on), together with the callbacks that it
makes into the extension before it answers. Nothing is assumed of an answer here; a theorem that
relies on ngtcp2's documentation states what it uses as a property of the history.

`Act` is one crossing of the border: a call of ngtcp2 with its answer, a callback, or what a method
gave to the application. `Trace` is the history of a connection, **newest first**, so that the
history before an act is the tail behind it. `State` is a connection with its history; no function
of the extension reads the history.

* `isBidiStream`, `isLocalStream`: the two low bits of a stream id, as ngtcp2 documents them.
* `State.log`: records an act.
-/

namespace PhpQuic

/-- `ngtcp2_is_bidi_stream`. -/
def isBidiStream (streamId : Int) : Bool := streamId % 4 < 2

/-- `ngtcp2_conn_is_local_stream`. -/
def isLocalStream (role : Role) (streamId : Int) : Bool :=
  match role with
  | .client => streamId % 2 = 0
  | .server => streamId % 2 = 1

/-- The callbacks of ngtcp2 that touch a connection, with the arguments that they use. -/
inductive Callback where
  | handshakeCompleted
  | streamOpen (streamId : Int)
  | recvStreamData (fin : Bool) (streamId : Int) (offset : Nat) (data : Bytes)
  | streamClose (appErrorCodeSet : Bool) (streamId : Int) (appErrorCode : UInt64)
  | streamReset (streamId : Int) (finalSize : Nat) (appErrorCode : UInt64)
  | ackedStreamDataOffset (streamId : Int) (offset datalen : Nat)
  deriving DecidableEq

/-- What `ngtcp2_conn_in_draining_period`, `ngtcp2_conn_in_closing_period` and
`ngtcp2_conn_get_ccerr` answer in one call of `sync_state`. -/
structure Periods where
  inDraining : Bool := false
  inClosing : Bool := false
  /-- The error code of the `ngtcp2_ccerr`; `none` when ngtcp2 returns `NULL`. -/
  ccerr : Option UInt64 := none
  deriving DecidableEq

/-- What `ngtcp2_conn_writev_stream` is given of a stream. -/
structure Offer where
  streamId : Int
  data : Bytes
  fin : Bool
  deriving DecidableEq

/-- The answer of `ngtcp2_conn_writev_stream`: `ok pkt` is a length `>= 0` with the packet built in
the buffer. -/
structure WritevAnswer where
  callbacks : List Callback := []
  result : Except Err Bytes
  wdatalen : Int := -1
  path : Path := {}
  deriving DecidableEq

/-- The answer of `ngtcp2_conn_write_connection_close`. -/
structure CloseAnswer where
  callbacks : List Callback := []
  result : Except Err Bytes := .ok []
  path : Path := {}
  periods : Periods := {}
  deriving DecidableEq

/-- The answer of `ngtcp2_conn_read_pkt` (`none` is 0), and what the functions called after it
answer. `liberrCode` is the transport error code that `ngtcp2_ccerr_set_liberr` infers. -/
structure ReadPktAnswer where
  callbacks : List Callback := []
  rv : Option Err := none
  liberrCode : UInt64 := 0
  tlsAlert : UInt8 := 0
  periods : Periods := {}
  deriving DecidableEq

/-- The answer of `ngtcp2_conn_handle_expiry` (`none` is 0). -/
structure ExpiryAnswer where
  callbacks : List Callback := []
  rv : Option Err := none
  liberrCode : UInt64 := 0
  periods : Periods := {}
  deriving DecidableEq

/-- The answer of `ngtcp2_conn_shutdown_stream` (`none` is 0). -/
structure ShutdownAnswer where
  callbacks : List Callback := []
  rv : Option Err := none
  deriving DecidableEq

/-- The answers of ngtcp2 in one iteration of the send loop: to the deferred open, if one is due, to
`ngtcp2_conn_writev_stream`, and to the `sync_state` behind a closing error. -/
structure IterAnswer where
  openStream : Except Err Int := .error .streamIdBlocked
  writev : WritevAnswer
  liberrCode : UInt64 := 0
  periods : Periods := {}
  deriving DecidableEq

/-- The answers of ngtcp2 in one call of `drainOutgoingDatagrams`. -/
structure DrainAnswers where
  close : CloseAnswer := {}
  loop : List IterAnswer := []
  periods : Periods := {}
  deriving DecidableEq

/-- One crossing of the border. -/
inductive Act where
  /-- `Stream::write` returned. -/
  | wrote (streamId : Int) (data : Bytes)
  /-- `Stream::end` returned; no data is `[]`. -/
  | ended (streamId : Int) (data : Bytes)
  /-- `Stream::reset` returned. -/
  | wasReset (streamId : Int) (errorCode : UInt64)
  /-- `Stream::read` returned. -/
  | chunk (streamId : Int) (data : Bytes)
  /-- `openStream` (`bidi`) or `openUniStream` returned a stream; `pending`: its open was
  blocked. -/
  | returned (bidi : Bool) (streamId : Int) (pending : Bool)
  /-- `drainOutgoingDatagrams` returned. -/
  | datagrams (ds : List Datagram)
  /-- `drainEvents` returned. -/
  | events (es : List Event)
  /-- A method threw. -/
  | threw (e : Exn)
  /-- `ngtcp2_conn_open_bidi_stream` or `ngtcp2_conn_open_uni_stream`, called by the method of the
  same kind. -/
  | openLocal (bidi : Bool) (rv : Except Err Int)
  /-- The same for a pending stream, called by the send loop. -/
  | openPending (streamId : Int) (rv : Except Err Int)
  | writev (offer : Option Offer) (a : WritevAnswer)
  | writeClose (ccerr : CcErr) (rv : Except Err Bytes) (path : Path)
  | readPkt (path : Path) (payload : Bytes) (rv : Option Err)
  | handleExpiry (rv : Option Err)
  | shutdownStream (streamId : Int) (errorCode : UInt64) (rv : Option Err)
  | periods (p : Periods)
  /-- `ngtcp2_conn_extend_max_stream_offset`: the peer may send more on the stream. -/
  | extendMaxStreamOffset (streamId : Int) (datalen : Nat)
  /-- `ngtcp2_conn_extend_max_offset`: the peer may send more on the connection. -/
  | extendMaxOffset (datalen : Nat)
  | callback (cb : Callback)
  deriving DecidableEq

/-- A history, newest first. -/
abbrev Trace := List Act

/-- A connection with its history. -/
structure State where
  conn : Connection
  trace : Trace

namespace State

/-- Records an act. -/
def log (s : State) (a : Act) : State := { s with trace := a :: s.trace }

@[simp] theorem log_conn (s : State) (a : Act) : (s.log a).conn = s.conn := rfl
@[simp] theorem log_trace (s : State) (a : Act) : (s.log a).trace = a :: s.trace := rfl

/-- Changes the connection. -/
def withConn (s : State) (c : Connection) : State := { s with conn := c }

@[simp] theorem withConn_conn (s : State) (c : Connection) : (s.withConn c).conn = c := rfl
@[simp] theorem withConn_trace (s : State) (c : Connection) : (s.withConn c).trace = s.trace := rfl

/-- What was added to the history from `s` to `s'`. -/
def actsSince (s s' : State) : Trace := s'.trace.take (s'.trace.length - s.trace.length)

theorem actsSince_eq {s s' : State} {new : Trace} (h : s'.trace = new ++ s.trace) :
    s.actsSince s' = new := by
  unfold actsSince
  rw [h, List.length_append, Nat.add_sub_cancel, List.take_left]

end State

end PhpQuic
