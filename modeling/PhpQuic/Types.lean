import Mathlib.Data.List.TakeWhile
import PhpQuic.Lib.OrdTable

/-!
# The data of the extension

The structures of `src/internal/types.h`, and the exceptions that the methods throw.

* A `zend_string` is a list of bytes (`Bytes`), a `char *` to it its bytes before the first NUL
  (`cString`). `Connection.streams` is the table of stream entries in the order in which they were
  added; a `StreamEntry` carries its key, `streamId`.
* `Connection.events` is the event queue, oldest first; its linked nodes are in
  `PhpQuic/Events/Queue.lean`.
* `Connection.conn` is the handle of ngtcp2's own connection: `none` is `NULL`. The extension reads
  nothing of it but the role (`ngtcp2_conn_is_server`); all else that it learns of ngtcp2 comes as
  an answer to a call (`PhpQuic/Border.lean`).
* Left out: the TLS handles, the reference counts of a stream's `zval`s, `ecn` and `received_at` of
  a datagram and the timestamp of an event, which no function of the model reads.
-/

namespace PhpQuic

abbrev Bytes := List UInt8

/-- What a C function sees of a `zend_string` through its `char *`. -/
def cString (s : Bytes) : Bytes := s.takeWhile (· ≠ 0)

/-- A text without a NUL is seen as a whole. -/
theorem cString_eq_iff (r : Bytes) : cString r = r ↔ (0 : UInt8) ∉ r := by
  unfold cString
  rw [List.takeWhile_eq_self_iff]
  simp only [ne_eq, decide_eq_true_eq]
  constructor
  · intro hall hmem
    exact hall 0 hmem rfl
  · rintro hnot b hb rfl
    exact hnot hb

/-! ## Addresses and datagrams -/

/-- `php_quic_address`. -/
structure Address where
  host : Bytes
  port : Int
  deriving DecidableEq

inductive Family where
  | inet
  | inet6
  | other
  deriving DecidableEq

/-- A `struct sockaddr_storage` with its length; all zero before it is filled in. -/
structure SockAddr where
  family : Family := .other
  addr : Bytes := []
  port : Nat := 0
  deriving DecidableEq

/-- `php_quic_datagram`; an address is `none` when its `zval` holds no object. -/
structure Datagram where
  payload : Bytes
  peerAddress : Option Address
  localAddress : Option Address
  deriving DecidableEq

/-- `ngtcp2_path`. -/
structure Path where
  localAddr : SockAddr := {}
  remoteAddr : SockAddr := {}
  deriving DecidableEq

/-! ## Events and streams -/

/-- `php_quic_event_type`. -/
inductive EventType where
  | handshakeCompleted
  | connectionClosed
  | connectionDraining
  | streamOpened
  | streamReadable
  | streamWritable
  | streamClosed
  | streamReset
  deriving DecidableEq

/-- `php_quic_event`. -/
structure Event where
  type : EventType
  streamId : Int
  errorCode : UInt64
  byPeer : Bool
  reason : Option Bytes
  deriving DecidableEq

/-- `php_quic_stream_entry`. -/
structure StreamEntry where
  streamId : Int
  rxBuffer : Bytes
  txBuffer : Bytes
  txOffset : Nat
  readable : Bool
  writable : Bool
  closed : Bool
  reset : Bool
  finSent : Bool
  finRecv : Bool
  finPending : Bool
  pendingOpen : Bool
  deriving DecidableEq

/-- The part of `tx_buffer` from `tx_offset` on. -/
def StreamEntry.unsent (e : StreamEntry) : Bytes := e.txBuffer.drop e.txOffset

/-- The table `streams` of a connection. -/
abbrev StreamTable := OrdTable StreamEntry.streamId

/-! ## Errors -/

/-- The negative return codes of ngtcp2 that the extension tells apart. -/
inductive Err where
  | writeMore
  | streamDataBlocked
  | streamShutWr
  | streamIdBlocked
  | closing
  | draining
  | idleClose
  | crypto
  | versionNegotiation
  | other (code : Int)
  deriving DecidableEq

/-- `php_quic_connection_is_nonfatal_closing_error`. -/
def Err.isNonfatalClosing : Err → Bool
  | .closing | .draining | .idleClose => true
  | _ => false

/-- `ngtcp2_ccerr_type`; `transport` stands for every type but that of an application error. -/
inductive CcErrType where
  | transport
  | application
  deriving DecidableEq

/-- `ngtcp2_ccerr`: the error that a close packet reports. -/
structure CcErr where
  type : CcErrType := .transport
  errorCode : UInt64 := 0
  reason : Bytes := []
  deriving DecidableEq

/-- An exception thrown to PHP. -/
inductive Exn where
  | exception (message : String)
  /-- `"%s failed: %s"`, with the text of ngtcp2's return code. -/
  | ngtcp2 (context : String) (rv : Err)
  /-- `"%s: %s"`, with the text of ngtcp2's return code. -/
  | strerror (context : String) (rv : Err)
  /-- `"%s: 0x%08x"`. -/
  | version (context : String) (version : UInt32)
  /-- `"unexpected stream id mismatch: expected=%d actual=%d"`. -/
  | streamIdMismatch (expected actual : Int)
  | valueError (message : String)
  deriving DecidableEq

/-- How a method ends: it returns, it throws, or (only `drainOutgoingDatagrams`) it is still
waiting for an answer of ngtcp2. -/
inductive Result (α : Type) where
  | returned (a : α)
  | threw (e : Exn)
  | running
  deriving DecidableEq

/-! ## The connection -/

/-- Whose end of the connection an `ngtcp2_conn` is. -/
inductive Role where
  | client
  | server
  deriving DecidableEq

/-- `php_quic_connection`. -/
structure Connection where
  conn : Option Role
  lastError : CcErr
  remoteAddr : SockAddr
  localAddr : SockAddr
  remoteAddress : Option Address
  localAddress : Option Address
  closeReason : Option Bytes
  streams : StreamTable
  events : List Event
  nextBidiStreamId : Int
  nextUniStreamId : Int
  established : Bool
  draining : Bool
  closed : Bool
  closeRequested : Bool
  closePacketSent : Bool
  closeEventEmitted : Bool
  drainingEventEmitted : Bool

end PhpQuic
