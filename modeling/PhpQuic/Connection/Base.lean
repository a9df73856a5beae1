import PhpQuic.Border

/-!
# The internal functions of `src/connection.c`

Entries, events, the lifecycle flags and the id counters of a connection, under the names of the
source without their `php_quic_connection_` prefix.

* `pushEvent` appends to the event queue. The reason is a `char *`, so it ends at the first NUL.
* `openStreamEntry` finds the entry of a stream or adds a new one at the end of the table.
* `syncState` reads ngtcp2's two period predicates once (`Periods`): nothing is called between
  their two uses that could change them.
* `ensureNextStreamId` moves a counter to the first id of its class when it is not in the class.
-/

namespace PhpQuic

/-- `php_quic_stream_entry_alloc`. -/
def StreamEntry.alloc (streamId : Int) : StreamEntry where
  streamId := streamId
  rxBuffer := []
  txBuffer := []
  txOffset := 0
  readable := false
  writable := true
  closed := false
  reset := false
  finSent := false
  finRecv := false
  finPending := false
  pendingOpen := false

@[simp] theorem StreamEntry.alloc_streamId (id : Int) : (StreamEntry.alloc id).streamId = id := rfl

namespace Connection

/-- `php_quic_connection_create_object`. -/
def createObject : Connection where
  conn := none
  lastError := {}
  remoteAddr := {}
  localAddr := {}
  remoteAddress := none
  localAddress := none
  closeReason := none
  streams := .empty
  events := []
  nextBidiStreamId := 0
  nextUniStreamId := 2
  established := false
  draining := false
  closed := false
  closeRequested := false
  closePacketSent := false
  closeEventEmitted := false
  drainingEventEmitted := false

/-! ## Entries -/

/-- `php_quic_connection_get_stream_entry`. -/
def getStreamEntry (c : Connection) (streamId : Int) : Option StreamEntry :=
  c.streams.find? streamId

/-- `php_quic_connection_open_stream_entry`, without its result: the entry of `streamId`, which is
new and at the end of the table if there was none. -/
def openStreamEntry (c : Connection) (streamId : Int) : Connection :=
  { c with streams := c.streams.addNew (StreamEntry.alloc streamId) }

/-- Writes to the entry of `streamId`, if there is one, through a pointer to it. -/
def modifyEntry (c : Connection) (streamId : Int) (f : StreamEntry → StreamEntry)
    (hf : ∀ e, (f e).streamId = e.streamId) : Connection :=
  { c with streams := c.streams.modify streamId f hf }

/-! ## Events -/

/-- `php_quic_connection_push_event`. -/
def pushEvent (c : Connection) (type : EventType) (streamId : Int) (errorCode : UInt64)
    (byPeer : Bool) (reason : Option Bytes) : Connection :=
  { c with events := c.events ++ [{ type, streamId, errorCode, byPeer, reason := reason.map cString }] }

/-- The first half of `php_quic_connection_sync_state`. -/
def noteDraining (c : Connection) : Connection :=
  let c := { c with draining := true }
  if c.drainingEventEmitted then c
  else { c with drainingEventEmitted := true }.pushEvent .connectionDraining (-1) 0 true none

/-- The second half of `php_quic_connection_sync_state`. -/
def noteClosed (c : Connection) (ccerr : Option UInt64) : Connection :=
  let c := { c with closed := true }
  if c.closeEventEmitted then c
  else { c.pushEvent .connectionClosed (-1) (ccerr.getD 0) true none with closeEventEmitted := true }

/-- `php_quic_connection_sync_state`. -/
def syncState (c : Connection) (p : Periods) : Connection :=
  if c.conn.isNone then c
  else
    let c := if p.inDraining then c.noteDraining else c
    if p.inClosing || p.inDraining then c.noteClosed p.ccerr else c

/-! ## Stream ids -/

/-- The first id that the connection's own side may give to a stream of the kind, as
`ensure_next_stream_id` has it. -/
def minimumStreamId (c : Connection) (bidi : Bool) : Int :=
  if c.conn = some .server then (if bidi then 1 else 3) else (if bidi then 0 else 2)

/-- The counter of the kind. -/
def nextStreamId (c : Connection) (bidi : Bool) : Int :=
  if bidi then c.nextBidiStreamId else c.nextUniStreamId

def setNextStreamId (c : Connection) (bidi : Bool) (id : Int) : Connection :=
  if bidi then { c with nextBidiStreamId := id } else { c with nextUniStreamId := id }

/-- `php_quic_connection_ensure_next_stream_id`. -/
def ensureNextStreamId (c : Connection) (bidi : Bool) : Connection :=
  if c.nextStreamId bidi < c.minimumStreamId bidi ∨
      c.nextStreamId bidi % 4 ≠ c.minimumStreamId bidi % 4 then
    c.setNextStreamId bidi (c.minimumStreamId bidi)
  else c

/-- `php_quic_connection_open_context_for_stream_id`. -/
def openContextForStreamId (streamId : Int) : String :=
  if isBidiStream streamId then "ngtcp2_conn_open_bidi_stream" else "ngtcp2_conn_open_uni_stream"

/-! ## Timers -/

/-- `php_quic_connection_get_next_expiry`: the clock and ngtcp2's expiry, in nanoseconds. -/
def getNextExpiryNs (c : Connection) (now expiry : Nat) : Option (Nat × Nat) :=
  if c.conn.isNone || c.closed then none else some (now, expiry)

/-- `php_quic_connection_get_next_timeout_ms`. -/
def getNextTimeoutMs (c : Connection) (now expiry : Nat) : Option Nat :=
  (c.getNextExpiryNs now expiry).map fun (now, expiry) =>
    if expiry ≤ now then 0 else (expiry - now) / 1000000

end Connection

end PhpQuic
