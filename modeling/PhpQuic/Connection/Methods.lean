import PhpQuic.Address
import PhpQuic.Stream

/-!
# The methods of `Varion\Ngtcp2\Connection`, but for the send loop

The PHP methods of `src/connection.c` other than `drainOutgoingDatagrams`
(`PhpQuic/Connection/Drain.lean`). `openStream` and `openUniStream` are one function of the kind
(`openLocalStream`); `handleTimers` and `tick` are `onTimeout`, `getTimeoutAt` is `getNextExpiry`.
-/

namespace PhpQuic

namespace State

/-- `php_quic_connection_sync_state`. -/
def syncState (s : State) (p : Periods) : State :=
  if s.conn.conn.isNone then s else (s.withConn (s.conn.syncState p)).log (.periods p)

theorem syncState_conn (s : State) (p : Periods) : (s.syncState p).conn = s.conn.syncState p := by
  unfold syncState
  split
  · rename_i h; unfold Connection.syncState; rw [if_pos h]
  · rfl

def setLastError (s : State) (e : CcErr) : State := s.withConn { s.conn with lastError := e }

end State

/-- `ngtcp2_ccerr_set_liberr`. -/
def CcErr.liberr (code : UInt64) : CcErr := { type := .transport, errorCode := code }

/-- `ngtcp2_ccerr_set_tls_alert`: `NGTCP2_CRYPTO_ERROR | alert`. -/
def CcErr.tlsAlert (alert : UInt8) : CcErr :=
  { type := .transport, errorCode := 0x100 ||| alert.toUInt64 }

/-- `ngtcp2_ccerr_set_application_error`. -/
def CcErr.applicationError (code : UInt64) (reason : Bytes) : CcErr :=
  { type := .application, errorCode := code, reason }

namespace Connection

/-- What the functions that `__construct` calls answer: the resolver,
`php_quic_tls_gnutls_init_client` (not called when there is a session), `gnutls_server_name_set`
(`some` is its error text), and `php_quic_connection_init_native`. -/
structure ConstructAnswers where
  getaddrinfo : Getaddrinfo
  tls : Bool := true
  serverNameSet : Option String := none
  initNative : Bool := true

/-- `Connection::__construct`, on the connection of an object: what was written before a failure
stays. -/
def construct (c : Connection) (remoteAddress : Address) (localAddress : Option Address)
    (a : ConstructAnswers) : Connection × Option Exn :=
  let c := { c with remoteAddress := some remoteAddress, localAddress }
  match addressToSockaddr a.getaddrinfo c.remoteAddress with
  | none => (c, some (.exception "Invalid remote address"))
  | some remoteAddr =>
    let c := { c with remoteAddr }
    let localAddr? := match localAddress with
      | some address => addressToSockaddr a.getaddrinfo (some address)
      | none => some (defaultLocalAddr remoteAddr.family)
    match localAddr? with
    | none => (c, some (.exception "Invalid local address"))
    | some localAddr =>
      let c := { c with localAddr }
      if !a.tls then (c, some (.exception "Failed to initialize GnuTLS for QUIC connection"))
      else match a.serverNameSet with
        | some text => (c, some (.exception ("gnutls_server_name_set failed: " ++ text)))
        | none =>
          if !a.initNative then (c, some (.exception "Failed to initialize ngtcp2 connection"))
          else ({ c with conn := some .client }, none)

/-! ## Receiving and timers -/

/-- `Connection::recv`. -/
def recv (s : State) (getaddrinfo : Getaddrinfo) (datagram : Datagram) (a : ReadPktAnswer) :
    State × Result Unit :=
  if s.conn.conn.isNone then s.throw (.exception "Connection is not initialized")
  else match addressToSockaddr getaddrinfo datagram.peerAddress with
    | none => s.throw (.exception "Datagram.peerAddress is invalid")
    | some remoteAddr =>
      let localAddr? := match datagram.localAddress with
        | some address => addressToSockaddr getaddrinfo (some address)
        | none => some s.conn.localAddr
      match localAddr? with
      | none => s.throw (.exception "Datagram.localAddress is invalid")
      | some localAddr =>
        let s := (s.runCallbacks a.callbacks).log
          (.readPkt { localAddr, remoteAddr } datagram.payload a.rv)
        match a.rv with
        | none => (s.syncState a.periods, .returned ())
        | some rv =>
          if rv.isNonfatalClosing then (s.syncState a.periods, .returned ())
          else
            let s :=
              if s.conn.lastError.errorCode = 0 then
                s.setLastError (if rv = .crypto then .tlsAlert a.tlsAlert else .liberr a.liberrCode)
              else s
            s.throw (.ngtcp2 "ngtcp2_conn_read_pkt" rv)

/-- `Connection::onTimeout`, that is `php_quic_connection_handle_timers`. -/
def onTimeout (s : State) (a : ExpiryAnswer) : State × Result Unit :=
  if s.conn.conn.isNone || s.conn.closed then (s, .returned ())
  else
    let s := (s.runCallbacks a.callbacks).log (.handleExpiry a.rv)
    match a.rv with
    | none => (s.syncState a.periods, .returned ())
    | some rv =>
      if rv.isNonfatalClosing then (s.syncState a.periods, .returned ())
      else (s.setLastError (.liberr a.liberrCode)).throw (.ngtcp2 "ngtcp2_conn_handle_expiry" rv)

/-- `Connection::getNextTimeout`. -/
def getNextTimeout (c : Connection) (now expiry : Nat) : Option Int :=
  (c.getNextTimeoutMs now expiry).map fun ms : Nat => (ms : Int)

/-- `Connection::getNextExpiry`: `epochMs` is the wall clock. -/
def getNextExpiry (c : Connection) (now expiry : Nat) (epochMs : Int) : Option Int :=
  (c.getNextTimeoutMs now expiry).map fun ms : Nat => epochMs + ms

/-- `Connection::drainEvents`. -/
def drainEvents (s : State) : State × Result (List Event) :=
  ((s.withConn { s.conn with events := [] }).log (.events s.conn.events), .returned s.conn.events)

/-! ## Opening streams -/

/-- The id of the stream that an open gives, and the counter after it: the promised id for a
blocked open. -/
def assignStreamId (c : Connection) (bidi : Bool) (rv : Except Err Int) : Connection × Int :=
  let c := c.ensureNextStreamId bidi
  match rv with
  | .error _ => (c.setNextStreamId bidi (c.nextStreamId bidi + 4), c.nextStreamId bidi)
  | .ok id => (if id ≥ c.nextStreamId bidi then c.setNextStreamId bidi (id + 4) else c, id)

/-- The rest of an open: the entry, whether it is pending, and the two events. -/
def enterStream (c : Connection) (streamId : Int) (pending : Bool) : Connection :=
  let c := (c.openStreamEntry streamId).modifyEntry streamId
    (fun e => { e with pendingOpen := pending, writable := true }) fun _ => rfl
  (c.pushEvent .streamOpened streamId 0 false none).pushEvent .streamWritable streamId 0 false none

/-- An open that ngtcp2 answered with an id or with `STREAM_ID_BLOCKED` (`pending`). -/
def returnStream (s : State) (bidi : Bool) (rv : Except Err Int) (pending : Bool) :
    State × Result Int :=
  let (c, streamId) := s.conn.assignStreamId bidi rv
  ((s.withConn (c.enterStream streamId pending)).log (.returned bidi streamId pending),
    .returned streamId)

/-- The methods `openStream` and `openUniStream`, for the kind `bidi`. -/
def openLocalStream (bidi : Bool) (context : String) (s : State) (rv : Except Err Int) :
    State × Result Int :=
  if s.conn.conn.isNone || s.conn.closed then s.throw (.exception "Connection is closed")
  else
    let s := s.log (.openLocal bidi rv)
    match rv with
    | .ok _ => returnStream s bidi rv false
    | .error .streamIdBlocked => returnStream s bidi rv true
    | .error rv => s.throw (.ngtcp2 context rv)

/-- `Connection::openStream`. -/
def openStream : State → Except Err Int → State × Result Int :=
  openLocalStream true "ngtcp2_conn_open_bidi_stream"

/-- `Connection::openUniStream`. -/
def openUniStream : State → Except Err Int → State × Result Int :=
  openLocalStream false "ngtcp2_conn_open_uni_stream"

/-! ## Closing -/

/-- `Connection::close`. No reason is `""`. -/
def close (s : State) (errorCode : Int64) (reason : Option Bytes) : State × Result Unit :=
  if s.conn.closeRequested then (s, .returned ())
  else
    let closeReason := match reason with
      | some r => if r.length > 0 then some r else none
      | none => none
    let c := { s.conn with
      closeReason
      lastError := .applicationError errorCode.toUInt64 (closeReason.getD [])
      closeRequested := true
      closed := true }
    let c :=
      if c.closeEventEmitted then c
      else { c.pushEvent .connectionClosed (-1) errorCode.toUInt64 false reason with
        closeEventEmitted := true }
    (s.withConn c, .returned ())

/-! ## Getters -/

/-- `Connection::getStream`: the id of the `Stream` object that it makes, if there is an entry. -/
def getStream (c : Connection) (streamId : Int) : Option Int :=
  if (c.getStreamEntry streamId).isNone then none else some streamId

/-- `Connection::isEstablished`. -/
def isEstablished (c : Connection) : Bool := c.established

/-- `Connection::isClosed`. -/
def isClosed (c : Connection) : Bool := c.closed || c.closeRequested

/-- `Connection::isDraining`. -/
def isDraining (c : Connection) : Bool := c.draining

end Connection

end PhpQuic
