import PhpQuic.Connection.Methods
import PhpQuic.Connection.Send

/-!
# `Connection::drainOutgoingDatagrams`

The close branch (`drainClose`) and the send loop of the method. One iteration of the loop
(`drainIteration`) picks a stream (or none, when the last answer asked for a call without a stream),
opens it if its open is still pending (`openIfPending`), and calls `ngtcp2_conn_writev_stream`
(`writevStream`). `drainLoop` repeats it, one answer of the list for each iteration; when the list
ends before the loop does, the call is still running (`Result.running`), and the state is the one in
which it waits for ngtcp2.

The number of datagrams emitted is the length of `out`, the array that the method returns.
-/

namespace PhpQuic

/-- How an iteration of the send loop ends. -/
inductive Verdict where
  /-- `continue`, with the flag `force_conn_only`. -/
  | again (forceConnOnly : Bool)
  /-- A datagram for the array. -/
  | emit (d : Datagram)
  /-- `break`. -/
  | stop
  | threw (e : Exn)
  deriving DecidableEq

/-- How the send loop ends, with the array of datagrams. -/
inductive LoopEnd where
  | stopped (out : List Datagram)
  | threw (e : Exn)
  | running (out : List Datagram)
  deriving DecidableEq

namespace Connection

/-- A packet as the application gets it: with the addresses of the connection. -/
def datagram (c : Connection) (pkt : Bytes) : Datagram where
  payload := pkt
  peerAddress := c.remoteAddress
  localAddress := c.localAddress

/-- Returns the array of datagrams. -/
def returnDatagrams (s : State) (out : List Datagram) : State × Result (List Datagram) :=
  (s.log (.datagrams out), .returned out)

/-- The branch of a requested close whose packet has not been sent. -/
def drainClose (s : State) (a : CloseAnswer) : State × Result (List Datagram) :=
  let s := (s.runCallbacks a.callbacks).log (.writeClose s.conn.lastError a.result a.path)
  match a.result with
  | .error rv =>
    if rv.isNonfatalClosing then
      returnDatagrams ((s.withConn { s.conn with closePacketSent := true }).syncState a.periods) []
    else s.throw (.ngtcp2 "ngtcp2_conn_write_connection_close" rv)
  | .ok pkt =>
    let out := if pkt.length > 0 then [s.conn.datagram pkt] else []
    returnDatagrams (s.withConn { s.conn with closePacketSent := true }) out

/-- The entry that an iteration works on: none when a call without a stream is due. -/
def pickOrNone (s : State) (forceConnOnly : Bool) : State × Option Offer :=
  if forceConnOnly then (s, none)
  else (s.withConn s.conn.pickTxStream.1, s.conn.pickTxStream.2)

/-- Opens the picked stream if its open is pending. A blocked open leaves the iteration without a
stream. -/
def openIfPending (s : State) (offer : Option Offer) (rv : Except Err Int) :
    State × Except Exn (Option Offer) :=
  match offer with
  | none => (s, .ok none)
  | some o =>
    if !(s.conn.getStreamEntry o.streamId).any StreamEntry.pendingOpen then (s, .ok (some o))
    else
      let s := s.log (.openPending o.streamId rv)
      match rv with
      | .ok opened =>
        if opened ≠ o.streamId then (s, .error (.streamIdMismatch o.streamId opened))
        else (s.modifyEntry o.streamId (fun e => { e with pendingOpen := false }) fun _ => rfl,
          .ok (some o))
      | .error .streamIdBlocked => (s, .ok none)
      | .error rv => (s, .error (.ngtcp2 (openContextForStreamId o.streamId) rv))

/-- The call of `ngtcp2_conn_writev_stream` and what its answer does. -/
def writevStream (s : State) (offer : Option Offer) (a : IterAnswer) : State × Verdict :=
  let s := (s.runCallbacks a.writev.callbacks).log (.writev offer a.writev)
  let entry := offer.map Offer.streamId
  let fin := offer.any Offer.fin
  match a.writev.result with
  | .error .writeMore =>
    (s.withConn (s.conn.updateTxEntry entry a.writev.wdatalen fin false), .again false)
  | .error .streamDataBlocked =>
    (s.withConn (s.conn.updateTxEntry entry a.writev.wdatalen fin false),
      -- A call without a stream follows, so that ngtcp2 can send its own frames.
      if entry.isSome then .again true else .stop)
  | .error .streamShutWr => (s.withConn (s.conn.discardTxEntry entry), .again false)
  | .error rv =>
    if rv.isNonfatalClosing then (s.syncState a.periods, .stop)
    else (s.setLastError (.liberr a.liberrCode), .threw (.ngtcp2 "ngtcp2_conn_writev_stream" rv))
  | .ok pkt =>
    let s := s.withConn (s.conn.updateTxEntry entry a.writev.wdatalen fin (decide (pkt.length > 0)))
    if pkt.length = 0 then (s, .stop) else (s, .emit (s.conn.datagram pkt))

/-- One iteration of the send loop. -/
def drainIteration (s : State) (forceConnOnly : Bool) (a : IterAnswer) : State × Verdict :=
  let (s, offer) := pickOrNone s forceConnOnly
  match openIfPending s offer a.openStream with
  | (s, .error e) => (s, .threw e)
  | (s, .ok offer) => writevStream s offer a

/-- The send loop, from a state, the flag `force_conn_only` and the array so far. -/
def drainLoop : State → Bool → List Datagram → List IterAnswer → State × LoopEnd
  | s, _, out, [] => (s, .running out)
  | s, forceConnOnly, out, a :: as =>
    match drainIteration s forceConnOnly a with
    | (s, .again forceConnOnly) => drainLoop s forceConnOnly out as
    | (s, .stop) => (s, .stopped out)
    | (s, .threw e) => (s, .threw e)
    | (s, .emit d) =>
      if out.length + 1 ≥ 256 then (s, .stopped (out ++ [d]))
      else drainLoop s false (out ++ [d]) as

/-- `Connection::drainOutgoingDatagrams`. -/
def drainOutgoingDatagrams (s : State) (a : DrainAnswers) : State × Result (List Datagram) :=
  if s.conn.conn.isNone then returnDatagrams s []
  else if s.conn.closeRequested && !s.conn.closePacketSent then drainClose s a.close
  else match drainLoop s false [] a.loop with
    | (s, .stopped out) => returnDatagrams (s.syncState a.periods) out
    | (s, .threw e) => s.throw e
    | (s, .running _) => (s, .running)

end Connection

end PhpQuic
