import PhpQuic.Connection.Drain
import PhpQuic.Lib.Runs

/-!
# One connection as a system

`Op` is a call of a public method that can change the connection, with its arguments and with all
that ngtcp2 answers while it runs; `step` is its effect. A run is a list of operations from one of
the states in which the application first gets a connection (`Start`). Callbacks are part of the
answers, so a run has every order of calls and callbacks, and every answer.

A call of `drainOutgoingDatagrams` whose answers end before its loop does stops inside the loop.
So the states of the runs include those in which the loop waits for ngtcp2, and what holds of all
of them holds at every call of `ngtcp2_conn_writev_stream`.
-/

namespace PhpQuic

/-- A call of a public method. A stream's methods are given by the id of the stream. -/
inductive Op where
  | read (streamId : Int) (length : Int)
  | write (streamId : Int) (data : Bytes)
  | end_ (streamId : Int) (finalData : Option Bytes)
  | reset (streamId : Int) (errorCode : Int64) (a : ShutdownAnswer)
  | openStream (rv : Except Err Int)
  | openUniStream (rv : Except Err Int)
  | recv (getaddrinfo : Getaddrinfo) (datagram : Datagram) (a : ReadPktAnswer)
  | onTimeout (a : ExpiryAnswer)
  | drainOutgoingDatagrams (a : DrainAnswers)
  | drainEvents
  | close (errorCode : Int64) (reason : Option Bytes)

/-- The effect of a call. -/
def step (s : State) : Op → State
  | .read id length => (Stream.read s id length).1
  | .write id data => (Stream.write s id data).1
  | .end_ id finalData => (Stream.end_ s id finalData).1
  | .reset id errorCode a => (Stream.reset s id errorCode a).1
  | .openStream rv => (Connection.openStream s rv).1
  | .openUniStream rv => (Connection.openUniStream s rv).1
  | .recv getaddrinfo datagram a => (Connection.recv s getaddrinfo datagram a).1
  | .onTimeout a => (Connection.onTimeout s a).1
  | .drainOutgoingDatagrams a => (Connection.drainOutgoingDatagrams s a).1
  | .drainEvents => (Connection.drainEvents s).1
  | .close errorCode reason => (Connection.close s errorCode reason).1

/-- A connection object whose native connection has been made. -/
def Connection.fresh (role : Role) (path : Path) (remoteAddress localAddress : Option Address) :
    Connection :=
  { createObject with
    conn := some role
    remoteAddr := path.remoteAddr
    localAddr := path.localAddr
    remoteAddress, localAddress }

/-- What `new Connection` yields is a fresh client. -/
theorem Connection.construct_fresh {remoteAddress : Address} {localAddress : Option Address}
    {a : ConstructAnswers} (h : (createObject.construct remoteAddress localAddress a).2 = none) :
    ∃ path, (createObject.construct remoteAddress localAddress a).1 =
      fresh .client path (some remoteAddress) localAddress := by
  unfold construct at h ⊢
  simp only at h ⊢
  cases hr : addressToSockaddr a.getaddrinfo (some remoteAddress) with
  | none => rw [hr] at h; cases h
  | some remoteAddr =>
    simp only [hr] at h ⊢
    split at h
    · cases h
    · rename_i localAddr heq
      refine ⟨{ localAddr, remoteAddr }, ?_⟩
      repeat' split at h
      all_goals simp_all [fresh]

/-- How the application gets a connection: an object whose constructor was not run, a client of
`new Connection`, or a server connection of `ServerConnection::accept`, which has read its first
datagram. -/
inductive Start where
  | uninitialised
  | client (path : Path) (remoteAddress localAddress : Option Address)
  | server (path : Path) (remoteAddress localAddress : Option Address) (payload : Bytes)
      (callbacks : List Callback)

/-- The state before the first callback. -/
def Start.base : Start → State
  | .uninitialised => ⟨Connection.createObject, []⟩
  | .client path remoteAddress localAddress =>
    ⟨Connection.fresh .client path remoteAddress localAddress, []⟩
  | .server path remoteAddress localAddress _ _ =>
    ⟨Connection.fresh .server path remoteAddress localAddress, []⟩

/-- The state in which the application gets the connection. -/
def Start.state : Start → State
  | .server path remoteAddress localAddress payload callbacks =>
    (((Start.server path remoteAddress localAddress payload callbacks).base).runCallbacks
      callbacks).log (.readPkt path payload none)
  | start => start.base

/-- The state after the operations `ops`. -/
def Start.run (start : Start) (ops : List Op) : State := Runs.run step start.state ops

end PhpQuic
