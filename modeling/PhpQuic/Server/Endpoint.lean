import PhpQuic.Lifecycle
import PhpQuic.Server.Accept

/-!
# `ServerEndpoint`

The registry of connections of `src/server_endpoint.c`. Connections are objects, which the registry,
the queue of accepted connections and the application share: `Server.objects` are all connections
that were accepted, and a handle is a position in it. The registry maps a key to a handle.

The endpoint calls the methods of its connections by name, through `call_user_function`. An
exception of a method stays pending behind such a call, and no further method is called while it
does (`callEach`). `Php` is what the code relies on PHP for there.

* `Server`: an endpoint with its connections; each registered handle has its object, and no two
  keys share one.
* `Server.log` is the history of the endpoint, newest first; no method reads it.
-/

namespace PhpQuic

/-- An entry of the table `connections`. -/
structure Registered where
  key : Bytes
  handle : Nat
  deriving DecidableEq

/-- `php_quic_server_endpoint`. -/
structure ServerEndpoint where
  config : ServerConfig
  acceptedQueue : List Nat
  connections : OrdTable Registered.key

/-- What happened to an endpoint. -/
inductive ServerAct where
  | accepted (key : Bytes) (handle : Nat)
  /-- Removed from the registry, after it had queued these events since it was made. -/
  | removed (handle : Nat) (queued : List Event)
  /-- `drainEvents` returned an array, with these parts of the connections in their order. -/
  | events (parts : List (Nat × List Event))
  /-- `drainAcceptedConnections` returned. -/
  | acceptedConnections (handles : List Nat)
  deriving DecidableEq

/-- An endpoint with the connections that it has accepted. -/
structure Server where
  endpoint : ServerEndpoint
  objects : List State
  log : List ServerAct
  handle_lt : ∀ r ∈ endpoint.connections.vals, r.handle < objects.length
  handle_inj : ∀ r ∈ endpoint.connections.vals, ∀ r' ∈ endpoint.connections.vals,
    r.handle = r'.handle → r = r'

/-! ## PHP -/

/-- A function of PHP that is called with a datagram and a configuration: it throws, or it returns a
new connection, or a value that is no object. -/
abbrev GlobalFunction := Datagram → ServerConfig → AcceptAnswers → Except Exn (Option State)

/-- What `call_user_function` finds and does. -/
structure Php where
  /-- The global function `accept`, if the application has defined one. -/
  accept : Option GlobalFunction
  /-- A call that it cannot make is a `FAILURE`; otherwise it is a `SUCCESS` without a value. -/
  uncallableFails : Bool

/-- `call_user_function`: `FAILURE`, or `SUCCESS` with the object returned, if any. -/
inductive CallResult (α : Type) where
  | failure
  | success (retval : Option α)

/-- `ServerConnection::accept`, called as a function. -/
def ServerConnection.function : GlobalFunction := fun initial config a =>
  ((ServerConnection.accept initial config a).1).map some

/-! ## The functions of the source -/

namespace ServerEndpoint

/-- `php_quic_server_endpoint_connection_key`; `none` is `NULL`. -/
def connectionKey (datagram : Datagram) : Option Bytes :=
  match datagram.peerAddress with
  | none => none
  | some address =>
    if address.host.length = 0 then none
    -- the bytes of `"|"` between host and port
    else some (cString address.host ++ 124 :: decimal address.port)

/-- `php_quic_server_endpoint_call_static_accept`: the function table is ignored, so the name is
looked up among the global functions. -/
def callStaticAccept (php : Php) (datagram : Datagram) (config : ServerConfig)
    (a : AcceptAnswers) : CallResult State :=
  match php.accept with
  | none => if php.uncallableFails then .failure else .success none
  | some function =>
    match function datagram config a with
    | .ok retval => .success retval
    | .error _ => .success none

end ServerEndpoint

/-- The test of `php_quic_server_endpoint_cleanup_connections`. -/
def Connection.finished (c : Connection) : Bool :=
  c.closed && (!c.closeRequested || c.closePacketSent)

namespace Server

/-- `new ServerEndpoint`. -/
def new (config : ServerConfig) : Server where
  endpoint := { config, acceptedQueue := [], connections := .empty }
  objects := []
  log := []
  handle_lt := nofun
  handle_inj := nofun

def object (w : Server) (handle : Nat) : State :=
  w.objects.getD handle ⟨Connection.createObject, []⟩

def setObject (w : Server) (handle : Nat) (s : State) : Server :=
  { w with
    objects := w.objects.set handle s
    handle_lt := fun r hr => by rw [List.length_set]; exact w.handle_lt r hr }

def record (w : Server) (acts : List ServerAct) : Server := { w with log := acts ++ w.log }

/-- Calls a method of a connection. -/
def call {α : Type} (w : Server) (handle : Nat) (method : State → State × Result α) :
    Server × Result α :=
  (w.setObject handle (method (w.object handle)).1, (method (w.object handle)).2)

/-- A new object with its key, at the end of the queue. -/
def register (w : Server) (key : Bytes) (s : State) : Server where
  endpoint :=
    { w.endpoint with
      connections := w.endpoint.connections.set ⟨key, w.objects.length⟩
      acceptedQueue := w.endpoint.acceptedQueue ++ [w.objects.length] }
  objects := w.objects ++ [s]
  log := .accepted key w.objects.length :: w.log
  handle_lt := by
    intro r hr
    rw [List.length_append, List.length_singleton]
    rcases OrdTable.mem_set.mp hr with rfl | ⟨hr, -⟩
    · exact Nat.lt_succ_self _
    · exact Nat.lt_succ_of_lt (w.handle_lt r hr)
  handle_inj := by
    intro r hr r' hr' h
    rcases OrdTable.mem_set.mp hr with rfl | ⟨hr, -⟩ <;>
      rcases OrdTable.mem_set.mp hr' with rfl | ⟨hr', -⟩
    · rfl
    · exact absurd h (Nat.ne_of_gt (w.handle_lt r' hr'))
    · exact absurd h (Nat.ne_of_lt (w.handle_lt r hr))
    · exact w.handle_inj r hr r' hr' h

/-- `php_quic_server_endpoint_cleanup_connections`. -/
def cleanupConnections (w : Server) : Server where
  endpoint :=
    { w.endpoint with
      connections := w.endpoint.connections.filter fun r => !(w.object r.handle).conn.finished }
  objects := w.objects
  log := ((w.endpoint.connections.vals.filter fun r => (w.object r.handle).conn.finished).map
    fun r => .removed r.handle (w.object r.handle).queued) ++ w.log
  handle_lt := fun r hr => w.handle_lt r (OrdTable.mem_filter.mp hr).1
  handle_inj := fun r hr r' hr' =>
    w.handle_inj r (OrdTable.mem_filter.mp hr).1 r' (OrdTable.mem_filter.mp hr').1

/-- How a loop of calls ends: with what the calls returned and the exception that is pending, with a
`FAILURE`, or inside a method. -/
inductive EachEnd (α : Type) where
  | done (outs : List (Nat × α)) (pending : Option Exn)
  | failure
  | running

/-- `php_quic_server_endpoint_call_method` for each connection of a list. -/
def callEach {α : Type} (php : Php) (method : Nat → State → State × Result α) :
    Server → List (Nat × α) → Option Exn → List Nat → Server × EachEnd α
  | w, outs, pending, [] => (w, .done outs pending)
  | w, outs, some e, _ :: handles =>
    -- the method does not run while an exception is pending
    if php.uncallableFails then (w, .failure) else callEach php method w outs (some e) handles
  | w, outs, none, handle :: handles =>
    match w.call handle (method handle) with
    | (w, .returned out) => callEach php method w (outs ++ [(handle, out)]) none handles
    | (w, .threw e) => callEach php method w outs (some e) handles
    | (w, .running) => (w, .running)

/-- The registered connections in their order. -/
def registered (w : Server) : List Nat := w.endpoint.connections.vals.map Registered.handle

/-! ## The methods -/

/-- The end of a method whose loop has called every connection. -/
def finish {α : Type} (w : Server) (pending : Option Exn) (value : α) : Server × Result α :=
  match pending with
  | some e => (w.cleanupConnections, .threw e)
  | none => (w.cleanupConnections, .returned value)

/-- `ServerEndpoint::recv`. -/
def recv (php : Php) (w : Server) (getaddrinfo : Getaddrinfo) (datagram : Datagram)
    (a : ReadPktAnswer) (accept : AcceptAnswers) : Server × Result Unit :=
  match ServerEndpoint.connectionKey datagram with
  | none => (w, .threw (.exception
      "ServerEndpoint::recv [datagram]: Datagram.peerAddress is invalid"))
  | some key =>
    match w.endpoint.connections.find? key with
    | some r =>
      let (w, result) := w.call r.handle (Connection.recv · getaddrinfo datagram a)
      (w.cleanupConnections, result)
    | none =>
      match ServerEndpoint.callStaticAccept php datagram w.endpoint.config accept with
      | .failure => (w, .threw (.exception "ServerEndpoint::recv: accept dispatch failed"))
      | .success none => (w, .threw (.exception
          "ServerEndpoint::recv: ServerConnection::accept returned invalid value"))
      | .success (some s) => ((w.register key s).cleanupConnections, .returned ())

/-- `ServerEndpoint::handleTimers`, `onTimeout` and `tick`. -/
def handleTimers (php : Php) (w : Server) (a : Nat → ExpiryAnswer) : Server × Result Unit :=
  match w.callEach php (fun h s => Connection.onTimeout s (a h)) [] none w.registered with
  | (w, .done _ pending) => w.finish pending ()
  | (w, .failure) => (w, .threw (.exception
      "ServerEndpoint::handleTimers: timer dispatch failed"))
  | (w, .running) => (w, .running)

/-- `ServerEndpoint::drainOutgoingDatagrams`. -/
def drainOutgoingDatagrams (php : Php) (w : Server) (a : Nat → DrainAnswers) :
    Server × Result (List Datagram) :=
  match w.callEach php (fun h s => Connection.drainOutgoingDatagrams s (a h)) [] none
      w.registered with
  | (w, .done outs pending) => w.finish pending (outs.flatMap Prod.snd)
  | (w, .failure) => (w, .threw (.exception
      "ServerEndpoint::drainOutgoingDatagrams: drain dispatch failed"))
  | (w, .running) => (w, .running)

/-- `ServerEndpoint::drainEvents`. -/
def drainEvents (php : Php) (w : Server) : Server × Result (List Event) :=
  match w.callEach php (fun _ => Connection.drainEvents) [] none w.registered with
  | (w, .done outs pending) =>
    let w := match pending with
      | none => w.record [.events outs]
      | some _ => w
    w.finish pending (outs.flatMap Prod.snd)
  | (w, .failure) => (w, .threw (.exception
      "ServerEndpoint::drainEvents: drain dispatch failed"))
  | (w, .running) => (w, .running)

/-- `ServerEndpoint::drainAcceptedConnections`. -/
def drainAcceptedConnections (w : Server) : Server × Result (List Nat) :=
  ({ w with endpoint := { w.endpoint with acceptedQueue := [] } }.record
    [.acceptedConnections w.endpoint.acceptedQueue], .returned w.endpoint.acceptedQueue)

end Server

/-! ## The endpoint as a system -/

/-- A call of a method of the endpoint, or of one of its connections. -/
inductive ServerOp where
  | recv (getaddrinfo : Getaddrinfo) (datagram : Datagram) (a : ReadPktAnswer)
      (accept : AcceptAnswers)
  | handleTimers (a : Nat → ExpiryAnswer)
  | drainOutgoingDatagrams (a : Nat → DrainAnswers)
  | drainEvents
  | drainAcceptedConnections
  | construct (config : ServerConfig)
  | onConnection (handle : Nat) (o : Op)

/-- The effect of a call. -/
def Server.step (php : Php) (w : Server) : ServerOp → Server
  | .recv getaddrinfo datagram a accept => (w.recv php getaddrinfo datagram a accept).1
  | .handleTimers a => (w.handleTimers php a).1
  | .drainOutgoingDatagrams a => (w.drainOutgoingDatagrams php a).1
  | .drainEvents => (w.drainEvents php).1
  | .drainAcceptedConnections => w.drainAcceptedConnections.1
  | .construct config => { w with endpoint := { w.endpoint with config } }
  | .onConnection handle o => w.setObject handle (PhpQuic.step (w.object handle) o)

end PhpQuic
