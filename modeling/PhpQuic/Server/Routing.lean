import PhpQuic.Closing
import PhpQuic.Server.Endpoint

/-!
# What `ServerEndpoint::recv` does with a datagram

`recv` is meant to be routing plus accept (`Server.Routes`): a datagram of a known peer goes to its
connection, and one of a new peer to `ServerConnection::accept`. It reaches `accept` by its name,
which PHP looks up among the global functions.

* `Server.AcceptReached`: what is found there does what `ServerConnection::accept` does.
* `recv_routes_iff`: `recv` is routing plus accept if and only if the peer is known or `accept` is
  reached.
* `acceptReached_of_none`: without a global function of that name, that is when `accept` throws.
-/

namespace PhpQuic

namespace Server

/-! ## Objects -/

theorem object_setObject_self {w : Server} {handle : Nat} (h : handle < w.objects.length)
    (s : State) : (w.setObject handle s).object handle = s := by
  unfold object setObject
  simp only
  rw [List.getD_eq_getElem?_getD, List.getElem?_set_self h, Option.getD_some]

theorem object_setObject_ne (w : Server) {handle other : Nat} (h : other ≠ handle) (s : State) :
    (w.setObject handle s).object other = w.object other := by
  unfold object setObject
  simp only
  rw [List.getD_eq_getElem?_getD, List.getElem?_set_ne h.symm, List.getD_eq_getElem?_getD]

theorem object_register_new (w : Server) (key : Bytes) (s : State) :
    (w.register key s).object w.objects.length = s := by
  unfold object register
  simp only
  rw [List.getD_eq_getElem?_getD, List.getElem?_concat_length, Option.getD_some]

theorem object_register_old (w : Server) (key : Bytes) (s : State) {handle : Nat}
    (h : handle < w.objects.length) : (w.register key s).object handle = w.object handle := by
  unfold object register
  simp only
  rw [List.getD_eq_getElem?_getD, List.getElem?_append_left h, List.getD_eq_getElem?_getD]

@[simp] theorem object_cleanupConnections (w : Server) (handle : Nat) :
    w.cleanupConnections.object handle = w.object handle := rfl

/-! ## Routing plus accept -/

/-- The call has the effect of `Connection::recv` on the connection of `r`. The registry loses
nothing but finished connections. -/
structure RoutesTo (w w' : Server) (result : Result Unit) (r : Registered)
    (getaddrinfo : Getaddrinfo) (datagram : Datagram) (a : ReadPktAnswer) : Prop where
  object : w'.object r.handle = (Connection.recv (w.object r.handle) getaddrinfo datagram a).1
  others : ∀ handle, handle ≠ r.handle → w'.object handle = w.object handle
  result : result = (Connection.recv (w.object r.handle) getaddrinfo datagram a).2
  acceptedQueue : w'.endpoint.acceptedQueue = w.endpoint.acceptedQueue
  connections : ∀ key, w'.endpoint.connections.find? key =
    (w.endpoint.connections.find? key).filter fun r => !(w'.object r.handle).conn.finished

/-- The call takes in the connection `s`. -/
structure TakesIn (w w' : Server) (result : Result Unit) (key : Bytes) (s : State) (handle : Nat) :
    Prop where
  registered : w'.endpoint.connections.find? key = some ⟨key, handle⟩
  object : w'.object handle = s
  acceptedQueue : w'.endpoint.acceptedQueue = w.endpoint.acceptedQueue ++ [handle]
  result : result = .returned ()

/-- The call throws, and the registry and the queue are as they were. -/
structure Refuses (w w' : Server) (result : Result Unit) : Prop where
  result : ∃ e, result = .threw e
  connections : w'.endpoint.connections = w.endpoint.connections
  acceptedQueue : w'.endpoint.acceptedQueue = w.endpoint.acceptedQueue

/-- `recv` is routing plus accept, for a datagram with the key `key`. -/
def Routes (php : Php) (w : Server) (getaddrinfo : Getaddrinfo) (datagram : Datagram)
    (a : ReadPktAnswer) (accept : AcceptAnswers) (key : Bytes) : Prop :=
  let w' := (w.recv php getaddrinfo datagram a accept).1
  let result := (w.recv php getaddrinfo datagram a accept).2
  match w.endpoint.connections.find? key with
  | some r => RoutesTo w w' result r getaddrinfo datagram a
  | none =>
    match (ServerConnection.accept datagram w.endpoint.config accept).1 with
    | .ok s => ∃ handle, TakesIn w w' result key s handle
    | .error _ => Refuses w w' result

/-- What the name `accept` reaches does what `ServerConnection::accept` does. -/
def AcceptReached (php : Php) (w : Server) (datagram : Datagram) (accept : AcceptAnswers) : Prop :=
  match (ServerConnection.accept datagram w.endpoint.config accept).1 with
  | .ok s => ServerEndpoint.callStaticAccept php datagram w.endpoint.config accept =
      .success (some s)
  | .error _ => ∀ s, ServerEndpoint.callStaticAccept php datagram w.endpoint.config accept ≠
      .success (some s)

theorem acceptReached_of_none {php : Php} (h : php.accept = none) (w : Server)
    (datagram : Datagram) (accept : AcceptAnswers) :
    w.AcceptReached php datagram accept ↔
      ∃ e, (ServerConnection.accept datagram w.endpoint.config accept).1 = .error e := by
  have hcall : ∀ s, ServerEndpoint.callStaticAccept php datagram w.endpoint.config accept ≠
      .success (some s) := by
    intro s
    unfold ServerEndpoint.callStaticAccept
    rw [h]
    simp only
    split <;> nofun
  unfold AcceptReached
  cases (ServerConnection.accept datagram w.endpoint.config accept).1 with
  | ok s => exact iff_of_false (hcall s) nofun
  | error e => exact iff_of_true hcall ⟨e, rfl⟩

/-! ## The registered connection -/

theorem call_recv_routesTo {w : Server} {r : Registered} {key : Bytes}
    (h : w.endpoint.connections.find? key = some r) (g : Getaddrinfo) (d : Datagram)
    (a : ReadPktAnswer) :
    RoutesTo w (w.call r.handle (Connection.recv · g d a)).1.cleanupConnections
      (w.call r.handle (Connection.recv · g d a)).2 r g d a := by
  have hlt := w.handle_lt r (OrdTable.mem_of_find? h)
  refine ⟨?_, ?_, rfl, rfl, fun key' => ?_⟩
  · exact object_setObject_self hlt _
  · intro handle hne
    exact object_setObject_ne w hne _
  · exact OrdTable.find?_filter

/-! ## The new connection -/

/-- An accepted connection is open. -/
theorem accept_open {initial : Datagram} {config : ServerConfig} {a : AcceptAnswers} {s : State}
    (h : (ServerConnection.accept initial config a).1 = .ok s) : s.conn.closed = false := by
  obtain ⟨path, remoteAddress, localAddress, callbacks, rfl⟩ := ServerConnection.accept_start h
  exact Start.state_open _

theorem register_takesIn (w : Server) (key : Bytes) {s : State} (hopen : s.conn.closed = false) :
    TakesIn w (w.register key s).cleanupConnections (.returned ()) key s w.objects.length := by
  refine ⟨?_, object_register_new w key s, rfl, rfl⟩
  have hfinished : s.conn.finished = false := by
    unfold Connection.finished; rw [hopen, Bool.false_and]
  unfold cleanupConnections
  simp only
  rw [OrdTable.find?_filter, show (w.register key s).endpoint.connections.find? key =
    some ⟨key, w.objects.length⟩ from (OrdTable.find?_set ..).trans (if_pos rfl)]
  exact Option.filter_some_pos (by rw [object_register_new, hfinished]; rfl)

/-- What is taken in is the connection that was accepted. -/
theorem TakesIn.eq {w : Server} {key : Bytes} {s s' : State} {handle : Nat}
    (h : TakesIn w (w.register key s').cleanupConnections (.returned ()) key s handle) : s' = s := by
  have hhandle : handle = w.objects.length := by
    have := List.append_cancel_left h.acceptedQueue
    exact (List.cons.inj this).1.symm
  rw [← h.object, hhandle, object_cleanupConnections, object_register_new]

/-- `recv` is routing plus accept if and only if the peer is known, or the dispatch reaches what
`accept` does. -/
theorem recv_routes_iff (php : Php) (w : Server) (getaddrinfo : Getaddrinfo) (datagram : Datagram)
    (a : ReadPktAnswer) (accept : AcceptAnswers) (key : Bytes)
    (hkey : ServerEndpoint.connectionKey datagram = some key) :
    Routes php w getaddrinfo datagram a accept key ↔
      (w.endpoint.connections.find? key).isSome = true ∨ w.AcceptReached php datagram accept := by
  unfold Routes AcceptReached recv
  simp only [hkey]
  cases hr : w.endpoint.connections.find? key with
  | some r => exact iff_of_true (call_recv_routesTo hr getaddrinfo datagram a) (.inl rfl)
  | none =>
    simp only [Option.isSome_none, Bool.false_eq_true, false_or]
    cases hacc : (ServerConnection.accept datagram w.endpoint.config accept).1 with
    | ok s =>
      simp only
      cases hcall : ServerEndpoint.callStaticAccept php datagram w.endpoint.config accept with
      | failure =>
        refine iff_of_false ?_ nofun
        rintro ⟨_, h⟩
        cases h.result
      | success retval =>
        cases retval with
        | none =>
          refine iff_of_false ?_ nofun
          rintro ⟨_, h⟩
          cases h.result
        | some s' =>
          constructor
          · rintro ⟨_, h⟩
            rw [h.eq]
          · rintro ⟨⟩
            exact ⟨_, register_takesIn w key (accept_open hacc)⟩
    | error e =>
      simp only
      cases hcall : ServerEndpoint.callStaticAccept php datagram w.endpoint.config accept with
      | failure =>
        refine iff_of_true ⟨⟨_, rfl⟩, rfl, rfl⟩ fun s hs => ?_
        cases hs
      | success retval =>
        cases retval with
        | none =>
          refine iff_of_true ⟨⟨_, rfl⟩, rfl, rfl⟩ fun s hs => ?_
          cases hs
        | some s' =>
          refine iff_of_false ?_ fun h => h s' rfl
          intro h
          obtain ⟨_, hthrew⟩ := h.result
          cases hthrew

/-! ## A first datagram -/

/-- A first datagram of a peer. -/
def firstDatagram : Datagram where
  payload := [0xc0]
  peerAddress := some ⟨[49], 4433⟩
  localAddress := none

/-- A configuration with its two files. -/
def someConfig : ServerConfig where
  localAddress := none
  certFile := some [99]
  keyFile := some [107]
  alpn := none

/-- Nothing fails in `accept`. -/
def accepts : AcceptAnswers where
  getaddrinfo := fun _ _ => some [{ family := .inet, addr := [127, 0, 0, 1], port := 4433 }]
  inetNtop := fun _ _ => [48]

/-- A version that is not supported: `accept` refuses the datagram, and so does the endpoint. -/
theorem recv_routes_iff_refused :
    let php : Php := ⟨none, true⟩
    let accept := { accepts with supportedVersion := false }
    ServerEndpoint.connectionKey firstDatagram = some [49, 124, 52, 52, 51, 51] ∧
      (Routes php (new someConfig) accepts.getaddrinfo firstDatagram {} accept
          [49, 124, 52, 52, 51, 51] ↔
        ((new someConfig).endpoint.connections.find? [49, 124, 52, 52, 51, 51]).isSome = true ∨
          (new someConfig).AcceptReached php firstDatagram accept) :=
  have h : ServerEndpoint.connectionKey firstDatagram = some [49, 124, 52, 52, 51, 51] := by decide
  ⟨h, recv_routes_iff _ _ _ _ _ _ _ h⟩

/-- Without a global function `accept` the endpoint takes in no connection. -/
theorem recv_never_accepts :
    ¬ ∀ (php : Php) (w : Server) (getaddrinfo : Getaddrinfo) (datagram : Datagram)
      (a : ReadPktAnswer) (accept : AcceptAnswers) (key : Bytes),
      ServerEndpoint.connectionKey datagram = some key →
      Routes php w getaddrinfo datagram a accept key := by
  intro h
  have hbad := h ⟨none, true⟩ (new someConfig) accepts.getaddrinfo firstDatagram {} accepts
    [49, 124, 52, 52, 51, 51] (by decide)
  obtain ⟨_, htakes⟩ := hbad
  cases htakes.result

end Server

end PhpQuic
