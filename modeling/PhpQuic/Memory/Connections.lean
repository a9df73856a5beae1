import PhpQuic.Lib.Focus
import PhpQuic.Lib.Refs
import PhpQuic.Server.Routing

/-!
# The connections of an endpoint in memory

`Server` never forgets a connection. In memory a connection is an object that the table of the
endpoint, its queue of accepted connections, the stream objects and PHP share, and that is freed
with the last reference to it. The functions of `src/server_endpoint.c` and `src/stream.c` take and
drop these references by hand. A function that uses a connection after it was freed is `none`.

* `EndpointMemory`: the objects, and who has them. `Application`: the same over a `Server`.
* `Shows.callEach`, `cleanupConnections_spec`: the functions of the endpoint, over `Shows`.
* `Represents.step`: one call keeps it; `connections_in_memory`: any calls.

The engine calls `free_obj` once, when the last reference to an object is gone; PHP drops a
reference as often as it has it. The strings of a configuration are left out.
-/

namespace PhpQuic

/-! ## The calls -/

/-- `php_quic_stream`, an object that PHP has. -/
structure StreamObject where
  connection : Nat
  streamId : Int
  deriving DecidableEq

/-- A call of a method of the endpoint. -/
inductive EndpointCall where
  | construct (config : ServerConfig)
  | recv (getaddrinfo : Getaddrinfo) (datagram : Datagram) (a : ReadPktAnswer)
      (accept : AcceptAnswers)
  | handleTimers (a : Nat → ExpiryAnswer)
  | drainOutgoingDatagrams (a : Nat → DrainAnswers)
  | drainEvents
  | drainAcceptedConnections

def EndpointCall.op : EndpointCall → ServerOp
  | .construct config => .construct config
  | .recv getaddrinfo datagram a accept => .recv getaddrinfo datagram a accept
  | .handleTimers a => .handleTimers a
  | .drainOutgoingDatagrams a => .drainOutgoingDatagrams a
  | .drainEvents => .drainEvents
  | .drainAcceptedConnections => .drainAcceptedConnections

/-- A call of a method of a stream. -/
inductive StreamCall where
  | read (length : Int)
  | write (data : Bytes)
  | end_ (finalData : Option Bytes)
  | reset (errorCode : Int64) (a : ShutdownAnswer)

def StreamCall.op (streamId : Int) : StreamCall → Op
  | .read length => .read streamId length
  | .write data => .write streamId data
  | .end_ finalData => .end_ streamId finalData
  | .reset errorCode a => .reset streamId errorCode a

/-- What PHP does. It has an endpoint, references to connections, and stream objects. -/
inductive PhpCall where
  | onEndpoint (call : EndpointCall)
  | freeEndpoint
  /-- A method of the connection of the `i`-th reference. -/
  | onConnection (i : Nat) (o : Op)
  | getStream (i : Nat) (streamId : Int)
  | copyConnection (i : Nat)
  | dropConnection (i : Nat)
  /-- A method of the `i`-th stream object. -/
  | onStream (i : Nat) (call : StreamCall)
  | freeStream (i : Nat)

/-- The stream object that a method returns. -/
def Op.opened (s : State) : Op → Option Int
  | .openStream rv =>
    match (Connection.openStream s rv).2 with
    | .returned streamId => some streamId
    | _ => none
  | .openUniStream rv =>
    match (Connection.openUniStream s rv).2 with
    | .returned streamId => some streamId
    | _ => none
  | _ => none

/-! ## The functions of the source -/

/-- An endpoint, the connections, and what PHP has. -/
structure EndpointMemory where
  objects : Refs State := .empty
  /-- `none` when it has been freed. -/
  endpoint : Option ServerEndpoint
  streams : List StreamObject := []
  php : List Nat := []

namespace EndpointMemory

/-- `new ServerEndpoint`. -/
def new (config : ServerConfig) : EndpointMemory where
  endpoint := some { config, acceptedQueue := [], connections := .empty }

/-- Calls a method of a connection. -/
def call {α : Type} (s : Refs State) (p : Nat) (method : State → State × Result α) :
    Option (Refs State × Result α) := do
  let connection ← s.val p
  let (connection, result) := method connection
  let s ← s.write p connection
  return (s, result)

/-- `php_quic_server_endpoint_call_method` for each connection of a list. -/
def callEach {α : Type} (php : Php) (method : Nat → State → State × Result α) :
    Refs State → List (Nat × α) → Option Exn → List Nat → Option (Refs State × Server.EachEnd α)
  | s, outs, pending, [] => some (s, .done outs pending)
  | s, outs, some e, _ :: ps =>
    -- the method does not run while an exception is pending
    if php.uncallableFails then some (s, .failure) else callEach php method s outs (some e) ps
  | s, outs, none, p :: ps =>
    (call s p (method p)).bind fun
      | (s, .returned out) => callEach php method s (outs ++ [(p, out)]) none ps
      | (s, .threw e) => callEach php method s outs (some e) ps
      | (s, .running) => some (s, .running)

/-- The loop of `php_quic_server_endpoint_cleanup_connections` that fills `remove_keys`. -/
def removeKeys (s : Refs State) : List Registered → Option (List Bytes)
  | [] => some []
  | r :: rs => do
    let connection ← s.val r.handle
    let keys ← removeKeys s rs
    return if connection.conn.finished then r.key :: keys else keys

/-- `zend_hash_del` of the table, which drops the reference of the entry. -/
def hashDel (s : Refs State) (t : OrdTable Registered.key) (key : Bytes) :
    Option (Refs State × OrdTable Registered.key) :=
  match t.find? key with
  | none => some (s, t)
  | some r => (s.release r.handle).map fun s => (s, t.filter fun r => r.key ≠ key)

/-- `zend_hash_update` of the table, which drops the reference of an entry that it replaces. -/
def hashUpdate (s : Refs State) (t : OrdTable Registered.key) (r : Registered) :
    Option (Refs State × OrdTable Registered.key) :=
  match t.find? r.key with
  | none => some (s, t.set r)
  | some old => (s.release old.handle).map fun s => (s, t.set r)

/-- The other loop of `php_quic_server_endpoint_cleanup_connections`. -/
def removeAll : List Bytes → Refs State → OrdTable Registered.key →
    Option (Refs State × OrdTable Registered.key)
  | [], s, t => some (s, t)
  | key :: keys, s, t => (hashDel s t key).bind fun (s, t) => removeAll keys s t

/-- `php_quic_server_endpoint_cleanup_connections`. -/
def cleanupConnections (x : EndpointMemory) (e : ServerEndpoint) : Option EndpointMemory := do
  let keys ← removeKeys x.objects e.connections.vals
  let (objects, connections) ← removeAll keys x.objects e.connections
  return { x with objects, endpoint := some { e with connections } }

/-- A method that calls a method of each connection. -/
def forEach {α : Type} (php : Php) (x : EndpointMemory) (e : ServerEndpoint)
    (method : Nat → State → State × Result α) : Option EndpointMemory := do
  let (objects, result) ← callEach php method x.objects [] none
    (e.connections.vals.map Registered.handle)
  match result with
  | .done _ _ => cleanupConnections { x with objects } e
  | .failure | .running => return { x with objects }

/-- `ServerEndpoint::recv`. -/
def recv (php : Php) (x : EndpointMemory) (e : ServerEndpoint) (getaddrinfo : Getaddrinfo)
    (datagram : Datagram) (a : ReadPktAnswer) (accept : AcceptAnswers) : Option EndpointMemory :=
  match ServerEndpoint.connectionKey datagram with
  | none => some x
  | some key =>
    match e.connections.find? key with
    | some r => do
      let (objects, _) ← call x.objects r.handle (Connection.recv · getaddrinfo datagram a)
      cleanupConnections { x with objects } e
    | none =>
      match ServerEndpoint.callStaticAccept php datagram e.config accept with
      | .failure | .success none => some x
      | .success (some s) => do
        let (objects, retval) := x.objects.new s
        -- `conn_copy`
        let objects ← objects.addref retval
        let (objects, connections) ← hashUpdate objects e.connections ⟨key, retval⟩
        cleanupConnections { x with objects }
          { e with connections, acceptedQueue := e.acceptedQueue ++ [retval] }

/-- The methods of the endpoint. -/
def onEndpoint (php : Php) (x : EndpointMemory) (e : ServerEndpoint) :
    EndpointCall → Option EndpointMemory
  | .construct config => some { x with endpoint := some { e with config } }
  | .recv getaddrinfo datagram a accept => recv php x e getaddrinfo datagram a accept
  | .handleTimers a => forEach php x e fun p s => Connection.onTimeout s (a p)
  | .drainOutgoingDatagrams a =>
    forEach php x e fun p s => Connection.drainOutgoingDatagrams s (a p)
  | .drainEvents => forEach php x e fun _ => Connection.drainEvents
  | .drainAcceptedConnections =>
    -- PHP gets the array, and the endpoint a new one
    some { x with
      endpoint := some { e with acceptedQueue := [] }
      php := e.acceptedQueue ++ x.php }

/-- `php_quic_server_endpoint_free_object`. -/
def freeObject (x : EndpointMemory) (e : ServerEndpoint) : Option EndpointMemory := do
  let objects ← x.objects.releaseAll e.acceptedQueue
  -- `zend_hash_destroy`
  let objects ← objects.releaseAll (e.connections.vals.map Registered.handle)
  return { x with objects, endpoint := none }

/-- `php_quic_stream_create`, for a connection that PHP has, if there is a stream. -/
def streamCreate (x : EndpointMemory) (p : Nat) (streamId : Option Int) : Option EndpointMemory :=
  match streamId with
  | none => some x
  | some streamId => (x.objects.addref p).map fun objects =>
    { x with objects, streams := x.streams ++ [⟨p, streamId⟩] }

/-- The effect of a call. -/
def step (php : Php) (x : EndpointMemory) : PhpCall → Option EndpointMemory
  | .onEndpoint c =>
    match x.endpoint with
    | none => some x
    | some e => x.onEndpoint php e c
  | .freeEndpoint =>
    match x.endpoint with
    | none => some x
    | some e => x.freeObject e
  | .onConnection i o =>
    match focus x.php i with
    | none => some x
    | some (_, p, _) => do
      let connection ← x.objects.val p
      let objects ← x.objects.write p (PhpQuic.step connection o)
      { x with objects }.streamCreate p (o.opened connection)
  | .getStream i streamId =>
    match focus x.php i with
    | none => some x
    | some (_, p, _) => do
      let connection ← x.objects.val p
      x.streamCreate p (connection.conn.getStream streamId)
  | .copyConnection i =>
    match focus x.php i with
    | none => some x
    | some (_, p, _) => (x.objects.addref p).map fun objects =>
      { x with objects, php := p :: x.php }
  | .dropConnection i =>
    match focus x.php i with
    | none => some x
    | some (before, p, behind) => (x.objects.release p).map fun objects =>
      { x with objects, php := before ++ behind }
  | .onStream i c =>
    match focus x.streams i with
    | none => some x
    | some (_, stream, _) => do
      let connection ← x.objects.val stream.connection
      let objects ← x.objects.write stream.connection
        (PhpQuic.step connection (c.op stream.streamId))
      return { x with objects }
  | .freeStream i =>
    match focus x.streams i with
    | none => some x
    | some (before, stream, behind) => (x.objects.release stream.connection).map fun objects =>
      { x with objects, streams := before ++ behind }

end EndpointMemory

/-! ## The same over a server that forgets nothing -/

/-- A server, and what PHP has of it. -/
structure Application where
  server : Server
  /-- Whether the endpoint has been freed. -/
  freed : Bool := false
  streams : List StreamObject := []
  php : List Nat := []

namespace Application

/-- The connections that PHP gets from a method of the endpoint. -/
def hands (w : Server) : EndpointCall → List Nat
  | .drainAcceptedConnections => w.endpoint.acceptedQueue
  | _ => []

/-- The effect of a call. -/
def step (php : Php) (x : Application) : PhpCall → Application
  | .onEndpoint c =>
    if x.freed then x
    else { x with server := x.server.step php c.op, php := hands x.server c ++ x.php }
  | .freeEndpoint => { x with freed := true }
  | .onConnection i o =>
    match focus x.php i with
    | none => x
    | some (_, p, _) =>
      { x with
        server := x.server.step php (.onConnection p o)
        streams := x.streams ++ (o.opened (x.server.object p)).toList.map (⟨p, ·⟩) }
  | .getStream i streamId =>
    match focus x.php i with
    | none => x
    | some (_, p, _) =>
      { x with
        streams := x.streams ++
          ((x.server.object p).conn.getStream streamId).toList.map (⟨p, ·⟩) }
  | .copyConnection i =>
    match focus x.php i with
    | none => x
    | some (_, p, _) => { x with php := p :: x.php }
  | .dropConnection i =>
    match focus x.php i with
    | none => x
    | some (before, _, behind) => { x with php := before ++ behind }
  | .onStream i c =>
    match focus x.streams i with
    | none => x
    | some (_, stream, _) =>
      { x with
        server := x.server.step php (.onConnection stream.connection (c.op stream.streamId)) }
  | .freeStream i =>
    match focus x.streams i with
    | none => x
    | some (before, _, behind) => { x with streams := before ++ behind }

end Application

/-! ## The functions keep to the server -/

namespace EndpointMemory

variable {s s' : Refs State} {w w' : Server} {l l' : List Nat} {p : Nat}

/-- The connections of `l` are in memory, as the server has them, with a reference for each time
that they stand there. -/
structure Shows (s : Refs State) (w : Server) (l : List Nat) : Prop where
  next : s.next = w.objects.length
  held : s.Held l
  val : ∀ p ∈ l, s.val p = some (w.object p)

namespace Shows

theorem lt (h : Shows s w l) (hp : p ∈ l) : p < w.objects.length := by
  rw [← h.next]
  exact Store.lt_next ((h.held.alive p).mpr hp)

theorem of_count (h : Shows s w l) (hl : ∀ p, l'.count p = l.count p) : Shows s w l' := by
  refine ⟨h.next, h.held.of_count hl, fun p hp => h.val p ?_⟩
  rw [← List.count_pos_iff, ← hl]
  exact List.count_pos_iff.mpr hp

/-- Another server with the same objects. -/
theorem congr (h : Shows s w l) (ho : w'.objects = w.objects) : Shows s w' l := by
  refine ⟨h.next.trans (congrArg List.length ho.symm), h.held, fun p hp => ?_⟩
  unfold Server.object
  rw [ho]
  exact h.val p hp

theorem addref (h : Shows s w l) (hp : p ∈ l) : Defined (s.addref p) (Shows · w (p :: l)) := by
  refine ((h.held.addref hp).also fun _ => Refs.addref_next).mono fun s' ⟨⟨hheld, hval⟩, hnext⟩ =>
    ⟨hnext.trans h.next, hheld, fun q hq => (hval q).trans (h.val q ?_)⟩
  rcases List.mem_cons.mp hq with rfl | hq
  · exact hp
  · exact hq

theorem release (h : Shows s w (p :: l)) : Defined (s.release p) (Shows · w l) :=
  (h.held.release.also fun _ => Refs.release_next).mono fun _ ⟨⟨hheld, hkeeps⟩, hnext⟩ =>
    ⟨hnext.trans h.next, hheld, fun q hq =>
      (hkeeps q hq).trans (h.val q (List.mem_cons_of_mem _ hq))⟩

theorem releaseAll {ps : List Nat} (h : Shows s w (ps ++ l)) :
    Defined (s.releaseAll ps) (Shows · w l) :=
  h.held.releaseAll.mono fun _ ⟨⟨hheld, hkeeps⟩, hnext⟩ =>
    ⟨hnext.trans h.next, hheld, fun q hq =>
      (hkeeps q hq).trans (h.val q (List.mem_append_right _ hq))⟩

/-- A new connection stands at the end of the server's. -/
theorem new (h : Shows s w l) (connection : State) (hw : w'.objects = w.objects ++ [connection]) :
    (s.new connection).2 = w.objects.length ∧
      Shows (s.new connection).1 w' ((s.new connection).2 :: l) := by
  obtain ⟨hheld, hval, hkeeps⟩ := h.held.new connection
  refine ⟨h.next, ?_, hheld, fun q hq => ?_⟩
  · rw [hw, List.length_append, List.length_singleton, ← h.next]
    rfl
  · unfold Server.object
    rw [hw, List.getD_eq_getElem?_getD]
    rcases List.mem_cons.mp hq with rfl | hq
    · rw [show (s.new connection).2 = w.objects.length from h.next, List.getElem?_concat_length]
      rw [← h.next]
      exact hval
    · rw [List.getElem?_append_left (h.lt hq), ← List.getD_eq_getElem?_getD]
      exact (hkeeps q hq).trans (h.val q hq)

theorem write (h : Shows s w l) (hp : p ∈ l) (connection : State) :
    Defined (s.write p connection) (Shows · (w.setObject p connection) l) := by
  refine ((h.held.write hp connection).also fun _ => Refs.write_next).mono
    fun s' ⟨⟨hheld, hself, hother⟩, hnext⟩ => ⟨?_, hheld, fun q hq => ?_⟩
  · rw [hnext, h.next]
    exact (List.length_set ..).symm
  · by_cases hqp : q = p
    · rw [hqp, hself, Server.object_setObject_self (h.lt hp)]
    · rw [hother q hqp, Server.object_setObject_ne w hqp]
      exact h.val q hq

theorem call {α : Type} (h : Shows s w l) (hp : p ∈ l) (method : State → State × Result α) :
    Defined (call s p method) fun r =>
      Shows r.1 (w.call p method).1 l ∧ r.2 = (w.call p method).2 :=
  .bind_some (h.val p hp) ((h.write hp _).bind fun _ hs => .pure ⟨hs, rfl⟩)

/-- A loop of calls does what it does to the server. -/
theorem callEach {α : Type} (h : Shows s w l) (php : Php) (method : Nat → State → State × Result α)
    {ps : List Nat} (hps : ∀ p ∈ ps, p ∈ l) (outs : List (Nat × α)) (pending : Option Exn) :
    Defined (callEach php method s outs pending ps) fun r =>
      Shows r.1 (w.callEach php method outs pending ps).1 l ∧
        r.2 = (w.callEach php method outs pending ps).2 ∧
        (w.callEach php method outs pending ps).1.endpoint = w.endpoint := by
  induction ps generalizing s w outs pending with
  | nil => exact .pure ⟨h, rfl, rfl⟩
  | cons p ps ih =>
    obtain ⟨hp, hps⟩ := List.forall_mem_cons.mp hps
    cases pending with
    | some e =>
      unfold EndpointMemory.callEach Server.callEach
      split
      · exact .pure ⟨h, rfl, rfl⟩
      · exact ih h hps outs (some e)
    | none =>
      unfold EndpointMemory.callEach Server.callEach
      refine (h.call hp (method p)).bind fun ⟨s₁, result⟩ ⟨h₁, hresult⟩ => ?_
      obtain rfl : result = (w.call p (method p)).2 := hresult
      have he : (w.call p (method p)).1.endpoint = w.endpoint := rfl
      generalize w.call p (method p) = c at h₁ he ⊢
      obtain ⟨w₁, result⟩ := c
      cases result with
      | returned out =>
        refine (ih h₁ hps (outs ++ [(p, out)]) none).mono fun r ⟨h₂, hr, he₂⟩ => ?_
        exact ⟨h₂, hr, he₂.trans he⟩
      | threw e =>
        refine (ih h₁ hps outs (some e)).mono fun r ⟨h₂, hr, he₂⟩ => ?_
        exact ⟨h₂, hr, he₂.trans he⟩
      | running => exact .pure ⟨h₁, rfl, he⟩

end Shows

/-! ### The table -/

/-- The connections of a table. -/
def handles (t : OrdTable Registered.key) : List Nat := t.vals.map Registered.handle

theorem removeKeys_spec {rs : List Registered} (h : Shows s w l) (hrs : ∀ r ∈ rs, r.handle ∈ l) :
    removeKeys s rs =
      some ((rs.filter fun r => (w.object r.handle).conn.finished).map Registered.key) := by
  induction rs with
  | nil => rfl
  | cons r rs ih =>
    obtain ⟨hr, hrs⟩ := List.forall_mem_cons.mp hrs
    unfold removeKeys
    rw [h.val r.handle hr, ih hrs]
    show some _ = some _
    rw [List.filter_cons]
    split <;> rfl

theorem count_handles {t : OrdTable Registered.key} {key : Bytes} {r : Registered}
    (hr : t.find? key = some r) (q : Nat) : (handles t).count q =
      (r.handle :: handles (t.filter fun r => r.key ≠ key)).count q :=
  ((OrdTable.perm_cons_filter hr).map Registered.handle).count_eq q

theorem hashDel_spec {t : OrdTable Registered.key} (h : Shows s w (handles t ++ l)) (key : Bytes) :
    Defined (hashDel s t key) fun r =>
      r.2 = (t.filter fun r => r.key ≠ key) ∧ Shows r.1 w (handles r.2 ++ l) := by
  unfold hashDel
  cases hr : t.find? key with
  | none =>
    have hself : (t.filter fun r => r.key ≠ key) = t := OrdTable.filter_eq_self fun r hmem =>
      decide_eq_true (OrdTable.find?_eq_none.mp hr r hmem)
    exact .pure ⟨hself.symm, h⟩
  | some r =>
    have hheld : Shows s w (r.handle :: (handles (t.filter fun r => r.key ≠ key) ++ l)) := by
      refine h.of_count fun q => ?_
      rw [← List.cons_append, List.count_append, List.count_append, ← count_handles hr]
    exact hheld.release.map fun _ hs => ⟨rfl, hs⟩

theorem removeAll_spec {keys : List Bytes} {t : OrdTable Registered.key}
    (h : Shows s w (handles t ++ l)) : Defined (removeAll keys s t) fun r =>
      r.2 = t.filter (fun r => r.key ∉ keys) ∧ Shows r.1 w (handles r.2 ++ l) := by
  induction keys generalizing s t with
  | nil => exact .pure ⟨(OrdTable.filter_eq_self fun r _ => by simp).symm, h⟩
  | cons key keys ih =>
    have hrest : (t.filter fun r => r.key ≠ key).filter (fun r => r.key ∉ keys) =
        t.filter fun r => r.key ∉ key :: keys := by
      rw [OrdTable.filter_filter]
      refine OrdTable.filter_congr fun r _ => ?_
      simp [Bool.and_comm]
    rw [← hrest]
    refine (hashDel_spec h key).bind fun ⟨s₁, t₁⟩ ⟨ht₁, h₁⟩ => ?_
    obtain rfl : t₁ = t.filter fun r => r.key ≠ key := ht₁
    exact ih h₁

end EndpointMemory

/-! ## The calls keep to the server -/

/-- The connections that an endpoint has. -/
def ServerEndpoint.handles (e : ServerEndpoint) : List Nat :=
  EndpointMemory.handles e.connections ++ e.acceptedQueue

namespace EndpointMemory

/-- The connections that PHP has, also by a stream. -/
def phpHandles (x : EndpointMemory) : List Nat := x.streams.map StreamObject.connection ++ x.php

/-- All who have a connection. -/
def handlesAll (x : EndpointMemory) : List Nat :=
  x.endpoint.elim [] ServerEndpoint.handles ++ x.phpHandles

theorem mem_of_php {x : EndpointMemory} {p : Nat} (h : p ∈ x.php) : p ∈ x.handlesAll :=
  List.mem_append_right _ (List.mem_append_right _ h)

/-- The endpoint is the server's, as long as it is there, and so are the connections that someone
has. -/
structure Represents (x : EndpointMemory) (a : Application) : Prop where
  shows : Shows x.objects a.server x.handlesAll
  endpoint : x.endpoint = if a.freed then none else some a.server.endpoint
  streams : x.streams = a.streams
  php : x.php = a.php

variable {x : EndpointMemory} {a : Application} {w : Server}

theorem cleanupConnections_spec {e : ServerEndpoint} (he : w.endpoint = e)
    (h : Shows x.objects w (e.handles ++ x.phpHandles)) :
    Defined (x.cleanupConnections e)
      (Represents · { server := w.cleanupConnections, streams := x.streams, php := x.php }) := by
  subst he
  unfold ServerEndpoint.handles at h
  rw [List.append_assoc] at h
  refine .bind_some (removeKeys_spec h fun r hr =>
    List.mem_append_left _ (List.mem_map.mpr ⟨r, hr, rfl⟩)) ((removeAll_spec h).bind ?_)
  intro ⟨objects, connections⟩ ⟨hconnections, hs⟩
  have htable : connections = w.cleanupConnections.endpoint.connections := by
    refine hconnections.trans (OrdTable.filter_congr fun r hr => ?_)
    rw [decide_not]
    exact congrArg _ (Bool.eq_iff_iff.mpr
      (decide_eq_true_iff.trans (OrdTable.key_mem_keysWhere hr)))
  subst htable
  refine .pure ⟨?_, rfl, rfl, rfl⟩
  unfold handlesAll ServerEndpoint.handles
  rw [Option.elim_some, List.append_assoc]
  exact hs.congr rfl

theorem Represents.endpoint_open (h : x.Represents a) (hopen : a.freed = false) :
    Shows x.objects a.server (a.server.endpoint.handles ++ x.phpHandles) ∧
      x.endpoint = some a.server.endpoint := by
  have he := h.endpoint
  rw [hopen, if_neg Bool.false_ne_true] at he
  have hs := h.shows
  unfold handlesAll at hs
  rw [he] at hs
  exact ⟨hs, he⟩

/-- The history of the server does not matter. -/
theorem Represents.congr (h : x.Represents a) (ho : w.objects = a.server.objects)
    (he : w.endpoint = a.server.endpoint) : x.Represents { a with server := w } := by
  refine ⟨h.shows.congr ho, ?_, h.streams, h.php⟩
  rw [he]
  exact h.endpoint

end EndpointMemory

/-- The server behind a method that calls a method of each connection. -/
def Server.afterEach {α : Type} (php : Php) (w : Server) (method : Nat → State → State × Result α) :
    Server :=
  match w.callEach php method [] none w.registered with
  | (w, .done _ _) => w.cleanupConnections
  | (w, _) => w

namespace Server

theorem handleTimers_afterEach (php : Php) (w : Server) (a : Nat → ExpiryAnswer) :
    (w.handleTimers php a).1 = w.afterEach php fun p s => Connection.onTimeout s (a p) := by
  unfold handleTimers afterEach
  generalize w.callEach php _ [] none w.registered = c
  obtain ⟨w, e⟩ := c
  cases e with
  | done outs pending => cases pending <;> rfl
  | failure | running => rfl

theorem drainOutgoingDatagrams_afterEach (php : Php) (w : Server) (a : Nat → DrainAnswers) :
    (w.drainOutgoingDatagrams php a).1 =
      w.afterEach php fun p s => Connection.drainOutgoingDatagrams s (a p) := by
  unfold drainOutgoingDatagrams afterEach
  generalize w.callEach php _ [] none w.registered = c
  obtain ⟨w, e⟩ := c
  cases e with
  | done outs pending => cases pending <;> rfl
  | failure | running => rfl

/-- `drainEvents` also writes to the history. -/
theorem drainEvents_afterEach (php : Php) (w : Server) :
    (w.drainEvents php).1.objects = (w.afterEach php fun _ => Connection.drainEvents).objects ∧
      (w.drainEvents php).1.endpoint =
        (w.afterEach php fun _ => Connection.drainEvents).endpoint := by
  unfold drainEvents afterEach
  generalize w.callEach php _ [] none w.registered = c
  obtain ⟨w, e⟩ := c
  cases e with
  | done outs pending => cases pending <;> exact ⟨rfl, rfl⟩
  | failure | running => exact ⟨rfl, rfl⟩

end Server

namespace EndpointMemory

variable {x : EndpointMemory} {a : Application}

theorem Represents.forEach {α : Type} (h : x.Represents a) (hopen : a.freed = false) (php : Php)
    (method : Nat → State → State × Result α) :
    Defined (x.forEach php a.server.endpoint method)
      (Represents · { a with server := a.server.afterEach php method }) := by
  obtain ⟨hs, hx⟩ := h.endpoint_open hopen
  have hstreams := h.streams
  have hphp := h.php
  obtain ⟨w, freed, streams, refs⟩ := a
  subst hopen hstreams hphp
  have hregistered : ∀ p ∈ w.registered, p ∈ w.endpoint.handles ++ x.phpHandles := fun p hp =>
    List.mem_append_left _ (List.mem_append_left _ hp)
  refine (hs.callEach php method hregistered [] none).bind
    fun ⟨objects, result⟩ ⟨h₁, hresult, he⟩ => ?_
  show Defined _ (Represents · { server := w.afterEach php method, streams := _, php := _ })
  unfold Server.afterEach
  generalize w.callEach php method [] none w.registered = c at h₁ hresult he ⊢
  obtain ⟨w₁, result⟩ := c
  subst hresult
  cases result with
  | done outs pending => exact cleanupConnections_spec (x := { x with objects }) he (he ▸ h₁)
  | failure | running =>
    refine .pure ⟨?_, hx.trans (congrArg some he.symm), rfl, rfl⟩
    unfold handlesAll
    rw [hx]
    exact h₁

theorem Represents.recv (h : x.Represents a) (hopen : a.freed = false) (php : Php)
    (getaddrinfo : Getaddrinfo) (datagram : Datagram) (answer : ReadPktAnswer)
    (accept : AcceptAnswers) :
    Defined (x.recv php a.server.endpoint getaddrinfo datagram answer accept)
      (Represents ·
        { a with server := (a.server.recv php getaddrinfo datagram answer accept).1 }) := by
  obtain ⟨hs, hx⟩ := h.endpoint_open hopen
  have hstreams := h.streams
  have hphp := h.php
  obtain ⟨w, freed, streams, refs⟩ := a
  subst hopen hstreams hphp
  unfold EndpointMemory.recv Server.recv
  cases ServerEndpoint.connectionKey datagram with
  | none => exact .pure h
  | some key =>
    simp only
    cases hfind : w.endpoint.connections.find? key with
    | some r =>
      have hmem : r.handle ∈ w.endpoint.handles ++ x.phpHandles := List.mem_append_left _
        (List.mem_append_left _ (List.mem_map.mpr ⟨r, OrdTable.mem_of_find? hfind, rfl⟩))
      refine (hs.call hmem _).bind fun y hy => ?_
      exact cleanupConnections_spec (x := { x with objects := y.1 }) rfl hy.1
    | none =>
      cases ServerEndpoint.callStaticAccept php datagram w.endpoint.config accept with
      | failure => exact .pure h
      | success retval =>
        cases retval with
        | none => exact .pure h
        | some connection =>
          obtain ⟨hp, h₁⟩ := hs.new connection
            (show (w.register key connection).objects = _ from rfl)
          simp only
          -- the table and the queue have a reference each
          refine (h₁.addref List.mem_cons_self).bind fun objects h₂ => ?_
          unfold hashUpdate
          rw [hp] at h₂ ⊢
          simp only [hfind]
          refine cleanupConnections_spec (x := { x with objects })
            (w := w.register key connection) rfl (h₂.of_count fun q => ?_)
          unfold ServerEndpoint.handles handles
          rw [OrdTable.set_vals_new hfind]
          simp only [phpHandles, List.map_append, List.map_cons, List.map_nil, List.count_append,
            List.count_cons, List.count_nil]
          omega

/-- A method of the endpoint. -/
theorem Represents.onEndpoint (h : x.Represents a) (hopen : a.freed = false) (php : Php)
    (c : EndpointCall) : Defined (x.onEndpoint php a.server.endpoint c)
      (Represents · (a.step php (.onEndpoint c))) := by
  have hstep : a.step php (.onEndpoint c) =
      { a with
        server := a.server.step php c.op
        php := Application.hands a.server c ++ a.php } := if_neg (by rw [hopen]; exact nofun)
  rw [hstep]
  cases c with
  | construct config =>
    obtain ⟨hs, -⟩ := h.endpoint_open hopen
    refine .pure ⟨hs.congr rfl, ?_, h.streams, h.php⟩
    rw [hopen]
    rfl
  | recv getaddrinfo datagram answer accept =>
    exact h.recv hopen php getaddrinfo datagram answer accept
  | handleTimers answers =>
    have heq := a.server.handleTimers_afterEach php answers
    exact (h.forEach hopen php _).mono fun y hy =>
      hy.congr (congrArg Server.objects heq) (congrArg Server.endpoint heq)
  | drainOutgoingDatagrams answers =>
    have heq := a.server.drainOutgoingDatagrams_afterEach php answers
    exact (h.forEach hopen php _).mono fun y hy =>
      hy.congr (congrArg Server.objects heq) (congrArg Server.endpoint heq)
  | drainEvents =>
    obtain ⟨ho, he⟩ := a.server.drainEvents_afterEach php
    exact (h.forEach hopen php _).mono fun y hy => hy.congr ho he
  | drainAcceptedConnections =>
    obtain ⟨hs, -⟩ := h.endpoint_open hopen
    have hsame : (a.server.step php .drainAcceptedConnections).objects = a.server.objects := rfl
    refine .pure ⟨(hs.congr hsame).of_count fun q => ?_, ?_, h.streams, ?_⟩
    · simp only [handlesAll, Option.elim_some, ServerEndpoint.handles, phpHandles,
        List.count_append, List.count_nil]
      omega
    · rw [hopen]
      rfl
    · show _ ++ x.php = _ ++ a.php
      rw [h.php]
      rfl

theorem Represents.freeObject (h : x.Represents a) (hopen : a.freed = false) :
    Defined (x.freeObject a.server.endpoint) (Represents · { a with freed := true }) := by
  obtain ⟨hs, -⟩ := h.endpoint_open hopen
  have hqueue : Shows x.objects a.server (a.server.endpoint.acceptedQueue ++
      (handles a.server.endpoint.connections ++ x.phpHandles)) := by
    refine hs.of_count fun q => ?_
    simp only [ServerEndpoint.handles, List.count_append]
    omega
  exact hqueue.releaseAll.bind fun _ h₁ => h₁.releaseAll.bind fun _ h₂ =>
    .pure ⟨h₂, rfl, h.streams, h.php⟩

/-- A stream object has a reference to its connection. -/
theorem Represents.streamCreate {p : Nat} (h : x.Represents a) (hp : p ∈ x.php)
    (streamId : Option Int) : Defined (x.streamCreate p streamId)
      (Represents · { a with streams := a.streams ++ streamId.toList.map (⟨p, ·⟩) }) := by
  cases streamId with
  | none =>
    refine .pure ?_
    rw [Option.toList_none, List.map_nil, List.append_nil]
    exact h
  | some streamId =>
    refine (h.shows.addref (mem_of_php hp)).map fun objects hs =>
      ⟨hs.of_count fun q => ?_, h.endpoint, ?_, h.php⟩
    · simp only [handlesAll, phpHandles, List.map_append, List.map_cons, List.map_nil,
        List.count_append, List.count_cons, List.count_nil]
      omega
    · show x.streams ++ _ = a.streams ++ _
      rw [h.streams]
      rfl

/-- A method of a connection that someone has. -/
theorem Represents.write {p : Nat} (h : x.Represents a) (hp : p ∈ x.handlesAll)
    (connection : State) : Defined (x.objects.write p connection) fun objects =>
      Represents { x with objects } { a with server := a.server.setObject p connection } :=
  (h.shows.write hp connection).mono fun _ hs => ⟨hs, h.endpoint, h.streams, h.php⟩

theorem Represents.step (h : x.Represents a) (php : Php) (call : PhpCall) :
    Defined (x.step php call) (Represents · (a.step php call)) := by
  have hstreams := h.streams
  have hphp := h.php
  have he := h.endpoint
  obtain ⟨w, freed, streams, refs⟩ := a
  subst hstreams hphp
  cases call with
  | onEndpoint c =>
    unfold EndpointMemory.step
    cases freed with
    | true =>
      obtain he : x.endpoint = none := he
      rw [he]
      exact .pure h
    | false =>
      obtain he : x.endpoint = some w.endpoint := he
      rw [he]
      exact h.onEndpoint rfl php c
  | freeEndpoint =>
    unfold EndpointMemory.step
    cases freed with
    | true =>
      obtain he : x.endpoint = none := he
      rw [he]
      exact .pure h
    | false =>
      obtain he : x.endpoint = some w.endpoint := he
      rw [he]
      exact h.freeObject rfl
  | onConnection i o =>
    unfold EndpointMemory.step Application.step
    simp only
    cases hf : focus x.php i with
    | none => exact .pure h
    | some f =>
      obtain ⟨before, p, behind⟩ := f
      have hmem : p ∈ x.handlesAll := mem_of_php (focus_mem hf)
      refine .bind_some (h.shows.val p hmem) ((h.write hmem _).bind fun objects hw => ?_)
      exact hw.streamCreate (focus_mem hf) _
  | getStream i streamId =>
    unfold EndpointMemory.step Application.step
    simp only
    cases hf : focus x.php i with
    | none => exact .pure h
    | some f =>
      obtain ⟨before, p, behind⟩ := f
      have hmem : p ∈ x.handlesAll := mem_of_php (focus_mem hf)
      exact .bind_some (h.shows.val p hmem) (h.streamCreate (focus_mem hf) _)
  | copyConnection i =>
    unfold EndpointMemory.step Application.step
    simp only
    cases hf : focus x.php i with
    | none => exact .pure h
    | some f =>
      obtain ⟨before, p, behind⟩ := f
      have hmem : p ∈ x.handlesAll := mem_of_php (focus_mem hf)
      refine (h.shows.addref hmem).map fun objects hs =>
        ⟨hs.of_count fun q => ?_, h.endpoint, rfl, rfl⟩
      simp only [handlesAll, phpHandles, List.count_append, List.count_cons]
      omega
  | dropConnection i =>
    unfold EndpointMemory.step Application.step
    simp only
    cases hf : focus x.php i with
    | none => exact .pure h
    | some f =>
      obtain ⟨before, p, behind⟩ := f
      have hs : Shows x.objects w
          (p :: { x with php := before ++ behind }.handlesAll) := by
        refine h.shows.of_count fun q => ?_
        simp only [handlesAll, phpHandles, focus_eq hf, List.count_append, List.count_cons]
        omega
      exact hs.release.map fun objects hs => ⟨hs, h.endpoint, rfl, rfl⟩
  | onStream i c =>
    unfold EndpointMemory.step Application.step
    simp only
    cases hf : focus x.streams i with
    | none => exact .pure h
    | some f =>
      obtain ⟨before, stream, behind⟩ := f
      have hmem : stream.connection ∈ x.handlesAll := List.mem_append_right _
        (List.mem_append_left _ (List.mem_map.mpr ⟨stream, focus_mem hf, rfl⟩))
      exact .bind_some (h.shows.val _ hmem) ((h.write hmem _).bind fun objects hw => .pure hw)
  | freeStream i =>
    unfold EndpointMemory.step Application.step
    simp only
    cases hf : focus x.streams i with
    | none => exact .pure h
    | some f =>
      obtain ⟨before, stream, behind⟩ := f
      have hs : Shows x.objects w
          (stream.connection :: { x with streams := before ++ behind }.handlesAll) := by
        refine h.shows.of_count fun q => ?_
        simp only [handlesAll, phpHandles, focus_eq hf, List.map_append, List.map_cons,
          List.count_append, List.count_cons]
        omega
      exact hs.release.map fun objects hs => ⟨hs, h.endpoint, rfl, rfl⟩

/-- Whatever PHP does with an endpoint, its connections and their streams, in any order: no
connection is used, or given up, behind its end; all is as if connections were never freed; and each
connection alive is one that the table, the queue, a stream object or PHP has, so that it is freed
with the last of them. -/
theorem connections_in_memory (php : Php) (config : ServerConfig) (calls : List PhpCall) :
    Defined (calls.foldlM (EndpointMemory.step php) (.new config)) fun x =>
      x.Represents (calls.foldl (Application.step php) { server := .new config }) ∧
        ∀ p, (x.objects.get p).isSome ↔ p ∈ x.handlesAll := by
  have hstart : (EndpointMemory.new config).Represents
      (([] : List PhpCall).foldl (Application.step php) { server := .new config }) :=
    ⟨⟨rfl, .empty, nofun⟩, rfl, rfl, rfl⟩
  have hrun := Defined.foldlM
    (I := fun (x : EndpointMemory) calls =>
      x.Represents (calls.foldl (Application.step php) { server := .new config }))
    (fun x calls call hx => by
      rw [List.foldl_append]
      exact hx.step php call) calls hstart
  exact hrun.mono fun x hx => ⟨hx, hx.shows.held.alive⟩

end EndpointMemory

end PhpQuic
