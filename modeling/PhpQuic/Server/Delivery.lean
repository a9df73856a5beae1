import PhpQuic.Server.Registry

/-!
# The connection that a datagram belongs to

A datagram belongs to the connection that has issued its destination connection id. `recv` does not
look at it: it goes by the address of the peer. Which connection a datagram belongs to is ngtcp2's to
know; here it is any registered connection, or none (`owner`).

* `Server.DeliveredTo`, `Server.PassedToAccept`: what becomes of the datagram.
* `recv_delivers`, `recv_passes`: it depends on what is registered under the key of its peer.
* `datagram_routed_iff`: it goes where it belongs if and only if its peer has the address of the
  datagram that created the connection.
-/

namespace PhpQuic

/-- A `recv` calls ngtcp2 or throws. -/
theorem Connection.recv_ne (s : State) (g : Getaddrinfo) (d : Datagram) (a : ReadPktAnswer) :
    (recv s g d a).1 ≠ s := by
  intro heq
  have hlonger {s' : State} (hs' : s.trace.length < s'.trace.length) : s' ≠ s := by
    rintro rfl
    omega
  refine hlonger ?_ heq
  have hcb := (Polling.runCallbacks s a.callbacks).suffix.length_le
  have hsync (s : State) (p : Periods) : s.trace.length ≤ (s.syncState p).trace.length := by
    rcases s.syncState_trace p with ht | ht
    · rw [ht]
    · rw [ht]; exact Nat.le_succ _
  unfold recv
  split
  · exact Nat.lt_succ_self _
  · split
    · exact Nat.lt_succ_self _
    · rename_i remoteAddr hremote
      simp only
      split
      · exact Nat.lt_succ_self _
      · rename_i localAddr hlocal
        have hread := hsync ((s.runCallbacks a.callbacks).log
          (.readPkt { localAddr, remoteAddr } d.payload a.rv)) a.periods
        have hlog : s.trace.length < ((s.runCallbacks a.callbacks).log
            (.readPkt { localAddr, remoteAddr } d.payload a.rv)).trace.length :=
          Nat.lt_succ_of_le hcb
        split
        · exact Nat.lt_of_lt_of_le hlog hread
        · split
          · exact Nat.lt_of_lt_of_le hlog hread
          · refine Nat.lt_succ_of_lt ?_
            split
            · exact hlog
            · exact hlog

namespace Server

/-- The datagram goes to the connection and to no other one. -/
structure DeliveredTo (w w' : Server) (handle : Nat) (getaddrinfo : Getaddrinfo)
    (datagram : Datagram) (a : ReadPktAnswer) : Prop where
  object : w'.object handle = (Connection.recv (w.object handle) getaddrinfo datagram a).1
  others : ∀ other, other ≠ handle → w'.object other = w.object other
  length : w'.objects.length = w.objects.length

/-- The datagram goes to `ServerConnection::accept` and to no connection. -/
structure PassedToAccept (w w' : Server) (result : Result Unit) (datagram : Datagram)
    (accept : AcceptAnswers) : Prop where
  others : ∀ other < w.objects.length, w'.object other = w.object other
  outcome : match (ServerConnection.accept datagram w.endpoint.config accept).1 with
    | .ok s => w'.objects.length = w.objects.length + 1 ∧ w'.object w.objects.length = s ∧
        result = .returned ()
    | .error _ => w' = w ∧ result = .threw (.exception
        "ServerEndpoint::recv: ServerConnection::accept returned invalid value")

/-- The datagram, which belongs to the registered connection `owner` or to none, goes where it
belongs. -/
def Routed (php : Php) (w : Server) (owner : Option Nat) (getaddrinfo : Getaddrinfo)
    (datagram : Datagram) (a : ReadPktAnswer) (accept : AcceptAnswers) : Prop :=
  let w' := (w.recv php getaddrinfo datagram a accept).1
  match owner with
  | some handle => DeliveredTo w w' handle getaddrinfo datagram a
  | none => PassedToAccept w w' (w.recv php getaddrinfo datagram a accept).2 datagram accept

/-! ## By the key of the peer -/

section

variable {php : Php} {w : Server} {g : Getaddrinfo} {d : Datagram} {a : ReadPktAnswer}
  {accept : AcceptAnswers} {key : Bytes}

/-- A datagram of a registered peer goes to the connection of the peer. -/
theorem recv_delivers {r : Registered} (hkey : ServerEndpoint.connectionKey d = some key)
    (hr : w.endpoint.connections.find? key = some r) :
    DeliveredTo w (w.recv php g d a accept).1 r.handle g d a := by
  have hroutes := call_recv_routesTo hr g d a
  have hrecv : (w.recv php g d a accept).1 =
      (w.call r.handle (Connection.recv · g d a)).1.cleanupConnections := by
    unfold recv
    simp only [hkey, hr]
  rw [hrecv]
  exact ⟨hroutes.object, hroutes.others, List.length_set ..⟩

/-- A datagram of another peer goes to `accept`. -/
theorem recv_passes (hphp : php.accept = some ServerConnection.function)
    (hkey : ServerEndpoint.connectionKey d = some key)
    (hr : w.endpoint.connections.find? key = none) :
    PassedToAccept w (w.recv php g d a accept).1 (w.recv php g d a accept).2 d accept := by
  unfold recv
  simp only [hkey, hr, callStaticAccept_eq hphp]
  cases hs : (ServerConnection.accept d w.endpoint.config accept).1 with
  | ok s =>
    refine ⟨fun other hlt => object_register_old w key s hlt, ?_⟩
    rw [hs]
    exact ⟨List.length_append, object_register_new w key s, rfl⟩
  | error e =>
    refine ⟨fun other _ => rfl, ?_⟩
    rw [hs]
    exact ⟨rfl, rfl⟩

/-- Without a key nothing happens. -/
theorem recv_invalid (hkey : ServerEndpoint.connectionKey d = none) :
    w.recv php g d a accept = (w, .threw (.exception
      "ServerEndpoint::recv [datagram]: Datagram.peerAddress is invalid")) := by
  unfold recv
  simp only [hkey]

/-- A datagram goes to one connection only, and it does not go unnoticed. -/
theorem DeliveredTo.unique {w' : Server} {i j : Nat} (hi : DeliveredTo w w' i g d a)
    (hj : DeliveredTo w w' j g d a) : i = j := by
  by_contra hne
  have hsame := hj.others i hne
  rw [hi.object] at hsame
  exact Connection.recv_ne _ g d a hsame

theorem PassedToAccept.not_delivered {w' : Server} {result : Result Unit} {i : Nat}
    (h : PassedToAccept w w' result d accept) (hi : DeliveredTo w w' i g d a) : ¬ i < w.objects.length := by
  intro hlt
  have hsame := h.others i hlt
  rw [hi.object] at hsame
  exact Connection.recv_ne _ g d a hsame

end

/-! ## By the connection that it belongs to -/

/-- The registered connection was created by a datagram of the peer if and only if it is registered
under the key of the peer. -/
theorem Registry.mem_accepts_iff {w : Server} {accepts : List Registered} {given : List Nat}
    (h : w.Registry accepts given) {key : Bytes} {handle : Nat} (hr : handle ∈ w.registered) :
    ⟨key, handle⟩ ∈ accepts ↔ w.endpoint.connections.find? key = some ⟨key, handle⟩ := by
  constructor
  · intro hacc
    obtain ⟨r, hmem, hhandle⟩ := List.mem_map.mp hr
    -- each handle is accepted once
    have hnodup : (accepts.map Registered.handle).Nodup := by
      rw [h.once]; exact List.nodup_range
    have heq : r = ⟨key, handle⟩ :=
      List.inj_on_of_nodup_map hnodup (h.created r hmem) hacc hhandle
    rw [heq] at hmem
    exact OrdTable.find?_of_mem hmem
  · intro hfind
    exact h.created _ (OrdTable.mem_of_find? hfind)

/-- A peer with this key is the one whose datagram created the connection `owner`; without an `owner`
it is one that has no registered connection. -/
def OwnPeer (w : Server) (accepts : List Registered) (owner : Option Nat) (key : Bytes) : Prop :=
  match owner with
  | some handle => ⟨key, handle⟩ ∈ accepts
  | none => ∀ r ∈ w.endpoint.connections.vals, r.key ≠ key

theorem Registry.routed_iff {php : Php} {w : Server} {accepts : List Registered} {given : List Nat}
    (hphp : php.accept = some ServerConnection.function) (hregistry : w.Registry accepts given)
    (owner : Option Nat) (howner : ∀ handle, owner = some handle → handle ∈ w.registered)
    (g : Getaddrinfo) (d : Datagram) (a : ReadPktAnswer) (accept : AcceptAnswers) :
    w.Routed php owner g d a accept ↔
      ∃ key, ServerEndpoint.connectionKey d = some key ∧ w.OwnPeer accepts owner key := by
  unfold Routed OwnPeer
  cases hkey : ServerEndpoint.connectionKey d with
  | none =>
    -- the datagram goes nowhere
    refine iff_of_false ?_ (by rintro ⟨key, hkey', -⟩; cases hkey')
    rw [recv_invalid hkey]
    cases owner with
    | some handle =>
      intro h
      exact Connection.recv_ne _ g d a h.object.symm
    | none =>
      intro h
      have hout := h.outcome
      split at hout
      · exact absurd hout.1 (Nat.ne_of_lt (Nat.lt_succ_self _))
      · have hmessage := Result.threw.inj hout.2
        revert hmessage
        decide
  | some key =>
    simp only [Option.some.injEq, exists_eq_left']
    cases hfind : w.endpoint.connections.find? key with
    | some r =>
      have hdel : DeliveredTo w (w.recv php g d a accept).1 r.handle g d a := recv_delivers hkey hfind
      have hmem := OrdTable.mem_of_find? hfind
      have hrkey := OrdTable.key_of_find? hfind
      cases owner with
      | some handle =>
        simp only
        rw [hregistry.mem_accepts_iff (howner handle rfl), hfind, Option.some.injEq]
        constructor
        · intro h
          obtain rfl := h.unique hdel
          rw [← hrkey]
        · rintro rfl
          exact hdel
      | none =>
        refine iff_of_false ?_ (fun hnone => hnone r hmem hrkey)
        intro h
        exact h.not_delivered hdel (w.handle_lt r hmem)
    | none =>
      have hpass : PassedToAccept w (w.recv php g d a accept).1 (w.recv php g d a accept).2 d accept :=
        recv_passes hphp hkey hfind
      cases owner with
      | some handle =>
        simp only
        rw [hregistry.mem_accepts_iff (howner handle rfl), hfind]
        refine iff_of_false ?_ nofun
        intro h
        exact hpass.not_delivered h (registered_lt (howner handle rfl))
      | none => exact iff_of_true hpass (OrdTable.find?_eq_none.mp hfind)

/-- A datagram goes where it belongs if and only if its peer has the key of the datagram that created
the connection; one that belongs to no connection goes to `accept` if and only if no connection is
registered under the key of its peer. -/
theorem datagram_routed_iff (php : Php) (hphp : php.accept = some ServerConnection.function)
    (config : ServerConfig) (ops : List ServerOp) (owner : Option Nat)
    (howner : ∀ handle, owner = some handle →
      handle ∈ (Runs.run (step php) (new config) ops).registered)
    (g : Getaddrinfo) (d : Datagram) (a : ReadPktAnswer) (accept : AcceptAnswers) :
    (Runs.run (step php) (new config) ops).Routed php owner g d a accept ↔
      ∃ key, ServerEndpoint.connectionKey d = some key ∧
        (Runs.run (step php) (new config) ops).OwnPeer (acceptsOf php (new config) ops) owner key :=
  (new_run hphp config ops).2.routed_iff hphp owner howner g d a accept

/-- The peer of a connection sends again. -/
theorem datagram_routed_iff_again :
    let php : Php := ⟨some ServerConnection.function, true⟩
    let w := Runs.run (step php) (new someConfig) [fromPeer {}]
    php.accept = some ServerConnection.function ∧ 0 ∈ w.registered ∧
      (w.Routed php (some 0) accepts.getaddrinfo firstDatagram {} accepts ↔
        ∃ key, ServerEndpoint.connectionKey firstDatagram = some key ∧
          w.OwnPeer (acceptsOf php (new someConfig) [fromPeer {}]) (some 0) key) :=
  have h : 0 ∈ (Runs.run (step ⟨some ServerConnection.function, true⟩) (new someConfig)
      [fromPeer {}]).registered := by decide
  ⟨rfl, h, datagram_routed_iff _ rfl someConfig [fromPeer {}] (some 0)
    (by rintro handle ⟨⟩; exact h) _ _ _ _⟩

/-- The Initial of another client at the address of the first. -/
def secondDatagram : Datagram := { firstDatagram with payload := [0xc0, 0x02] }

/-- A second client at the address of the first: its Initial goes to the connection of the first. -/
theorem second_client_swallowed :
    ¬ ∀ (php : Php) (config : ServerConfig) (ops : List ServerOp) (owner : Option Nat) (g : Getaddrinfo)
      (d : Datagram) (a : ReadPktAnswer) (accept : AcceptAnswers),
      php.accept = some ServerConnection.function →
      (∀ handle, owner = some handle →
        handle ∈ (Runs.run (step php) (new config) ops).registered) →
      (Runs.run (step php) (new config) ops).Routed php owner g d a accept := by
  intro h
  have hbad := h ⟨some ServerConnection.function, true⟩ someConfig [fromPeer {}] none
    accepts.getaddrinfo secondDatagram {} accepts rfl nofun
  have htrace := congrArg State.trace (hbad.others 0 (by decide))
  revert htrace
  decide

end Server

end PhpQuic
