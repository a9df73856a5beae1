import PhpQuic.Outgoing.Addresses
import PhpQuic.Server.Delivery

/-!
# The connections of an endpoint

An endpoint calls the methods of its connections and does nothing else to them. So each connection of
an endpoint is a run of its own: what was proved of all runs of a connection holds of each connection
of each endpoint, however the calls of the endpoint and of the application follow one another.

* `Server.opsOf`: the operations that a run dispatches to a connection; `object_run`.
* `endpoint_projects`: each connection is the run of its operations, from the datagram that created it.
* `KeyOfPeer`: a connection is registered under the key of the address to which it sends.
* `replies_come_back`: who answers a datagram of the endpoint reaches the connection that sent it.
-/

namespace PhpQuic

open Runs (Moves)

/-- An accepted connection has read the datagram that created it, and sends to its peer. -/
theorem ServerConnection.accept_server {initial : Datagram} {config : ServerConfig} {a : AcceptAnswers}
    {s : State} (h : (accept initial config a).1 = .ok s) :
    ∃ path localAddress, s =
      (Start.server path initial.peerAddress localAddress initial.payload a.callbacks).state := by
  have hnative {path : Path} (hn : acceptNative config initial path a = .ok s) :
      ∃ path localAddress, s =
        (Start.server path initial.peerAddress localAddress initial.payload a.callbacks).state := by
    unfold acceptNative at hn
    repeat' split at hn
    all_goals try cases hn
    rename_i hread
    exact ⟨path, _, by rw [hread]; rfl⟩
  unfold accept at h
  simp only at h
  repeat' split at h
  all_goals first | exact hnative h | cases h

namespace Server

section

variable {php : Php} {w : Server} {handle : Nat}

/-! ## The operations of one connection -/

/-- The operations that a run dispatches to a connection, while it is there. -/
def opsOf (php : Php) (handle : Nat) : Server → List ServerOp → List Op
  | _, [] => []
  | w, o :: ops =>
    (if handle < w.objects.length then w.dispatched o handle else none).toList ++
      opsOf php handle (w.step php o) ops

/-- A call does to a connection what it dispatches to it. -/
theorem step_object (hphp : php.accept = some ServerConnection.function) (o : ServerOp)
    (hlt : handle < w.objects.length) :
    (w.step php o).object handle = Runs.run PhpQuic.step (w.object handle)
        (w.dispatched o handle).toList ∧
      handle < (w.step php o).objects.length := by
  obtain ⟨w', hstage, hend⟩ := step_stage hphp w o
  have hobject : w'.object handle = Runs.run PhpQuic.step (w.object handle)
      (w.dispatched o handle).toList := by
    rw [hstage.object handle hlt]
    cases w.dispatched o handle <;> rfl
  have hlen : handle < w'.objects.length := by
    rcases hstage.registry with hk | ⟨key, ha⟩
    · rw [hk.length]; exact hlt
    · rw [ha.length]; omega
  rcases hend with ⟨-, hstep⟩ | ⟨-, hstep⟩
  · rw [hstep]; exact ⟨hobject, hlen⟩
  · rw [hstep]; exact ⟨hobject, hlen⟩

/-- A connection that is there runs the operations that are dispatched to it. -/
theorem object_run (hphp : php.accept = some ServerConnection.function) (ops : List ServerOp)
    (hlt : handle < w.objects.length) :
    (Runs.run (step php) w ops).object handle =
        Runs.run PhpQuic.step (w.object handle) (opsOf php handle w ops) ∧
      handle < (Runs.run (step php) w ops).objects.length := by
  induction ops generalizing w with
  | nil => exact ⟨rfl, hlt⟩
  | cons o ops ih =>
    obtain ⟨hobject, hlt'⟩ := step_object hphp o hlt
    obtain ⟨hrun, hlen⟩ := ih hlt'
    refine ⟨?_, hlen⟩
    unfold opsOf
    rw [if_pos hlt, Runs.run_append, ← hobject]
    exact hrun

/-- A connection that was not there has been accepted, and is run from then on. -/
theorem exists_accepting (hphp : php.accept = some ServerConnection.function) {ops : List ServerOp}
    (hnew : w.objects.length ≤ handle)
    (hlt : handle < (Runs.run (step php) w ops).objects.length) :
    ∃ pre o post key, ops = pre ++ o :: post ∧
      (Runs.run (step php) w pre).accepting o = some ⟨key, handle⟩ ∧
      opsOf php handle w ops = opsOf php handle (Runs.run (step php) w (pre ++ [o])) post := by
  induction ops generalizing w with
  | nil => exact absurd hlt (Nat.not_lt.mpr hnew)
  | cons o ops ih =>
    have hops : opsOf php handle w (o :: ops) = opsOf php handle (w.step php o) ops := by
      rw [opsOf, if_neg (Nat.not_lt.mpr hnew)]
      rfl
    -- it comes with this call, or later
    have hlater (hnew' : (w.step php o).objects.length ≤ handle) : ∃ pre o' post key,
        o :: ops = pre ++ o' :: post ∧
        (Runs.run (step php) w pre).accepting o' = some ⟨key, handle⟩ ∧
        opsOf php handle w (o :: ops) =
          opsOf php handle (Runs.run (step php) w (pre ++ [o'])) post := by
      obtain ⟨pre, o', post, key, rfl, hacc, hrest⟩ := ih hnew' hlt
      exact ⟨o :: pre, o', post, key, rfl, hacc, hops.trans hrest⟩
    cases hacc : w.accepting o with
    | none => exact hlater (by rw [step_length hphp hacc]; exact hnew)
    | some r =>
      obtain ⟨s, -, -, -, hhandle, -, hstep⟩ := step_accepting hphp hacc
      have hlen : (w.step php o).objects.length = w.objects.length + 1 := by
        rw [hstep]; exact List.length_append
      by_cases heq : handle = w.objects.length
      · refine ⟨[], o, ops, r.key, rfl, ?_, hops⟩
        rw [heq, ← hhandle]
        exact hacc
      · exact hlater (by omega)

/-- A connection that a call accepts. -/
theorem accepting_object (hphp : php.accept = some ServerConnection.function) {o : ServerOp}
    {key : Bytes} (h : w.accepting o = some ⟨key, handle⟩) :
    ∃ g d a accept path localAddress, o = .recv g d a accept ∧
      ServerEndpoint.connectionKey d = some key ∧ handle < (w.step php o).objects.length ∧
      (w.step php o).object handle =
        (Start.server path d.peerAddress localAddress d.payload accept.callbacks).state := by
  obtain ⟨g, d, a, accept, s, rfl, hkey, hfresh, hhandle, hs⟩ := accepting_some h
  obtain ⟨path, localAddress, hstate⟩ := ServerConnection.accept_server hs
  have hcall := callStaticAccept_eq hphp d w.endpoint.config accept
  rw [hs] at hcall
  have hstep : w.step php (.recv g d a accept) = (w.register key s).cleanupConnections := by
    unfold step recv
    simp only [hkey, hfresh, hcall]
    rfl
  obtain rfl : handle = w.objects.length := hhandle
  refine ⟨g, d, a, accept, path, localAddress, rfl, hkey, ?_, ?_⟩
  · rw [hstep]
    show _ < (w.objects ++ [s]).length
    rw [List.length_append]
    exact Nat.lt_succ_self _
  · rw [hstep, object_cleanupConnections, object_register_new, hstate]

end

/-- Each connection of an endpoint is a run of its own: it starts with the datagram that created it,
and makes the calls that the run of the endpoint dispatches to it, and no others. -/
theorem endpoint_projects (php : Php) (hphp : php.accept = some ServerConnection.function)
    (config : ServerConfig) (ops : List ServerOp) (handle : Nat)
    (hlt : handle < (Runs.run (step php) (new config) ops).objects.length) :
    ∃ pre g d a accept post key path localAddress,
      ops = pre ++ .recv g d a accept :: post ∧
      (Runs.run (step php) (new config) pre).accepting (.recv g d a accept) = some ⟨key, handle⟩ ∧
      (Runs.run (step php) (new config) ops).object handle =
        (Start.server path d.peerAddress localAddress d.payload accept.callbacks).run
          (opsOf php handle (new config) ops) := by
  obtain ⟨pre, o, post, key, rfl, hacc, hops⟩ := exists_accepting hphp (Nat.zero_le _) hlt
  obtain ⟨g, d, a, accept, path, localAddress, rfl, -, hlen, hobject⟩ :=
    accepting_object hphp hacc
  refine ⟨pre, g, d, a, accept, post, key, path, localAddress, rfl, hacc, ?_⟩
  have hsplit : pre ++ ServerOp.recv g d a accept :: post =
      (pre ++ [.recv g d a accept]) ++ post := by simp
  have hpre : Runs.run (step php) (new config) (pre ++ [.recv g d a accept]) =
      (Runs.run (step php) (new config) pre).step php (.recv g d a accept) := Runs.run_append ..
  rw [hops, hsplit, Runs.run_append, hpre, (object_run hphp post hlen).1, hobject]
  rfl

/-- A connection is accepted, its peer opens a stream, and the application writes to it. -/
def writtenRun : List ServerOp :=
  [fromPeer {}, fromPeer { callbacks := [.streamOpen 0] }, .onConnection 0 (.write 0 [1])]

theorem endpoint_projects_written :
    let php : Php := ⟨some ServerConnection.function, true⟩
    php.accept = some ServerConnection.function ∧
      0 < (Runs.run (step php) (new someConfig) writtenRun).objects.length ∧
      ∃ pre g d a accept post key path localAddress,
        writtenRun = pre ++ .recv g d a accept :: post ∧
        (Runs.run (step php) (new someConfig) pre).accepting (.recv g d a accept) = some ⟨key, 0⟩ ∧
        (Runs.run (step php) (new someConfig) writtenRun).object 0 =
          (Start.server path d.peerAddress localAddress d.payload accept.callbacks).run
            (opsOf php 0 (new someConfig) writtenRun) :=
  have h : 0 < (Runs.run (step ⟨some ServerConnection.function, true⟩) (new someConfig)
      writtenRun).objects.length := by decide
  ⟨rfl, h, endpoint_projects _ rfl someConfig writtenRun 0 h⟩

/-! ## Replies -/

/-- The key depends on the address of the peer alone. -/
theorem connectionKey_congr {d e : Datagram} (h : d.peerAddress = e.peerAddress) :
    ServerEndpoint.connectionKey d = ServerEndpoint.connectionKey e := by
  unfold ServerEndpoint.connectionKey
  rw [h]

/-- Each connection is registered under the key of the address to which it sends. -/
def KeyOfPeer (w : Server) : Prop :=
  ∀ r ∈ w.endpoint.connections.vals,
    ServerEndpoint.connectionKey ((w.object r.handle).conn.datagram []) = some r.key

section

variable {php : Php} {w : Server} {handle : Nat}

/-- A connection sends to the same address for ever. -/
theorem datagram_run (hphp : php.accept = some ServerConnection.function) (ops : List ServerOp)
    (hlt : handle < w.objects.length) :
    ((Runs.run (step php) w ops).object handle).conn.datagram = (w.object handle).conn.datagram := by
  rw [(object_run hphp ops hlt).1]
  exact Moves.keeps (f := fun s : State => s.conn.datagram) (fun _ _ hm => hm.datagram_eq)
    (Moves.of_run step_moves _ _)

theorem KeyOfPeer.step (hphp : php.accept = some ServerConnection.function) (hinit : w.Initialised)
    (h : w.KeyOfPeer) (o : ServerOp) : (w.step php o).KeyOfPeer := by
  intro r hr
  rcases (registryStep (o := o) hphp hinit).enters r hr with hold | hacc
  · have hsame : ((w.step php o).object r.handle).conn.datagram =
        (w.object r.handle).conn.datagram := datagram_run hphp [o] (w.handle_lt r hold)
    rw [hsame]
    exact h r hold
  · obtain ⟨g, d, a, accept, path, localAddress, rfl, hkey, -, hobject⟩ := accepting_object hphp hacc
    have hstate : (Start.server path d.peerAddress localAddress d.payload
        accept.callbacks).state.conn.datagram = (Start.server path d.peerAddress localAddress d.payload
          accept.callbacks).base.conn.datagram :=
      Moves.keeps (f := fun s : State => s.conn.datagram) (fun _ _ hm => hm.datagram_eq)
        (Start.run_moves _ [])
    rw [hobject, hstate, ← hkey]
    exact connectionKey_congr rfl

/-- What a call of the endpoint returns was returned by its connections. -/
theorem mem_drained {a : Nat → DrainAnswers} {out : List Datagram}
    (h : (w.drainOutgoingDatagrams php a).2 = .returned out) {d : Datagram} (hd : d ∈ out) :
    ∃ i ∈ w.registered, ∃ ds,
      (Connection.drainOutgoingDatagrams (w.object i) (a i)).2 = .returned ds ∧ d ∈ ds := by
  have hcases := callEach_cases php (fun h s => Connection.drainOutgoingDatagrams s (a h)) w []
    w.registered_nodup fun i hi => registered_lt hi
  unfold drainOutgoingDatagrams at h
  cases heq : w.callEach php (fun h s => Connection.drainOutgoingDatagrams s (a h)) [] none
      w.registered with
  | mk w' e =>
    rw [heq] at hcases h
    rcases hcases with ⟨later, he, hfst, hall⟩ | ⟨_, k, _, _, _, ⟨e', _, he | ⟨outs, he⟩⟩ | ⟨_, he⟩⟩
    · obtain rfl : e = _ := he
      obtain rfl := Result.returned.inj h
      obtain ⟨part, hpart, hdpart⟩ := List.mem_flatMap.mp hd
      exact ⟨part.1, hfst ▸ List.mem_map_of_mem hpart, part.2, hall part hpart, hdpart⟩
    · obtain rfl : e = _ := he
      cases h
    · obtain rfl : e = _ := he
      cases h
    · obtain rfl : e = _ := he
      cases h

end

/-- Replies come back: each datagram that a call of the endpoint returns was sent by a registered
connection, and a datagram from the address to which it goes is delivered to this connection, as long
as the connection is registered. -/
theorem replies_come_back (php : Php) (hphp : php.accept = some ServerConnection.function)
    (config : ServerConfig) (ops : List ServerOp) (a : Nat → DrainAnswers) (out : List Datagram)
    (hout : ((Runs.run (step php) (new config) ops).drainOutgoingDatagrams php a).2 = .returned out)
    (d : Datagram) (hd : d ∈ out) :
    let w := Runs.run (step php) (new config) ops
    ∃ handle ∈ w.registered,
      (∃ ds, (Connection.drainOutgoingDatagrams (w.object handle) (a handle)).2 = .returned ds ∧
        d ∈ ds) ∧
      ∀ later,
        let w' := Runs.run (step php) w (.drainOutgoingDatagrams a :: later)
        handle ∈ w'.registered → ∀ g reply answer accept, reply.peerAddress = d.peerAddress →
          DeliveredTo w' (w'.recv php g reply answer accept).1 handle g reply answer := by
  intro w
  obtain ⟨handle, hreg, ds, hds, hdmem⟩ := mem_drained hout hd
  refine ⟨handle, hreg, ⟨ds, hds, hdmem⟩, ?_⟩
  intro later w' hreg' g reply answer accept hpeer
  have hnew : (new config).Initialised ∧ (new config).KeyOfPeer := ⟨nofun, nofun⟩
  have hinv : w'.Initialised ∧ w'.KeyOfPeer := by
    have hall : (Runs.run (step php) (new config)
        (ops ++ .drainOutgoingDatagrams a :: later)).Initialised ∧
        (Runs.run (step php) (new config)
          (ops ++ .drainOutgoingDatagrams a :: later)).KeyOfPeer := by
      refine Runs.run_inv (I := fun w : Server => w.Initialised ∧ w.KeyOfPeer) ?_ hnew _
      exact fun w o h => ⟨h.1.step hphp, h.2.step hphp h.1 o⟩
    rw [Runs.run_append] at hall
    exact hall
  obtain ⟨r, hr, hhandle⟩ := List.mem_map.mp hreg'
  have hsent : d = (w.object handle).conn.datagram d.payload :=
    Connection.drainOutgoingDatagrams_datagrams hds d hdmem
  have hsame : (w'.object handle).conn.datagram = (w.object handle).conn.datagram :=
    datagram_run hphp _ (registered_lt hreg)
  have hkey : ServerEndpoint.connectionKey reply = some r.key := by
    have hpeer' : reply.peerAddress = ((w'.object handle).conn.datagram []).peerAddress := by
      rw [hpeer, hsent, hsame]
      rfl
    rw [connectionKey_congr hpeer', ← hhandle]
    exact hinv.2 r hr
  rw [← hhandle]
  exact recv_delivers hkey (OrdTable.find?_of_mem hr)

/-- The answers of one packet for each connection. -/
def onePacketEach (_ : Nat) : DrainAnswers := onePacket {}

theorem replies_come_back_firstDatagram :
    let php : Php := ⟨some ServerConnection.function, true⟩
    let w := Runs.run (step php) (new someConfig) [fromPeer {}]
    let d : Datagram := { payload := [7], peerAddress := some ⟨[49], 4433⟩, localAddress := some ⟨[48], 0⟩ }
    php.accept = some ServerConnection.function ∧
      (w.drainOutgoingDatagrams php onePacketEach).2 = .returned [d] ∧ d ∈ [d] ∧
      ∃ handle ∈ w.registered,
        (∃ ds, (Connection.drainOutgoingDatagrams (w.object handle) (onePacketEach handle)).2 =
          .returned ds ∧ d ∈ ds) ∧
        ∀ later,
          let w' := Runs.run (step php) w (.drainOutgoingDatagrams onePacketEach :: later)
          handle ∈ w'.registered → ∀ g reply answer accept, reply.peerAddress = d.peerAddress →
            DeliveredTo w' (w'.recv php g reply answer accept).1 handle g reply answer := by
  intro php w d
  have hout : (w.drainOutgoingDatagrams php onePacketEach).2 = .returned [d] := by decide
  exact ⟨rfl, hout, List.mem_singleton_self d,
    replies_come_back php rfl someConfig [fromPeer {}] onePacketEach [d] hout d
      (List.mem_singleton_self d)⟩

end Server

end PhpQuic
