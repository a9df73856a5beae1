import PhpQuic.Server.Events
import PhpQuic.Server.Isolation

/-!
# The registry of an endpoint

The registry maps the key of a peer to its connection. `recv` puts the connections in that it
accepts, and a cleanup takes those out that are finished, in a call that may have changed their flags
or long after the application has.

* `Server.accepting`, `Server.acceptsOf`: the connections that a call and a run accept.
* `Server.gives`, `Server.givenOf`: what `drainAcceptedConnections` returns, in a call and in a run.
* `Server.Registry`: what holds of the registry and the queue in every state.
* `Server.RegistryStep`: what a call changes in the registry, and what it leaves behind.
* `registry_run`: both, in every run.
-/

namespace PhpQuic

open Runs (Moves)

namespace Connection

/-- A drain that returns has sent the packet of a requested close. -/
theorem sendsClose_of_returned {s : State} {a : DrainAnswers} {ds : List Datagram}
    (hsome : s.conn.conn.isSome = true)
    (hdue : (s.conn.closeRequested && !s.conn.closePacketSent) = true)
    (h : (drainOutgoingDatagrams s a).2 = .returned ds) :
    s.sendsClose (.drainOutgoingDatagrams a) = true := by
  rw [drainOutgoingDatagrams_close a hsome hdue] at h
  unfold drainClose at h
  unfold State.sendsClose
  simp only [hsome, hdue, Bool.true_and]
  cases hres : a.close.result with
  | ok pkt => rfl
  | error rv =>
    simp only [hres] at h ⊢
    cases hrv : rv.isNonfatalClosing with
    | true => rfl
    | false =>
      rw [hrv] at h
      cases h

/-- A drain that returns leaves no connection closed that is not finished. -/
theorem finished_of_drained {s : State} {a : DrainAnswers} {ds : List Datagram}
    (hsome : s.conn.conn.isSome = true) (h : (drainOutgoingDatagrams s a).2 = .returned ds)
    (hclosed : (drainOutgoingDatagrams s a).1.conn.closed = true) :
    (drainOutgoingDatagrams s a).1.conn.finished = true := by
  have hreq := (drainOutgoingDatagrams_polling s a).closeRequested
  have hsent := drainOutgoingDatagrams_closePacketSent s a
  unfold finished
  rw [hclosed, hreq, hsent, Bool.true_and]
  cases hr : s.conn.closeRequested with
  | false => rfl
  | true =>
    cases hs : s.conn.closePacketSent with
    | true => rfl
    | false =>
      rw [sendsClose_of_returned hsome (by rw [hr, hs]; rfl) h]
      rfl

end Connection

namespace Server

/-- The connection that a call accepts, with the key of its datagram. -/
def accepting (w : Server) : ServerOp → Option Registered
  | .recv _ datagram _ accept =>
    match ServerEndpoint.connectionKey datagram with
    | none => none
    | some key =>
      if (w.endpoint.connections.find? key).isSome then none
      else match (ServerConnection.accept datagram w.endpoint.config accept).1 with
        | .ok _ => some ⟨key, w.objects.length⟩
        | .error _ => none
  | _ => none

/-- The connections that a run accepts, in their order. -/
def acceptsOf (php : Php) : Server → List ServerOp → List Registered
  | _, [] => []
  | w, o :: ops => (w.accepting o).toList ++ acceptsOf php (w.step php o) ops

/-- The array that a call of `drainAcceptedConnections` returns. -/
def gives (w : Server) : ServerOp → List Nat
  | .drainAcceptedConnections =>
    match w.drainAcceptedConnections.2 with
    | .returned handles => handles
    | _ => []
  | _ => []

/-- The arrays that the calls of a run return, as one. -/
def givenOf (php : Php) (w : Server) (ops : List ServerOp) : List Nat :=
  Runs.outputs (step php) gives w ops

/-- The registry and the queue, when the connections `accepts` have been accepted and the application
has been given the connections `given`. -/
structure Registry (w : Server) (accepts : List Registered) (given : List Nat) : Prop where
  keys : (w.endpoint.connections.vals.map Registered.key).Nodup
  handles : w.registered.Nodup
  created : ∀ r ∈ w.endpoint.connections.vals, r ∈ accepts
  told : given ++ w.endpoint.acceptedQueue = accepts.map Registered.handle
  once : accepts.map Registered.handle = List.range w.objects.length

/-- The call ends with a cleanup: `recv` of a known peer or with an accepted connection, and the
three loops if they return. -/
def CleansUp (php : Php) (w : Server) : ServerOp → Prop
  | .recv g d a accept =>
    ((ServerEndpoint.connectionKey d).bind w.endpoint.connections.find?).isSome = true ∨
      (w.accepting (.recv g d a accept)).isSome = true
  | .handleTimers a => ∃ out, (w.handleTimers php a).2 = .returned out
  | .drainOutgoingDatagrams a => ∃ out, (w.drainOutgoingDatagrams php a).2 = .returned out
  | .drainEvents => ∃ out, (w.drainEvents php).2 = .returned out
  | _ => False

/-- What a call does to the registry. -/
structure RegistryStep (php : Php) (w : Server) (o : ServerOp) : Prop where
  adds : ∀ r, w.accepting o = some r →
    w.endpoint.connections.find? r.key = none ∧
      (w.step php o).endpoint.connections.vals =
        (w.endpoint.connections.vals.filter fun r => !(w.object r.handle).conn.finished) ++ [r] ∧
      ∀ i < w.objects.length, (w.step php o).object i = w.object i
  enters : ∀ r ∈ (w.step php o).endpoint.connections.vals,
    r ∈ w.endpoint.connections.vals ∨ w.accepting o = some r
  leaves : ∀ r ∈ w.endpoint.connections.vals, r ∉ (w.step php o).endpoint.connections.vals →
    ((w.step php o).object r.handle).conn.finished = true
  clean : w.CleansUp php o → ∀ r ∈ (w.step php o).endpoint.connections.vals,
    ((w.step php o).object r.handle).conn.finished = false
  drained : ∀ a out, o = .drainOutgoingDatagrams a →
    (w.drainOutgoingDatagrams php a).2 = .returned out →
    ∀ r ∈ (w.step php o).endpoint.connections.vals,
      ((w.step php o).object r.handle).conn.closed = false

/-! ## One call -/

section

variable {php : Php} {w w' : Server} {o : ServerOp}

/-- What `accepting` says. -/
theorem accepting_some {r : Registered} (h : w.accepting o = some r) :
    ∃ g d a accept s, o = .recv g d a accept ∧ ServerEndpoint.connectionKey d = some r.key ∧
      w.endpoint.connections.find? r.key = none ∧ r.handle = w.objects.length ∧
      (ServerConnection.accept d w.endpoint.config accept).1 = .ok s := by
  cases o with
  | recv g d a accept =>
    unfold accepting at h
    simp only at h
    split at h
    · cases h
    · rename_i key hkey
      split at h
      · cases h
      · rename_i hnew
        split at h
        · rename_i s hs
          cases h
          exact ⟨g, d, a, accept, s, rfl, hkey, Option.not_isSome_iff_eq_none.mp hnew, rfl, hs⟩
        · cases h
  | _ => cases h

theorem accept_initialised {initial : Datagram} {config : ServerConfig} {a : AcceptAnswers}
    {s : State} (h : (ServerConnection.accept initial config a).1 = .ok s) :
    s.conn.conn.isSome = true := by
  obtain ⟨path, remoteAddress, localAddress, callbacks, rfl⟩ := ServerConnection.accept_start h
  obtain ⟨_, _, _, hc⟩ := (Start.server path remoteAddress localAddress initial.payload
    callbacks).base.runCallbacks_rest callbacks
  show (State.runCallbacks _ callbacks).conn.conn.isSome = true
  rw [hc]
  rfl

/-- An accepted connection is registered and queued. -/
theorem step_accepting (hphp : php.accept = some ServerConnection.function) {r : Registered}
    (h : w.accepting o = some r) :
    ∃ s, s.conn.closed = false ∧ s.conn.conn.isSome = true ∧
      w.endpoint.connections.find? r.key = none ∧ r.handle = w.objects.length ∧
      w.atCleanup php o = some (w.register r.key s) ∧
      w.step php o = (w.register r.key s).cleanupConnections := by
  obtain ⟨g, d, a, accept, s, rfl, hkey, hnew, hhandle, hs⟩ := accepting_some h
  have hcall := callStaticAccept_eq hphp d w.endpoint.config accept
  rw [hs] at hcall
  refine ⟨s, accept_open hs, accept_initialised hs, hnew, hhandle, ?_, ?_⟩
  · unfold atCleanup
    simp only [hkey, hnew, hcall]
    rfl
  · unfold step recv
    simp only [hkey, hnew, hcall]
    rfl

/-- A call that accepts no connection has no new object. -/
theorem step_length (hphp : php.accept = some ServerConnection.function)
    (h : w.accepting o = none) : (w.step php o).objects.length = w.objects.length := by
  have heach {α : Type} (method : Nat → State → State × Result α) :
      (w.callEach php method [] none w.registered).1.objects.length = w.objects.length :=
    (callEach_registered php w method).length
  cases o with
  | recv g d a accept =>
    unfold accepting at h
    unfold step recv
    simp only at h ⊢
    cases hkey : ServerEndpoint.connectionKey d with
    | none => rfl
    | some key =>
      simp only [hkey] at h ⊢
      cases hr : w.endpoint.connections.find? key with
      | some r => exact List.length_set ..
      | none =>
        simp only [hr, Option.isSome_none, Bool.false_eq_true, if_false] at h
        simp only [callStaticAccept_eq hphp]
        cases hs : (ServerConnection.accept d w.endpoint.config accept).1 with
        | ok s =>
          simp only [hs] at h
          cases h
        | error e => rfl
  | handleTimers a =>
    have hlen := heach fun h s => Connection.onTimeout s (a h)
    unfold step handleTimers
    simp only
    rcases heq : w.callEach php (fun h s => Connection.onTimeout s (a h)) [] none w.registered with
      ⟨w', ⟨outs, pending⟩ | _ | _⟩ <;> rw [heq] at hlen
    · simp only
      rw [finish_fst]
      exact hlen
    · exact hlen
    · exact hlen
  | drainOutgoingDatagrams a =>
    have hlen := heach fun h s => Connection.drainOutgoingDatagrams s (a h)
    unfold step drainOutgoingDatagrams
    simp only
    rcases heq : w.callEach php (fun h s => Connection.drainOutgoingDatagrams s (a h)) [] none
      w.registered with ⟨w', ⟨outs, pending⟩ | _ | _⟩ <;> rw [heq] at hlen
    · simp only
      rw [finish_fst]
      exact hlen
    · exact hlen
    · exact hlen
  | drainEvents =>
    have hlen := heach fun _ => Connection.drainEvents
    unfold step drainEvents
    simp only
    rcases heq : w.callEach php (fun _ => Connection.drainEvents) [] none w.registered with
      ⟨w', ⟨outs, pending⟩ | _ | _⟩ <;> rw [heq] at hlen
    · simp only
      rw [finish_fst]
      cases pending with
      | none => exact hlen
      | some e => exact hlen
    · exact hlen
    · exact hlen
  | drainAcceptedConnections | construct config => rfl
  | onConnection handle o => exact List.length_set ..

/-- What a call that accepts nothing does to the registry. -/
theorem step_keeps (hphp : php.accept = some ServerConnection.function) (h : w.accepting o = none) :
    ∃ w', Stage w w' o ∧ KeepsRegistry w w' ∧ (w.atCleanup php o = none ∧ w.step php o = w' ∨
      w.atCleanup php o = some w' ∧ w.step php o = w'.cleanupConnections) := by
  obtain ⟨w', hstage, hend⟩ := step_stage hphp w o
  rcases hstage.registry with hk | ⟨key, ha⟩
  · exact ⟨w', hstage, hk, hend⟩
  · -- there would be a new object
    have hlen := step_length hphp h
    have hnew := ha.length
    rcases hend with ⟨-, hstep⟩ | ⟨-, hstep⟩
    · rw [hstep] at hlen; omega
    · rw [hstep] at hlen
      have hsame : w'.cleanupConnections.objects.length = w'.objects.length := rfl
      omega

/-- A call that ends with a cleanup comes to it. -/
theorem CleansUp.atCleanup (hphp : php.accept = some ServerConnection.function)
    (h : w.CleansUp php o) : (w.atCleanup php o).isSome = true := by
  cases o with
  | recv g d a accept =>
    rcases h with hknown | hacc
    · obtain ⟨r, hr⟩ := Option.isSome_iff_exists.mp hknown
      obtain ⟨key, hkey, hr⟩ := Option.bind_eq_some_iff.mp hr
      unfold Server.atCleanup
      simp only [hkey, hr]
      rfl
    · obtain ⟨r, hr⟩ := Option.isSome_iff_exists.mp hacc
      obtain ⟨s, -, -, -, -, hat, -⟩ := step_accepting hphp hr
      rw [hat]
      rfl
  | handleTimers a =>
    obtain ⟨out, h⟩ := h
    unfold handleTimers at h
    unfold Server.atCleanup
    simp only
    split at h
    · rename_i heq; rw [heq]; rfl
    · cases h
    · cases h
  | drainOutgoingDatagrams a =>
    obtain ⟨out, h⟩ := h
    unfold drainOutgoingDatagrams at h
    unfold Server.atCleanup
    simp only
    split at h
    · rename_i heq; rw [heq]; rfl
    · cases h
    · cases h
  | drainEvents =>
    obtain ⟨w', -, hat, -⟩ := Stage.drainEvents php w
    rw [hat]
    rfl
  | drainAcceptedConnections | construct config | onConnection handle o => cases h

/-- Behind a cleanup no registered connection is finished. -/
theorem mem_cleanup {r : Registered} :
    r ∈ w.cleanupConnections.endpoint.connections.vals ↔
      r ∈ w.endpoint.connections.vals ∧ (w.object r.handle).conn.finished = false := by
  unfold cleanupConnections OrdTable.filter
  simp only [List.mem_filter, Bool.not_eq_true']

/-- A call that comes to its cleanup leaves no finished connection. -/
theorem clean_of_atCleanup (hphp : php.accept = some ServerConnection.function)
    (h : (w.atCleanup php o).isSome = true) :
    ∀ r ∈ (w.step php o).endpoint.connections.vals,
      ((w.step php o).object r.handle).conn.finished = false := by
  obtain ⟨w', -, ⟨hat, -⟩ | ⟨-, hstep⟩⟩ := step_stage hphp w o
  · rw [hat] at h; cases h
  · rw [hstep]
    intro r hr
    exact (mem_cleanup.mp hr).2

/-- A connection leaves when it is finished. -/
theorem leaves_finished (hphp : php.accept = some ServerConnection.function) {r : Registered}
    (hr : r ∈ w.endpoint.connections.vals) (hr' : r ∉ (w.step php o).endpoint.connections.vals) :
    ((w.step php o).object r.handle).conn.finished = true := by
  obtain ⟨w', hstage, hend⟩ := step_stage hphp w o
  have hmem : r ∈ w'.endpoint.connections.vals := by
    rcases hstage.registry with hk | ⟨key, ha⟩
    · rw [hk.vals]; exact hr
    · rw [ha.vals]; exact List.mem_append_left _ hr
  rcases hend with ⟨-, hstep⟩ | ⟨-, hstep⟩
  · rw [hstep] at hr'
    exact absurd hmem hr'
  · rw [hstep] at hr' ⊢
    refine Bool.not_eq_false _ ▸ fun hf => ?_
    exact hr' (mem_cleanup.mpr ⟨hmem, hf⟩)

/-- A drain that returns has called every registered connection. -/
theorem drained_open (hphp : php.accept = some ServerConnection.function)
    (hinit : ∀ i < w.objects.length, (w.object i).conn.conn.isSome = true) {a : Nat → DrainAnswers}
    {out : List Datagram} (h : (w.drainOutgoingDatagrams php a).2 = .returned out) :
    ∀ r ∈ (w.step php (.drainOutgoingDatagrams a)).endpoint.connections.vals,
      ((w.step php (.drainOutgoingDatagrams a)).object r.handle).conn.closed = false := by
  intro r hr
  have hat := CleansUp.atCleanup (o := .drainOutgoingDatagrams a) hphp ⟨out, h⟩
  have hfinished := clean_of_atCleanup hphp hat r hr
  have hold : r ∈ w.endpoint.connections.vals := by
    obtain ⟨w', -, hk, ⟨hnone, -⟩ | ⟨-, hstep⟩⟩ := step_keeps (o := .drainOutgoingDatagrams a) hphp rfl
    · rw [hnone] at hat; cases hat
    · rw [hstep] at hr
      exact hk.vals ▸ (mem_cleanup.mp hr).1
  have hlt : r.handle < w.objects.length := w.handle_lt r hold
  have hcalled : r.handle ∈ w.registered := List.mem_map_of_mem hold
  -- the loop has come to its end, so it has called them all
  have hall : ∀ i ∈ w.registered, ∃ ds,
      (Connection.drainOutgoingDatagrams (w.object i) (a i)).2 = .returned ds := by
    rcases drainOutgoingDatagrams_cases php w a with ⟨_, -, hall⟩ | ⟨_, _, _, -, -, ⟨-, hend⟩ | ⟨-, hend⟩⟩
    · intro i hi
      obtain ⟨ds, hds, -⟩ := hall i hi
      exact ⟨ds, hds⟩
    · rw [h] at hend; cases hend
    · rw [h] at hend; cases hend
  obtain ⟨ds, hds⟩ := hall _ hcalled
  have hobject : (w.step php (.drainOutgoingDatagrams a)).object r.handle =
      (Connection.drainOutgoingDatagrams (w.object r.handle) (a r.handle)).1 := by
    refine (drainOutgoingDatagrams_object php w a r.handle).trans (if_pos ?_)
    by_contra hnot
    obtain ⟨before, k, after, heq, hhalts, -⟩ := not_mem_calledUntil hcalled hnot
    obtain ⟨ds, hds⟩ := hall k (heq ▸ List.mem_append_right _ List.mem_cons_self)
    rw [hds] at hhalts
    cases hhalts
  rw [hobject] at hfinished ⊢
  refine Bool.eq_false_iff.mpr fun hclosed => ?_
  rw [Connection.finished_of_drained (hinit _ hlt) hds hclosed] at hfinished
  cases hfinished

/-- What is registered behind an accept. -/
theorem register_cleanup_vals {key : Bytes} {s : State} (hopen : s.conn.closed = false)
    (hnew : w.endpoint.connections.find? key = none) :
    (w.register key s).cleanupConnections.endpoint.connections.vals =
      (w.endpoint.connections.vals.filter fun r => !(w.object r.handle).conn.finished) ++
        [⟨key, w.objects.length⟩] := by
  have hvals : (w.register key s).endpoint.connections.vals =
      w.endpoint.connections.vals ++ [⟨key, w.objects.length⟩] := OrdTable.set_vals_new hnew
  have hold : ∀ r ∈ w.endpoint.connections.vals,
      (w.register key s).object r.handle = w.object r.handle :=
    fun r hr => object_register_old w key s (w.handle_lt r hr)
  have hfinished : s.conn.finished = false := by
    unfold Connection.finished; rw [hopen, Bool.false_and]
  show (w.register key s).endpoint.connections.vals.filter _ = _
  rw [hvals, List.filter_append]
  congr 1
  · exact List.filter_congr fun r hr => by rw [hold r hr]
  · refine List.filter_eq_self.mpr fun r hr => ?_
    rw [List.mem_singleton.mp hr, object_register_new, hfinished]
    rfl

/-- The registry behind a call. -/
theorem registryStep (hphp : php.accept = some ServerConnection.function)
    (hinit : ∀ i < w.objects.length, (w.object i).conn.conn.isSome = true) :
    w.RegistryStep php o := by
  refine ⟨fun r hr => ?_, fun r hr => ?_, fun r hr => leaves_finished hphp hr,
    fun h => clean_of_atCleanup hphp (h.atCleanup hphp), ?_⟩
  · obtain ⟨s, hopen, -, hnew, hhandle, -, hstep⟩ := step_accepting hphp hr
    rw [hstep]
    refine ⟨hnew, ?_, fun i hi => object_register_old w r.key s hi⟩
    rw [register_cleanup_vals hopen hnew, ← hhandle]
  · cases hacc : w.accepting o with
    | none =>
      obtain ⟨w', -, hk, ⟨-, hstep⟩ | ⟨-, hstep⟩⟩ := step_keeps hphp hacc
      · rw [hstep, hk.vals] at hr
        exact .inl hr
      · rw [hstep] at hr
        exact .inl (hk.vals ▸ (mem_cleanup.mp hr).1)
    | some r' =>
      obtain ⟨s, -, -, hnew, hhandle, -, hstep⟩ := step_accepting hphp hacc
      rw [hstep] at hr
      rcases OrdTable.mem_set.mp (mem_cleanup.mp hr).1 with rfl | ⟨hr, -⟩
      · exact .inr (by rw [← hhandle])
      · exact .inl hr
  · rintro a out rfl h
    exact drained_open hphp hinit h

/-- Every connection has its connection of ngtcp2. -/
def Initialised (w : Server) : Prop := ∀ i < w.objects.length, (w.object i).conn.conn.isSome = true

theorem Initialised.step (hphp : php.accept = some ServerConnection.function) (h : w.Initialised) :
    (w.step php o).Initialised := by
  obtain ⟨w', hstage, hend⟩ := step_stage hphp w o
  have hstage' : w'.Initialised := by
    intro i hi
    have hold (hlt : i < w.objects.length) : (w'.object i).conn.conn.isSome = true := by
      rw [hstage.object i hlt]
      cases w.dispatched o i with
      | none => exact h i hlt
      | some o' =>
        show (PhpQuic.step (w.object i) o').conn.conn.isSome = true
        rw [Moves.keeps (fun _ _ hm => Move.conn_eq hm) (step_moves (w.object i) o')]
        exact h i hlt
    rcases hstage.registry with hk | ⟨key, ha⟩
    · exact hold (hk.length ▸ hi)
    · rcases Nat.lt_succ_iff_lt_or_eq.mp (ha.length ▸ hi) with hlt | rfl
      · exact hold hlt
      · exact ha.initialised
  rcases hend with ⟨-, hstep⟩ | ⟨-, hstep⟩
  · rw [hstep]; exact hstage'
  · rw [hstep]; exact hstage'

theorem givenOut_cleanup (w : Server) :
    ServerLog.givenOut w.cleanupConnections.log = ServerLog.givenOut w.log := by
  have hgiven (rs : List Registered) (queued : Registered → List Event) (log : List ServerAct) :
      ServerLog.givenOut (rs.map (fun r => .removed r.handle (queued r)) ++ log) =
        ServerLog.givenOut log := by
    induction rs with
    | nil => rfl
    | cons r rs ih => exact ih
  exact hgiven _ (fun r => (w.object r.handle).queued) _

theorem told_cleanup (w : Server) : w.cleanupConnections.told = w.told := by
  unfold told
  rw [givenOut_cleanup]
  rfl

/-- A loop of calls gives nothing out. -/
theorem givenOut_each {α : Type} (php : Php) (w : Server) (method : Nat → State → State × Result α)
    {w' : Server} {e : EachEnd α}
    (heq : w.callEach php method [] none w.registered = (w', e)) :
    ServerLog.givenOut w'.log = ServerLog.givenOut w.log := by
  have hlog := (callEach_registered php w method).log
  rw [heq] at hlog
  rw [hlog]

/-- The log of the endpoint records what `drainAcceptedConnections` returns, and nothing else. -/
theorem step_gives (php : Php) (w : Server) (o : ServerOp) :
    ServerLog.givenOut (w.step php o).log = ServerLog.givenOut w.log ++ w.gives o := by
  cases o with
  | drainAcceptedConnections => rfl
  | recv g d a accept =>
    refine Eq.trans ?_ (List.append_nil _).symm
    unfold step recv
    simp only
    split
    · rfl
    · split
      · exact givenOut_cleanup _
      · split
        · rfl
        · rfl
        · exact givenOut_cleanup _
  | handleTimers a =>
    refine Eq.trans ?_ (List.append_nil _).symm
    unfold step handleTimers
    simp only
    rcases heq : w.callEach php (fun h s => Connection.onTimeout s (a h)) [] none w.registered with
      ⟨w', ⟨outs, pending⟩ | _ | _⟩
    · simp only
      rw [finish_fst, givenOut_cleanup]
      exact givenOut_each php w _ heq
    · exact givenOut_each php w _ heq
    · exact givenOut_each php w _ heq
  | drainOutgoingDatagrams a =>
    refine Eq.trans ?_ (List.append_nil _).symm
    unfold step drainOutgoingDatagrams
    simp only
    rcases heq : w.callEach php (fun h s => Connection.drainOutgoingDatagrams s (a h)) [] none
      w.registered with ⟨w', ⟨outs, pending⟩ | _ | _⟩
    · simp only
      rw [finish_fst, givenOut_cleanup]
      exact givenOut_each php w _ heq
    · exact givenOut_each php w _ heq
    · exact givenOut_each php w _ heq
  | drainEvents =>
    refine Eq.trans ?_ (List.append_nil _).symm
    unfold step drainEvents
    simp only
    rcases heq : w.callEach php (fun _ => Connection.drainEvents) [] none w.registered with
      ⟨w', ⟨outs, pending⟩ | _ | _⟩
    · simp only
      rw [finish_fst, givenOut_cleanup]
      have hgiven := givenOut_each php w _ heq
      cases pending with
      | none => exact hgiven
      | some e => exact hgiven
    · exact givenOut_each php w _ heq
    · exact givenOut_each php w _ heq
  | construct config => exact (List.append_nil _).symm
  | onConnection handle o => exact (List.append_nil _).symm

/-- In every run. -/
theorem run_gives (php : Php) (w : Server) (ops : List ServerOp) :
    ServerLog.givenOut (Runs.run (step php) w ops).log =
      ServerLog.givenOut w.log ++ givenOf php w ops :=
  Runs.run_recorded (R := fun w : Server => ServerLog.givenOut w.log) (step_gives php) w ops

/-- A call adds the connection that it accepts. -/
theorem Registry.step {accepts : List Registered}
    (hphp : php.accept = some ServerConnection.function) (hinit : w.Initialised)
    (h : w.Registry accepts (ServerLog.givenOut w.log)) :
    (w.step php o).Registry (accepts ++ (w.accepting o).toList)
      (ServerLog.givenOut (w.step php o).log) := by
  have htold : w.told = accepts.map Registered.handle := h.told
  have hstep := registryStep (o := o) hphp hinit
  have hcreated : ∀ r ∈ (w.step php o).endpoint.connections.vals,
      r ∈ accepts ++ (w.accepting o).toList := by
    intro r hr
    rcases hstep.enters r hr with hold | hnew
    · exact List.mem_append_left _ (h.created r hold)
    · rw [hnew]
      exact List.mem_append_right _ (List.mem_singleton.mpr rfl)
  refine ⟨(w.step php o).endpoint.connections.nodup, registered_nodup _, hcreated, ?_, ?_⟩
  · show (w.step php o).told = _
    cases hacc : w.accepting o with
    | none =>
      rw [Option.toList_none, List.append_nil, ← htold]
      obtain ⟨w', -, hk, ⟨-, heq⟩ | ⟨-, heq⟩⟩ := step_keeps hphp hacc
      · rw [heq, hk.told]
      · rw [heq, told_cleanup, hk.told]
    | some r =>
      obtain ⟨s, -, -, -, hhandle, -, heq⟩ := step_accepting hphp hacc
      rw [Option.toList_some, List.map_append, ← htold, heq, told_cleanup]
      show _ ++ (_ ++ [w.objects.length]) = _ ++ [r.handle]
      rw [hhandle, ← List.append_assoc]
      rfl
  · cases hacc : w.accepting o with
    | none =>
      rw [Option.toList_none, List.append_nil, h.once, step_length hphp hacc]
    | some r =>
      obtain ⟨s, -, -, -, hhandle, -, heq⟩ := step_accepting hphp hacc
      have hlen : (w.step php o).objects.length = w.objects.length + 1 := by
        rw [heq]; exact List.length_append
      rw [Option.toList_some, List.map_append, h.once, hlen, List.range_succ, List.map_singleton,
        hhandle]

/-- The registry behind a run. -/
theorem Registry.run {accepts : List Registered}
    (hphp : php.accept = some ServerConnection.function) (hinit : w.Initialised)
    (h : w.Registry accepts (ServerLog.givenOut w.log)) (ops : List ServerOp) :
    (Runs.run (Server.step php) w ops).Initialised ∧
      (Runs.run (Server.step php) w ops).Registry (accepts ++ acceptsOf php w ops)
        (ServerLog.givenOut (Runs.run (Server.step php) w ops).log) := by
  induction ops generalizing w accepts with
  | nil =>
    refine ⟨hinit, ?_⟩
    show w.Registry (accepts ++ []) _
    rw [List.append_nil]
    exact h
  | cons o ops ih =>
    have hrest := ih (hinit.step hphp) (h.step (o := o) hphp hinit)
    rw [List.append_assoc] at hrest
    exact hrest

end

/-- The registry behind a run of a new endpoint. -/
theorem new_run {php : Php} (hphp : php.accept = some ServerConnection.function)
    (config : ServerConfig) (ops : List ServerOp) :
    (Runs.run (step php) (new config) ops).Initialised ∧
      (Runs.run (step php) (new config) ops).Registry (acceptsOf php (new config) ops)
        (givenOf php (new config) ops) := by
  have hnew : (new config).Registry [] (ServerLog.givenOut (new config).log) :=
    ⟨List.nodup_nil, List.nodup_nil, nofun, rfl, rfl⟩
  have hinit : (new config).Initialised := nofun
  have hrun := hnew.run hphp hinit ops
  rw [run_gives] at hrun
  exact hrun

/-- In every run the registry is a one-to-one map of the accepted connections that have not left it,
the arrays that `drainAcceptedConnections` returned and the queue name each accepted connection once
and in order, and the next call adds, removes and leaves behind what it is to. -/
theorem registry_run (php : Php) (hphp : php.accept = some ServerConnection.function)
    (config : ServerConfig) (ops : List ServerOp) :
    (Runs.run (step php) (new config) ops).Registry (acceptsOf php (new config) ops)
        (givenOf php (new config) ops) ∧
      ∀ o, (Runs.run (step php) (new config) ops).RegistryStep php o := by
  obtain ⟨hinit, hregistry⟩ := new_run hphp config ops
  exact ⟨hregistry, fun o => registryStep hphp hinit⟩

/-- The application is given the connection of a peer. -/
theorem registry_run_onePeer :
    let php : Php := ⟨some ServerConnection.function, true⟩
    let ops := [fromPeer {}, .drainAcceptedConnections]
    php.accept = some ServerConnection.function ∧
      (Runs.run (step php) (new someConfig) ops).Registry (acceptsOf php (new someConfig) ops)
        (givenOf php (new someConfig) ops) ∧
      (acceptsOf php (new someConfig) ops).length = 1 ∧ givenOf php (new someConfig) ops = [0] :=
  ⟨rfl, (registry_run _ rfl someConfig _).1, by decide, by decide⟩

end Server

end PhpQuic
