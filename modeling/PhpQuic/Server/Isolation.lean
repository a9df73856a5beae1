import PhpQuic.Outgoing.Packets
import PhpQuic.Server.Dispatch

/-!
# A connection that throws, and the others

The loops of the endpoint check for a `FAILURE` of `call_user_function`, which an exception of the
callee is not: it stays pending, the methods of the connections behind do not run, and what the
connections before have returned is dropped with the return value.

* `Server.Isolates`: a call does its work for every connection that does not throw.
* `Server.NoneInTheWay`: no connection with work to do stands behind one whose timer handler throws,
  and none that has built a packet before one whose drain throws.
* `fault_isolation_iff`: the first holds if and only if the second does.
-/

namespace PhpQuic

/-- The call throws. -/
def Result.throws {α : Type} : Result α → Bool
  | .threw _ => true
  | _ => false

theorem Result.halts_of_throws {α : Type} {r : Result α} (h : r.throws = true) :
    r.halts = true := by
  cases r with
  | threw e => rfl
  | _ => cases h

/-- The timer handler has nothing to do. -/
def State.timerIdle (s : State) : Bool := s.conn.conn.isNone || s.conn.closed

namespace Connection

theorem onTimeout_idle {s : State} (h : s.timerIdle = true) (a : ExpiryAnswer) :
    (onTimeout s a).1 = s := by
  unfold State.timerIdle at h
  unfold onTimeout
  rw [if_pos h]

/-- A handler with something to do calls ngtcp2. -/
theorem onTimeout_ne {s : State} (h : s.timerIdle = false) (a : ExpiryAnswer) :
    (onTimeout s a).1 ≠ s := by
  intro heq
  have hlonger (s' : State) (hs' : (s.runCallbacks a.callbacks).trace.length < s'.trace.length) :
      s' ≠ s := by
    rintro rfl
    have hle := (Polling.runCallbacks s' a.callbacks).suffix.length_le
    omega
  refine hlonger _ ?_ heq
  have hsync (s : State) (p : Periods) : s.trace.length ≤ (s.syncState p).trace.length := by
    rcases s.syncState_trace p with ht | ht
    · rw [ht]
    · rw [ht]; exact Nat.le_succ _
  unfold onTimeout
  rw [if_neg (by rw [show (s.conn.conn.isNone || s.conn.closed) = false from h]; nofun)]
  simp only
  split
  · exact hsync ((s.runCallbacks a.callbacks).log (.handleExpiry a.rv)) a.periods
  · split
    · exact hsync ((s.runCallbacks a.callbacks).log (.handleExpiry a.rv)) a.periods
    · exact Nat.lt_succ_of_lt (Nat.lt_succ_self _)

theorem onTimeout_not_running (s : State) (a : ExpiryAnswer) : (onTimeout s a).2 ≠ .running := by
  unfold onTimeout
  split
  · nofun
  · simp only
    split
    · nofun
    · split <;> nofun

end Connection

namespace Server

/-! ## What is asked of the three loops -/

/-- `handleTimers` runs the timer handler of every connection that does not throw. -/
def TimersRun (php : Php) (w : Server) (a : Nat → ExpiryAnswer) : Prop :=
  ∀ handle ∈ w.registered, (Connection.onTimeout (w.object handle) (a handle)).2.throws = false →
    (w.handleTimers php a).1.object handle = (Connection.onTimeout (w.object handle) (a handle)).1

/-- The datagrams that the call takes out of a connection. -/
def taken (w w' : Server) (handle : Nat) : List Datagram :=
  Trace.handed ((w.object handle).actsSince (w'.object handle))

/-- What `drainOutgoingDatagrams` takes out of a connection that does not throw is returned, or it
can be had later. -/
def DatagramsKept (php : Php) (w : Server) (a : Nat → DrainAnswers) : Prop :=
  let w' := (w.drainOutgoingDatagrams php a).1
  ∀ handle ∈ w.registered,
    (Connection.drainOutgoingDatagrams (w.object handle) (a handle)).2.throws = false →
    (∃ ds, (w.drainOutgoingDatagrams php a).2 = .returned ds ∧ (w.taken w' handle).Sublist ds) ∨
      ∀ d ∈ w.taken w' handle, (w'.object handle).Retrievable d

/-- What `drainEvents` takes out of a connection is returned, or it is still queued. -/
def EventsKept (php : Php) (w : Server) : Prop :=
  let w' := (w.drainEvents php).1
  ∀ handle ∈ w.registered,
    (∃ es, (w.drainEvents php).2 = .returned es ∧
        (Trace.drainedEvents ((w.object handle).actsSince (w'.object handle))).Sublist es) ∨
      ∀ e ∈ Trace.drainedEvents ((w.object handle).actsSince (w'.object handle)),
        e ∈ (w'.object handle).conn.events

/-- The call does its work for every connection that does not throw. -/
def Isolates (php : Php) (w : Server) : ServerOp → Prop
  | .handleTimers a => w.TimersRun php a
  | .drainOutgoingDatagrams a => w.DatagramsKept php a
  | .drainEvents => w.EventsKept php
  | _ => True

/-- No method that the call calls of a connection goes on for ever. -/
def Ends (php : Php) (w : Server) : ServerOp → Prop
  | .drainOutgoingDatagrams a => (w.drainOutgoingDatagrams php a).2 ≠ .running
  | _ => True

/-- No connection that throws stands in the way of another one. -/
def NoneInTheWay (w : Server) : ServerOp → Prop
  | .handleTimers a => ∀ before k after, w.registered = before ++ k :: after →
      (Connection.onTimeout (w.object k) (a k)).2.throws = true →
      ∀ i ∈ after, (Connection.onTimeout (w.object i) (a i)).2.throws = true ∨
        (w.object i).timerIdle = true
  | .drainOutgoingDatagrams a => ∀ before k after, w.registered = before ++ k :: after →
      (∀ i ∈ before, (Connection.drainOutgoingDatagrams (w.object i) (a i)).2.halts = false) →
      (Connection.drainOutgoingDatagrams (w.object k) (a k)).2.throws = true →
      ∀ i ∈ before, (Connection.drainOutgoingDatagrams (w.object i) (a i)).2 = .returned []
  | _ => True

/-! ## `handleTimers` -/

/-- The objects behind the call are those behind its loop. -/
theorem handleTimers_object (php : Php) (w : Server) (a : Nat → ExpiryAnswer) (handle : Nat) :
    (w.handleTimers php a).1.object handle =
      if handle ∈ w.called fun h s => Connection.onTimeout s (a h) then
        (Connection.onTimeout (w.object handle) (a handle)).1
      else w.object handle := by
  rw [← (callEach_registered php w fun h s => Connection.onTimeout s (a h)).object handle]
  unfold handleTimers
  rcases w.callEach php (fun h s => Connection.onTimeout s (a h)) [] none w.registered with
    ⟨w', ⟨outs, pending⟩ | _ | _⟩
  · simp only
    rw [← object_cleanupConnections w', ← finish_fst w' pending ()]
  · rfl
  · rfl

theorem timersRun_iff (php : Php) (w : Server) (a : Nat → ExpiryAnswer) :
    w.TimersRun php a ↔ w.NoneInTheWay (.handleTimers a) := by
  have hthrows {i : Nat} (h : (Connection.onTimeout (w.object i) (a i)).2.halts = true) :
      (Connection.onTimeout (w.object i) (a i)).2.throws = true := by
    have hrun := Connection.onTimeout_not_running (w.object i) (a i)
    cases hr : (Connection.onTimeout (w.object i) (a i)).2 with
    | returned out => rw [hr] at h; cases h
    | threw e => rfl
    | running => exact absurd hr hrun
  constructor
  · intro hrun before k after heq hk i hi
    by_contra hnot
    obtain ⟨hnothrow, hbusy⟩ := not_or.mp hnot
    have hnodup := w.registered_nodup
    rw [heq] at hnodup
    -- the connection stands behind `k`, so it is not called
    have hcalled : i ∉ w.called fun h s => Connection.onTimeout s (a h) := by
      unfold called
      rw [heq]
      intro hmem
      have hdisjoint := (List.nodup_append.mp hnodup).2
      rcases calledUntil_split (Result.halts_of_throws hk) hmem with hb | rfl
      · exact hdisjoint.2 i hb i (List.mem_cons_of_mem _ hi) rfl
      · exact (List.nodup_cons.mp hdisjoint.1).1 hi
    have hobject := hrun i (heq ▸ List.mem_append_right _ (List.mem_cons_of_mem _ hi))
      (Bool.eq_false_iff.mpr hnothrow)
    rw [handleTimers_object, if_neg hcalled] at hobject
    exact Connection.onTimeout_ne (Bool.eq_false_iff.mpr hbusy) (a i) hobject.symm
  · intro hway handle hr hnothrow
    rw [handleTimers_object]
    split
    · rfl
    · rename_i hcalled
      obtain ⟨before, k, after, heq, hk, hafter⟩ := not_mem_calledUntil hr hcalled
      rcases hway before k after heq (hthrows hk) handle hafter with ht | hidle
      · exact absurd (ht.symm.trans hnothrow) nofun
      · exact (Connection.onTimeout_idle hidle (a handle)).symm

/-! ## `drainOutgoingDatagrams` -/

theorem drainOutgoingDatagrams_object (php : Php) (w : Server) (a : Nat → DrainAnswers)
    (handle : Nat) :
    (w.drainOutgoingDatagrams php a).1.object handle =
      if handle ∈ w.called fun h s => Connection.drainOutgoingDatagrams s (a h) then
        (Connection.drainOutgoingDatagrams (w.object handle) (a handle)).1
      else w.object handle := by
  rw [← (callEach_registered php w fun h s => Connection.drainOutgoingDatagrams s (a h)).object handle]
  unfold drainOutgoingDatagrams
  rcases w.callEach php (fun h s => Connection.drainOutgoingDatagrams s (a h)) [] none w.registered
    with ⟨w', ⟨outs, pending⟩ | _ | _⟩
  · simp only
    rw [← object_cleanupConnections w', ← finish_fst w' pending (outs.flatMap Prod.snd)]
  · rfl
  · rfl

/-- What the call takes out of a connection: what its method returns, if it is called. -/
theorem taken_eq (php : Php) (w : Server) (a : Nat → DrainAnswers) (handle : Nat) :
    w.taken (w.drainOutgoingDatagrams php a).1 handle =
      if handle ∈ w.called fun h s => Connection.drainOutgoingDatagrams s (a h) then
        match (Connection.drainOutgoingDatagrams (w.object handle) (a handle)).2 with
        | .returned ds => ds
        | _ => []
      else [] := by
  unfold taken
  rw [drainOutgoingDatagrams_object]
  split
  · rcases Connection.drainOutgoingDatagrams_acts (w.object handle) (a handle) with
      ⟨ds, hr, h⟩ | ⟨⟨e, hr⟩, packets, failed, h, -⟩ | ⟨hr, packets, failed, h⟩
    · rw [hr]; exact h.actsSince.1
    · rw [hr]; exact h.actsSince.1
    · rw [hr]; exact h.actsSince.1
  · rw [State.actsSince_eq (show (w.object handle).trace = [] ++ _ from rfl)]
    rfl

/-- How the call ends. -/
theorem drainOutgoingDatagrams_cases (php : Php) (w : Server) (a : Nat → DrainAnswers) :
    (∃ ds, (w.drainOutgoingDatagrams php a).2 = .returned ds ∧
      ∀ handle ∈ w.registered, ∃ part,
        (Connection.drainOutgoingDatagrams (w.object handle) (a handle)).2 = .returned part ∧
          part.Sublist ds) ∨
    ∃ before k after, w.registered = before ++ k :: after ∧
      (∀ i ∈ before, (Connection.drainOutgoingDatagrams (w.object i) (a i)).2.halts = false) ∧
      ((Connection.drainOutgoingDatagrams (w.object k) (a k)).2.throws = true ∧
          (w.drainOutgoingDatagrams php a).2.throws = true ∨
        (Connection.drainOutgoingDatagrams (w.object k) (a k)).2 = .running ∧
          (w.drainOutgoingDatagrams php a).2 = .running) := by
  have hcases := callEach_cases php (fun h s => Connection.drainOutgoingDatagrams s (a h)) w []
    w.registered_nodup fun i hi => registered_lt hi
  unfold drainOutgoingDatagrams
  cases heq : w.callEach php (fun h s => Connection.drainOutgoingDatagrams s (a h)) [] none
      w.registered with
  | mk w' e =>
    rw [heq] at hcases
    rcases hcases with ⟨later, he, hfst, hall⟩ | ⟨before, k, after, hsplit, hbefore, hend⟩
    · obtain rfl : e = _ := he
      refine .inl ⟨_, rfl, fun handle hr => ?_⟩
      obtain ⟨part, hpart, rfl⟩ := List.mem_map.mp (hfst ▸ hr)
      refine ⟨part.2, hall part hpart, ?_⟩
      rw [List.nil_append, List.flatMap_def]
      exact List.sublist_flatten_of_mem (List.mem_map_of_mem hpart)
    · refine .inr ⟨before, k, after, hsplit, hbefore, ?_⟩
      rcases hend with ⟨e', hk, he | ⟨outs, he⟩⟩ | ⟨hk, he⟩
      · obtain rfl : e = _ := he
        exact .inl ⟨by rw [hk]; rfl, rfl⟩
      · obtain rfl : e = _ := he
        exact .inl ⟨by rw [hk]; rfl, rfl⟩
      · obtain rfl : e = _ := he
        exact .inr ⟨hk, rfl⟩

theorem datagramsKept_iff (php : Php) (w : Server) (a : Nat → DrainAnswers)
    (hends : (w.drainOutgoingDatagrams php a).2 ≠ .running) :
    w.DatagramsKept php a ↔ w.NoneInTheWay (.drainOutgoingDatagrams a) := by
  have hreturned {i : Nat} (h : (Connection.drainOutgoingDatagrams (w.object i) (a i)).2.halts =
      false) : ∃ ds, (Connection.drainOutgoingDatagrams (w.object i) (a i)).2 = .returned ds := by
    cases hr : (Connection.drainOutgoingDatagrams (w.object i) (a i)).2 with
    | returned ds => exact ⟨ds, rfl⟩
    | _ => rw [hr] at h; cases h
  constructor
  · intro hkept before k after heq hbefore hk i hi
    obtain ⟨part, hpart⟩ := hreturned (hbefore i hi)
    have htaken : w.taken (w.drainOutgoingDatagrams php a).1 i = part := by
      rw [taken_eq, hpart, if_pos]
      unfold called
      rw [heq]
      exact mem_calledUntil hbefore hi
    have hi' : i ∈ w.registered := heq ▸ List.mem_append_left _ hi
    rcases hkept i hi' (by rw [hpart]; rfl) with ⟨ds, hds, -⟩ | hlater
    · -- the exception of `k` leaves no value to return
      rcases drainOutgoingDatagrams_cases php w a with ⟨_, -, hall⟩ | ⟨_, _, _, -, -, ⟨-, ht⟩ | ⟨-, hrun⟩⟩
      · obtain ⟨_, hret, -⟩ := hall k (heq ▸ List.mem_append_right _ List.mem_cons_self)
        rw [hret] at hk
        cases hk
      · rw [hds] at ht
        cases ht
      · exact absurd hrun hends
    · rw [htaken] at hlater
      rw [hpart, List.eq_nil_iff_forall_not_mem.mpr fun d hd =>
        State.not_retrievable _ d (hlater d hd)]
  · intro hway handle hr hnothrow
    rcases drainOutgoingDatagrams_cases php w a with ⟨ds, hds, hall⟩ | ⟨before, k, after, heq, hbefore,
      ⟨hk, -⟩ | ⟨-, hrun⟩⟩
    · obtain ⟨part, hpart, hsub⟩ := hall handle hr
      refine .inl ⟨ds, hds, ?_⟩
      rw [taken_eq, hpart]
      split
      · exact hsub
      · exact List.nil_sublist _
    · right
      have hempty : w.taken (w.drainOutgoingDatagrams php a).1 handle = [] := by
        rw [taken_eq]
        split
        · rename_i hcalled
          unfold called at hcalled
          rw [heq] at hcalled
          rcases calledUntil_split (Result.halts_of_throws hk) hcalled with hb | rfl
          · rw [hway before k after heq hbefore hk handle hb]
          · exact absurd (hk.symm.trans hnothrow) nofun
        · rfl
      rw [hempty]
      exact nofun
    · exact absurd hrun hends

/-! ## The three loops -/

/-- `drainEvents` throws for no connection, so it keeps all events. -/
theorem eventsKept (php : Php) (w : Server) : w.EventsKept php := by
  intro handle hr
  obtain ⟨w', hstage, -, heq⟩ := Stage.drainEvents php w
  have hobject : (w.drainEvents php).1.object handle = (Connection.drainEvents (w.object handle)).1 := by
    rw [heq, object_cleanupConnections, hstage.object handle (registered_lt hr)]
    rw [show w.dispatched .drainEvents handle = some .drainEvents from if_pos hr]
    rfl
  refine .inl ⟨_, congrArg Prod.snd heq, ?_⟩
  rw [hobject, State.actsSince_eq (show (Connection.drainEvents (w.object handle)).1.trace =
    [.events (w.object handle).conn.events] ++ (w.object handle).trace from rfl)]
  rw [List.flatMap_def]
  exact List.sublist_flatten_of_mem (List.mem_map_of_mem hr)

/-- A call does its work for every connection that does not throw if and only if none that throws
stands in the way of another one. -/
theorem fault_isolation_iff (php : Php) (w : Server) (o : ServerOp) (hends : w.Ends php o) :
    w.Isolates php o ↔ w.NoneInTheWay o := by
  cases o with
  | handleTimers a => exact w.timersRun_iff php a
  | drainOutgoingDatagrams a => exact w.datagramsKept_iff php a hends
  | drainEvents => exact iff_of_true (w.eventsKept php) trivial
  | _ => exact Iff.rfl

/-- A datagram of another peer. -/
def otherDatagram : Datagram := { firstDatagram with peerAddress := some ⟨[49], 4434⟩ }

/-- An endpoint with a connection of each of two peers. -/
def twoPeers : Server :=
  Runs.run (step ⟨some ServerConnection.function, true⟩) (new someConfig)
    [.recv accepts.getaddrinfo firstDatagram {} accepts,
      .recv accepts.getaddrinfo otherDatagram {} accepts]

/-- The second connection throws, and the first has built no packet. -/
theorem fault_isolation_iff_second :
    let php : Php := ⟨some ServerConnection.function, true⟩
    let o : ServerOp := .drainOutgoingDatagrams fun handle =>
      { loop := [{ writev := { result := if handle = 0 then .ok [] else .error .crypto } }] }
    twoPeers.Ends php o ∧ (twoPeers.Isolates php o ↔ twoPeers.NoneInTheWay o) :=
  have h : twoPeers.Ends ⟨some ServerConnection.function, true⟩ (.drainOutgoingDatagrams fun handle =>
      { loop := [{ writev := { result := if handle = 0 then .ok [] else .error .crypto } }] }) := by
    unfold Ends
    decide
  ⟨h, fault_isolation_iff _ _ _ h⟩

/-- The first connection's timer handler throws, and that of the second does not run. -/
theorem fault_starves_second :
    ¬ ∀ (php : Php) (w : Server) (o : ServerOp), w.Ends php o → w.Isolates php o := by
  intro h
  have hrun := h ⟨some ServerConnection.function, true⟩ twoPeers
    (.handleTimers fun handle => { rv := if handle = 0 then some .crypto else none }) trivial 1
    (by decide) (by decide)
  have htrace := congrArg State.trace hrun
  revert htrace
  decide

end Server

end PhpQuic
