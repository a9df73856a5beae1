import PhpQuic.Server.Finishing
import PhpQuic.Server.Routing

/-!
# What a call of the endpoint does to its connections

A call of the endpoint calls one method of some of its connections, one after the other until one of
them does not return; then it cleans up.

* `Server.dispatched`: the method that a call has called of a connection.
* `Server.Calls`: the connections of a list have been called, and no other object has changed.
* `Server.atCleanup`: the endpoint when a call comes to its cleanup. `Server.step_stage` says what
  it is then: each connection has done what was `dispatched` to it, and at most one is new.
-/

namespace PhpQuic

/-- The call did not return. -/
def Result.halts {α : Type} : Result α → Bool
  | .returned _ => false
  | _ => true

/-- What `drainEvents` of the endpoint has returned of a connection. -/
def ServerLog.returned (handle : Nat) : List ServerAct → List Event
  | [] => []
  | .events parts :: log =>
    returned handle log ++ (parts.filter fun part => part.1 = handle).flatMap Prod.snd
  | _ :: log => returned handle log

/-- All that a connection had queued when it left the registry. -/
def ServerLog.leftWith (handle : Nat) (log : List ServerAct) : Option (List Event) :=
  log.findSome? fun
    | .removed h queued => if h = handle then some queued else none
    | _ => none

/-- The accepted connections with their keys, in their order. -/
def ServerLog.accepted : List ServerAct → List Registered
  | [] => []
  | .accepted key handle :: log => accepted log ++ [⟨key, handle⟩]
  | _ :: log => accepted log

/-- The arrays that `drainAcceptedConnections` has returned, as one. -/
def ServerLog.givenOut : List ServerAct → List Nat
  | [] => []
  | .acceptedConnections handles :: log => givenOut log ++ handles
  | _ :: log => givenOut log

/-- The application takes the events of a connection past the endpoint. -/
def ServerOp.drainsAside : ServerOp → Bool
  | .onConnection _ o => o.drains
  | _ => false

namespace Server

open ServerLog (returned leftWith)

/-! ## Loops -/

/-- The list up to the first element that halts. -/
def calledUntil (halts : Nat → Bool) : List Nat → List Nat
  | [] => []
  | handle :: handles => if halts handle then [handle] else handle :: calledUntil halts handles

theorem calledUntil_subset {halts : Nat → Bool} {handles : List Nat} {i : Nat}
    (h : i ∈ calledUntil halts handles) : i ∈ handles := by
  induction handles with
  | nil => exact h
  | cons handle handles ih =>
    unfold calledUntil at h
    split at h
    · exact List.mem_cons.mpr (.inl (List.mem_singleton.mp h))
    · rcases List.mem_cons.mp h with rfl | h
      · exact List.mem_cons_self
      · exact List.mem_cons_of_mem _ (ih h)

theorem calledUntil_congr {p q : Nat → Bool} {handles : List Nat} (h : ∀ i ∈ handles, p i = q i) :
    calledUntil p handles = calledUntil q handles := by
  induction handles with
  | nil => rfl
  | cons handle handles ih =>
    unfold calledUntil
    rw [h handle List.mem_cons_self, ih fun i hi => h i (List.mem_cons_of_mem _ hi)]

theorem calledUntil_all {halts : Nat → Bool} {handles : List Nat} (h : ∀ i, halts i = false) :
    calledUntil halts handles = handles := by
  induction handles with
  | nil => rfl
  | cons handle handles ih =>
    unfold calledUntil
    rw [h, if_neg Bool.false_ne_true, ih]

/-- What is not called stands behind an element that halts. -/
theorem not_mem_calledUntil {halts : Nat → Bool} {handles : List Nat} {i : Nat} (hi : i ∈ handles)
    (h : i ∉ calledUntil halts handles) :
    ∃ before k after, handles = before ++ k :: after ∧ halts k = true ∧ i ∈ after := by
  induction handles with
  | nil => cases hi
  | cons handle handles ih =>
    unfold calledUntil at h
    split at h
    · rename_i hk
      refine ⟨[], handle, handles, rfl, hk, ?_⟩
      rcases List.mem_cons.mp hi with rfl | hi
      · exact absurd (List.mem_singleton.mpr rfl) h
      · exact hi
    · obtain ⟨hne, hrest⟩ := not_or.mp fun hor => h (List.mem_cons.mpr hor)
      rcases List.mem_cons.mp hi with rfl | hi
      · exact absurd rfl hne
      · obtain ⟨before, k, after, heq, hk, hafter⟩ := ih hi hrest
        exact ⟨handle :: before, k, after, by rw [heq]; rfl, hk, hafter⟩

theorem mem_calledUntil {halts : Nat → Bool} {before after : List Nat} {i : Nat}
    (h : ∀ j ∈ before, halts j = false) (hi : i ∈ before) :
    i ∈ calledUntil halts (before ++ after) := by
  induction before with
  | nil => cases hi
  | cons handle before ih =>
    rw [List.cons_append]
    unfold calledUntil
    rw [h handle List.mem_cons_self, if_neg Bool.false_ne_true]
    rcases List.mem_cons.mp hi with rfl | hi
    · exact List.mem_cons_self
    · exact List.mem_cons_of_mem _ (ih (fun j hj => h j (List.mem_cons_of_mem _ hj)) hi)

/-- Behind an element that halts nothing is called. -/
theorem calledUntil_split {halts : Nat → Bool} {before after : List Nat} {k i : Nat}
    (hk : halts k = true) (h : i ∈ calledUntil halts (before ++ k :: after)) :
    i ∈ before ∨ i = k := by
  induction before with
  | nil =>
    rw [List.nil_append] at h
    unfold calledUntil at h
    rw [if_pos hk] at h
    exact .inr (List.mem_singleton.mp h)
  | cons handle before ih =>
    rw [List.cons_append] at h
    unfold calledUntil at h
    split at h
    · exact .inl (List.mem_cons.mpr (.inl (List.mem_singleton.mp h)))
    · rcases List.mem_cons.mp h with rfl | h
      · exact .inl List.mem_cons_self
      · rcases ih h with hb | hk'
        · exact .inl (List.mem_cons_of_mem _ hb)
        · exact .inr hk'

/-- `w'` is `w` after a method was called of each connection in `handles`. -/
structure Calls (w w' : Server) (handles : List Nat) (method : Nat → State → State) : Prop where
  endpoint : w'.endpoint = w.endpoint
  log : w'.log = w.log
  length : w'.objects.length = w.objects.length
  object : ∀ i, w'.object i = if i ∈ handles then method i (w.object i) else w.object i

namespace Calls

variable {w w' w'' : Server} {handles : List Nat} {method : Nat → State → State}

theorem nil (method : Nat → State → State) (w : Server) : Calls w w [] method :=
  ⟨rfl, rfl, rfl, fun _ => (if_neg List.not_mem_nil).symm⟩

theorem one (method : Nat → State → State) {handle : Nat} (h : handle < w.objects.length) :
    Calls w (w.setObject handle (method handle (w.object handle))) [handle] method := by
  refine ⟨rfl, rfl, List.length_set .., fun i => ?_⟩
  by_cases hi : i = handle
  · subst hi
    rw [if_pos (List.mem_singleton.mpr rfl)]
    exact object_setObject_self h _
  · rw [if_neg (fun hm => hi (List.mem_singleton.mp hm))]
    exact object_setObject_ne w hi _

theorem cons {handle : Nat} (hnotin : handle ∉ handles) (h : Calls w w' [handle] method)
    (h' : Calls w' w'' handles method) : Calls w w'' (handle :: handles) method := by
  refine ⟨h'.endpoint.trans h.endpoint, h'.log.trans h.log, h'.length.trans h.length, fun i => ?_⟩
  rw [h'.object, h.object]
  by_cases hi : i = handle
  · subst hi
    rw [if_neg hnotin, if_pos List.mem_cons_self, if_pos List.mem_cons_self]
  · simp only [List.mem_cons, hi, List.not_mem_nil, or_self, if_false, false_or]

end Calls

/-- While an exception is pending, a loop calls no method. -/
theorem callEach_pending {α : Type} (php : Php) (method : Nat → State → State × Result α)
    (w : Server) (outs : List (Nat × α)) (e : Exn) (handles : List Nat) :
    (w.callEach php method outs (some e) handles).1 = w := by
  induction handles with
  | nil => rfl
  | cons handle handles ih =>
    unfold callEach
    split
    · rfl
    · exact ih

variable {α : Type} {method : Nat → State → State × Result α}

/-- A loop calls its connections up to the first whose method does not return. -/
theorem callEach_calls (php : Php) (w : Server) (outs : List (Nat × α)) {handles : List Nat}
    (hnodup : handles.Nodup) (hlt : ∀ i ∈ handles, i < w.objects.length) :
    Calls w (w.callEach php method outs none handles).1
      (calledUntil (fun i => (method i (w.object i)).2.halts) handles)
      fun i s => (method i s).1 := by
  induction handles generalizing w outs with
  | nil => exact .nil _ w
  | cons handle handles ih =>
    obtain ⟨hnotin, hnodup⟩ := List.nodup_cons.mp hnodup
    have hone := Calls.one (fun i s => (method i s).1) (hlt handle List.mem_cons_self)
    unfold callEach calledUntil call
    cases hres : (method handle (w.object handle)).2 with
    | returned out =>
      simp only [Result.halts, Bool.false_eq_true, if_false]
      have hlater (i : Nat) (hi : i ∈ handles) :
          (w.setObject handle (method handle (w.object handle)).1).object i = w.object i := by
        rw [hone.object, if_neg]
        rintro hm
        exact hnotin (List.mem_singleton.mp hm ▸ hi)
      have hrest := ih (w.setObject handle (method handle (w.object handle)).1)
        (outs ++ [(handle, out)]) hnodup fun i hi => by
          rw [hone.length]; exact hlt i (List.mem_cons_of_mem _ hi)
      rw [calledUntil_congr fun i hi => by rw [hlater i hi]] at hrest
      exact .cons (fun hm => hnotin (calledUntil_subset hm)) hone hrest
    | threw e =>
      simp only [Result.halts, if_true]
      rw [callEach_pending]
      exact hone
    | running => exact hone

/-- A loop whose methods all return, with what they return. -/
theorem callEach_returned (php : Php) (method : Nat → State → State × Result α) (out : State → α)
    (h : ∀ i s, (method i s).2 = .returned (out s)) (w : Server) (outs : List (Nat × α))
    {handles : List Nat} (hnodup : handles.Nodup) (hlt : ∀ i ∈ handles, i < w.objects.length) :
    (w.callEach php method outs none handles).2 =
      .done (outs ++ handles.map fun i => (i, out (w.object i))) none := by
  induction handles generalizing w outs with
  | nil => rw [List.map_nil, List.append_nil]; rfl
  | cons handle handles ih =>
    obtain ⟨hnotin, hnodup⟩ := List.nodup_cons.mp hnodup
    have hone := Calls.one (fun i s => (method i s).1) (hlt handle List.mem_cons_self)
    unfold callEach call
    simp only [h]
    rw [ih _ _ hnodup fun i hi => by rw [hone.length]; exact hlt i (List.mem_cons_of_mem _ hi)]
    have hparts : (handles.map fun i =>
        (i, out ((w.setObject handle (method handle (w.object handle)).1).object i))) =
        handles.map fun i => (i, out (w.object i)) := by
      refine List.map_congr_left fun i hi => ?_
      rw [hone.object, if_neg]
      rintro hm
      exact hnotin (List.mem_singleton.mp hm ▸ hi)
    rw [hparts, List.append_assoc]
    rfl

/-- How a loop ends: all methods have returned, or one of them is the first that throws, or the first
that does not end. -/
theorem callEach_cases (php : Php) (method : Nat → State → State × Result α) (w : Server)
    (outs : List (Nat × α)) {handles : List Nat} (hnodup : handles.Nodup)
    (hlt : ∀ i ∈ handles, i < w.objects.length) :
    (∃ later, (w.callEach php method outs none handles).2 = .done (outs ++ later) none ∧
      later.map Prod.fst = handles ∧
      ∀ part ∈ later, (method part.1 (w.object part.1)).2 = .returned part.2) ∨
    ∃ before k after, handles = before ++ k :: after ∧
      (∀ i ∈ before, (method i (w.object i)).2.halts = false) ∧
      ((∃ e, (method k (w.object k)).2 = .threw e ∧
          ((w.callEach php method outs none handles).2 = .failure ∨
            ∃ later, (w.callEach php method outs none handles).2 = .done later (some e))) ∨
        (method k (w.object k)).2 = .running ∧
          (w.callEach php method outs none handles).2 = .running) := by
  have hpending (w : Server) (outs : List (Nat × α)) (e : Exn) (handles : List Nat) :
      (w.callEach php method outs (some e) handles).2 = .failure ∨
        (w.callEach php method outs (some e) handles).2 = .done outs (some e) := by
    induction handles with
    | nil => exact .inr rfl
    | cons handle handles ih =>
      unfold callEach
      split
      · exact .inl rfl
      · exact ih
  induction handles generalizing w outs with
  | nil => exact .inl ⟨[], by rw [List.append_nil]; rfl, rfl, nofun⟩
  | cons handle handles ih =>
    obtain ⟨hnotin, hnodup⟩ := List.nodup_cons.mp hnodup
    have hone := Calls.one (fun i s => (method i s).1) (hlt handle List.mem_cons_self)
    have hlater {i : Nat} (hi : i ∈ handles) :
        (w.setObject handle (method handle (w.object handle)).1).object i = w.object i := by
      rw [hone.object, if_neg]
      rintro hm
      exact hnotin (List.mem_singleton.mp hm ▸ hi)
    unfold callEach call
    cases hres : (method handle (w.object handle)).2 with
    | returned out =>
      simp only
      rcases ih (w.setObject handle (method handle (w.object handle)).1) (outs ++ [(handle, out)])
        hnodup (fun i hi => by rw [hone.length]; exact hlt i (List.mem_cons_of_mem _ hi)) with
        ⟨later, heq, hfst, hall⟩ | ⟨before, k, after, heq, hbefore, hend⟩
      · refine .inl ⟨(handle, out) :: later, ?_, ?_, fun part hpart => ?_⟩
        · rw [heq, List.append_assoc]; rfl
        · rw [List.map_cons, hfst]
        · rcases List.mem_cons.mp hpart with rfl | hpart
          · exact hres
          · rw [← hlater (hfst ▸ List.mem_map_of_mem hpart)]
            exact hall part hpart
      · have hk : k ∈ handles := heq ▸ List.mem_append_right _ List.mem_cons_self
        rw [hlater hk] at hend
        refine .inr ⟨handle :: before, k, after, by rw [heq]; rfl, fun i hi => ?_, hend⟩
        rcases List.mem_cons.mp hi with rfl | hi
        · rw [hres]; rfl
        · rw [← hlater (heq ▸ List.mem_append_left _ hi)]
          exact hbefore i hi
    | threw e =>
      refine .inr ⟨[], handle, handles, rfl, nofun, .inl ⟨e, hres, ?_⟩⟩
      exact (hpending _ _ _ _).imp_right fun h => ⟨_, h⟩
    | running => exact .inr ⟨[], handle, handles, rfl, nofun, .inr ⟨hres, rfl⟩⟩

theorem registered_lt {w : Server} {handle : Nat} (h : handle ∈ w.registered) :
    handle < w.objects.length := by
  obtain ⟨r, hr, rfl⟩ := List.mem_map.mp h
  exact w.handle_lt r hr

theorem registered_nodup (w : Server) : w.registered.Nodup := by
  refine (List.nodup_map_iff_inj_on w.endpoint.connections.nodup.of_map).mpr ?_
  exact w.handle_inj

/-- The connections whose method a loop over the registry calls. -/
def called (w : Server) (method : Nat → State → State × Result α) : List Nat :=
  calledUntil (fun i => (method i (w.object i)).2.halts) w.registered

theorem callEach_registered (php : Php) (w : Server)
    (method : Nat → State → State × Result α) :
    Calls w (w.callEach php method [] none w.registered).1 (w.called method)
      fun i s => (method i s).1 :=
  callEach_calls php w [] w.registered_nodup fun _ hi => registered_lt hi

/-! ## Calls of the endpoint -/

/-- The method that a call has called of a connection. -/
def dispatched (w : Server) (o : ServerOp) (handle : Nat) : Option Op :=
  match o with
  | .recv getaddrinfo datagram a _ =>
    if ((ServerEndpoint.connectionKey datagram).bind w.endpoint.connections.find?).any
        fun r => r.handle = handle then
      some (.recv getaddrinfo datagram a)
    else none
  | .handleTimers a =>
    if handle ∈ w.called fun h s => Connection.onTimeout s (a h) then some (.onTimeout (a handle))
    else none
  | .drainOutgoingDatagrams a =>
    if handle ∈ w.called fun h s => Connection.drainOutgoingDatagrams s (a h) then
      some (.drainOutgoingDatagrams (a handle))
    else none
  | .drainEvents => if handle ∈ w.registered then some .drainEvents else none
  | .onConnection h o => if handle = h then some o else none
  | .drainAcceptedConnections | .construct _ => none

/-- The endpoint when a call comes to its cleanup; `none` if it ends without one. -/
def atCleanup (php : Php) (w : Server) : ServerOp → Option Server
  | .recv getaddrinfo datagram a accept =>
    match ServerEndpoint.connectionKey datagram with
    | none => none
    | some key =>
      match w.endpoint.connections.find? key with
      | some r => some (w.call r.handle (Connection.recv · getaddrinfo datagram a)).1
      | none =>
        match ServerEndpoint.callStaticAccept php datagram w.endpoint.config accept with
        | .success (some s) => some (w.register key s)
        | _ => none
  | .handleTimers a =>
    match w.callEach php (fun h s => Connection.onTimeout s (a h)) [] none w.registered with
    | (w, .done _ _) => some w
    | _ => none
  | .drainOutgoingDatagrams a =>
    match w.callEach php (fun h s => Connection.drainOutgoingDatagrams s (a h)) [] none
        w.registered with
    | (w, .done _ _) => some w
    | _ => none
  | .drainEvents =>
    match w.callEach php (fun _ => Connection.drainEvents) [] none w.registered with
    | (w, .done outs none) => some (w.record [.events outs])
    | (w, .done _ (some _)) => some w
    | _ => none
  | .drainAcceptedConnections | .construct _ | .onConnection .. => none

/-- The accepted connections of which the application has not been told yet come behind the others. -/
def told (w : Server) : List Nat := ServerLog.givenOut w.log ++ w.endpoint.acceptedQueue

/-- The registry, and what belongs to it, is as it was. -/
structure KeepsRegistry (w w' : Server) : Prop where
  vals : w'.endpoint.connections.vals = w.endpoint.connections.vals
  length : w'.objects.length = w.objects.length
  accepted : ServerLog.accepted w'.log = ServerLog.accepted w.log
  told : w'.told = w.told

/-- The registry has a new entry at its end, of a connection that was accepted. -/
structure AddsToRegistry (w w' : Server) (key : Bytes) : Prop where
  vals : w'.endpoint.connections.vals = w.endpoint.connections.vals ++ [⟨key, w.objects.length⟩]
  length : w'.objects.length = w.objects.length + 1
  accepted : ServerLog.accepted w'.log = ServerLog.accepted w.log ++ [⟨key, w.objects.length⟩]
  told : w'.told = w.told ++ [w.objects.length]
  started : ∃ start : Start, w'.object w.objects.length = start.state
  initialised : (w'.object w.objects.length).conn.conn.isSome = true

/-- What a call has done when it ends or comes to its cleanup: the connections have done what was
dispatched to them, `drainEvents` has booked what it took, and one connection may be new. -/
structure Stage (w w' : Server) (o : ServerOp) : Prop where
  object : ∀ i < w.objects.length,
    w'.object i = (w.dispatched o i).elim (w.object i) (PhpQuic.step (w.object i))
  returned : o.drainsAside = false → ∀ i, returned i w'.log = returned i w.log ++
    if (w.dispatched o i).any Op.drains then (w.object i).conn.events else []
  leftWith : ∀ i, leftWith i w'.log = leftWith i w.log
  registry : KeepsRegistry w w' ∨ ∃ key, AddsToRegistry w w' key

namespace Stage

variable {w w' : Server} {o : ServerOp}

/-- The handles that are registered behind the stage. -/
theorem registered (h : Stage w w' o) :
    w'.registered = w.registered ∧ w'.objects.length = w.objects.length ∨
      w'.registered = w.registered ++ [w.objects.length] ∧
        w'.objects.length = w.objects.length + 1 ∧
        ∃ start : Start, w'.object w.objects.length = start.state := by
  unfold Server.registered
  rcases h.registry with hk | ⟨key, ha⟩
  · exact .inl ⟨by rw [hk.vals], hk.length⟩
  · exact .inr ⟨by rw [ha.vals, List.map_append]; rfl, ha.length, ha.started⟩

/-- Nothing is dispatched. -/
theorem idle (hd : ∀ i, w.dispatched o i = none) (hobjects : w'.objects = w.objects)
    (hconnections : w'.endpoint.connections = w.endpoint.connections)
    (hlog : ∀ i, ServerLog.returned i w'.log = ServerLog.returned i w.log ∧
      ServerLog.leftWith i w'.log = ServerLog.leftWith i w.log)
    (haccepted : ServerLog.accepted w'.log = ServerLog.accepted w.log) (htold : w'.told = w.told) :
    Stage w w' o := by
  refine ⟨fun i _ => ?_, fun _ i => ?_, fun i => (hlog i).2, .inl ⟨?_, ?_, haccepted, htold⟩⟩
  · unfold Server.object; rw [hd, hobjects]; rfl
  · rw [(hlog i).1, hd]; exact (List.append_nil _).symm
  · rw [hconnections]
  · rw [hobjects]

/-- Nothing is done at all. -/
theorem refl (hd : ∀ i, w.dispatched o i = none) : Stage w w o :=
  idle hd rfl rfl (fun _ => ⟨rfl, rfl⟩) rfl rfl

theorem calls {handles : List Nat} {method : Nat → State → State} (op : Nat → Op)
    (h : Calls w w' handles method)
    (hd : ∀ i < w.objects.length, w.dispatched o i = if i ∈ handles then some (op i) else none)
    (hnone : o.drainsAside = false → ∀ i, (w.dispatched o i).any Op.drains = false)
    (hm : ∀ i ∈ handles, ∀ s, method i s = PhpQuic.step s (op i)) : Stage w w' o := by
  refine ⟨fun i hi => ?_, fun ho i => ?_, fun i => by rw [h.log], .inl ⟨?_, h.length, ?_, ?_⟩⟩
  · rw [h.object, hd i hi]
    split
    · rename_i hi'
      exact hm i hi' _
    · rfl
  · rw [h.log, hnone ho]; exact (List.append_nil _).symm
  · rw [h.endpoint]
  · rw [h.log]
  · unfold told; rw [h.log, h.endpoint]

theorem register {key : Bytes} {s : State} (hd : ∀ i, w.dispatched o i = none)
    (hnew : w.endpoint.connections.find? key = none) (hs : ∃ start : Start, s = start.state)
    (hsome : s.conn.conn.isSome = true) : Stage w (w.register key s) o := by
  refine ⟨fun i hi => ?_, fun _ i => ?_, fun i => rfl,
    .inr ⟨key, ?_, List.length_append, rfl, ?_, ?_, ?_⟩⟩
  · rw [object_register_old w key s hi, hd]; rfl
  · rw [hd]; exact (List.append_nil _).symm
  · exact OrdTable.set_vals_new hnew
  · exact (List.append_assoc ..).symm
  · rw [object_register_new]; exact hs
  · rw [object_register_new]; exact hsome

theorem each (php : Php) (op : Nat → Op)
    (hd : ∀ i, w.dispatched o i = if i ∈ w.called method then some (op i) else none)
    (hop : ∀ i, (op i).drains = false) (hm : ∀ i s, (method i s).1 = PhpQuic.step s (op i)) :
    Stage w (w.callEach php method [] none w.registered).1 o := by
  refine .calls op (callEach_registered php w method) (fun i _ => hd i) (fun _ i => ?_) fun i _ => hm i
  rw [hd]
  split
  · exact hop i
  · rfl

/-- The parts of one connection in an array of events. -/
theorem parts_of {handles : List Nat} (hnodup : handles.Nodup) (events : Nat → List Event)
    (handle : Nat) :
    ((handles.map fun i => (i, events i)).filter fun part => part.1 = handle).flatMap Prod.snd =
      if handle ∈ handles then events handle else [] := by
  induction handles with
  | nil => rfl
  | cons i handles ih =>
    obtain ⟨hnotin, hnodup⟩ := List.nodup_cons.mp hnodup
    have hrest := ih hnodup
    rw [List.map_cons, List.filter_cons]
    by_cases hi : i = handle
    · subst hi
      rw [if_neg hnotin] at hrest
      simp only [decide_true, if_true, List.flatMap_cons, hrest, List.append_nil, List.mem_cons_self]
    · simp only [hi, Ne.symm hi, decide_false, Bool.false_eq_true, if_false, List.mem_cons, false_or]
      exact hrest

/-- `drainEvents` takes the events of all registered connections. -/
theorem drainEvents (php : Php) (w : Server) :
    ∃ w', Stage w w' .drainEvents ∧ w.atCleanup php .drainEvents = some w' ∧
      w.drainEvents php = (w'.cleanupConnections,
        .returned (w.registered.flatMap fun i => (w.object i).conn.events)) := by
  have hlt (i : Nat) (hi : i ∈ w.registered) : i < w.objects.length := registered_lt hi
  have hcalls := callEach_registered php w fun _ => Connection.drainEvents
  have hall : w.called (fun _ => Connection.drainEvents) = w.registered :=
    calledUntil_all fun _ => rfl
  have hend := callEach_returned php (fun _ => Connection.drainEvents) (fun s => s.conn.events)
    (fun _ _ => rfl) w [] w.registered_nodup hlt
  rw [hall] at hcalls
  cases heq : w.callEach php (fun _ => Connection.drainEvents) [] none w.registered with
  | mk w₁ e =>
    rw [heq] at hcalls hend
    obtain rfl : e = _ := hend
    refine ⟨w₁.record [.events (w.registered.map fun i => (i, (w.object i).conn.events))], ?_, ?_, ?_⟩
    · have hd (i : Nat) : w.dispatched .drainEvents i =
          if i ∈ w.registered then some .drainEvents else none := rfl
      refine ⟨fun i _ => ?_, fun _ i => ?_, fun i => ?_, .inl ⟨?_, hcalls.length, ?_, ?_⟩⟩
      · refine (hcalls.object i).trans ?_
        rw [hd]
        split <;> rfl
      · have hparts := parts_of w.registered_nodup (fun i => (w.object i).conn.events) i
        rw [hd, apply_ite (Option.any Op.drains)]
        refine (congrArg (ServerLog.returned i w₁.log ++ ·) hparts).trans ?_
        rw [hcalls.log]
        split <;> rfl
      · show ServerLog.leftWith i w₁.log = _
        rw [hcalls.log]
      · show w₁.endpoint.connections.vals = _
        rw [hcalls.endpoint]
      · show ServerLog.accepted w₁.log = _
        rw [hcalls.log]
      · show ServerLog.givenOut w₁.log ++ w₁.endpoint.acceptedQueue = _
        rw [hcalls.log, hcalls.endpoint]
        rfl
    · unfold atCleanup
      rw [heq]
      rfl
    · unfold Server.drainEvents
      rw [heq]
      simp only [List.nil_append, finish]
      rw [List.flatMap_map]

end Stage

theorem finish_fst {α : Type} (w : Server) (pending : Option Exn) (value : α) :
    (w.finish pending value).1 = w.cleanupConnections := by
  cases pending <;> rfl

/-- The dispatch to `ServerConnection::accept`. -/
theorem callStaticAccept_eq {php : Php} (hphp : php.accept = some ServerConnection.function)
    (datagram : Datagram) (config : ServerConfig) (a : AcceptAnswers) :
    ServerEndpoint.callStaticAccept php datagram config a =
      .success ((ServerConnection.accept datagram config a).1.toOption) := by
  unfold ServerEndpoint.callStaticAccept
  simp only [hphp]
  unfold ServerConnection.function
  cases (ServerConnection.accept datagram config a).1 with
  | ok s => rfl
  | error e => rfl

/-- A call is a stage, with a cleanup behind it if it comes to one. -/
theorem step_stage {php : Php} (hphp : php.accept = some ServerConnection.function) (w : Server)
    (o : ServerOp) :
    ∃ w', Stage w w' o ∧ (w.atCleanup php o = none ∧ w.step php o = w' ∨
      w.atCleanup php o = some w' ∧ w.step php o = w'.cleanupConnections) := by
  cases o with
  | recv g d a accept =>
    unfold step recv atCleanup
    simp only
    cases hkey : ServerEndpoint.connectionKey d with
    | none =>
      refine ⟨w, .refl fun i => ?_, .inl ⟨rfl, rfl⟩⟩
      unfold dispatched
      simp only [hkey, Option.bind_none, Option.any_none, Bool.false_eq_true, if_false]
    | some key =>
      have hd (i : Nat) : w.dispatched (.recv g d a accept) i =
          if (w.endpoint.connections.find? key).any fun r => r.handle = i then
            some (.recv g d a) else none := by
        unfold dispatched; simp only [hkey, Option.bind_some]
      cases hr : w.endpoint.connections.find? key with
      | some r =>
        simp only [hr, Option.any_some, decide_eq_true_eq] at hd ⊢
        have hcalls := Calls.one (fun _ s => PhpQuic.step s (.recv g d a))
          (w.handle_lt r (OrdTable.mem_of_find? hr))
        refine ⟨_, .calls (fun _ => .recv g d a) hcalls (fun i _ => ?_) (fun _ i => ?_)
          (fun _ _ _ => rfl), .inr ⟨rfl, rfl⟩⟩
        · rw [hd]
          simp only [List.mem_singleton, eq_comm]
        · rw [hd]
          split <;> rfl
      | none =>
        simp only [hr, Option.any_none, Bool.false_eq_true, if_false] at hd ⊢
        rw [callStaticAccept_eq hphp]
        cases hacc : (ServerConnection.accept d w.endpoint.config accept).1 with
        | error e => exact ⟨w, .refl hd, .inl ⟨rfl, rfl⟩⟩
        | ok s =>
          obtain ⟨path, r, l, cbs, hs⟩ := ServerConnection.accept_start hacc
          refine ⟨w.register key s, .register hd hr ⟨_, hs⟩ ?_, .inr ⟨rfl, rfl⟩⟩
          obtain ⟨_, _, _, hc⟩ := (Start.server path r l d.payload cbs).base.runCallbacks_rest cbs
          rw [hs]
          show (State.runCallbacks _ cbs).conn.conn.isSome = true
          rw [hc]
          rfl
  | handleTimers a =>
    refine ⟨_, .each php (fun i => .onTimeout (a i)) (fun _ => rfl) (fun _ => rfl)
      fun _ _ => rfl, ?_⟩
    unfold step handleTimers atCleanup
    simp only
    rcases w.callEach php (fun h s => Connection.onTimeout s (a h)) [] none w.registered with
      ⟨w', ⟨outs, pending⟩ | _ | _⟩
    · exact .inr ⟨rfl, finish_fst ..⟩
    · exact .inl ⟨rfl, rfl⟩
    · exact .inl ⟨rfl, rfl⟩
  | drainOutgoingDatagrams a =>
    refine ⟨_, .each php (fun i => .drainOutgoingDatagrams (a i)) (fun _ => rfl) (fun _ => rfl)
      fun _ _ => rfl, ?_⟩
    unfold step drainOutgoingDatagrams atCleanup
    simp only
    rcases w.callEach php (fun h s => Connection.drainOutgoingDatagrams s (a h)) [] none
      w.registered with ⟨w', ⟨outs, pending⟩ | _ | _⟩
    · exact .inr ⟨rfl, finish_fst ..⟩
    · exact .inl ⟨rfl, rfl⟩
    · exact .inl ⟨rfl, rfl⟩
  | drainEvents =>
    obtain ⟨w', hstage, hat, heq⟩ := Stage.drainEvents php w
    exact ⟨w', hstage, .inr ⟨hat, congrArg Prod.fst heq⟩⟩
  | drainAcceptedConnections =>
    refine ⟨w.step php .drainAcceptedConnections, .idle (fun _ => rfl) rfl rfl (fun _ => ⟨rfl, rfl⟩)
      rfl ?_, .inl ⟨rfl, rfl⟩⟩
    exact List.append_nil _
  | construct config =>
    exact ⟨w.step php (.construct config), .idle (fun _ => rfl) rfl rfl (fun _ => ⟨rfl, rfl⟩) rfl rfl,
      .inl ⟨rfl, rfl⟩⟩
  | onConnection handle o' =>
    have hd (i : Nat) : w.dispatched (.onConnection handle o') i =
        if i = handle then some o' else none := rfl
    refine ⟨_, ?_, .inl ⟨rfl, rfl⟩⟩
    have hdrains (ho : o'.drains = false) (i : Nat) :
        (w.dispatched (.onConnection handle o') i).any Op.drains = false := by
      rw [hd]
      split
      · exact ho
      · rfl
    by_cases hlt : handle < w.objects.length
    · refine .calls (fun _ => o') (.one (fun _ s => PhpQuic.step s o') hlt)
        (fun i _ => ?_) hdrains fun _ _ _ => rfl
      rw [hd]
      simp only [List.mem_singleton]
    · -- there is no such object
      have hsame : w.setObject handle (PhpQuic.step (w.object handle) o') = w := by
        unfold setObject
        simp only [List.set_eq_of_length_le (Nat.le_of_not_lt hlt)]
      unfold step
      simp only
      rw [hsame]
      refine .calls (fun _ => o') (.nil (fun _ s => s) w) (fun i hi => ?_) hdrains
        (List.forall_mem_nil _)
      rw [hd, if_neg (by rintro rfl; exact hlt hi), if_neg List.not_mem_nil]

end Server

end PhpQuic
