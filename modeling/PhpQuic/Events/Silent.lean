import PhpQuic.Closing
import PhpQuic.Connection.Calls
import PhpQuic.Connection.Independence
import PhpQuic.Connection.Pieces
import PhpQuic.Connection.StreamCalls

/-!
# Calls in which a connection queues nothing

* `step_events_grow`: only `drainEvents` takes events; every other call adds to the queue.
* `State.Silent`: by what ngtcp2 does in a call, none of its callbacks, answers and periods queues an
  event. `State.Reachable.silent_iff`: then, and only then, the queue of a closed connection stays as
  it is.
-/

namespace PhpQuic

open Runs (Moves)

/-! ## The queue of a connection -/

/-- The call takes the events of the connection. -/
def Op.drains : Op → Bool
  | .drainEvents => true
  | _ => false

theorem StreamActs.drainedEvents {s s' : State} (h : StreamActs s s') :
    s'.trace.drainedEvents = s.trace.drainedEvents := by
  obtain ⟨-, new, ht, hnew⟩ := h
  rw [ht]
  clear ht
  induction new with
  | nil => rfl
  | cons a new ih =>
    refine Eq.trans ?_ (ih fun b hb => hnew b (List.mem_cons_of_mem _ hb))
    cases a with
    | events es => exact absurd (hnew _ List.mem_cons_self) nofun
    | _ => rfl

/-- Only `drainEvents` hands out events. -/
theorem step_drainedEvents (s : State) {o : Op} (h : o.drains = false) :
    (step s o).trace.drainedEvents = s.trace.drainedEvents := by
  cases o with
  | recv g d a => exact (Connection.recv_polling s g d a).drainedEvents
  | onTimeout a => exact (Connection.onTimeout_polling s a).drainedEvents
  | drainOutgoingDatagrams a => exact (Connection.drainOutgoingDatagrams_polling s a).drainedEvents
  | drainEvents => cases h
  | close code reason => exact congrArg _ (Connection.close_trace s code reason)
  | _ => exact (step_streamActs s rfl).drainedEvents

namespace Connection

variable {c c' : Connection}

theorem EntriesOnly.events_grow (h : EntriesOnly c c') : c.events <+: c'.events := by
  obtain ⟨_, es, hc, -⟩ := h
  rw [hc]
  exact List.prefix_append _ _

theorem callback_events_grow (c : Connection) (cb : Callback) :
    c.events <+: (c.callback cb).events := by
  by_cases hcb : cb = .handshakeCompleted
  · subst hcb
    simp only [callback, handshakeCompletedCb]
    split
    · exact List.prefix_rfl
    · exact List.prefix_append _ _
  · exact (c.callback_entriesOnly hcb).events_grow

theorem syncState_events_grow (c : Connection) (p : Periods) :
    c.events <+: (c.syncState p).events := by
  obtain ⟨es, hes, -⟩ := c.syncState_events p
  rw [hes]
  exact List.prefix_append _ _

theorem close_events_grow (s : State) (code : Int64) (reason : Option Bytes) :
    s.conn.events <+: (close s code reason).1.conn.events := by
  obtain ⟨es, hes, -⟩ := close_events s code reason
  rw [hes]
  exact List.prefix_append _ _

theorem returnStream_events_grow (s : State) (b : Bool) (rv : Except Err Int) (pending : Bool) :
    s.conn.events <+: (returnStream s b rv pending).1.conn.events := by
  have hassign : (s.conn.assignStreamId b rv).1.events = s.conn.events := by
    obtain ⟨_, _, hc⟩ := s.conn.assignStreamId_rest b rv
    rw [hc]
  rw [← hassign]
  exact (enterStream_entriesOnly _ _ pending).events_grow

end Connection

/-- Events are only ever added behind those that were queued. -/
theorem Move.queued_grows {s s' : State} (hm : Move s s') : s.queued <+: s'.queued := by
  -- where no event is handed out, the queue is all that changes
  have hkeep {s' : State} (ht : s'.trace.drainedEvents = s.trace.drainedEvents)
      (he : s.conn.events <+: s'.conn.events) : s.queued <+: s'.queued := by
    unfold State.queued
    rw [ht]
    exact (List.prefix_append_right_inj _).mpr he
  cases hm with
  | quiet a ha => exact hkeep (Trace.drainedEvents_quiet ha _) List.prefix_rfl
  | threw e he => exact hkeep rfl List.prefix_rfl
  | callback cb => exact hkeep rfl (s.conn.callback_events_grow cb)
  | reset id code hid => exact hkeep rfl (List.prefix_append _ _)
  | opened b id hconn =>
    have hret := Connection.returnStream_events_grow (s.log (.openLocal b (.ok id))) b (.ok id) false
    exact hkeep rfl hret
  | blocked b hconn =>
    have hret := Connection.returnStream_events_grow (s.log (.openLocal b (.error .streamIdBlocked)))
      b (.error .streamIdBlocked) true
    exact hkeep rfl hret
  | settle o a ho hp => exact hkeep rfl (s.conn.settle_entriesOnly o a).events_grow
  | sync p =>
    refine hkeep ?_ ?_
    · rcases s.syncState_trace p with ht | ht
      · rw [ht]
      · rw [ht]; rfl
    · rw [State.syncState_conn]; exact s.conn.syncState_events_grow p
  | close code reason hopen =>
    exact hkeep (congrArg _ (Connection.close_trace ..)) (Connection.close_events_grow ..)
  | drainEvents =>
    show s.queued <+: s.queued ++ []
    exact List.prefix_append _ _
  | _ => exact hkeep rfl List.prefix_rfl

/-- A call that does not take the events adds to the queue. -/
theorem step_events_grow (s : State) {o : Op} (h : o.drains = false) :
    s.conn.events <+: (step s o).conn.events := by
  have hq : s.queued <+: (step s o).queued :=
    Moves.inv' (I := fun s' : State => s.queued <+: s'.queued)
      (fun _ _ hm hp => hp.trans hm.queued_grows) (step_moves s o) List.prefix_rfl
  unfold State.queued at hq
  rw [step_drainedEvents s h] at hq
  exact (List.prefix_append_right_inj _).mp hq

/-! ## A call that queues nothing -/

theorem Connection.syncState_draining (c : Connection) {p : Periods} (h : ¬ c.conn.isNone = true) :
    (c.syncState p).draining = (c.draining || p.inDraining) := by
  have hclosed (c : Connection) (code : Option UInt64) :
      (c.noteClosed code).draining = c.draining := by
    unfold noteClosed
    simp only
    split <;> rfl
  have hdraining : (if p.inDraining then c.noteDraining else c).draining =
      (c.draining || p.inDraining) := by
    cases p.inDraining with
    | false => exact (Bool.or_false _).symm
    | true =>
      rw [Bool.or_true, if_pos rfl]
      unfold noteDraining
      simp only
      split <;> rfl
  unfold syncState
  rw [if_neg h, ← hdraining]
  simp only
  split
  · exact hclosed ..
  · rfl

/-- Neither a callback nor a call of `sync_state`. -/
def Act.unreported : Act → Bool
  | .callback _ | .periods _ => false
  | _ => true

/-- The act is the report of the draining period. -/
def Act.reportsDraining : Act → Bool
  | .periods p => p.inDraining
  | _ => false

/-- Between the states two flags follow what ngtcp2 reports. -/
def Reported (s s' : State) : Prop :=
  ∃ new, s'.trace = new ++ s.trace ∧
    s'.conn.established = (s.conn.established || decide (.callback .handshakeCompleted ∈ new)) ∧
    s'.conn.draining = (s.conn.draining || new.any Act.reportsDraining)

namespace Reported

variable {s s' s'' : State}

theorem of_trace_eq (ht : s'.trace = s.trace) (he : s'.conn.established = s.conn.established)
    (hd : s'.conn.draining = s.conn.draining) : Reported s s' :=
  ⟨[], ht, he.trans (Bool.or_false _).symm, hd.trans (Bool.or_false _).symm⟩

theorem trans (h : Reported s s') (h' : Reported s' s'') : Reported s s'' := by
  obtain ⟨new, ht, he, hd⟩ := h
  obtain ⟨new', ht', he', hd'⟩ := h'
  refine ⟨new' ++ new, by rw [ht', ht, List.append_assoc], ?_, ?_⟩
  · rw [he', he, Bool.or_assoc]
    congr 1
    simp only [List.mem_append, Bool.decide_or]
    exact Bool.or_comm ..
  · rw [hd', hd, List.any_append, Bool.or_assoc]
    congr 1
    exact Bool.or_comm ..

theorem pieces : Pieces Act.unreported Reported where
  refl s := of_trace_eq rfl rfl rfl
  trans := trans
  log s a ha := by
    refine ⟨[a], rfl, ?_, ?_⟩
    · cases a with
      | callback => cases ha
      | _ => exact (Bool.or_false _).symm
    · cases a with
      | periods => cases ha
      | _ => exact (Bool.or_false _).symm
  callback s cb := by
    refine ⟨[.callback cb], rfl, ?_, ?_⟩
    · show (s.conn.callback cb).established = _
      by_cases hcb : cb = .handshakeCompleted
      · subst hcb
        rw [decide_eq_true (List.mem_singleton.mpr rfl), Bool.or_true]
        unfold Connection.callback Connection.handshakeCompletedCb
        simp only
        split
        · assumption
        · rfl
      · have hf := congrArg Flags.established (s.conn.callback_entriesOnly hcb).flags_eq
        have hnot : Act.callback .handshakeCompleted ∉ [Act.callback cb] := fun h =>
          hcb (Act.callback.inj (List.mem_singleton.mp h)).symm
        rw [decide_eq_false hnot, Bool.or_false]
        exact hf
    · obtain ⟨_, _, _, hc⟩ := s.conn.callback_rest cb
      show (s.conn.callback cb).draining = _
      rw [hc]
      exact (Bool.or_false _).symm
  entries s c h := of_trace_eq rfl (congrArg Flags.established h.flags_eq)
    (congrArg Flags.draining h.flags_eq)
  sync s p := by
    unfold State.syncState
    split
    · exact of_trace_eq rfl rfl rfl
    · rename_i hsome
      refine ⟨[.periods p], rfl, ?_, ?_⟩
      · obtain ⟨_, _, _, _, _, hc⟩ := s.conn.syncState_rest p
        show (s.conn.syncState p).established = _
        rw [hc]
        exact (Bool.or_false _).symm
      · show (s.conn.syncState p).draining = (s.conn.draining || (p.inDraining || false))
        rw [s.conn.syncState_draining hsome, Bool.or_false]
  lastError s e := of_trace_eq rfl rfl rfl

end Reported

/-- What a call that polls ngtcp2 makes of its reports. -/
theorem Op.reported {o : Op} (ho : o.polls = true) (s : State) : Reported s (step s o) := by
  cases o with
  | recv g d a => exact Reported.pieces.recv s g d a (fun _ => rfl) fun _ => rfl
  | onTimeout a => exact Reported.pieces.onTimeout s a rfl fun _ => rfl
  | drainOutgoingDatagrams a =>
    refine Reported.pieces.drainOutgoingDatagrams (fun _ _ => rfl) (fun _ _ => rfl) s a ?_
      (fun _ => rfl) fun _ => rfl
    exact Reported.pieces.drainClose s a.close (fun _ => .of_trace_eq rfl rfl rfl)
      (fun _ => rfl) (fun _ => rfl) fun _ => rfl
  | _ => cases ho

/-- Further acts tell nothing about a stream if and only if none of them does. -/
theorem Trace.about_append_iff (conn : Option Role) (id : Int) (new t : Trace) :
    Trace.about conn id (new ++ t) = Trace.about conn id t ↔
      ∀ (a : Act) (t' : Trace), a :: t' <:+ new ++ t → t <:+ t' →
        a.tells id (t'.entry conn id) = [] := by
  have hgrows (new : Trace) : Trace.about conn id t <+: Trace.about conn id (new ++ t) := by
    induction new with
    | nil => exact List.prefix_rfl
    | cons a new ih => exact ih.trans (List.prefix_append _ _)
  induction new with
  | nil =>
    refine iff_of_true rfl fun a t' ht ht' => ?_
    have hlen := (ht.trans ht').length_le
    rw [List.length_cons] at hlen
    omega
  | cons a new ih =>
    have hcons : Trace.about conn id (a :: new ++ t) =
        Trace.about conn id (new ++ t) ++ a.tells id (Trace.entry conn id (new ++ t)) := rfl
    obtain ⟨es, hes⟩ := hgrows new
    constructor
    · intro h a' t' ht ht'
      rw [hcons, ← hes, List.append_assoc] at h
      obtain ⟨hes', htells⟩ := List.append_eq_nil_iff.mp (List.append_right_eq_self.mp h)
      rcases List.suffix_cons_iff.mp ht with heq | hsuffix
      · cases heq
        exact htells
      · refine ih.mp ?_ a' t' hsuffix ht'
        rw [← hes, hes', List.append_nil]
    · intro h
      have hnew := ih.mpr fun a' t' ht ht' => h a' t' (ht.trans (List.suffix_cons _ _)) ht'
      have hlast : a.tells id (Trace.entry conn id (new ++ t)) = [] :=
        h a (new ++ t) List.suffix_rfl (List.suffix_append _ _)
      rw [hcons, hnew, hlast, List.append_nil]

/-- There is no event if there is none about a stream and none of the three about the connection. -/
theorem eq_nil_iff_aboutOf {es : List Event} : es = [] ↔
    (∀ id, aboutOf id es = []) ∧ eventCount .handshakeCompleted es = 0 ∧
      eventCount .connectionClosed es = 0 ∧ eventCount .connectionDraining es = 0 := by
  constructor
  · rintro rfl
    exact ⟨fun _ => rfl, rfl, rfl, rfl⟩
  · rintro ⟨hstreams, hshake, hclosed, hdraining⟩
    refine List.eq_nil_iff_forall_not_mem.mpr fun e he => ?_
    have hpos : 0 < eventCount e.type es := List.countP_pos_iff.mpr ⟨e, he, decide_eq_true rfl⟩
    have hstream : e.type.ofStream = false := by
      refine Bool.eq_false_iff.mpr fun htype => ?_
      have hin : e ∈ aboutOf e.streamId es :=
        List.mem_filter.mpr ⟨he, by rw [decide_eq_true rfl, htype]; rfl⟩
      rw [hstreams] at hin
      cases hin
    cases htype : e.type with
    | handshakeCompleted => rw [htype, hshake] at hpos; cases hpos
    | connectionClosed => rw [htype, hclosed] at hpos; cases hpos
    | connectionDraining => rw [htype, hdraining] at hpos; cases hpos
    | _ => rw [htype] at hstream; cases hstream

/-- A connection that the application can have. -/
def State.Reachable (s : State) : Prop := ∃ start ops, s = Start.run start ops

/-- No callback, no answer and no period of the call queues an event: nothing of it tells about a
stream, the handshake does not complete, and a draining period is no news. -/
structure State.Silent (s : State) (o : Op) : Prop where
  streams : ∀ (id : Int) (a : Act) (t : Trace), a :: t <:+ (step s o).trace → s.trace <:+ t →
    a.tells id (t.entry s.conn.conn id) = []
  established : .callback .handshakeCompleted ∈ s.actsSince (step s o) → s.conn.established = true
  draining : (s.actsSince (step s o)).any Act.reportsDraining = true → s.conn.draining = true

namespace State.Reachable

variable {s : State} {o : Op}

theorem step (h : s.Reachable) (o : Op) : (PhpQuic.step s o).Reachable := by
  obtain ⟨start, ops, rfl⟩ := h
  exact ⟨start, ops ++ [o], (start.run_append ops [o]).symm⟩

/-- The calls of the run, as `runCalls` has them. -/
theorem calls (h : s.Reachable) : ∃ start calls, s = Start.runCalls start calls := by
  obtain ⟨start, ops, rfl⟩ := h
  refine ⟨start, ops.map .op, ?_⟩
  unfold Start.run Start.runCalls
  generalize start.state = s
  induction ops generalizing s with
  | nil => rfl
  | cons o ops ih => exact ih (PhpQuic.step s o)

theorem lifecycle (h : s.Reachable) : Lifecycle s.conn s.queued := by
  obtain ⟨start, calls, rfl⟩ := h.calls
  exact (lifecycle_run start calls).1

theorem about_eq (h : s.Reachable) (id : Int) : s.about id = s.trace.about s.conn.conn id := by
  obtain ⟨start, ops, rfl⟩ := h
  have hpass := Start.Passes.last start ops
  rw [hpass.about_eq id, hpass.conn_eq]

/-- What ngtcp2 does in a call queues nothing in a closed connection if and only if the queue stays
as it is. -/
theorem silent_iff (h : s.Reachable) (ho : o.polls = true) (hclosed : s.conn.closed = true) :
    s.Silent o ↔ (PhpQuic.step s o).conn.events = s.conn.events := by
  have hdrains : o.drains = false := by cases o <;> first | rfl | cases ho
  obtain ⟨es, hes⟩ := step_events_grow s hdrains
  have hdrained := step_drainedEvents s hdrains
  obtain ⟨new, ht, he, hd⟩ := Op.reported ho s
  have hqueued : (PhpQuic.step s o).queued = s.queued ++ es := by
    unfold State.queued
    rw [hdrained, ← hes, List.append_assoc]
  have hcount (type : EventType) : eventCount type (PhpQuic.step s o).queued =
      eventCount type s.queued + eventCount type es := by rw [hqueued, eventCount_append]
  have hacts : s.actsSince (PhpQuic.step s o) = new := State.actsSince_eq ht
  have hbefore := h.lifecycle
  have hafter := (h.step o).lifecycle
  have hstreams (id : Int) : aboutOf id es = [] ↔ ∀ (a : Act) (t : Trace),
      a :: t <:+ (PhpQuic.step s o).trace → s.trace <:+ t →
        a.tells id (t.entry s.conn.conn id) = [] := by
    have habout := State.about_append hdrained hes.symm id
    rw [(h.step o).about_eq, h.about_eq, (o.polling ho s).conn, ht] at habout
    rw [ht, ← Trace.about_append_iff, habout]
    exact List.append_right_eq_self.symm
  have hestablished : eventCount .handshakeCompleted es = 0 ↔
      (.callback .handshakeCompleted ∈ new → s.conn.established = true) := by
    have hsum := hafter.established_count
    rw [hcount, hbefore.established_count, he] at hsum
    by_cases hm : Act.callback .handshakeCompleted ∈ new <;>
      cases hflag : s.conn.established <;> simp [hm, hflag] at hsum ⊢ <;> omega
  have hdraining : eventCount .connectionDraining es = 0 ↔
      (new.any Act.reportsDraining = true → s.conn.draining = true) := by
    have hsum := hafter.draining_count
    rw [hcount, hbefore.draining_count, hd] at hsum
    cases hm : new.any Act.reportsDraining <;>
      cases hflag : s.conn.draining <;> simp [hm, hflag] at hsum ⊢ <;> omega
  have hend : eventCount .connectionClosed es = 0 := by
    have hsum := hafter.closed_count
    have hkept : (PhpQuic.step s o).conn.closed = true := (Call.flags_kept (.op o) s).closed hclosed
    rw [hcount, hbefore.closed_count, hclosed, hkept] at hsum
    omega
  rw [← hes, List.append_right_eq_self, eq_nil_iff_aboutOf, hestablished, hdraining]
  constructor
  · rintro ⟨htells, hshake, hdrain⟩
    exact ⟨fun id => (hstreams id).mpr (htells id), hacts ▸ hshake, hend, hacts ▸ hdrain⟩
  · rintro ⟨hnone, hshake, -, hdrain⟩
    exact ⟨fun id => (hstreams id).mp (hnone id), hacts ▸ hshake, hacts ▸ hdrain⟩

end State.Reachable

end PhpQuic
