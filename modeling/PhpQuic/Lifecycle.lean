import PhpQuic.Connection.Moves

/-!
# The lifecycle of a connection

The flags of a connection and the events that tell of them. `State.queued` is every event that the
connection has queued since it was made: those that `drainEvents` has handed out and those that are
still in the queue.

* `LifeCounts`: each flag goes with its event, which was queued once if the flag is set and not at
  all otherwise. `Lifecycle` adds the order of the flags.
* `Call`: a method of `Op`, or the constructor, which PHP lets an application call again.
* `lifecycle_run`: the flags and the counts in every state, and no flag is ever cleared.
-/

namespace PhpQuic

open Runs (Moves)

/-- The events that `drainEvents` has handed out. -/
def Trace.drainedEvents : Trace → List Event
  | [] => []
  | .events es :: t => drainedEvents t ++ es
  | _ :: t => drainedEvents t

theorem Trace.drainedEvents_append (new t : Trace) :
    Trace.drainedEvents (new ++ t) = t.drainedEvents ++ new.drainedEvents := by
  induction new with
  | nil => exact (List.append_nil _).symm
  | cons a new ih =>
    cases a with
    | events es =>
      show Trace.drainedEvents (new ++ t) ++ es = t.drainedEvents ++ (Trace.drainedEvents new ++ es)
      rw [ih, List.append_assoc]
    | _ => exact ih

theorem Trace.drainedEvents_quiet {a : Act} (h : a.quiet = true) (t : Trace) :
    Trace.drainedEvents (a :: t) = t.drainedEvents := by
  cases a with
  | events es => cases h
  | _ => rfl

/-- Every event queued since the connection was made. -/
def State.queued (s : State) : List Event := s.trace.drainedEvents ++ s.conn.events

/-- How many events of the type. -/
def eventCount (type : EventType) (es : List Event) : Nat := es.countP fun e => e.type = type

theorem eventCount_append (type : EventType) (es es' : List Event) :
    eventCount type (es ++ es') = eventCount type es + eventCount type es' :=
  List.countP_append

theorem eventCount_stream {type : EventType} (ht : type.ofStream = false) {es : List Event}
    (h : ∀ e ∈ es, e.type.ofStream = true) : eventCount type es = 0 := by
  refine List.countP_eq_zero.mpr fun e he hte => ?_
  have := h e he
  rw [of_decide_eq_true hte, ht] at this
  cases this

/-- Each flag goes with its event. -/
structure LifeCounts (c : Connection) (queued : List Event) : Prop where
  closed_iff : c.closed = c.closeEventEmitted
  closed_count : eventCount .connectionClosed queued = if c.closed then 1 else 0
  draining_iff : c.draining = c.drainingEventEmitted
  draining_count : eventCount .connectionDraining queued = if c.draining then 1 else 0
  established_count : eventCount .handshakeCompleted queued = if c.established then 1 else 0
  sent_requested : c.closePacketSent = true → c.closeRequested = true
  requested_closed : c.closeRequested = true → c.closed = true

/-- The lifecycle invariant. -/
structure Lifecycle (c : Connection) (queued : List Event) : Prop extends LifeCounts c queued where
  draining_closed : c.draining = true → c.closed = true

/-- The flags of the lifecycle. -/
structure Flags where
  established : Bool
  draining : Bool
  closed : Bool
  closeRequested : Bool
  closePacketSent : Bool
  closeEventEmitted : Bool
  drainingEventEmitted : Bool

def Connection.flags (c : Connection) : Flags where
  established := c.established
  draining := c.draining
  closed := c.closed
  closeRequested := c.closeRequested
  closePacketSent := c.closePacketSent
  closeEventEmitted := c.closeEventEmitted
  drainingEventEmitted := c.drainingEventEmitted

namespace LifeCounts

variable {c c' : Connection} {q q' : List Event}

/-- Only the flags and the counts matter. -/
theorem congr (h : LifeCounts c q) (hf : c'.flags = c.flags)
    (hq : ∀ type, type.ofStream = false → eventCount type q' = eventCount type q) :
    LifeCounts c' q' := by
  simp only [Connection.flags, Flags.mk.injEq] at hf
  obtain ⟨he, hd, hc, hr, hs, hce, hde⟩ := hf
  refine ⟨?_, ?_, ?_, ?_, ?_, ?_, ?_⟩
  · rw [hc, hce]; exact h.closed_iff
  · rw [hc, hq _ rfl]; exact h.closed_count
  · rw [hd, hde]; exact h.draining_iff
  · rw [hd, hq _ rfl]; exact h.draining_count
  · rw [he, hq _ rfl]; exact h.established_count
  · rw [hs, hr]; exact h.sent_requested
  · rw [hr, hc]; exact h.requested_closed

end LifeCounts

theorem Lifecycle.congr {c c' : Connection} {q q' : List Event} (h : Lifecycle c q)
    (hf : c'.flags = c.flags)
    (hq : ∀ type, type.ofStream = false → eventCount type q' = eventCount type q) :
    Lifecycle c' q' := by
  refine ⟨h.toLifeCounts.congr hf hq, ?_⟩
  simp only [Connection.flags, Flags.mk.injEq] at hf
  rw [hf.2.1, hf.2.2.1]
  exact h.draining_closed

/-! ## What each change does to the counts -/

/-- One more event of a type. -/
theorem eventCount_push (type : EventType) (q : List Event) (e : Event) :
    eventCount type (q ++ [e]) = eventCount type q + if e.type = type then 1 else 0 := by
  rw [eventCount_append]
  congr 1
  simp [eventCount, List.countP_cons]

namespace LifeCounts

variable {c : Connection} {drained : List Event}

theorem noteDraining (h : LifeCounts c (drained ++ c.events)) :
    LifeCounts c.noteDraining (drained ++ c.noteDraining.events) := by
  unfold Connection.noteDraining
  simp only
  split
  · rename_i he
    have hd : c.draining = true := h.draining_iff.trans he
    refine ⟨h.closed_iff, h.closed_count, he.symm, ?_, h.established_count, h.sent_requested,
      h.requested_closed⟩
    have hcount := h.draining_count
    rw [hd] at hcount
    exact hcount
  · rename_i he
    have hd : c.draining = false := by
      rw [h.draining_iff]; exact Bool.not_eq_true _ ▸ he
    have hcount := h.draining_count
    rw [hd] at hcount
    unfold Connection.pushEvent
    simp only [← List.append_assoc]
    refine ⟨h.closed_iff, ?_, rfl, ?_, ?_, h.sent_requested, h.requested_closed⟩
    · rw [eventCount_push]; exact h.closed_count
    · rw [eventCount_push, hcount]; rfl
    · rw [eventCount_push]; exact h.established_count

theorem noteClosed (h : LifeCounts c (drained ++ c.events)) (code : Option UInt64) :
    LifeCounts (c.noteClosed code) (drained ++ (c.noteClosed code).events) := by
  unfold Connection.noteClosed
  simp only
  split
  · rename_i he
    have hc : c.closed = true := h.closed_iff.trans he
    have hcount := h.closed_count
    rw [hc] at hcount
    exact ⟨he.symm, hcount, h.draining_iff, h.draining_count, h.established_count,
      h.sent_requested, fun _ => rfl⟩
  · rename_i he
    have hc : c.closed = false := by
      rw [h.closed_iff]; exact Bool.not_eq_true _ ▸ he
    have hcount := h.closed_count
    rw [hc] at hcount
    unfold Connection.pushEvent
    simp only [← List.append_assoc]
    refine ⟨rfl, ?_, h.draining_iff, ?_, ?_, h.sent_requested, fun _ => rfl⟩
    · rw [eventCount_push, hcount]; rfl
    · rw [eventCount_push]; exact h.draining_count
    · rw [eventCount_push]; exact h.established_count

end LifeCounts

theorem Connection.noteClosed_closed (c : Connection) (code : Option UInt64) :
    (c.noteClosed code).closed = true := by
  unfold noteClosed
  simp only
  split <;> rfl

namespace Lifecycle

variable {c c' : Connection} {drained : List Event}

/-- Entries and events about streams are of no account. -/
theorem entriesOnly (h : Lifecycle c (drained ++ c.events)) (he : c.EntriesOnly c') :
    Lifecycle c' (drained ++ c'.events) := by
  obtain ⟨_, es, hc, hes⟩ := he
  refine h.congr (by rw [hc]; rfl) fun type ht => ?_
  rw [hc]
  simp only [← List.append_assoc]
  rw [eventCount_append, eventCount_stream ht hes, Nat.add_zero]

theorem syncState (h : Lifecycle c (drained ++ c.events)) (p : Periods) :
    Lifecycle (c.syncState p) (drained ++ (c.syncState p).events) := by
  unfold Connection.syncState
  split
  · exact h
  · simp only
    -- the draining period closes the connection too
    have hd : LifeCounts (if p.inDraining then c.noteDraining else c)
        (drained ++ (if p.inDraining then c.noteDraining else c).events) := by
      split
      · exact h.toLifeCounts.noteDraining
      · exact h.toLifeCounts
    split
    · exact ⟨hd.noteClosed p.ccerr, fun _ => Connection.noteClosed_closed ..⟩
    · rename_i hp
      simp only [Bool.or_eq_true, not_or, Bool.not_eq_true] at hp
      rw [if_neg (by rw [hp.2]; exact Bool.false_ne_true)]
      exact h

theorem handshakeCompleted (h : Lifecycle c (drained ++ c.events)) :
    Lifecycle c.handshakeCompletedCb (drained ++ c.handshakeCompletedCb.events) := by
  unfold Connection.handshakeCompletedCb
  split
  · exact h
  · rename_i he
    have hcount := h.established_count
    rw [if_neg he] at hcount
    unfold Connection.pushEvent
    simp only [← List.append_assoc]
    refine ⟨⟨h.closed_iff, ?_, h.draining_iff, ?_, ?_, h.sent_requested, h.requested_closed⟩,
      h.draining_closed⟩
    · rw [eventCount_push]; exact h.closed_count
    · rw [eventCount_push]; exact h.draining_count
    · rw [eventCount_push, hcount]; rfl

theorem callback (h : Lifecycle c (drained ++ c.events)) (cb : Callback) :
    Lifecycle (c.callback cb) (drained ++ (c.callback cb).events) := by
  by_cases hcb : cb = .handshakeCompleted
  · subst hcb; exact h.handshakeCompleted
  · exact h.entriesOnly (c.callback_entriesOnly hcb)

theorem close {s : State} (h : Lifecycle s.conn (drained ++ s.conn.events)) (code : Int64)
    (reason : Option Bytes) : Lifecycle (Connection.close s code reason).1.conn
      (drained ++ (Connection.close s code reason).1.conn.events) := by
  unfold Connection.close
  split
  · exact h
  · simp only
    split
    · rename_i he
      have hc : s.conn.closed = true := h.closed_iff.trans he
      have hcount := h.closed_count
      rw [hc] at hcount
      exact ⟨⟨he.symm, hcount, h.draining_iff, h.draining_count, h.established_count,
        fun _ => rfl, fun _ => rfl⟩, fun _ => rfl⟩
    · rename_i he
      have hc : s.conn.closed = false := by
        rw [h.closed_iff]; exact Bool.not_eq_true _ ▸ he
      have hcount := h.closed_count
      rw [hc] at hcount
      simp only [State.withConn_conn, Connection.pushEvent, ← List.append_assoc]
      refine ⟨⟨rfl, ?_, h.draining_iff, ?_, ?_, fun _ => rfl, fun _ => rfl⟩, fun _ => rfl⟩
      · rw [eventCount_push, hcount]; rfl
      · rw [eventCount_push]; exact h.draining_count
      · rw [eventCount_push]; exact h.established_count

end Lifecycle

/-! ## The flags are never cleared -/

/-- What is set in `f` is set in `f'`. -/
structure Flags.Kept (f f' : Flags) : Prop where
  established : f.established = true → f'.established = true
  draining : f.draining = true → f'.draining = true
  closed : f.closed = true → f'.closed = true
  closeRequested : f.closeRequested = true → f'.closeRequested = true
  closePacketSent : f.closePacketSent = true → f'.closePacketSent = true
  closeEventEmitted : f.closeEventEmitted = true → f'.closeEventEmitted = true
  drainingEventEmitted : f.drainingEventEmitted = true → f'.drainingEventEmitted = true

namespace Flags.Kept

theorem refl (f : Flags) : Kept f f := ⟨id, id, id, id, id, id, id⟩

theorem of_eq {f f' : Flags} (h : f' = f) : Kept f f' := h ▸ refl f

theorem trans {f₁ f₂ f₃ : Flags} (h : Kept f₁ f₂) (h' : Kept f₂ f₃) : Kept f₁ f₃ :=
  ⟨h'.established ∘ h.established, h'.draining ∘ h.draining, h'.closed ∘ h.closed,
    h'.closeRequested ∘ h.closeRequested, h'.closePacketSent ∘ h.closePacketSent,
    h'.closeEventEmitted ∘ h.closeEventEmitted, h'.drainingEventEmitted ∘ h.drainingEventEmitted⟩

end Flags.Kept

namespace Connection

open Flags (Kept)

variable {c c' : Connection}

theorem EntriesOnly.flags_eq (h : EntriesOnly c c') : c'.flags = c.flags := by
  obtain ⟨_, _, hc, -⟩ := h
  rw [hc]; rfl

theorem noteDraining_kept (c : Connection) : Kept c.flags c.noteDraining.flags := by
  unfold noteDraining
  simp only
  split
  · exact ⟨id, fun _ => rfl, id, id, id, id, id⟩
  · exact ⟨id, fun _ => rfl, id, id, id, id, fun _ => rfl⟩

theorem noteClosed_kept (c : Connection) (code : Option UInt64) :
    Kept c.flags (c.noteClosed code).flags := by
  unfold noteClosed
  simp only
  split
  · exact ⟨id, id, fun _ => rfl, id, id, id, id⟩
  · exact ⟨id, id, fun _ => rfl, id, id, fun _ => rfl, id⟩

theorem syncState_kept (c : Connection) (p : Periods) : Kept c.flags (c.syncState p).flags := by
  unfold syncState
  split
  · exact .refl _
  · simp only
    have hd : Kept c.flags (if p.inDraining then c.noteDraining else c).flags := by
      split
      · exact c.noteDraining_kept
      · exact .refl _
    split
    · exact hd.trans (noteClosed_kept ..)
    · exact hd

theorem callback_kept (c : Connection) (cb : Callback) : Kept c.flags (c.callback cb).flags := by
  by_cases hcb : cb = .handshakeCompleted
  · subst hcb
    simp only [callback, handshakeCompletedCb]
    split
    · exact .refl _
    · exact ⟨fun _ => rfl, id, id, id, id, id, id⟩
  · exact .of_eq (c.callback_entriesOnly hcb).flags_eq

theorem close_kept (s : State) (code : Int64) (reason : Option Bytes) :
    Kept s.conn.flags (close s code reason).1.conn.flags := by
  unfold close
  split
  · exact .refl _
  · simp only
    split
    · exact ⟨id, id, fun _ => rfl, fun _ => rfl, id, id, id⟩
    · exact ⟨id, id, fun _ => rfl, fun _ => rfl, id, fun _ => rfl, id⟩

theorem returnStream_flags (s : State) (b : Bool) (rv : Except Err Int) (pending : Bool) :
    (returnStream s b rv pending).1.conn.flags = s.conn.flags := by
  have hassign : (s.conn.assignStreamId b rv).1.flags = s.conn.flags := by
    obtain ⟨_, _, hc⟩ := s.conn.assignStreamId_rest b rv
    rw [hc]; rfl
  exact (enterStream_entriesOnly _ _ pending).flags_eq.trans hassign

end Connection

/-! ## The moves -/

namespace Move

open Flags (Kept)

variable {s s' : State}

theorem flags_kept (h : Move s s') : Kept s.conn.flags s'.conn.flags := by
  cases h with
  | callback cb => exact s.conn.callback_kept cb
  | opened b id hconn => exact .of_eq (Connection.returnStream_flags ..)
  | blocked b hconn => exact .of_eq (Connection.returnStream_flags ..)
  | settle o a h hp => exact .of_eq (s.conn.settle_entriesOnly o a).flags_eq
  | sync p => rw [State.syncState_conn]; exact s.conn.syncState_kept p
  | close code reason hopen => exact Connection.close_kept s code reason
  | closeSent hreq => exact ⟨id, id, id, id, fun _ => rfl, id, id⟩
  | _ => exact .refl _

theorem lifecycle_returnStream (h : Lifecycle s.conn s.queued) (b : Bool) (rv : Except Err Int)
    (pending : Bool) :
    Lifecycle (Connection.returnStream (s.log (.openLocal b rv)) b rv pending).1.conn
      (Connection.returnStream (s.log (.openLocal b rv)) b rv pending).1.queued := by
  obtain ⟨_, _, hc⟩ := s.conn.assignStreamId_rest b rv
  have hassign : Lifecycle (s.conn.assignStreamId b rv).1
      (s.trace.drainedEvents ++ (s.conn.assignStreamId b rv).1.events) := by
    rw [hc]; exact h.congr rfl fun _ _ => rfl
  exact hassign.entriesOnly (Connection.enterStream_entriesOnly ..)

theorem lifecycle (hm : Move s s') (h : Lifecycle s.conn s.queued) :
    Lifecycle s'.conn s'.queued := by
  cases hm with
  | quiet a ha =>
    unfold State.queued
    rw [State.log_trace, Trace.drainedEvents_quiet ha]
    exact h
  | threw e he => exact h
  | callback cb => exact h.callback cb
  | clamp id hid => exact h.entriesOnly (.modifyEntry ..)
  | wrote id data hid => exact h.entriesOnly (.modifyEntry ..)
  | ended id data hid => exact h.entriesOnly (.modifyEntry ..)
  | reset id code hid => exact h.entriesOnly (.pushEvent (.modifyEntry ..) rfl ..)
  | read id chunk rest hid hrx => exact h.entriesOnly (.modifyEntry ..)
  | opened b id hconn => exact lifecycle_returnStream h b (.ok id) false
  | blocked b hconn => exact lifecycle_returnStream h b (.error .streamIdBlocked) true
  | openMatched id hconn hid hp => exact h.entriesOnly (.modifyEntry ..)
  | openMismatched id opened hconn hid hp hne => exact h
  | settle o a ho hp => exact h.entriesOnly (s.conn.settle_entriesOnly o a)
  | sync p =>
    have hs := h.syncState p
    rw [← State.syncState_conn] at hs
    unfold State.queued
    rcases s.syncState_trace p with ht | ht
    · rw [ht]; exact hs
    · rw [ht]; exact hs
  | lastError e => exact h.congr rfl fun _ _ => rfl
  | close code reason hopen =>
    unfold State.queued
    rw [Connection.close_trace]
    exact h.close code reason
  | closeSent hreq => exact ⟨⟨h.closed_iff, h.closed_count, h.draining_iff, h.draining_count,
      h.established_count, fun _ => hreq, h.requested_closed⟩, h.draining_closed⟩
  | drainEvents =>
    refine h.congr rfl fun type _ => congrArg _ ?_
    exact List.append_nil _

end Move

/-! ## Runs -/

/-- A call of a method of `Op`, or of the constructor on the object that there is. -/
inductive Call where
  | op (o : Op)
  | construct (remoteAddress : Address) (localAddress : Option Address)
      (a : Connection.ConstructAnswers)

/-- The effect of a call. -/
def Call.step (s : State) : Call → State
  | .op o => PhpQuic.step s o
  | .construct remoteAddress localAddress a =>
    let (c, e) := s.conn.construct remoteAddress localAddress a
    match e with
    | none => s.withConn c
    | some e => (s.withConn c).log (.threw e)

/-- The constructor touches addresses and ngtcp2's connection only. -/
theorem Connection.construct_rest (c : Connection) (r : Address) (l : Option Address)
    (a : ConstructAnswers) : (c.construct r l a).1.flags = c.flags ∧
      (c.construct r l a).1.events = c.events := by
  unfold construct
  simp only
  repeat' split
  all_goals exact ⟨rfl, rfl⟩

theorem Call.construct_step (s : State) (r : Address) (l : Option Address)
    (a : Connection.ConstructAnswers) :
    (Call.step s (.construct r l a)).conn.flags = s.conn.flags ∧
      (Call.step s (.construct r l a)).queued = s.queued := by
  obtain ⟨hf, he⟩ := s.conn.construct_rest r l a
  unfold Call.step State.queued
  simp only
  split
  · exact ⟨hf, congrArg _ he⟩
  · exact ⟨hf, congrArg _ he⟩

theorem Call.lifecycle {s : State} (call : Call) (h : Lifecycle s.conn s.queued) :
    Lifecycle (call.step s).conn (call.step s).queued := by
  cases call with
  | op o =>
    exact Moves.inv' (I := fun s : State => Lifecycle s.conn s.queued) (fun _ _ hm => hm.lifecycle)
      (step_moves s o) h
  | construct r l a =>
    obtain ⟨hf, hq⟩ := Call.construct_step s r l a
    exact h.congr hf fun type _ => congrArg _ hq

theorem Call.flags_kept (call : Call) (s : State) : s.conn.flags.Kept (call.step s).conn.flags := by
  cases call with
  | op o =>
    exact Moves.inv' (I := fun s' => s.conn.flags.Kept s'.conn.flags)
      (fun _ _ hm h => h.trans hm.flags_kept) (step_moves s o) (.refl _)
  | construct r l a => exact .of_eq (Call.construct_step s r l a).1

/-- Nothing is set and nothing is queued before the first callback. -/
theorem Start.base_lifecycle (start : Start) : Lifecycle start.base.conn start.base.queued := by
  have hno {b c : Bool} (h : b = false) : b = true → c = true := fun hb => by
    rw [h] at hb; cases hb
  cases start with
  | _ => exact ⟨⟨rfl, rfl, rfl, rfl, rfl, hno rfl, hno rfl⟩, hno rfl⟩

theorem Start.state_lifecycle (start : Start) : Lifecycle start.state.conn start.state.queued :=
  Moves.inv' (I := fun s : State => Lifecycle s.conn s.queued) (fun _ _ hm => hm.lifecycle)
    (start.run_moves []) start.base_lifecycle

theorem Start.state_open (start : Start) : start.state.conn.closed = false := by
  cases start with
  | uninitialised | client => rfl
  | server path remoteAddress localAddress payload callbacks =>
    obtain ⟨_, _, _, h⟩ :=
      (Start.server path remoteAddress localAddress payload callbacks).base.runCallbacks_rest callbacks
    show (State.runCallbacks _ callbacks).conn.closed = false
    rw [h]
    rfl

/-- The state after the calls. -/
def Start.runCalls (start : Start) (calls : List Call) : State :=
  Runs.run (fun s call => Call.step s call) start.state calls

theorem Start.runCalls_append (start : Start) (calls later : List Call) :
    start.runCalls (calls ++ later) =
      Runs.run (fun s call => Call.step s call) (start.runCalls calls) later :=
  Runs.run_append ..

theorem Start.runCalls_op (start : Start) (calls : List Call) (o : Op) :
    start.runCalls (calls ++ [.op o]) = step (start.runCalls calls) o :=
  start.runCalls_append calls [.op o]

/-- The lifecycle of every connection, in every state, and no flag is cleared later. -/
theorem lifecycle_run (start : Start) (calls : List Call) :
    Lifecycle (start.runCalls calls).conn (start.runCalls calls).queued ∧
      ∀ later, (start.runCalls calls).conn.flags.Kept
        (start.runCalls (calls ++ later)).conn.flags := by
  constructor
  · exact Runs.run_inv (I := fun s : State => Lifecycle s.conn s.queued)
      (fun _ call h => call.lifecycle h) start.state_lifecycle calls
  · intro later
    rw [start.runCalls_append]
    exact Runs.run_inv (I := fun s' : State => (start.runCalls calls).conn.flags.Kept s'.conn.flags)
      (fun s' call h => h.trans (call.flags_kept s')) (.refl _) later

end PhpQuic
