import PhpQuic.Connection.EntrySteps
import PhpQuic.Events.Protocol
import PhpQuic.Outgoing.Writable

/-!
# The event objects

`src/event.c`: the classes of the events, and the object that `drainEvents` makes of each. What the
class of an object says of the connection or of the stream is so when the event is queued, and from
then on (`EventObject.IsSo`, `events_are_so`): the loop of an application can go by the class alone,
however late it takes the event.

* `EventClass.instanceOf`: `instanceof`, by the parents that `php_ngtcp2_event_init` registers.
* `Told e told`: what the events about a stream say of its entry. `Told.step`: one change.
* `Announced`: the events about the connection. `Move.announced`: one move.

The timestamp of an event is left out.
-/

namespace PhpQuic

open Runs (Moves)

/-! ## The classes -/

/-- The classes that `php_ngtcp2_event_init` registers. -/
inductive EventClass where
  | event
  | connectionEvent
  | streamEvent
  | terminalStreamEvent
  | handshakeCompleted
  | connectionClosed
  | connectionDraining
  | streamOpened
  | streamReadable
  | streamWritable
  | streamClosed
  | streamReset
  deriving DecidableEq

namespace EventClass

/-- The class that a class is registered under. -/
def parent : EventClass → Option EventClass
  | .event => none
  | .connectionEvent | .streamEvent => some .event
  | .terminalStreamEvent => some .streamEvent
  | .handshakeCompleted | .connectionClosed | .connectionDraining => some .connectionEvent
  | .streamOpened | .streamReadable | .streamWritable => some .streamEvent
  | .streamClosed | .streamReset => some .terminalStreamEvent

/-- The class and the classes above it, at most `n` of them. -/
def ancestors : Nat → EventClass → List EventClass
  | 0, ce => [ce]
  | n + 1, ce =>
    match ce.parent with
    | none => [ce]
    | some p => ce :: ancestors n p

/-- `instanceof`. -/
def instanceOf (ce other : EventClass) : Bool := (ancestors 3 ce).contains other

end EventClass

/-- `php_quic_event_class_for_type`. -/
def EventType.classForType : EventType → EventClass
  | .handshakeCompleted => .handshakeCompleted
  | .connectionClosed => .connectionClosed
  | .connectionDraining => .connectionDraining
  | .streamReadable => .streamReadable
  | .streamWritable => .streamWritable
  | .streamClosed => .streamClosed
  | .streamReset => .streamReset
  | .streamOpened => .streamOpened

/-- The values of `php_quic_event_type`. -/
def EventType.code : EventType → UInt32
  | .handshakeCompleted => 1
  | .connectionClosed => 2
  | .connectionDraining => 3
  | .streamOpened => 10
  | .streamReadable => 11
  | .streamWritable => 12
  | .streamClosed => 13
  | .streamReset => 14

/-- `php_quic_event_object`, with its class. The type is any value, since `__construct` takes any; the
reason is a text of the type `ρ`. -/
structure EventObject (ρ : Type) where
  ce : EventClass
  type : UInt32
  streamId : Int
  errorCode : UInt64
  byPeer : Bool
  reason : ρ
  deriving DecidableEq

/-- `php_quic_event_create_from_native`. -/
def Event.createFromNative (event : Event) : EventObject Bytes where
  ce := event.type.classForType
  type := event.type.code
  streamId := event.streamId
  errorCode := event.errorCode
  byPeer := event.byPeer
  reason := event.reason.getD []

theorem EventType.classForType_stream (t : EventType) :
    t.classForType.instanceOf .streamEvent = t.ofStream := by
  cases t <;> rfl

theorem EventType.classForType_connection (t : EventType) :
    t.classForType.instanceOf .connectionEvent = !t.ofStream := by
  cases t <;> rfl

theorem EventType.classForType_terminal (t : EventType) :
    t.classForType.instanceOf .terminalStreamEvent = t.isTerminal := by
  cases t <;> rfl

/-- What the object says is so in the state. -/
structure EventObject.IsSo (o : EventObject Bytes) (s : State) : Prop where
  connection : o.ce.instanceOf .connectionEvent = true → o.streamId = -1
  established : o.ce = .handshakeCompleted → s.conn.isEstablished = true
  closed : o.ce = .connectionClosed → s.conn.isClosed = true
  draining : o.ce = .connectionDraining → s.conn.isDraining = true
  stream : o.ce.instanceOf .streamEvent = true → s.conn.getStream o.streamId = some o.streamId
  terminal : o.ce.instanceOf .terminalStreamEvent = true → Stream.isClosed s o.streamId = true ∧
    Stream.isWritable s o.streamId = false ∧
      ∀ data, ∃ x, Stream.write s o.streamId data = s.throw x

/-! ## The events of a stream -/

/-- What the events about a stream, given by their types, say of its entry. -/
structure Told (e : Option StreamEntry) (told : List EventType) : Prop where
  entered : told ≠ [] → e.isSome = true
  ended : (∃ t ∈ told, t.isTerminal = true) → e.any StreamEntry.closed = true

namespace Told

variable {e : Option StreamEntry} {x : StreamEntry} {told es : List EventType}

theorem nil (e : Option StreamEntry) : Told e [] := ⟨fun h => absurd rfl h, by simp⟩

/-- Behind an end. -/
theorem of_closed (h : x.closed = true) (told : List EventType) : Told (some x) told :=
  ⟨fun _ => rfl, fun _ => h⟩

/-- Events that are no end, and an entry that stays closed. -/
theorem more (h : Told e told) (hes : ∀ t ∈ es, t.isTerminal = false)
    (hclosed : e.any StreamEntry.closed = true → x.closed = true) : Told (some x) (told ++ es) := by
  refine ⟨fun _ => rfl, ?_⟩
  rintro ⟨t, ht, hterm⟩
  refine hclosed (h.ended ⟨t, ?_, hterm⟩)
  refine (List.mem_append.mp ht).resolve_right fun hmem => ?_
  rw [hes t hmem] at hterm
  cases hterm

end Told

/-- A callback that is no end queues no end, and leaves `closed` as it is. -/
theorem StreamEntry.tells_open {cb : Callback} {e : StreamEntry} (conn : Option Role)
    (h : (e.react conn cb).closed = false) :
    (∀ t ∈ (e.tells cb).map Event.type, t.isTerminal = false) ∧ e.closed = false := by
  cases cb with
  | streamClose | streamReset => cases h
  | handshakeCompleted => exact ⟨by simp [tells], h⟩
  | streamOpen => exact ⟨by simp [tells, EventType.isTerminal], h⟩
  | recvStreamData fin id offset data =>
    refine ⟨?_, h⟩
    unfold tells
    simp only
    split <;> simp [EventType.isTerminal]
  | ackedStreamDataOffset id offset datalen =>
    rw [react_acked] at h
    refine ⟨?_, h⟩
    unfold tells
    simp only
    split <;> simp [EventType.isTerminal]

theorem Told.step {conn : Option Role} {id : Int} {e e' : Option StreamEntry} {t t' : Trace}
    {es : List Event} {told : List EventType} (h : Told e told)
    (hstep : EntryStep conn id e t e' t' es) : Told e' (told ++ es.map Event.type) := by
  cases hstep with
  | other as has => rwa [List.map_nil, List.append_nil]
  | clamp =>
    refine h.more (List.forall_mem_nil _) fun hc => ?_
    rw [StreamEntry.clampTxOffset_eq]
    exact hc
  | wrote data hclosed hsent hfin hlocal => exact h.more (List.forall_mem_nil _) fun hc => hc
  | ended data hlocal => exact h.more (List.forall_mem_nil _) fun hc => hc
  | reset => exact .of_closed rfl _
  | read chunk rest hrx hchunk => exact h.more (List.forall_mem_nil _) fun hc => hc
  | returned bidi pending rv =>
    refine h.more (by simp [EventType.isTerminal]) fun hc => ?_
    cases e with
    | none => cases hc
    | some x => exact hc
  | openMatched => exact h.more (List.forall_mem_nil _) fun hc => hc
  | answered o a hid hdata hfin hdue =>
    rename_i e
    refine h.more ?_ fun hc => ?_
    · unfold StreamEntry.answerTells StreamEntry.wakes
      cases a.effect with
      | update p =>
        simp only
        split <;> simp [EventType.isTerminal]
      | discard | ignore => simp
    · rw [(e.answer_ends o a).1]
      exact hc
  | callback cb hid =>
    cases hfound : cb.enters || e.isSome with
    | false =>
      -- there is no entry, and none is made
      obtain ⟨henters, hnone⟩ := Bool.or_eq_false_iff.mp hfound
      cases e with
      | none =>
        rw [henters]
        exact (List.append_nil told).symm ▸ h
      | some x => cases hnone
    | true =>
      have hentry : (if cb.enters then some (e.getD (.alloc id)) else e) =
          some (e.getD (.alloc id)) := by
        cases e with
        | none =>
          rw [Option.isSome_none, Bool.or_false] at hfound
          rw [hfound]
          rfl
        | some x => exact ite_self _
      rw [hentry, Option.map_some, if_pos rfl]
      cases hc : ((e.getD (.alloc id)).react conn cb).closed with
      | true => exact .of_closed hc _
      | false =>
        obtain ⟨hes, hopen⟩ := StreamEntry.tells_open conn hc
        refine h.more hes fun hany => ?_
        cases e with
        | none => cases hany
        | some x => exact absurd (hopen.symm.trans hany) Bool.false_ne_true

/-! ## The events about the connection -/

/-- The events about the connection name no stream. -/
def Announced (queued : List Event) : Prop :=
  ∀ e ∈ queued, e.type.ofStream = false → e.streamId = -1

namespace Announced

variable {drained : List Event} {c c' : Connection}

theorem more {q es : List Event} (h : Announced q)
    (hes : ∀ e ∈ es, e.type.ofStream = false → e.streamId = -1) : Announced (q ++ es) := by
  intro e he hconn
  rcases List.mem_append.mp he with he | he
  · exact h e he hconn
  · exact hes e he hconn

theorem entriesOnly (h : Announced (drained ++ c.events)) (he : c.EntriesOnly c') :
    Announced (drained ++ c'.events) := by
  obtain ⟨streams, events, rfl, hes⟩ := he
  rw [← List.append_assoc]
  exact h.more fun e he hconn => absurd (hconn.symm.trans (hes e he)) Bool.false_ne_true

end Announced

theorem Connection.callback_announced {drained : List Event} {c : Connection}
    (h : Announced (drained ++ c.events)) (cb : Callback) :
    Announced (drained ++ (c.callback cb).events) := by
  by_cases hcb : cb = .handshakeCompleted
  · subst hcb
    unfold callback handshakeCompletedCb
    simp only
    split
    · exact h
    · show Announced (drained ++ (c.events ++ [_]))
      rw [← List.append_assoc]
      exact h.more (by simp)
  · exact h.entriesOnly (c.callback_entriesOnly hcb)

theorem Connection.returnStream_announced {s : State} (h : Announced s.queued) (bidi : Bool)
    (rv : Except Err Int) (pending : Bool) :
    Announced (returnStream (s.log (.openLocal bidi rv)) bidi rv pending).1.queued := by
  obtain ⟨_, _, hc⟩ := s.conn.assignStreamId_rest bidi rv
  have hassign : Announced (s.trace.drainedEvents ++ (s.conn.assignStreamId bidi rv).1.events) := by
    rw [hc]
    exact h
  exact hassign.entriesOnly (enterStream_entriesOnly ..)

/-- No move breaks it. -/
theorem Move.announced {s s' : State} (hm : Move s s') (h : Announced s.queued) :
    Announced s'.queued := by
  cases hm with
  | quiet a ha =>
    unfold State.queued
    rw [State.log_trace, Trace.drainedEvents_quiet ha]
    exact h
  | threw e he => exact h
  | callback cb => exact Connection.callback_announced h cb
  | clamp id hid => exact h.entriesOnly (.modifyEntry ..)
  | wrote id data hid => exact h.entriesOnly (.modifyEntry ..)
  | ended id data hid => exact h.entriesOnly (.modifyEntry ..)
  | reset id code hid => exact h.entriesOnly (.pushEvent (.modifyEntry ..) rfl ..)
  | read id chunk rest hid hrx => exact h.entriesOnly (.modifyEntry ..)
  | opened b id hconn => exact Connection.returnStream_announced h b (.ok id) false
  | blocked b hconn => exact Connection.returnStream_announced h b (.error .streamIdBlocked) true
  | openMatched id hconn hid hp => exact h.entriesOnly (.modifyEntry ..)
  | openMismatched id opened hconn hid hp hne => exact h
  | settle o a ho hp => exact h.entriesOnly (s.conn.settle_entriesOnly o a)
  | sync p =>
    obtain ⟨es, hevents, hes⟩ := s.conn.syncState_events p
    have hq : Announced (s.trace.drainedEvents ++ (s.conn.syncState p).events) := by
      rw [hevents, ← List.append_assoc]
      exact h.more fun e he _ => (hes e he).1
    unfold State.queued
    rw [State.syncState_conn]
    rcases s.syncState_trace p with ht | ht
    · rw [ht]; exact hq
    · rw [ht]; exact hq
  | lastError e => exact h
  | close code reason hopen =>
    obtain ⟨es, hevents, hes⟩ := Connection.close_events s code reason
    unfold State.queued
    rw [Connection.close_trace, hevents, ← List.append_assoc]
    exact h.more fun e he _ => (hes e he).1
  | closeSent hreq => exact h
  | drainEvents =>
    have hq : (Connection.drainEvents s).1.queued = s.queued := List.append_nil _
    rw [hq]
    exact h

/-! ## Every state -/

theorem EventType.classForType_injective {t t' : EventType} (h : t.classForType = t'.classForType) :
    t = t' := by
  cases t <;> cases t' <;> first | rfl | cases h

/-- The flag of an event that was queued. -/
theorem eventCount_flag {type : EventType} {flag : Bool} {q : List Event} {e : Event}
    (hcount : eventCount type q = if flag then 1 else 0) (he : e ∈ q) (ht : e.type = type) :
    flag = true := by
  have hpos : 0 < eventCount type q := List.countP_pos_iff.mpr ⟨e, he, decide_eq_true ht⟩
  cases flag with
  | true => rfl
  | false =>
    rw [hcount] at hpos
    cases hpos

theorem State.mem_told {s : State} {e : Event} (he : e ∈ s.queued) (ht : e.type.ofStream = true) :
    e.type ∈ s.told e.streamId := by
  refine List.mem_map_of_mem (List.mem_filter.mpr ⟨he, ?_⟩)
  rw [ht, Bool.and_true]
  exact decide_eq_true rfl

theorem Start.run_told (start : Start) (ops : List Op) (id : Int) :
    Told ((start.run ops).conn.getStreamEntry id) ((start.run ops).told id) := by
  refine Moves.inv' (I := fun s : State => Told (s.conn.getStreamEntry id) (s.told id)) ?_
    (start.run_moves ops) ?_
  · intro s s' hm h
    obtain ⟨es, hstep, habout⟩ := hm.entryMove id
    rw [State.told_of_about habout]
    exact h.step hstep
  · have hnil : start.base.told id = [] := by cases start <;> rfl
    rw [hnil]
    exact .nil _

theorem Start.run_announced (start : Start) (ops : List Op) : Announced (start.run ops).queued := by
  refine Moves.inv' (I := fun s : State => Announced s.queued) (fun _ _ => Move.announced)
    (start.run_moves ops) ?_
  have hnil : start.base.queued = [] := by cases start <;> rfl
  rw [hnil]
  exact List.forall_mem_nil _

/-- In every state of every run, what the events ever queued say is so: of the connection, or of the
stream that they name, which `getStream` finds, and which takes no more data behind an end. -/
theorem events_are_so (start : Start) (ops : List Op) :
    ∀ o ∈ (start.run ops).queued.map Event.createFromNative, o.IsSo (start.run ops) := by
  intro o ho
  obtain ⟨e, he, rfl⟩ := List.mem_map.mp ho
  have hlife : Lifecycle (start.run ops).conn (start.run ops).queued :=
    Moves.inv' (I := fun s : State => Lifecycle s.conn s.queued) (fun _ _ hm => hm.lifecycle)
      (start.run_moves ops) start.base_lifecycle
  have htold := start.run_told ops e.streamId
  have hannounced := start.run_announced ops
  generalize start.run ops = s at he hlife htold hannounced ⊢
  have hentry (hstream : e.type.ofStream = true) :
      ∃ x, s.conn.getStreamEntry e.streamId = some x :=
    Option.isSome_iff_exists.mp (htold.entered (List.ne_nil_of_mem (State.mem_told he hstream)))
  refine ⟨fun h => ?_, fun h => ?_, fun h => ?_, fun h => ?_, fun h => ?_, fun h => ?_⟩
  · have hconn : (!e.type.ofStream) = true := (EventType.classForType_connection _).symm.trans h
    exact hannounced e he (by simpa using hconn)
  · exact eventCount_flag hlife.established_count he (EventType.classForType_injective h)
  · have hclosed := eventCount_flag hlife.closed_count he (EventType.classForType_injective h)
    exact Bool.or_eq_true_iff.mpr (.inl hclosed)
  · exact eventCount_flag hlife.draining_count he (EventType.classForType_injective h)
  · obtain ⟨x, hx⟩ := hentry ((EventType.classForType_stream _).symm.trans h)
    show Connection.getStream s.conn e.streamId = some e.streamId
    unfold Connection.getStream
    rw [hx]
    rfl
  · have hterm : e.type.isTerminal = true := (EventType.classForType_terminal _).symm.trans h
    have hstream : e.type.ofStream = true := by
      cases ht : e.type <;> first | rfl | (rw [ht] at hterm; cases hterm)
    obtain ⟨x, hx⟩ := hentry hstream
    have hclosed := htold.ended ⟨_, State.mem_told he hstream, hterm⟩
    rw [hx, Option.any_some] at hclosed
    have hrefuses : x.refuses s.conn.conn e.streamId = true := by
      unfold StreamEntry.refuses
      rw [hclosed]
      simp
    refine ⟨?_, ?_, Stream.write_refused hx hrefuses⟩
    · show Stream.isClosed s e.streamId = true
      unfold Stream.isClosed
      rw [hx]
      exact hclosed
    · show Stream.isWritable s e.streamId = false
      unfold Stream.isWritable
      rw [hx, Option.any_some, hclosed]
      exact Bool.and_false _

/-- The event of a reset, taken before the connection is closed. -/
theorem events_are_so_reset :
    let s := (Start.client {} none none).run [.openStream (.ok 0), .write 0 [1, 2], .reset 0 7 {},
      .drainEvents, .close 0 none]
    let o : EventObject Bytes :=
      Event.createFromNative
        { type := .streamReset, streamId := 0, errorCode := 7, byPeer := false, reason := none }
    o ∈ s.queued.map Event.createFromNative ∧ o.IsSo s :=
  ⟨by decide, events_are_so _ _ _ (by decide)⟩

end PhpQuic
