import PhpQuic.Events.Protocol
import PhpQuic.Connection.EntrySteps
import PhpQuic.Opening.Distinct

/-!
# The events of a stream

The events of a stream are pushed by the two opens, by `Stream::reset`, by the send loop and by five
callbacks. They are in the order of `StreamProtocol` when nothing is pushed twice and nothing behind
an end. `closed` of the entry keeps the send loop and one callback from it; the rest is left to the
callers: `reset()` checks nothing, and an id that is handed out twice is opened twice.

* `Trace.phase`: how far a stream has come, by what was done to it.
* `Trace.Documented`: what ngtcp2 documents of the callbacks of a stream.
* `Trace.InTurn`: `reset()` is called once and not behind a close; no data arrives behind a `reset()`
  that ngtcp2 was not told of; and a stream has been handed out before ngtcp2 reports about it.
* `OnStream`: a change to one stream, with the events that it pushes; one lemma for each source of
  events. `StreamInv` ties the events, the entry and the phase of a stream; kept by every move.
* `streamProtocol_run`: then the events are in order. `reset_twice`: a stream that is reset twice.
-/

namespace PhpQuic

open Runs (Moves)

/-! ## What was done to a stream -/

namespace Phase

/-- A reset by one side. -/
def reset (byPeer : Bool) : Phase → Phase
  | .opened u p => if byPeer then .opened u true else .opened true p
  | p => p

def close : Phase → Phase
  | .opened _ _ => .closed
  | p => p

/-- The side has reset the stream. -/
def wasReset (byPeer : Bool) : Phase → Bool
  | .opened u p => if byPeer then p else u
  | _ => false

/-- The phase of the stream `id` behind an act. -/
def mark (id : Int) (p : Phase) : Act → Phase
  | .returned _ i _ | .callback (.streamOpen i) => if i = id then .opened false false else p
  | .wasReset i _ => if i = id then p.reset false else p
  | .callback (.streamReset i _ _) => if i = id then p.reset true else p
  | .callback (.streamClose _ i _) => if i = id then p.close else p
  | _ => p

/-- The flag `closed` of the entry; `none`: there is no entry. -/
def flag : Phase → Option Bool
  | .fresh => none
  | .opened u p => some (u || p)
  | .closed => some true

end Phase

theorem Phase.flag_eq_false {p : Phase} : p.flag = some false ↔ p = .opened false false := by
  cases p with
  | opened u p => cases u <;> cases p <;> simp [flag]
  | _ => simp [flag]

/-- How far the stream `id` has come. -/
def Trace.phase (id : Int) : Trace → Phase
  | [] => .fresh
  | a :: t => (phase id t).mark id a

/-- ngtcp2 was told that the stream is reset. -/
def Act.shutsDown (id : Int) : Act → Bool
  | .shutdownStream i _ none => decide (i = id)
  | _ => false

/-- What ngtcp2 documents of the callbacks of a stream: the peer opens streams of its own side, and
such a stream is opened before all else; `stream_close` comes at most once and last, `stream_reset`
at most once, and no data behind a reset, a close or a local shutdown. -/
def Act.documented (role : Role) (a : Act) (t : Trace) : Bool :=
  match a with
  | .callback (.streamOpen id) => !isLocalStream role id && decide (t.phase id = .fresh)
  | .callback (.recvStreamData _ id _ _) =>
    (isLocalStream role id || decide (t.phase id ≠ .fresh)) && decide (t.phase id ≠ .closed) &&
      !(t.phase id).wasReset true && !t.any (Act.shutsDown id)
  | .callback (.streamClose _ id _) =>
    (isLocalStream role id || decide (t.phase id ≠ .fresh)) && decide (t.phase id ≠ .closed)
  | .callback (.streamReset id _ _) =>
    (isLocalStream role id || decide (t.phase id ≠ .fresh)) && decide (t.phase id ≠ .closed) &&
      !(t.phase id).wasReset true
  | _ => true

/-- `reset()` is called on a stream that it has not reset and that is not closed; data arrives on a
stream that it has not reset, or of whose reset ngtcp2 was told; and ngtcp2 reports about streams
that were handed out. -/
def Act.inTurn (a : Act) (t : Trace) : Bool :=
  match a with
  | .wasReset id _ => decide (t.phase id ≠ .closed) && !(t.phase id).wasReset false
  | .callback (.recvStreamData _ id _ _) =>
    decide (t.phase id ≠ .fresh) && (!(t.phase id).wasReset false || t.any (Act.shutsDown id))
  | .callback (.streamClose _ id _) | .callback (.streamReset id _ _) =>
    decide (t.phase id ≠ .fresh)
  | _ => true

namespace Trace

def Documented (role : Role) : Trace → Prop := History.Each fun a t => a.documented role t = true

def InTurn : Trace → Prop := History.Each fun a t => a.inTurn t = true

instance (role : Role) (t : Trace) : Decidable (Documented role t) :=
  inferInstanceAs (Decidable (History.Each _ t))

instance (t : Trace) : Decidable (InTurn t) := inferInstanceAs (Decidable (History.Each _ t))

end Trace

/-! ## Changes to one stream -/

namespace Connection

variable {c c' c'' : Connection} {i id : Int}

/-- The flag `closed` of the entry of a stream. -/
def closedAt (c : Connection) (id : Int) : Option Bool :=
  (c.getStreamEntry id).map StreamEntry.closed

/-- `c'` is `c` but for the stream `i`: it has the further events `es` of the stream, and `flag` for
`closed`. -/
structure OnStream (i : Int) (c c' : Connection) (es : List Event) (flag : Option Bool) : Prop where
  queue : c'.events = c.events ++ es
  ofStream : ∀ e ∈ es, e.streamId = i
  closedAt : ∀ id, c'.closedAt id = if id = i then flag else c.closedAt id

theorem closedAt_modifyEntry (f : StreamEntry → StreamEntry)
    (hf : ∀ e, (f e).streamId = e.streamId) (hclosed : ∀ e, (f e).closed = e.closed) :
    (c.modifyEntry i f hf).closedAt id = c.closedAt id := by
  unfold closedAt
  rw [get_modifyEntry]
  split
  · cases c.getStreamEntry id with
    | none => rfl
    | some e => exact congrArg some (hclosed e)
  · rfl

theorem closedAt_openStreamEntry : (c.openStreamEntry i).closedAt id =
    if id = i then some ((c.closedAt i).getD false) else c.closedAt id := by
  unfold closedAt getStreamEntry openStreamEntry
  rw [OrdTable.find?_addNew]
  by_cases h : id = i
  · subst h
    cases c.streams.find? id <;> simp [StreamEntry.alloc]
  · simp [h]

namespace OnStream

variable {es : List Event} {flag : Option Bool}

theorem refl (i : Int) (c : Connection) : OnStream i c c [] (c.closedAt i) := by
  refine ⟨(List.append_nil _).symm, List.forall_mem_nil _, fun id => ?_⟩
  split
  · rename_i h; rw [h]
  · rfl

/-- Another write to the entry, which leaves `closed` alone. -/
theorem modifyEntry (h : OnStream i c c' es flag) (f : StreamEntry → StreamEntry)
    (hf : ∀ e, (f e).streamId = e.streamId) (hclosed : ∀ e, (f e).closed = e.closed) :
    OnStream i c (c'.modifyEntry i f hf) es flag :=
  ⟨h.queue, h.ofStream, fun id => (closedAt_modifyEntry f hf hclosed).trans (h.closedAt id)⟩

/-- A write to the entry that sets `closed`. -/
theorem close (h : OnStream i c c' es flag) (f : StreamEntry → StreamEntry)
    (hf : ∀ e, (f e).streamId = e.streamId) (hclosed : ∀ e, (f e).closed = true) :
    OnStream i c (c'.modifyEntry i f hf) es (flag.map fun _ => true) := by
  refine ⟨h.queue, h.ofStream, fun id => ?_⟩
  have hflag := h.closedAt id
  unfold Connection.closedAt at hflag ⊢
  rw [get_modifyEntry]
  by_cases hid : id = i
  · subst hid
    rw [if_pos rfl] at hflag ⊢
    rw [if_pos rfl, ← hflag]
    cases c'.getStreamEntry id with
    | none => rfl
    | some e => exact congrArg some (hclosed e)
  · rw [if_neg hid] at hflag ⊢
    rw [if_neg hid]
    exact hflag

theorem openEntry (i : Int) (c : Connection) :
    OnStream i c (c.openStreamEntry i) [] (some ((c.closedAt i).getD false)) :=
  ⟨(List.append_nil _).symm, List.forall_mem_nil _, fun _ => closedAt_openStreamEntry⟩

/-- One more event. -/
theorem pushEvent (h : OnStream i c c' es flag) (type : EventType) (code : UInt64) (byPeer : Bool) :
    OnStream i c (c'.pushEvent type i code byPeer none)
      (es ++ [{ type, streamId := i, errorCode := code, byPeer, reason := none }]) flag := by
  refine ⟨?_, ?_, h.closedAt⟩
  · show c'.events ++ _ = _
    rw [h.queue, List.append_assoc]
    rfl
  · intro e he
    rcases List.mem_append.mp he with he | he
    · exact h.ofStream e he
    · rw [List.mem_singleton.mp he]

end OnStream

/-! ### The sources of events -/

theorem entry_closed (c : Connection) (i : Int) :
    (c.entry i).closed = (c.closedAt i).getD false := by
  unfold entry closedAt
  cases c.getStreamEntry i with
  | none => rfl
  | some e => rfl

/-- A callback about the stream. -/
theorem callback_on (c : Connection) {cb : Callback} (h : cb.streamId? = some i) :
    OnStream i c (c.callback cb)
      (if cb.enters || (c.getStreamEntry i).isSome then (c.entry i).tells cb else [])
      ((if cb.enters then some (c.entry i) else c.getStreamEntry i).map
        fun e => (e.react c.conn cb).closed) := by
  refine ⟨c.callback_events h, ?_, fun id => ?_⟩
  · split
    · exact fun e he => (StreamEntry.tells_about h _ e he).1
    · exact List.forall_mem_nil _
  · unfold closedAt
    rw [get_callback, h]
    by_cases hid : id = i
    · subst hid
      rw [if_pos rfl, if_pos rfl, Option.map_map]
      rfl
    · rw [if_neg fun heq => hid (Option.some.inj heq).symm, if_neg hid]

theorem streamOpenCb_on (c : Connection) (i : Int) : OnStream i c (c.streamOpenCb i)
    [{ type := .streamOpened, streamId := i, errorCode := 0, byPeer := true, reason := none }]
    (some ((c.closedAt i).getD false)) := by
  rw [← entry_closed]
  show OnStream i c (c.callback (.streamOpen i)) _ _
  exact c.callback_on rfl

theorem streamCloseCb_on (c : Connection) (set : Bool) (i : Int) (code : UInt64) :
    OnStream i c (c.streamCloseCb set i code)
      [{ type := .streamClosed, streamId := i, errorCode := if set then code else 0, byPeer := true,
         reason := none }] (some true) := by
  show OnStream i c (c.callback (.streamClose set i code)) _ _
  exact c.callback_on rfl

theorem streamResetCb_on (c : Connection) (i : Int) (code : UInt64) :
    OnStream i c (c.streamResetCb i code)
      [{ type := .streamReset, streamId := i, errorCode := code, byPeer := true, reason := none }]
      (some true) := by
  show OnStream i c (c.callback (.streamReset i 0 code)) _ _
  exact c.callback_on rfl

theorem recvStreamDataCb_on (c : Connection) (fin : Bool) (i : Int) (data : Bytes) :
    ∃ es, (es = [] ∨ ∃ e : Event, es = [e] ∧ e.type = .streamReadable) ∧
      OnStream i c (c.recvStreamDataCb fin i data) es (some ((c.closedAt i).getD false)) := by
  refine ⟨(c.entry i).tells (.recvStreamData fin i 0 data), ?_, ?_⟩
  · unfold StreamEntry.tells
    simp only
    split
    · exact .inr ⟨_, rfl, rfl⟩
    · exact .inl rfl
  · rw [← entry_closed]
    show OnStream i c (c.callback (.recvStreamData fin i 0 data)) _ _
    exact c.callback_on rfl

/-- `StreamWritable` comes for an entry that is not closed. -/
theorem ackedStreamDataOffsetCb_on (c : Connection) (i : Int) :
    ∃ es, (es = [] ∨ c.closedAt i = some false ∧ ∃ e : Event, es = [e] ∧ e.type = .streamWritable) ∧
      OnStream i c (c.ackedStreamDataOffsetCb i) es (c.closedAt i) := by
  have hon : OnStream i c (c.callback (.ackedStreamDataOffset i 0 0)) _ _ := c.callback_on rfl
  have hflag : ((c.getStreamEntry i).map
      fun e => (e.react c.conn (.ackedStreamDataOffset i 0 0)).closed) = c.closedAt i := by
    unfold closedAt
    simp only [StreamEntry.react_acked]
  refine ⟨_, ?_, hflag ▸ hon⟩
  cases hget : c.getStreamEntry i with
  | none => exact .inl rfl
  | some e =>
    rw [entry_of_get hget]
    unfold StreamEntry.tells
    simp only [Callback.enters, Option.isSome_some, Bool.or_true, if_true]
    split
    · exact .inl rfl
    · rename_i hopen
      refine .inr ⟨?_, _, rfl, rfl⟩
      simp only [Bool.or_eq_true, not_or, Bool.not_eq_true] at hopen
      unfold closedAt
      rw [hget]
      exact congrArg some hopen.1.1.1

theorem settle_on {o : Offer} (h : c.hasEntry o.streamId) (a : WritevAnswer) :
    ∃ es, (es = [] ∨ c.closedAt o.streamId = some false ∧
        ∃ e : Event, es = [e] ∧ e.type = .streamWritable) ∧
      OnStream o.streamId c (c.settle o a) es (c.closedAt o.streamId) := by
  refine ⟨(c.entry o.streamId).answerTells o a, ?_, c.settle_events o a, fun e he => ?_, fun id => ?_⟩
  · unfold StreamEntry.answerTells
    cases a.effect with
    | update p =>
      simp only [StreamEntry.wakes]
      split
      · rename_i hwakes
        refine .inr ⟨?_, _, rfl, rfl⟩
        rw [StreamEntry.updateTx_eq] at hwakes
        simp only [StreamEntry.becomesWritable, Bool.and_eq_true, Bool.not_eq_true'] at hwakes
        unfold closedAt
        rw [get_of_hasEntry h]
        exact congrArg some hwakes.1.1.1.2
      · exact .inl rfl
    | discard => exact .inl rfl
    | ignore => exact .inl rfl
  · refine ((StreamEntry.answerTells_about o a _) e he).1.trans ?_
    exact c.entry_streamId o.streamId
  · have hsettle : (c.settle o a).closedAt id =
        (c.modifyEntry o.streamId (·.answer o a) (StreamEntry.answer_streamId o a)).closedAt id :=
      congrArg (fun t : StreamTable => (t.find? id).map StreamEntry.closed) (c.settle_streams o a)
    rw [hsettle, closedAt_modifyEntry _ _ fun e => (StreamEntry.answer_ends o a e).1]
    split
    · rename_i hid; rw [hid]
    · rfl

theorem enterStream_on (c : Connection) (i : Int) (pending : Bool) :
    OnStream i c (c.enterStream i pending)
      [{ type := .streamOpened, streamId := i, errorCode := 0, byPeer := false, reason := none },
       { type := .streamWritable, streamId := i, errorCode := 0, byPeer := false, reason := none }]
      (some ((c.closedAt i).getD false)) := by
  have hopen := (OnStream.openEntry i c).modifyEntry
    (fun e => { e with pendingOpen := pending, writable := true }) (fun _ => rfl) fun _ => rfl
  exact (hopen.pushEvent .streamOpened 0 false).pushEvent .streamWritable 0 false

end Connection

/-! ## The invariant -/

/-- The events of the stream `id`, of those that were ever queued. -/
def State.eventsOf (s : State) (id : Int) : List Event :=
  s.queued.filter fun e => decide (e.streamId = id)

/-- The events of the stream are those of its phase, and so is `closed` of its entry. -/
structure StreamInv (id : Int) (s : State) : Prop where
  phase : Phase.after .fresh (s.eventsOf id) = some (s.trace.phase id)
  closedAt : s.conn.closedAt id = (s.trace.phase id).flag

/-- No act about a stream. -/
theorem Trace.phase_cons {a : Act} {id : Int} (h : ∀ p : Phase, p.mark id a = p) (t : Trace) :
    Trace.phase id (a :: t) = t.phase id := h _

theorem Phase.mark_quiet {a : Act} (h : a.quiet = true) (id : Int) (p : Phase) : p.mark id a = p := by
  cases a with
  | callback cb => cases h
  | returned | wasReset => cases h
  | _ => rfl

namespace StreamInv

variable {s s' : State} {id i : Int} {es : List Event} {flag : Option Bool}

/-- Nothing happens to the stream. -/
theorem frame (h : StreamInv id s) (hq : s'.queued = s.queued)
    (hstreams : s'.conn.closedAt id = s.conn.closedAt id)
    (hp : s'.trace.phase id = s.trace.phase id) : StreamInv id s' := by
  refine ⟨?_, ?_⟩
  · unfold State.eventsOf
    rw [hq, hp]
    exact h.phase
  · rw [hstreams, hp]
    exact h.closedAt

/-- A change to one stream. -/
theorem step (h : StreamInv id s) (hon : s.conn.OnStream i s'.conn es flag)
    (ht : s'.trace.drainedEvents = s.trace.drainedEvents)
    (hother : id ≠ i → s'.trace.phase id = s.trace.phase id)
    (hself : id = i → (s.trace.phase id).after es = some (s'.trace.phase id) ∧
      flag = (s'.trace.phase id).flag) : StreamInv id s' := by
  have hq : s'.eventsOf id = s.eventsOf id ++ es.filter fun e => decide (e.streamId = id) := by
    unfold State.eventsOf State.queued
    rw [ht, hon.queue, ← List.append_assoc, List.filter_append]
  have hclosed := hon.closedAt id
  by_cases hid : id = i
  · obtain ⟨hafter, hflag⟩ := hself hid
    have hall : (es.filter fun e => decide (e.streamId = id)) = es :=
      List.filter_eq_self.mpr fun e he => decide_eq_true ((hon.ofStream e he).trans hid.symm)
    rw [if_pos hid] at hclosed
    refine ⟨?_, hclosed.trans hflag⟩
    rw [hq, hall, Phase.after_append, h.phase]
    exact hafter
  · have hnone : (es.filter fun e => decide (e.streamId = id)) = [] := by
      refine List.filter_eq_nil_iff.mpr fun e he heq => hid ?_
      exact (of_decide_eq_true heq).symm.trans (hon.ofStream e he)
    rw [if_neg hid] at hclosed
    refine ⟨?_, ?_⟩
    · rw [hq, hnone, List.append_nil, hother hid]
      exact h.phase
    · rw [hclosed, hother hid]
      exact h.closedAt

/-- `StreamWritable` for an entry that is not closed. -/
theorem writable (h : StreamInv id s)
    (hes : es = [] ∨ s.conn.closedAt i = some false ∧ ∃ e : Event, es = [e] ∧ e.type = .streamWritable)
    (hon : s.conn.OnStream i s'.conn es (s.conn.closedAt i))
    (ht : s'.trace.drainedEvents = s.trace.drainedEvents)
    (hp : s'.trace.phase id = s.trace.phase id) : StreamInv id s' := by
  refine h.step hon ht (fun _ => hp) ?_
  rintro rfl
  rw [hp]
  refine ⟨?_, h.closedAt⟩
  rcases hes with rfl | ⟨hclosed, e, rfl, he⟩
  · rfl
  · rw [Phase.flag_eq_false.mp (h.closedAt.symm.trans hclosed), Phase.after_singleton]
    exact Phase.next_data (by rw [he]; rfl) ⟨rfl, rfl⟩

/-- A stream is opened, by the peer or by an open that has returned. -/
theorem opened (h : StreamInv id s) {e : Event} {more : List Event}
    (hon : s.conn.OnStream i s'.conn (e :: more) (some ((s.conn.closedAt i).getD false)))
    (ht : s'.trace.drainedEvents = s.trace.drainedEvents)
    (hp : s'.trace.phase id = if i = id then .opened false false else s.trace.phase id)
    (hfresh : s.trace.phase i = .fresh) (he : e.type = .streamOpened)
    (hmore : ∀ e' ∈ more, e'.type.isData = true) : StreamInv id s' := by
  refine h.step hon ht (fun hne => by rw [hp, if_neg (Ne.symm hne)]) ?_
  rintro rfl
  rw [if_pos rfl] at hp
  rw [hp, hfresh]
  refine ⟨?_, ?_⟩
  · rw [Phase.after_cons, Phase.next_fresh.mpr ⟨he, rfl⟩]
    exact Phase.after_data hmore
  · rw [h.closedAt, hfresh]
    rfl

/-- A terminal event. -/
theorem ended (h : StreamInv id s) {e : Event} (hon : s.conn.OnStream i s'.conn [e] (some true))
    (ht : s'.trace.drainedEvents = s.trace.drainedEvents) {q : Phase}
    (hp : s'.trace.phase id = if i = id then q else s.trace.phase id)
    (hnext : (s.trace.phase i).next e = some q) (hflag : q.flag = some true) : StreamInv id s' := by
  refine h.step hon ht (fun hne => by rw [hp, if_neg (Ne.symm hne)]) ?_
  rintro rfl
  rw [if_pos rfl] at hp
  rw [hp, Phase.after_singleton]
  exact ⟨hnext, hflag.symm⟩

/-- An event about the connection. -/
theorem connection (h : StreamInv id s) (hid : 0 ≤ id) (es : List Event)
    (hstreams : s'.conn.streams = s.conn.streams) (hq : s'.conn.events = s.conn.events ++ es)
    (hes : ∀ e ∈ es, e.streamId = -1) (ht : s'.trace.drainedEvents = s.trace.drainedEvents)
    (hp : s'.trace.phase id = s.trace.phase id) : StreamInv id s' := by
  have hon : s.conn.OnStream (-1) s'.conn es (s.conn.closedAt (-1)) := by
    refine ⟨hq, hes, fun i => ?_⟩
    have hsame : s'.conn.closedAt i = s.conn.closedAt i := by
      unfold Connection.closedAt Connection.getStreamEntry
      rw [hstreams]
    split
    · rename_i hi; rw [hsame, hi]
    · exact hsame
  exact h.step hon ht (fun _ => hp) fun heq => absurd hid (by omega)

end StreamInv

/-! ## The callbacks -/

namespace Phase

variable {p : Phase}

theorem opened_of (hfresh : p ≠ .fresh) (hclosed : p ≠ .closed) :
    ∃ byUs byPeer, p = .opened byUs byPeer := by
  cases p with
  | fresh => exact absurd rfl hfresh
  | closed => exact absurd rfl hclosed
  | opened byUs byPeer => exact ⟨byUs, byPeer, rfl⟩

end Phase

/-- A callback that ngtcp2 documents, about a stream that was handed out. -/
theorem StreamInv.callback {s : State} {id : Int} {role : Role} (h : StreamInv id s) (hid : 0 ≤ id)
    (cb : Callback) (hdoc : (Act.callback cb).documented role s.trace = true)
    (hturn : (Act.callback cb).inTurn s.trace = true) : StreamInv id (s.runCallback cb) := by
  cases cb with
  | handshakeCompleted =>
    by_cases he : s.conn.established = true
    · have hconn : (s.runCallback .handshakeCompleted).conn = s.conn := if_pos he
      exact h.connection hid [] (by rw [hconn]) (by rw [hconn, List.append_nil])
        (List.forall_mem_nil _) rfl rfl
    · have hconn : (s.runCallback .handshakeCompleted).conn =
          { s.conn with established := true }.pushEvent .handshakeCompleted (-1) 0 false none :=
        if_neg he
      refine h.connection hid [_] (by rw [hconn]; rfl) (by rw [hconn]; rfl) ?_ rfl rfl
      intro e he'
      rw [List.mem_singleton.mp he']
  | streamOpen i =>
    simp only [Act.documented, Bool.and_eq_true, decide_eq_true_eq] at hdoc
    exact h.opened (s.conn.streamOpenCb_on i) rfl rfl hdoc.2 rfl (List.forall_mem_nil _)
  | recvStreamData fin i off data =>
    obtain ⟨es, hes, hon⟩ := s.conn.recvStreamDataCb_on fin i data
    simp only [Act.documented, Act.inTurn, Bool.and_eq_true, Bool.or_eq_true, Bool.not_eq_true',
      decide_eq_true_eq] at hdoc hturn
    obtain ⟨⟨⟨-, hclosed⟩, hpeer⟩, hshut⟩ := hdoc
    obtain ⟨u, p, hp⟩ := Phase.opened_of hturn.1 hclosed
    -- neither side has reset the stream
    rw [hp] at hpeer hturn
    have hus : u = false := by
      rcases hturn.2 with hus | hshut'
      · exact hus
      · exact absurd (hshut.symm.trans hshut') nofun
    obtain rfl : p = false := hpeer
    subst hus
    refine h.step hon rfl (fun _ => rfl) ?_
    rintro rfl
    show _ = some (s.trace.phase id) ∧ _ = (s.trace.phase id).flag
    rw [h.closedAt, hp]
    refine ⟨?_, rfl⟩
    rcases hes with rfl | ⟨e, rfl, he⟩
    · rfl
    · exact (Phase.after_singleton _ e).trans (Phase.next_data (by rw [he]; rfl) ⟨rfl, rfl⟩)
  | streamClose set i code =>
    simp only [Act.documented, Act.inTurn, Bool.and_eq_true, decide_eq_true_eq] at hdoc hturn
    obtain ⟨u, p, hp⟩ := Phase.opened_of hturn hdoc.2
    refine h.ended (s.conn.streamCloseCb_on set i code) rfl (q := .closed) ?_ ?_ rfl
    · show (if i = id then (s.trace.phase id).close else s.trace.phase id) = _
      split
      · rename_i heq; rw [← heq, hp]; rfl
      · rfl
    · rw [hp]
      exact Phase.next_closed rfl
  | streamReset i size code =>
    simp only [Act.documented, Act.inTurn, Bool.and_eq_true, Bool.not_eq_true', decide_eq_true_eq]
      at hdoc hturn
    obtain ⟨u, p, hp⟩ := Phase.opened_of hturn hdoc.1.2
    rw [hp] at hdoc
    obtain rfl : p = false := hdoc.2
    refine h.ended (s.conn.streamResetCb_on i code) rfl (q := .opened u true) ?_ ?_ ?_
    · show (if i = id then (s.trace.phase id).reset true else s.trace.phase id) = _
      split
      · rename_i heq; rw [← heq, hp]; rfl
      · rfl
    · rw [hp]
      exact Phase.next_reset rfl
    · exact congrArg some (Bool.or_true u)
  | ackedStreamDataOffset i off len =>
    obtain ⟨es, hes, hon⟩ := s.conn.ackedStreamDataOffsetCb_on i
    exact h.writable hes hon rfl rfl

/-! ## The moves -/

/-- What the moves rely on: the callbacks and the resets come as they should, and no id of the
connection's own side is handed out twice. -/
structure Trace.Orderly (role : Role) (t : Trace) : Prop where
  documented : t.Documented role
  inTurn : t.InTurn
  nodup : t.returnedIds.Nodup
  isLocal : ∀ id ∈ t.returnedIds, isLocalStream role id = true

namespace Trace

variable {role : Role} {t t' : Trace} {id : Int}

theorem returnedIds_suffix (h : t <:+ t') : t.returnedIds <:+ t'.returnedIds := by
  induction t' with
  | nil => rw [List.suffix_nil.mp h]
  | cons a t' ih =>
    rcases List.suffix_cons_iff.mp h with rfl | h
    · exact List.suffix_rfl
    · refine (ih h).trans ?_
      cases a with
      | returned b i p => exact List.suffix_cons _ _
      | _ => exact List.suffix_rfl

theorem Orderly.of_suffix (ho : t'.Orderly role) (h : t <:+ t') : t.Orderly role where
  documented := ho.documented.of_suffix h
  inTurn := ho.inTurn.of_suffix h
  nodup := ho.nodup.sublist (returnedIds_suffix h).sublist
  isLocal id hid := ho.isLocal id ((returnedIds_suffix h).subset hid)

/-- Only an open takes a stream from the fresh phase. -/
theorem opened_of_phase (h : t.phase id ≠ .fresh) :
    id ∈ t.returnedIds ∨ .callback (.streamOpen id) ∈ t := by
  induction t with
  | nil => exact absurd rfl h
  | cons a t ih =>
    by_cases hp : Trace.phase id t = .fresh
    · have hmark : (Trace.phase id t).mark id a ≠ .fresh := h
      rw [hp] at hmark
      unfold Phase.mark at hmark
      split at hmark
      · rename_i b i p
        by_cases hi : i = id
        · exact .inl (hi ▸ List.mem_cons_self)
        · exact absurd (if_neg hi) hmark
      · rename_i i
        by_cases hi : i = id
        · exact .inr (hi ▸ List.mem_cons_self)
        · exact absurd (if_neg hi) hmark
      all_goals simp [Phase.reset, Phase.close] at hmark
    · rcases ih hp with hret | hopen
      · exact .inl ((returnedIds_suffix (List.suffix_cons a t)).subset hret)
      · exact .inr (List.mem_cons_of_mem a hopen)

/-- A stream is fresh before its id is returned. -/
theorem Orderly.fresh {b p : Bool} (ho : Orderly role (.returned b id p :: t)) :
    t.phase id = .fresh := by
  by_contra hp
  rcases opened_of_phase hp with hret | hopen
  · exact (List.nodup_cons.mp ho.nodup).1 hret
  · obtain ⟨before, rest, rfl⟩ := List.append_of_mem hopen
    have hsuffix : .callback (.streamOpen id) :: rest <:+
        .returned b id p :: (before ++ .callback (.streamOpen id) :: rest) :=
      (List.suffix_append _ _).trans (List.suffix_cons _ _)
    have hdoc := ho.documented _ _ hsuffix
    simp only [Act.documented, Bool.and_eq_true, Bool.not_eq_true'] at hdoc
    exact absurd (hdoc.1.symm.trans (ho.isLocal id List.mem_cons_self)) nofun

end Trace

namespace StreamInv

variable {s s' : State} {id : Int} {role : Role}

/-- A write to an entry that leaves `closed` alone. -/
theorem modifyEntry (h : StreamInv id s) (i : Int) (f : StreamEntry → StreamEntry)
    (hf : ∀ e, (f e).streamId = e.streamId) (hclosed : ∀ e, (f e).closed = e.closed) :
    StreamInv id (s.modifyEntry i f hf) :=
  h.frame rfl (Connection.closedAt_modifyEntry f hf hclosed) rfl

/-- An act that is neither about a stream's phase nor hands out events. -/
theorem log (h : StreamInv id s) (a : Act) (hevents : Trace.drainedEvents [a] = [])
    (hmark : ∀ p : Phase, p.mark id a = p) : StreamInv id (s.log a) := by
  refine h.frame ?_ rfl (Trace.phase_cons hmark _)
  unfold State.queued
  rw [State.log_trace, show a :: s.trace = [a] ++ s.trace from rfl, Trace.drainedEvents_append,
    hevents, List.append_nil]
  rfl

theorem returned (h : StreamInv id s) (b : Bool) (rv : Except Err Int) (pending : Bool)
    (ho : (Connection.returnStream (s.log (.openLocal b rv)) b rv pending).1.trace.Orderly role) :
    StreamInv id (Connection.returnStream (s.log (.openLocal b rv)) b rv pending).1 := by
  have hon := (s.conn.assignStreamId b rv).1.enterStream_on (s.conn.assignStreamId b rv).2 pending
  obtain ⟨_, _, hc⟩ := s.conn.assignStreamId_rest b rv
  have hevents : (s.conn.assignStreamId b rv).1.events = s.conn.events := by rw [hc]
  have hclosed (i : Int) : (s.conn.assignStreamId b rv).1.closedAt i = s.conn.closedAt i := by
    rw [hc]; rfl
  rw [hclosed] at hon
  refine h.opened ⟨hon.queue.trans (by rw [hevents]), hon.ofStream, fun i => ?_⟩ rfl rfl ?_ rfl ?_
  · refine (hon.closedAt i).trans ?_
    rw [hclosed]
  · exact Trace.Orderly.fresh (t := .openLocal b rv :: s.trace) ho
  · simp [EventType.isData]

theorem reset (h : StreamInv id s) (i : Int) (code : UInt64) (hentry : s.conn.hasEntry i)
    (hturn : (Act.wasReset i code).inTurn s.trace = true) :
    StreamInv id (((s.modifyEntry i StreamEntry.resetLocal fun _ => rfl).withConn
      ((s.modifyEntry i StreamEntry.resetLocal fun _ => rfl).conn.pushEvent .streamReset i code
        false none)).log (.wasReset i code)) := by
  have hon := ((Connection.OnStream.refl i s.conn).close StreamEntry.resetLocal (fun _ => rfl)
    fun _ => rfl).pushEvent .streamReset code false
  refine h.step hon rfl (fun hne => if_neg (Ne.symm hne)) ?_
  rintro rfl
  simp only [Act.inTurn, Bool.and_eq_true, Bool.not_eq_true', decide_eq_true_eq] at hturn
  -- there is an entry, so the stream has been opened
  have hsome : s.conn.closedAt id ≠ none := by
    unfold Connection.closedAt
    rw [Connection.get_of_hasEntry hentry]
    exact Option.some_ne_none _
  have hfresh : s.trace.phase id ≠ .fresh := by
    intro hp
    rw [h.closedAt, hp] at hsome
    exact hsome rfl
  obtain ⟨u, p, hp⟩ := Phase.opened_of hfresh hturn.1
  rw [hp] at hturn
  obtain rfl : u = false := hturn.2
  have hafter : Trace.phase id (.wasReset id code :: s.trace) = .opened true p := by
    show (if id = id then (s.trace.phase id).reset false else s.trace.phase id) = _
    rw [if_pos rfl, hp]
    rfl
  rw [h.closedAt, hp]
  refine ⟨?_, ?_⟩
  · refine (Phase.after_singleton _ _).trans ((Phase.next_reset rfl).trans ?_)
    exact congrArg some hafter.symm
  · exact (congrArg Phase.flag hafter).symm

end StreamInv

theorem Move.streamInv {s s' : State} (hm : Move s s') {role : Role} (ho : s'.trace.Orderly role)
    {id : Int} (hid : 0 ≤ id) (h : StreamInv id s) : StreamInv id s' := by
  cases hm with
  | quiet a ha =>
    refine h.log a ?_ (Phase.mark_quiet ha id)
    have hevents := Trace.drainedEvents_quiet ha []
    exact hevents
  | threw e he => exact h.log (.threw e) rfl fun _ => rfl
  | callback cb =>
    exact h.callback hid cb (History.each_cons.mp ho.documented).1
      (History.each_cons.mp ho.inTurn).1
  | clamp i hi =>
    refine h.modifyEntry i _ _ fun e => ?_
    rw [StreamEntry.clampTxOffset_eq]
  | wrote i data hi =>
    exact (h.modifyEntry i (·.write data) (fun _ => rfl) fun _ => rfl).log _ rfl fun _ => rfl
  | ended i data hi =>
    exact (h.modifyEntry i (·.end_ data) (fun _ => rfl) fun _ => rfl).log _ rfl fun _ => rfl
  | reset i code hi => exact h.reset i code hi (History.each_cons.mp ho.inTurn).1
  | read i chunk rest hi hrx =>
    exact (h.modifyEntry i (·.readRest rest) (fun _ => rfl) fun _ => rfl).log _ rfl fun _ => rfl
  | opened b i hconn => exact h.returned b (.ok i) false ho
  | blocked b hconn => exact h.returned b (.error .streamIdBlocked) true ho
  | openMatched i hconn hi hp =>
    exact (h.log (.openPending i (.ok i)) rfl fun _ => rfl).modifyEntry i
      (fun e => { e with pendingOpen := false }) (fun _ => rfl) fun _ => rfl
  | openMismatched i opened hconn hi hp hne => exact h.log (.openPending i (.ok opened)) rfl fun _ => rfl
  | settle o a hoff hp =>
    obtain ⟨es, hes, hon⟩ := s.conn.settle_on hoff.hasEntry a
    exact h.writable hes hon rfl rfl
  | sync p =>
    obtain ⟨es, hes, hall⟩ := s.conn.syncState_events p
    obtain ⟨_, _, _, _, _, hc⟩ := s.conn.syncState_rest p
    have hstreams : (s.syncState p).conn.streams = s.conn.streams := by
      rw [State.syncState_conn, hc]
    refine h.connection hid es hstreams (by rw [State.syncState_conn, hes])
      (fun e he => (hall e he).1) ?_ ?_
    · rcases s.syncState_trace p with ht | ht
      · rw [ht]
      · rw [ht]; rfl
    · rcases s.syncState_trace p with ht | ht
      · rw [ht]
      · rw [ht]; rfl
  | lastError e => exact h.frame rfl rfl rfl
  | close code reason hopen =>
    obtain ⟨es, hes, hall⟩ := Connection.close_events s code reason
    obtain ⟨_, _, _, _, _, _, hc⟩ := Connection.close_rest s code reason
    refine h.connection hid es (by rw [hc]) hes (fun e he => (hall e he).1) ?_ ?_
    · rw [Connection.close_trace]
    · rw [Connection.close_trace]
  | closeSent hreq => exact h.frame rfl rfl rfl
  | drainEvents => exact h.frame (List.append_nil _) rfl rfl

/-! ## Runs -/

theorem isLocalStream_ticketId (role : Role) (b : Bool) (k : Nat) :
    isLocalStream role (ticketId role b k) = true := by
  unfold isLocalStream ticketId firstStreamId
  cases role <;> cases b <;> simp <;> omega

/-- The ids that the opens return are of the connection's own side. -/
theorem IdInv.returnedIds_local {role : Role} {c : Connection} {t : Trace} (h : IdInv role c t)
    {id : Int} (hid : id ∈ t.returnedIds) : isLocalStream role id = true := by
  have hmem : id ∈ t.returned (isBidiStream id) := by
    rw [Trace.returned_eq_filter h.returned_class]
    exact List.mem_filter.mpr ⟨hid, beq_self_eq_true _⟩
  rw [(h _).returned] at hmem
  obtain ⟨k, -, hk⟩ := List.mem_map.mp hmem
  rw [← hk]
  exact isLocalStream_ticketId ..

theorem Start.base_streamInv (start : Start) (id : Int) : StreamInv id start.base := by
  cases start with
  | _ => exact ⟨rfl, rfl⟩

/-- The events of every stream are in order, when no id is handed out twice, `reset()` comes once and
not behind a close, no data comes behind a reset that ngtcp2 was not told of, and ngtcp2 reports
about streams that were handed out. -/
theorem streamProtocol_run (start : Start) (ops : List Op)
    (hcons : (start.run ops).trace.Consecutive start.role)
    (hdoc : (start.run ops).trace.Documented start.role)
    (hfirst : (start.run ops).trace.PromisesFirst) (hturn : (start.run ops).trace.InTurn)
    (id : Int) (hid : 0 ≤ id) : StreamProtocol ((start.run ops).eventsOf id) := by
  obtain ⟨hids, hdesks⟩ := start.run_promisesFirst ops hcons
  have ho : (start.run ops).trace.Orderly start.role :=
    ⟨hdoc, hturn, hids.handedOnce_iff.mpr (hdesks.mp hfirst), fun _ => hids.returnedIds_local⟩
  have hinv : StreamInv id (start.run ops) :=
    Moves.inv (C := fun s => s.trace.Orderly start.role) (I := StreamInv id)
      (fun _ _ hm hc => hc.of_suffix hm.trace_suffix) (fun _ _ hm hc h => hm.streamInv hc hid h)
      (start.run_moves ops) ho (start.base_streamInv id)
  refine Phase.accepts_fresh_iff.mp ?_
  unfold Phase.Accepts
  rw [hinv.phase]
  rfl

/-- The peer's stream 1 sends a byte, and both sides reset it before ngtcp2 closes it. -/
def resetByBoth : List Op :=
  [.recv (fun _ _ => some [{ family := .inet }])
      { payload := [1], peerAddress := some { host := [49], port := 4433 }, localAddress := none }
      { callbacks := [.streamOpen 1, .recvStreamData false 1 0 [7]] },
    .reset 1 0 {},
    .recv (fun _ _ => some [{ family := .inet }])
      { payload := [1], peerAddress := some { host := [49], port := 4433 }, localAddress := none }
      { callbacks := [.streamReset 1 1 0, .streamClose false 1 0] }]

theorem streamProtocol_run_resetByBoth :
    StreamProtocol (((Start.client {} none none).run resetByBoth).eventsOf 1) ∧
      (((Start.client {} none none).run resetByBoth).eventsOf 1).map Event.type =
        [.streamOpened, .streamReadable, .streamReset, .streamReset, .streamClosed] :=
  ⟨streamProtocol_run (.client {} none none) resetByBoth (by decide) (by decide) (by decide)
    (by decide) 1 (by decide), by decide⟩

/-- `reset()` is called twice. -/
theorem reset_twice :
    ¬ ∀ (start : Start) (ops : List Op), (start.run ops).trace.Consecutive start.role →
      (start.run ops).trace.Documented start.role → ∀ id, 0 ≤ id →
      StreamProtocol ((start.run ops).eventsOf id) := by
  intro hall
  have hclaim := hall (.client {} none none) [.openStream (.ok 0), .reset 0 0 {}, .reset 0 0 {}]
    (by decide) (by decide) 0 (by decide)
  revert hclaim
  rw [← Phase.accepts_fresh_iff]
  decide

end PhpQuic
