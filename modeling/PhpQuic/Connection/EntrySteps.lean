import PhpQuic.Lifecycle

/-!
# One move, as one stream sees it

Proof-only. `EntryStep conn id` lists the changes to the entry of the stream `id`, each with the acts
that it adds to the history, what the code has checked before it, and the events that it queues about
the stream. Every move of the connection is such a change of every stream (`Move.entryMove`), so an
invariant of an entry and its history is a fact about ten cases.

* `isRemoteUni`: the peer's unidirectional streams, as `php_quic_stream_is_remote_unidirectional`
  has them.
* `State.about`, `State.told`: all events ever queued about the stream, in their order, and their
  types.
* `Start.Passes.inv`: an invariant of the changes holds in every state that a run passes through.
-/

namespace PhpQuic

open Runs (Moves)

/-- A unidirectional stream of the peer of `conn`; without a connection there is none. -/
def isRemoteUni (conn : Option Role) (id : Int) : Bool :=
  conn.any fun role => !isBidiStream id && !isLocalStream role id

theorem Connection.isRemoteUnidirectional_eq (c : Connection) (id : Int) :
    c.isRemoteUnidirectional id = isRemoteUni c.conn id := by
  unfold Connection.isRemoteUnidirectional isRemoteUni
  cases c.conn <;> rfl

/-! ## The events about a stream -/

/-- The events about the stream `id`. -/
def aboutOf (id : Int) (es : List Event) : List Event :=
  es.filter fun e => decide (e.streamId = id) && e.type.ofStream

theorem aboutOf_append (id : Int) (es es' : List Event) :
    aboutOf id (es ++ es') = aboutOf id es ++ aboutOf id es' := List.filter_append ..

/-- Events about one stream. -/
theorem aboutOf_stream {i : Int} {es : List Event}
    (h : ∀ e ∈ es, e.streamId = i ∧ e.type.ofStream = true) (id : Int) :
    aboutOf id es = if i = id then es else [] := by
  unfold aboutOf
  split
  · rename_i hid
    subst hid
    refine List.filter_eq_self.mpr fun e he => ?_
    rw [decide_eq_true (h e he).1, (h e he).2]
    rfl
  · rename_i hid
    refine List.filter_eq_nil_iff.mpr fun e he => ?_
    rw [(h e he).1, decide_eq_false hid]
    exact Bool.false_ne_true

/-- Events about the connection. -/
theorem aboutOf_connection {es : List Event} (h : ∀ e ∈ es, e.type.ofStream = false) (id : Int) :
    aboutOf id es = [] := by
  refine List.filter_eq_nil_iff.mpr fun e he => ?_
  rw [h e he, Bool.and_false]
  exact Bool.false_ne_true

/-- The events ever queued about the stream `id`. -/
def State.about (s : State) (id : Int) : List Event := aboutOf id s.queued

/-- The types of the events ever queued about the stream `id`. -/
def State.told (s : State) (id : Int) : List EventType := (s.about id).map Event.type

theorem State.told_of_about {s s' : State} {es : List Event} {id : Int}
    (h : s'.about id = s.about id ++ es) : s'.told id = s.told id ++ es.map Event.type := by
  unfold State.told
  rw [h, List.map_append]

theorem State.about_append {s s' : State} {es : List Event}
    (ht : s'.trace.drainedEvents = s.trace.drainedEvents)
    (he : s'.conn.events = s.conn.events ++ es) (id : Int) :
    s'.about id = s.about id ++ aboutOf id es := by
  unfold State.about State.queued
  rw [ht, he, ← List.append_assoc, aboutOf_append]

theorem State.about_keep {s s' : State} (ht : s'.trace.drainedEvents = s.trace.drainedEvents)
    (he : s'.conn.events = s.conn.events) (id : Int) : s'.about id = s.about id := by
  unfold State.about State.queued
  rw [ht, he]

namespace StreamEntry

theorem tells_about {cb : Callback} {id : Int} (h : cb.streamId? = some id) (e : StreamEntry) :
    ∀ ev ∈ e.tells cb, ev.streamId = id ∧ ev.type.ofStream = true := by
  cases cb with
  | handshakeCompleted => cases h
  | recvStreamData fin i off data =>
    cases h
    unfold tells
    simp only
    split
    · simp [EventType.ofStream]
    · exact List.forall_mem_nil _
  | ackedStreamDataOffset i off len =>
    cases h
    unfold tells
    simp only
    split
    · exact List.forall_mem_nil _
    · simp [EventType.ofStream]
  | streamOpen | streamClose | streamReset => cases h; simp [tells, EventType.ofStream]

theorem answerTells_about (o : Offer) (a : WritevAnswer) (e : StreamEntry) :
    ∀ ev ∈ e.answerTells o a, ev.streamId = e.streamId ∧ ev.type.ofStream = true := by
  unfold answerTells
  cases a.effect with
  | update p =>
    simp only [wakes]
    split
    · simp [EventType.ofStream]
    · exact List.forall_mem_nil _
  | discard => exact List.forall_mem_nil _
  | ignore => exact List.forall_mem_nil _

end StreamEntry

namespace Connection

/-- The events of `sync_state` are about the connection. -/
theorem syncState_events (c : Connection) (p : Periods) :
    ∃ es, (c.syncState p).events = c.events ++ es ∧
      ∀ e ∈ es, e.streamId = -1 ∧ e.type.ofStream = false := by
  have hnone (c : Connection) : ∃ es, c.events = c.events ++ es ∧
      ∀ e ∈ es, e.streamId = -1 ∧ e.type.ofStream = false :=
    ⟨[], (List.append_nil _).symm, List.forall_mem_nil _⟩
  have hdrain (c : Connection) : ∃ es, c.noteDraining.events = c.events ++ es ∧
      ∀ e ∈ es, e.streamId = -1 ∧ e.type.ofStream = false := by
    unfold noteDraining
    simp only
    split
    · exact hnone _
    · exact ⟨_, rfl, by simp [EventType.ofStream]⟩
  have hclose (c : Connection) (code : Option UInt64) :
      ∃ es, (c.noteClosed code).events = c.events ++ es ∧
        ∀ e ∈ es, e.streamId = -1 ∧ e.type.ofStream = false := by
    unfold noteClosed
    simp only
    split
    · exact hnone _
    · exact ⟨_, rfl, by simp [EventType.ofStream]⟩
  unfold syncState
  split
  · exact hnone c
  · have hfirst : ∃ es, (if p.inDraining then c.noteDraining else c).events = c.events ++ es ∧
        ∀ e ∈ es, e.streamId = -1 ∧ e.type.ofStream = false := by
      split
      · exact hdrain c
      · exact hnone c
    simp only
    split
    · obtain ⟨es, hes, hall⟩ := hfirst
      obtain ⟨es', hes', hall'⟩ := hclose (if p.inDraining then c.noteDraining else c) p.ccerr
      refine ⟨es ++ es', by rw [hes', hes, List.append_assoc], fun e he => ?_⟩
      rcases List.mem_append.mp he with he | he
      · exact hall e he
      · exact hall' e he
    · exact hfirst

theorem close_events (s : State) (code : Int64) (reason : Option Bytes) :
    ∃ es, (close s code reason).1.conn.events = s.conn.events ++ es ∧
      ∀ e ∈ es, e.streamId = -1 ∧ e.type.ofStream = false := by
  unfold close
  split
  · exact ⟨[], (List.append_nil _).symm, List.forall_mem_nil _⟩
  · simp only
    split
    · exact ⟨[], (List.append_nil _).symm, List.forall_mem_nil _⟩
    · exact ⟨_, rfl, by simp [EventType.ofStream]⟩

end Connection

/-! ## The changes -/

/-- The act changes the entry of the stream, or may. -/
def Act.concerns (id : Int) : Act → Bool
  | .wrote i _ | .ended i _ | .wasReset i _ | .returned _ i _ => decide (i = id)
  | .chunk i data => decide (i = id) && decide (data ≠ [])
  | .openPending i (.ok opened) => decide (i = id) && decide (opened = id)
  | .writev (some o) _ => decide (o.streamId = id)
  | .callback cb => decide (cb.streamId? = some id)
  | _ => false

/-- What a change does to the entry of the stream `id`, if there is one. -/
inductive EntryStep (conn : Option Role) (id : Int) :
    Option StreamEntry → Trace → Option StreamEntry → Trace → List Event → Prop
  | other {e : Option StreamEntry} {t : Trace} (as : List Act)
    (has : ∀ a ∈ as, a.concerns id = false) : EntryStep conn id e t e (as ++ t) []
  | clamp {e : StreamEntry} {t : Trace} :
    EntryStep conn id (some e) t (some e.clampTxOffset) t []
  | wrote {e : StreamEntry} {t : Trace} (data : Bytes) (hclosed : e.closed = false)
    (hsent : e.finSent = false) (hfin : e.finPending = false)
    (hlocal : isRemoteUni conn id = false) :
    EntryStep conn id (some e) t (some (e.write data)) (.wrote id data :: t) []
  | ended {e : StreamEntry} {t : Trace} (data : Bytes) (hlocal : isRemoteUni conn id = false) :
    EntryStep conn id (some e) t (some (e.end_ data)) (.ended id data :: t) []
  | reset {e : StreamEntry} {t : Trace} (code : UInt64) :
    EntryStep conn id (some e) t (some e.resetLocal) (.wasReset id code :: t)
      [{ type := .streamReset, streamId := id, errorCode := code, byPeer := false, reason := none }]
  | read {e : StreamEntry} {t : Trace} (chunk rest : Bytes) (hrx : e.rxBuffer = chunk ++ rest)
    (hchunk : chunk ≠ []) :
    EntryStep conn id (some e) t (some (e.readRest rest)) (.chunk id chunk :: t) []
  | returned {e : Option StreamEntry} {t : Trace} (bidi pending : Bool) (rv : Except Err Int) :
    EntryStep conn id e t
      (some { e.getD (.alloc id) with pendingOpen := pending, writable := true })
      (.returned bidi id pending :: .openLocal bidi rv :: t)
      [{ type := .streamOpened, streamId := id, errorCode := 0, byPeer := false, reason := none },
       { type := .streamWritable, streamId := id, errorCode := 0, byPeer := false, reason := none }]
  | openMatched {e : StreamEntry} {t : Trace} :
    EntryStep conn id (some e) t (some { e with pendingOpen := false })
      (.openPending id (.ok id) :: t) []
  | answered {e : StreamEntry} {t : Trace} (o : Offer) (a : WritevAnswer) (hid : o.streamId = id)
    (hdata : o.data = e.unsent) (hfin : o.fin = e.finPending)
    (hdue : o.data ≠ [] ∨ o.fin = true) :
    EntryStep conn id (some e) t (some (e.answer o a)) (.writev (some o) a :: t)
      (e.answerTells o a)
  | callback {e : Option StreamEntry} {t : Trace} (cb : Callback) (hid : cb.streamId? = some id) :
    EntryStep conn id e t
      ((if cb.enters then some (e.getD (.alloc id)) else e).map (·.react conn cb))
      (.callback cb :: t)
      (if cb.enters || e.isSome then (e.getD (.alloc id)).tells cb else [])

/-- A change of the connection, as the stream `id` sees it. -/
def EntryMove (id : Int) (s s' : State) : Prop :=
  ∃ es, EntryStep s.conn.conn id (s.conn.getStreamEntry id) s.trace (s'.conn.getStreamEntry id)
      s'.trace es ∧
    s'.about id = s.about id ++ es

namespace EntryMove

variable {s s' : State} {id : Int}

/-- Nothing happens to the stream. -/
theorem other (as : List Act) (ht : s'.trace = as ++ s.trace) (has : ∀ a ∈ as, a.concerns id = false)
    (hget : s'.conn.getStreamEntry id = s.conn.getStreamEntry id) (habout : s'.about id = s.about id) :
    EntryMove id s s' := by
  refine ⟨[], ?_, habout.trans (List.append_nil _).symm⟩
  rw [hget, ht]
  exact .other as has

theorem act {a : Act} (ht : s'.trace = a :: s.trace) (ha : a.concerns id = false)
    (hget : s'.conn.getStreamEntry id = s.conn.getStreamEntry id) (habout : s'.about id = s.about id) :
    EntryMove id s s' :=
  other [a] ht (by simpa using ha) hget habout

/-- A write to the entry of the stream `i`, behind an act about that stream. -/
theorem modify {i : Int} {f : StreamEntry → StreamEntry} (hf : ∀ e, (f e).streamId = e.streamId)
    {a : Act} {es : List Event} (h : s.conn.hasEntry i)
    (hconn : s'.conn.streams = (s.conn.modifyEntry i f hf).streams)
    (hevents : s'.conn.events = s.conn.events ++ es)
    (hes : ∀ e ∈ es, e.streamId = i ∧ e.type.ofStream = true)
    (ht : s'.trace = a :: s.trace) (hdrained : Trace.drainedEvents (a :: s.trace) = s.trace.drainedEvents)
    (ha : i ≠ id → a.concerns id = false)
    (hstep : EntryStep s.conn.conn i (some (s.conn.entry i)) s.trace (some (f (s.conn.entry i)))
      (a :: s.trace) es) : EntryMove id s s' := by
  have habout : s'.about id = s.about id ++ aboutOf id es :=
    State.about_append (by rw [ht, hdrained]) hevents id
  rw [aboutOf_stream hes] at habout
  have hget : s'.conn.getStreamEntry id =
      if id = i then (s.conn.getStreamEntry id).map f else s.conn.getStreamEntry id := by
    rw [← Connection.get_modifyEntry f hf]
    unfold Connection.getStreamEntry
    rw [hconn]
  by_cases hid : i = id
  · subst hid
    rw [if_pos rfl] at habout hget
    refine ⟨_, ?_, habout⟩
    rw [hget, ht, Connection.get_of_hasEntry h]
    exact hstep
  · rw [if_neg hid] at habout
    rw [if_neg (Ne.symm hid)] at hget
    exact act ht (ha hid) hget (habout.trans (List.append_nil _))

end EntryMove

namespace Connection

/-- The two opens enter the stream whose id they return. -/
theorem get_enterStream (c : Connection) (i : Int) (pending : Bool) (id : Int) :
    (c.enterStream i pending).getStreamEntry id =
      if id = i then some { c.entry i with pendingOpen := pending, writable := true }
      else c.getStreamEntry id := by
  have hget : (c.enterStream i pending).getStreamEntry id =
      ((c.openStreamEntry i).modifyEntry i (fun e => { e with pendingOpen := pending, writable := true })
        fun _ => rfl).getStreamEntry id := rfl
  rw [hget, get_modifyEntry]
  split
  · rename_i hid
    subst hid
    rw [get_of_hasEntry (hasEntry_openStreamEntry.mpr (.inl rfl)), entry_openStreamEntry]
    rfl
  · rename_i hid
    unfold getStreamEntry openStreamEntry
    rw [OrdTable.find?_addNew]
    exact if_neg hid

theorem entry_eq (c : Connection) (id : Int) : c.entry id = (c.getStreamEntry id).getD (.alloc id) :=
  rfl

theorem returnStream_entryMove (s : State) (bidi : Bool) (rv : Except Err Int) (pending : Bool)
    (id : Int) :
    EntryMove id s (returnStream (s.log (.openLocal bidi rv)) bidi rv pending).1 := by
  obtain ⟨_, _, hc⟩ := s.conn.assignStreamId_rest bidi rv
  have hevents : (s.conn.assignStreamId bidi rv).1.events = s.conn.events := by rw [hc]
  have hentry (i : Int) : (s.conn.assignStreamId bidi rv).1.getStreamEntry i =
      s.conn.getStreamEntry i := by rw [hc]; rfl
  have hget : (returnStream (s.log (.openLocal bidi rv)) bidi rv pending).1.conn.getStreamEntry id =
      ((s.conn.assignStreamId bidi rv).1.enterStream (s.conn.assignStreamId bidi rv).2
        pending).getStreamEntry id := rfl
  have hqueue : (returnStream (s.log (.openLocal bidi rv)) bidi rv pending).1.conn.events =
      s.conn.events ++
        [{ type := .streamOpened, streamId := (s.conn.assignStreamId bidi rv).2, errorCode := 0,
           byPeer := false, reason := none },
         { type := .streamWritable, streamId := (s.conn.assignStreamId bidi rv).2, errorCode := 0,
           byPeer := false, reason := none }] := by
    show ((s.conn.assignStreamId bidi rv).1.events ++ _) ++ _ = _
    rw [hevents, List.append_assoc]
    rfl
  have hdrained : (returnStream (s.log (.openLocal bidi rv)) bidi rv pending).1.trace.drainedEvents =
      s.trace.drainedEvents := rfl
  have habout := State.about_append hdrained hqueue id
  rw [aboutOf_stream (i := (s.conn.assignStreamId bidi rv).2) (by simp [EventType.ofStream])]
    at habout
  rw [get_enterStream, entry_eq, hentry, hentry] at hget
  by_cases hid : (s.conn.assignStreamId bidi rv).2 = id
  · rw [if_pos hid, hid] at habout
    rw [if_pos hid.symm, hid] at hget
    refine ⟨_, ?_, habout⟩
    rw [hget]
    have htrace : (returnStream (s.log (.openLocal bidi rv)) bidi rv pending).1.trace =
        .returned bidi id pending :: .openLocal bidi rv :: s.trace := by rw [← hid]; rfl
    rw [htrace]
    exact .returned bidi pending rv
  · rw [if_neg hid] at habout
    rw [if_neg (Ne.symm hid)] at hget
    refine EntryMove.other [.returned bidi (s.conn.assignStreamId bidi rv).2 pending,
      .openLocal bidi rv] rfl ?_ hget (habout.trans (List.append_nil _))
    simpa [Act.concerns] using hid

theorem callback_entryMove (s : State) (cb : Callback) (id : Int) :
    EntryMove id s (s.runCallback cb) := by
  have hget : (s.runCallback cb).conn.getStreamEntry id = _ := s.conn.get_callback cb id
  have hdrained : (s.runCallback cb).trace.drainedEvents = s.trace.drainedEvents := rfl
  cases hcb : cb.streamId? with
  | none =>
    rw [hcb, if_neg nofun] at hget
    refine .act rfl ?_ hget ?_
    · rw [Act.concerns, hcb]; rfl
    · obtain ⟨es, hes, hall⟩ : ∃ es, (s.conn.callback cb).events = s.conn.events ++ es ∧
          ∀ e ∈ es, e.type.ofStream = false := by
        cases cb with
        | handshakeCompleted =>
          unfold callback handshakeCompletedCb
          simp only
          split
          · exact ⟨[], (List.append_nil _).symm, List.forall_mem_nil _⟩
          · exact ⟨_, rfl, by simp [EventType.ofStream]⟩
        | _ => cases hcb
      rw [State.about_append hdrained hes, aboutOf_connection hall, List.append_nil]
  | some i =>
    have hqueue := State.about_append hdrained (s.conn.callback_events hcb) id
    have habout : ∀ e ∈ if cb.enters || (s.conn.getStreamEntry i).isSome then
        (s.conn.entry i).tells cb else [], e.streamId = i ∧ e.type.ofStream = true := by
      split
      · exact StreamEntry.tells_about hcb _
      · exact List.forall_mem_nil _
    rw [aboutOf_stream habout] at hqueue
    rw [hcb] at hget
    by_cases hid : i = id
    · subst hid
      rw [if_pos rfl] at hget hqueue
      refine ⟨_, ?_, hqueue⟩
      rw [hget]
      exact .callback cb hcb
    · rw [if_neg fun h => hid (Option.some.inj h)] at hget
      rw [if_neg hid] at hqueue
      refine .act rfl ?_ hget (hqueue.trans (List.append_nil _))
      rw [Act.concerns, hcb]
      exact decide_eq_false fun h => hid (Option.some.inj h)

end Connection

theorem Act.concerns_of_quiet {a : Act} (h : a.quiet = true) (id : Int) : a.concerns id = false := by
  cases a with
  | chunk i data =>
    have hnil : data = [] := List.length_eq_zero_iff.mp (of_decide_eq_true h)
    simp [concerns, hnil]
  | openPending i rv =>
    cases rv with
    | ok opened => cases h
    | error e => rfl
  | writev o w =>
    cases o with
    | none => rfl
    | some o => cases h
  | wrote | ended | wasReset | returned | callback => cases h
  | _ => rfl

open Connection in
/-- Every move is such a change of every stream. -/
theorem Move.entryMove {s s' : State} (h : Move s s') (id : Int) : EntryMove id s s' := by
  have hremote (i : Int) : isRemoteUni s.conn.conn i = s.conn.isRemoteUnidirectional i :=
    (s.conn.isRemoteUnidirectional_eq i).symm
  cases h with
  | quiet a ha =>
    have hdrained : (s.log a).trace.drainedEvents = s.trace.drainedEvents :=
      Trace.drainedEvents_quiet ha _
    exact .act rfl (Act.concerns_of_quiet ha id) rfl (State.about_keep hdrained rfl id)
  | threw e he => exact .act rfl rfl rfl (State.about_keep rfl rfl id)
  | callback cb => exact callback_entryMove s cb id
  | clamp i hi =>
    have hget : (s.conn.modifyEntry i StreamEntry.clampTxOffset
        StreamEntry.clampTxOffset_streamId).getStreamEntry id = _ := get_modifyEntry _ _
    by_cases hid : id = i
    · subst hid
      rw [if_pos rfl, get_of_hasEntry hi] at hget
      refine ⟨[], ?_, (List.append_nil _).symm⟩
      rw [State.modifyEntry_conn, hget, get_of_hasEntry hi]
      exact .clamp
    · rw [if_neg hid] at hget
      exact .other [] rfl (List.forall_mem_nil _) hget rfl
  | wrote i data hi hclosed hsent hfin hlocal =>
    exact .modify (f := (·.write data)) (fun _ => rfl) hi rfl (List.append_nil _).symm
      (List.forall_mem_nil _) rfl rfl (fun hne => decide_eq_false hne)
      (.wrote data hclosed hsent hfin ((hremote i).trans hlocal))
  | ended i data hi hlocal =>
    exact .modify (f := (·.end_ data)) (fun _ => rfl) hi rfl (List.append_nil _).symm
      (List.forall_mem_nil _) rfl rfl (fun hne => decide_eq_false hne)
      (.ended data ((hremote i).trans hlocal))
  | reset i code hi =>
    refine .modify (f := StreamEntry.resetLocal) (fun _ => rfl) hi rfl rfl ?_ rfl rfl
      (fun hne => decide_eq_false hne) (.reset code)
    simp [EventType.ofStream]
  | read i chunk rest hi hrx hchunk =>
    refine .modify (f := (·.readRest rest)) (fun _ => rfl) hi rfl (List.append_nil _).symm
      (List.forall_mem_nil _) rfl rfl (fun hne => ?_) (.read chunk rest hrx hchunk)
    simp [Act.concerns, hne]
  | opened bidi i hconn => exact returnStream_entryMove s bidi (.ok i) false id
  | blocked bidi hconn => exact returnStream_entryMove s bidi (.error .streamIdBlocked) true id
  | openMatched i hconn hi hp =>
    refine .modify (f := fun e => { e with pendingOpen := false }) (fun _ => rfl) hi rfl
      (List.append_nil _).symm (List.forall_mem_nil _) rfl rfl (fun hne => ?_) .openMatched
    simp [Act.concerns, hne]
  | openMismatched i opened hconn hi hp hne =>
    refine .act rfl ?_ rfl (State.about_keep rfl rfl id)
    by_cases hid : i = id
    · simp [Act.concerns, ← hid, hne]
    · simp [Act.concerns, hid]
  | settle o a ho hp =>
    have habout := StreamEntry.answerTells_about o a (s.conn.entry o.streamId)
    rw [s.conn.entry_streamId] at habout
    exact .modify (StreamEntry.answer_streamId o a) ho.hasEntry (s.conn.settle_streams o a)
      (s.conn.settle_events o a) habout rfl rfl (fun hne => decide_eq_false hne)
      (.answered o a rfl ho.data_eq ho.fin_eq ho.due)
  | sync p =>
    obtain ⟨es, hes, hall⟩ := s.conn.syncState_events p
    obtain ⟨_, _, _, _, _, hc⟩ := s.conn.syncState_rest p
    have hget : (s.syncState p).conn.getStreamEntry id = s.conn.getStreamEntry id := by
      rw [State.syncState_conn, hc]; rfl
    rw [← State.syncState_conn] at hes
    have hnone := aboutOf_connection (fun e he => (hall e he).2) id
    rcases s.syncState_trace p with ht | ht
    · refine .other [] ht (List.forall_mem_nil _) hget ?_
      rw [State.about_append (by rw [ht]) hes, hnone, List.append_nil]
    · refine .act ht rfl hget ?_
      rw [State.about_append (by rw [ht]; rfl) hes, hnone, List.append_nil]
  | lastError e => exact .other [] rfl (List.forall_mem_nil _) rfl (State.about_keep rfl rfl id)
  | close code reason hopen =>
    obtain ⟨es, hes, hall⟩ := close_events s code reason
    obtain ⟨_, _, _, _, _, _, hc⟩ := close_rest s code reason
    have ht := close_trace s code reason
    refine .other [] ht (List.forall_mem_nil _) (by rw [hc]; rfl) ?_
    rw [State.about_append (by rw [ht]) hes, aboutOf_connection (fun e he => (hall e he).2),
      List.append_nil]
  | closeSent hreq => exact .other [] rfl (List.forall_mem_nil _) rfl (State.about_keep rfl rfl id)
  | drainEvents =>
    refine .act rfl rfl rfl (congrArg (aboutOf id) ?_)
    exact List.append_nil _

/-! ## The entry, from the history -/

/-- The entry of the stream `id` behind an act, from the entry before it. -/
def Act.entry (conn : Option Role) (id : Int) (a : Act) (e : Option StreamEntry) :
    Option StreamEntry :=
  if a.concerns id then
    match a with
    | .wrote _ data => e.map (·.write data)
    | .ended _ data => e.map (·.end_ data)
    | .wasReset .. => e.map StreamEntry.resetLocal
    | .chunk _ data => e.map fun e => e.readRest (e.rxBuffer.drop data.length)
    | .returned _ _ pending =>
      some { e.getD (.alloc id) with pendingOpen := pending, writable := true }
    | .openPending .. => e.map fun e => { e with pendingOpen := false }
    | .writev (some o) a => e.map (·.answer o a)
    | .callback cb => (if cb.enters then some (e.getD (.alloc id)) else e).map (·.react conn cb)
    | _ => e
  else e

/-- The entry of the stream `id`, by what was done to it. -/
def Trace.entry (conn : Option Role) (id : Int) : Trace → Option StreamEntry
  | [] => none
  | a :: t => a.entry conn id (entry conn id t)

theorem Trace.entry_append {conn : Option Role} {id : Int} {as : List Act}
    (has : ∀ a ∈ as, a.concerns id = false) (t : Trace) :
    Trace.entry conn id (as ++ t) = Trace.entry conn id t := by
  induction as with
  | nil => rfl
  | cons a as ih =>
    obtain ⟨ha, has⟩ := List.forall_mem_cons.mp has
    show a.entry conn id (Trace.entry conn id (as ++ t)) = _
    unfold Act.entry
    rw [ha, if_neg Bool.false_ne_true, ih has]

/-- The entry is what the history says; its offset is in its buffer, and it is closed if it is
reset. -/
structure Replayed (conn : Option Role) (id : Int) (e : Option StreamEntry) (t : Trace) : Prop where
  entry : e = t.entry conn id
  offset_le : ∀ x ∈ e, x.txOffset ≤ x.txBuffer.length
  reset_closed : ∀ x ∈ e, x.reset = true → x.closed = true

theorem Replayed.nil (conn : Option Role) (id : Int) : Replayed conn id none [] :=
  ⟨rfl, fun _ h => (by cases h), fun _ h => (by cases h)⟩

namespace StreamEntry

theorem answer_le (o : Offer) (a : WritevAnswer) {e : StreamEntry}
    (h : e.txOffset ≤ e.txBuffer.length) :
    (e.answer o a).txOffset ≤ (e.answer o a).txBuffer.length := by
  unfold answer
  cases a.effect with
  | update p =>
    simp only
    rw [woken_eq, updateTx_eq]
    simp only
    split
    · exact Nat.zero_le _
    · rename_i hout
      rw [decide_eq_true_eq] at hout
      omega
  | discard => exact Nat.le_refl _
  | ignore => exact h

theorem answer_ends (o : Offer) (a : WritevAnswer) (e : StreamEntry) :
    (e.answer o a).closed = e.closed ∧ (e.answer o a).reset = e.reset := by
  obtain ⟨_, _, _, _, _, h⟩ := e.answer_rest o a
  rw [h]
  exact ⟨rfl, rfl⟩

theorem react_le (conn : Option Role) (cb : Callback) {e : StreamEntry}
    (h : e.txOffset ≤ e.txBuffer.length) :
    (e.react conn cb).txOffset ≤ (e.react conn cb).txBuffer.length := by
  cases cb with
  | ackedStreamDataOffset =>
    rw [react_acked]
    exact h
  | _ => exact h

theorem react_reset_closed (conn : Option Role) (cb : Callback) {e : StreamEntry}
    (h : e.reset = true → e.closed = true) :
    (e.react conn cb).reset = true → (e.react conn cb).closed = true := by
  cases cb with
  | streamClose | streamReset => exact fun _ => rfl
  | ackedStreamDataOffset =>
    rw [react_acked]
    exact h
  | _ => exact h

end StreamEntry

/-- What holds of an entry that is found or made. -/
theorem StreamEntry.found {P : StreamEntry → Prop} {id : Int} {e : Option StreamEntry}
    (h : ∀ x ∈ e, P x) (h0 : P (.alloc id)) : P (e.getD (.alloc id)) := by
  cases e with
  | none => exact h0
  | some x => exact h x rfl

/-- What holds of the entry that a callback finds, if it finds one, and of a new one. -/
theorem Callback.found {P : StreamEntry → Prop} {cb : Callback} {id : Int} {e : Option StreamEntry}
    (h : ∀ x ∈ e, P x) (h0 : P (.alloc id)) :
    ∀ x ∈ if cb.enters then some (e.getD (.alloc id)) else e, P x := by
  split
  · rintro x ⟨⟩
    exact StreamEntry.found h h0
  · exact h

theorem EntryStep.replayed {conn : Option Role} {id : Int} {e e' : Option StreamEntry} {t t' : Trace}
    {es : List Event} (hstep : EntryStep conn id e t e' t' es) (h : Replayed conn id e t) :
    Replayed conn id e' t' := by
  obtain ⟨hentry, hle, hends⟩ := h
  cases hstep with
  | other as has => exact ⟨hentry.trans (Trace.entry_append has t).symm, hle, hends⟩
  | clamp =>
    rename_i e
    rw [StreamEntry.clampTxOffset_self (hle e rfl)]
    exact ⟨hentry, hle, hends⟩
  | wrote data hclosed hsent hfin hlocal =>
    rename_i e
    refine ⟨?_, ?_, ?_⟩
    · simp [Trace.entry, Act.entry, Act.concerns, ← hentry]
    · rintro x ⟨⟩
      have := hle e rfl
      simp only [StreamEntry.write, bufferAppend_eq, List.length_append]
      omega
    · rintro x ⟨⟩
      exact hends e rfl
  | ended data hlocal =>
    rename_i e
    refine ⟨?_, ?_, ?_⟩
    · simp [Trace.entry, Act.entry, Act.concerns, ← hentry]
    · rintro x ⟨⟩
      have := hle e rfl
      simp only [StreamEntry.end_, bufferAppend_eq, List.length_append]
      omega
    · rintro x ⟨⟩
      exact hends e rfl
  | reset code =>
    rename_i e
    refine ⟨?_, ?_, ?_⟩
    · simp [Trace.entry, Act.entry, Act.concerns, ← hentry]
    · rintro x ⟨⟩
      exact hle e rfl
    · rintro x ⟨⟩
      exact fun _ => rfl
  | read chunk rest hrx hchunk =>
    rename_i e
    refine ⟨?_, ?_, ?_⟩
    · simp [Trace.entry, Act.entry, Act.concerns, ← hentry, hchunk, hrx]
    · rintro x ⟨⟩
      exact hle e rfl
    · rintro x ⟨⟩
      exact hends e rfl
  | returned bidi pending rv =>
    refine ⟨?_, ?_, ?_⟩
    · simp [Trace.entry, Act.entry, Act.concerns, ← hentry]
    · rintro x ⟨⟩
      exact StreamEntry.found (P := fun x => x.txOffset ≤ x.txBuffer.length) hle (Nat.le_refl _)
    · rintro x ⟨⟩
      exact StreamEntry.found (P := fun x => x.reset = true → x.closed = true) hends
        fun h => absurd h Bool.false_ne_true
  | openMatched =>
    rename_i e
    refine ⟨?_, ?_, ?_⟩
    · simp [Trace.entry, Act.entry, Act.concerns, ← hentry]
    · rintro x ⟨⟩
      exact hle e rfl
    · rintro x ⟨⟩
      exact hends e rfl
  | answered o a hid hdata hfin hdue =>
    rename_i e
    refine ⟨?_, ?_, ?_⟩
    · simp [Trace.entry, Act.entry, Act.concerns, ← hentry, hid]
    · rintro x ⟨⟩
      exact StreamEntry.answer_le o a (hle e rfl)
    · rintro x ⟨⟩
      rw [(e.answer_ends o a).1, (e.answer_ends o a).2]
      exact hends e rfl
  | callback cb hid =>
    refine ⟨?_, ?_, ?_⟩
    · simp [Trace.entry, Act.entry, Act.concerns, ← hentry, hid]
    · intro x hx
      obtain ⟨y, hy, rfl⟩ := Option.map_eq_some_iff.mp hx
      exact StreamEntry.react_le conn cb (Callback.found hle (Nat.le_refl _) y hy)
    · intro x hx
      obtain ⟨y, hy, rfl⟩ := Option.map_eq_some_iff.mp hx
      exact StreamEntry.react_reset_closed conn cb
        (Callback.found (P := fun x => x.reset = true → x.closed = true) hends
          (fun h => absurd h Bool.false_ne_true) y hy)

/-! ## The states of a run -/

/-- The run may pass through the state: at a call, at a callback, or at an answer of ngtcp2. -/
structure Start.Passes (start : Start) (ops : List Op) (s : State) : Prop where
  behind : Moves Move start.base s
  before : Moves Move s (start.run ops)

namespace Start

variable {start : Start} {ops : List Op} {s : State}

theorem Passes.last (start : Start) (ops : List Op) : start.Passes ops (start.run ops) :=
  ⟨start.run_moves ops, .refl _⟩

/-- The connection of ngtcp2 that the run is about. -/
def conn (start : Start) : Option Role := start.base.conn.conn

theorem Passes.conn_eq (h : start.Passes ops s) : s.conn.conn = start.conn :=
  Moves.keeps (fun _ _ hm => Move.conn_eq hm) h.behind

/-- An invariant of the changes of one stream, under an assumption on each act. -/
theorem Passes.inv {P : Act → Trace → Prop} {I : Option StreamEntry → Trace → Prop} {id : Int}
    (hI : ∀ e t e' t' es, EntryStep start.conn id e t e' t' es → History.Each P t' → I e t → I e' t')
    (h0 : I none []) (h : start.Passes ops s) (hP : History.Each P (start.run ops).trace) :
    I (s.conn.getStreamEntry id) s.trace := by
  have hinv : s.conn.conn = start.conn ∧ I (s.conn.getStreamEntry id) s.trace := by
    refine Moves.inv (C := fun s => History.Each P s.trace)
      (I := fun s => s.conn.conn = start.conn ∧ I (s.conn.getStreamEntry id) s.trace)
      (fun _ _ hm hc => hc.of_suffix hm.trace_suffix) ?_ h.behind
      (hP.of_suffix (State.moves_suffix h.before)) ?_
    · rintro s s' hm hc ⟨hconn, hi⟩
      obtain ⟨es, hstep, -⟩ := hm.entryMove id
      rw [hconn] at hstep
      exact ⟨hm.conn_eq.trans hconn, hI _ _ _ _ _ hstep hc hi⟩
    · refine ⟨rfl, ?_⟩
      have hnone : start.base.conn.getStreamEntry id = none := by cases start <;> rfl
      have hnil : start.base.trace = [] := by cases start <;> rfl
      rw [hnone, hnil]
      exact h0
  exact hinv.2

/-- In every state the entry of every stream is what the history says. -/
theorem Passes.replayed (h : start.Passes ops s) (id : Int) :
    Replayed start.conn id (s.conn.getStreamEntry id) s.trace :=
  h.inv (P := fun _ _ => True) (fun _ _ _ _ _ hstep _ => hstep.replayed)
    (.nil _ _) (fun _ _ _ => trivial)

end Start

end PhpQuic
