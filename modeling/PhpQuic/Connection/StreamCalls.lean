import PhpQuic.Connection.Moves

/-!
# The calls of the streams

Proof-only. What the methods of a stream and the two opens have in common: they write to the table
of streams, the event queue and the id counters (and, through the callbacks of
`ngtcp2_conn_shutdown_stream`, to `established`), and cross the border at their own places only.

* `StreamActs`: such a change, kept by composition. `step_streamActs`: each of the calls is one.
-/

namespace PhpQuic

/-- A method of a stream, or an open. -/
def Op.ofStreams : Op → Bool
  | .read .. | .write .. | .end_ .. | .reset .. | .openStream _ | .openUniStream _ => true
  | _ => false

/-- What these calls add to the history. -/
def Act.ofStreams : Act → Bool
  | .wrote .. | .ended .. | .wasReset .. | .chunk .. | .returned .. | .threw _ | .openLocal ..
  | .shutdownStream .. | .callback _ => true
  | _ => false

/-- All but the table, the events, the counters and `established` is as before. -/
def Connection.StreamsOnly (c c' : Connection) : Prop :=
  ∃ streams events nextBidiStreamId nextUniStreamId established,
    c' = { c with streams, events, nextBidiStreamId, nextUniStreamId, established }

theorem Connection.StreamsOnly.refl (c : Connection) : c.StreamsOnly c :=
  ⟨c.streams, c.events, c.nextBidiStreamId, c.nextUniStreamId, c.established, rfl⟩

/-- What such a call does to the connection and to the history. -/
structure StreamActs (s s' : State) : Prop where
  rest : s.conn.StreamsOnly s'.conn
  acts : ∃ new, s'.trace = new ++ s.trace ∧ ∀ a ∈ new, a.ofStreams = true

namespace StreamActs

variable {s s' s'' : State}

theorem refl (s : State) : StreamActs s s := ⟨.refl s.conn, [], rfl, List.forall_mem_nil _⟩

theorem trans (h : StreamActs s s') (h' : StreamActs s' s'') : StreamActs s s'' := by
  obtain ⟨⟨_, _, _, _, _, hc⟩, new, ht, hnew⟩ := h
  obtain ⟨⟨streams, events, nb, nu, established, hc'⟩, new', ht', hnew'⟩ := h'
  refine ⟨⟨streams, events, nb, nu, established, ?_⟩, new' ++ new, ?_, ?_⟩
  · rw [hc', hc]
  · rw [ht', ht, List.append_assoc]
  · intro a ha
    rcases List.mem_append.mp ha with ha | ha
    · exact hnew' a ha
    · exact hnew a ha

theorem log (s : State) {a : Act} (h : a.ofStreams = true) : StreamActs s (s.log a) :=
  ⟨.refl s.conn, [a], rfl, by simpa using h⟩

/-- Another table, and more events. -/
theorem entriesOnly (s : State) {c : Connection} (h : s.conn.EntriesOnly c) :
    StreamActs s (s.withConn c) := by
  obtain ⟨streams, events, hc, -⟩ := h
  exact ⟨⟨streams, s.conn.events ++ events, _, _, _, hc⟩, [], rfl, List.forall_mem_nil _⟩

theorem modifyEntry (s : State) (id : Int) (f : StreamEntry → StreamEntry)
    (hf : ∀ e, (f e).streamId = e.streamId) : StreamActs s (s.modifyEntry id f hf) :=
  entriesOnly s (.modifyEntry ..)

theorem runCallbacks (s : State) (cbs : List Callback) : StreamActs s (s.runCallbacks cbs) := by
  induction cbs generalizing s with
  | nil => exact .refl s
  | cons cb cbs ih =>
    have hcb : StreamActs s (s.runCallback cb) := by
      obtain ⟨streams, events, established, hc⟩ := s.conn.callback_rest cb
      exact ⟨⟨streams, events, _, _, established, hc⟩, [.callback cb], rfl, by simp [Act.ofStreams]⟩
    exact hcb.trans (ih (s.runCallback cb))

theorem shutdownStream (s : State) (id : Int) (code : UInt64) (a : ShutdownAnswer) :
    StreamActs s (Stream.shutdownStream s id code a).1 := by
  unfold Stream.shutdownStream
  split
  · exact (runCallbacks s a.callbacks).trans (.log _ rfl)
  · exact .refl s

theorem returnStream (s : State) (b : Bool) (rv : Except Err Int) (pending : Bool) :
    StreamActs s (Connection.returnStream s b rv pending).1 := by
  obtain ⟨nb, nu, hc⟩ := s.conn.assignStreamId_rest b rv
  obtain ⟨streams, events, hc', -⟩ := Connection.enterStream_entriesOnly
    (s.conn.assignStreamId b rv).1 (s.conn.assignStreamId b rv).2 pending
  refine ⟨⟨streams, s.conn.events ++ events, nb, nu, s.conn.established, ?_⟩, [.returned ..], rfl,
    by simp [Act.ofStreams]⟩
  refine hc'.trans ?_
  rw [hc]

theorem openLocalStream (bidi : Bool) (context : String) (s : State) (rv : Except Err Int) :
    StreamActs s (Connection.openLocalStream bidi context s rv).1 := by
  unfold Connection.openLocalStream
  split
  · exact .log s rfl
  · have hopen : StreamActs s (s.log (.openLocal bidi rv)) := .log s rfl
    cases rv with
    | ok id => exact hopen.trans (.returnStream ..)
    | error e =>
      cases e with
      | streamIdBlocked => exact hopen.trans (.returnStream ..)
      | _ => exact hopen.trans (.log _ rfl)

end StreamActs

theorem step_streamActs (s : State) {o : Op} (h : o.ofStreams = true) : StreamActs s (step s o) := by
  cases o with
  | read id length =>
    show StreamActs s (Stream.read s id length).1
    unfold Stream.read
    split
    · exact .log s rfl
    · split
      · exact .log s rfl
      · split
        · exact .log s rfl
        · exact (StreamActs.modifyEntry s id _ _).trans (.log _ rfl)
  | write id data =>
    show StreamActs s (Stream.write s id data).1
    unfold Stream.write
    repeat' split
    · exact .log s rfl
    · exact .log s rfl
    · exact .log s rfl
    · exact (StreamActs.modifyEntry s id _ _).trans (.log _ rfl)
  | end_ id data =>
    show StreamActs s (Stream.end_ s id data).1
    unfold Stream.end_
    repeat' split
    · exact .log s rfl
    · exact .log s rfl
    · exact (StreamActs.modifyEntry s id _ _).trans (.log _ rfl)
  | reset id code a =>
    have hshut := StreamActs.shutdownStream s id code.toUInt64 a
    show StreamActs s (Stream.reset s id code a).1
    unfold Stream.reset
    split
    · exact .log s rfl
    · split
      · rename_i heq
        rw [heq] at hshut
        exact hshut.trans (.log _ rfl)
      · rename_i s' heq
        rw [heq] at hshut
        refine hshut.trans (StreamActs.trans ?_ (.log _ rfl))
        exact .entriesOnly s' (.pushEvent (.modifyEntry ..) rfl ..)
  | openStream rv => exact .openLocalStream ..
  | openUniStream rv => exact .openLocalStream ..
  | _ => cases h

end PhpQuic
