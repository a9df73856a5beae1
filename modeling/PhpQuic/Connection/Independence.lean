import PhpQuic.Connection.EntrySteps

/-!
# The streams of a connection do not interfere

All streams of a connection share one table, one event queue and one send loop. What the application
can see of a stream, its entry and the events about it, still depends on nothing but what was done to
this stream: a connection is the product of its streams.

* `Trace.concerning id t`: the part of a history that is about the stream.
* `Trace.about`: the events about a stream, from the history; `Start.Passes.about_eq`.
* `streams_independent`: two runs with the same part about a stream have the same entry of it and
  have queued the same events about it.
-/

namespace PhpQuic

/-- The events about the stream `id` that an act queues, from the entry before it. -/
def Act.tells (id : Int) (a : Act) (e : Option StreamEntry) : List Event :=
  if a.concerns id then
    match a with
    | .wasReset _ code =>
      [{ type := .streamReset, streamId := id, errorCode := code, byPeer := false, reason := none }]
    | .returned .. =>
      [{ type := .streamOpened, streamId := id, errorCode := 0, byPeer := false, reason := none },
       { type := .streamWritable, streamId := id, errorCode := 0, byPeer := false, reason := none }]
    | .writev (some o) a => e.toList.flatMap (·.answerTells o a)
    | .callback cb => if cb.enters || e.isSome then (e.getD (.alloc id)).tells cb else []
    | _ => []
  else []

namespace Trace

variable {conn : Option Role} {id : Int}

/-- The part of the history that is about the stream `id`. -/
def concerning (id : Int) (t : Trace) : Trace := t.filter (Act.concerns id)

/-- The events about the stream `id`, by what was done to it. -/
def about (conn : Option Role) (id : Int) : Trace → List Event
  | [] => []
  | a :: t => about conn id t ++ a.tells id (Trace.entry conn id t)

theorem about_append {as : List Act} (has : ∀ a ∈ as, a.concerns id = false) (t : Trace) :
    about conn id (as ++ t) = about conn id t := by
  induction as with
  | nil => rfl
  | cons a as ih =>
    obtain ⟨ha, has⟩ := List.forall_mem_cons.mp has
    show about conn id (as ++ t) ++ a.tells id _ = _
    unfold Act.tells
    rw [ha, if_neg Bool.false_ne_true, List.append_nil, ih has]

/-- The entry depends on the part about the stream. -/
theorem entry_concerning (t : Trace) : (t.concerning id).entry conn id = t.entry conn id := by
  induction t with
  | nil => rfl
  | cons a t ih =>
    unfold concerning at ih ⊢
    cases ha : a.concerns id with
    | true =>
      rw [List.filter_cons_of_pos ha]
      show a.entry conn id _ = a.entry conn id _
      rw [ih]
    | false =>
      have hone : ∀ b ∈ [a], b.concerns id = false := by simpa using ha
      rw [List.filter_cons_of_neg (by rw [ha]; exact Bool.false_ne_true), ih]
      exact (entry_append hone t).symm

/-- So do the events about it. -/
theorem about_concerning (t : Trace) : (t.concerning id).about conn id = t.about conn id := by
  induction t with
  | nil => rfl
  | cons a t ih =>
    have hentry : entry conn id (concerning id t) = entry conn id t := entry_concerning t
    unfold concerning at ih hentry ⊢
    cases ha : a.concerns id with
    | true =>
      rw [List.filter_cons_of_pos ha]
      show about conn id _ ++ a.tells id _ = about conn id t ++ a.tells id _
      rw [ih, hentry]
    | false =>
      have hone : ∀ b ∈ [a], b.concerns id = false := by simpa using ha
      rw [List.filter_cons_of_neg (by rw [ha]; exact Bool.false_ne_true), ih]
      exact (about_append hone t).symm

end Trace

/-- A change tells what the history says. -/
theorem EntryStep.about {conn : Option Role} {id : Int} {e e' : Option StreamEntry} {t t' : Trace}
    {es : List Event} (hstep : EntryStep conn id e t e' t' es) (h : Replayed conn id e t) :
    t'.about conn id = t.about conn id ++ es := by
  have hentry := h.entry
  cases hstep with
  | other as has => rw [Trace.about_append has, List.append_nil]
  | clamp => exact (List.append_nil _).symm
  | wrote | ended | openMatched => simp [Trace.about, Act.tells]
  | read chunk rest hrx hchunk => simp [Trace.about, Act.tells]
  | reset code => simp [Trace.about, Act.tells, Act.concerns]
  | returned bidi pending rv => simp [Trace.about, Act.tells, Act.concerns]
  | answered o a hid hdata hfin hdue =>
    simp [Trace.about, Act.tells, Act.concerns, hid, ← hentry]
  | callback cb hid => simp [Trace.about, Act.tells, Act.concerns, hid, ← hentry]

namespace Start

variable {start : Start} {ops : List Op} {s : State}

/-- In every state that a run passes through, the events about a stream are what the history says. -/
theorem Passes.about_eq (h : start.Passes ops s) (id : Int) :
    s.about id = s.trace.about start.conn id := by
  have hinv : s.conn.conn = start.conn ∧
      Replayed start.conn id (s.conn.getStreamEntry id) s.trace ∧
      s.about id = s.trace.about start.conn id := by
    refine Runs.Moves.inv' (I := fun s : State => s.conn.conn = start.conn ∧
      Replayed start.conn id (s.conn.getStreamEntry id) s.trace ∧
      s.about id = s.trace.about start.conn id) ?_ h.behind ?_
    · rintro s s' hm ⟨hconn, hr, habout⟩
      obtain ⟨es, hstep, hes⟩ := hm.entryMove id
      rw [hconn] at hstep
      exact ⟨hm.conn_eq.trans hconn, hstep.replayed hr, by rw [hes, habout, hstep.about hr]⟩
    · refine ⟨rfl, ?_⟩
      cases start <;> exact ⟨.nil _ _, rfl⟩
  exact hinv.2.2

end Start

/-- The streams of a connection do not interfere: two runs of connections of the same
role that agree on what was done to a stream agree on its entry and on all events about it, whatever
was done to the connection and to its other streams. -/
theorem streams_independent (start start' : Start) (ops ops' : List Op) (id : Int)
    (hconn : start.conn = start'.conn)
    (hacts : (start.run ops).trace.concerning id = (start'.run ops').trace.concerning id) :
    (start.run ops).conn.getStreamEntry id = (start'.run ops').conn.getStreamEntry id ∧
      (start.run ops).about id = (start'.run ops').about id := by
  have hpass := Start.Passes.last start ops
  have hpass' := Start.Passes.last start' ops'
  refine ⟨?_, ?_⟩
  · rw [(hpass.replayed id).entry, (hpass'.replayed id).entry, ← Trace.entry_concerning, hacts, hconn,
      Trace.entry_concerning]
  · rw [hpass.about_eq id, hpass'.about_eq id, ← Trace.about_concerning, hacts, hconn,
      Trace.about_concerning]

/-- Another stream is opened and written to, and the connection is closed before the reset. -/
theorem streams_independent_other :
    let start := Start.client {} none none
    let one : List Op := [.openStream (.ok 0), .write 0 [1, 2], .drainEvents,
      .reset 0 7 {}]
    let two : List Op := [.openUniStream (.ok 2), .openStream (.ok 0), .write 2 [7], .write 0 [1, 2],
      .close 0 none, .reset 0 7 {}]
    start.conn = start.conn ∧
      (start.run one).trace.concerning 0 = (start.run two).trace.concerning 0 ∧
      (start.run one).conn.getStreamEntry 0 = (start.run two).conn.getStreamEntry 0 ∧
      (start.run one).about 0 = (start.run two).about 0 :=
  ⟨rfl, by decide, streams_independent _ _ _ _ 0 rfl (by decide)⟩

end PhpQuic
