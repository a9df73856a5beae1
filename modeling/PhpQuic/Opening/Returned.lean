import PhpQuic.Connection.StreamCalls
import PhpQuic.Connection.Pieces
import PhpQuic.Opening.Ids

/-!
# What the opens return

The ids that `openStream` and `openUniStream` return to the application, call by call, and the part
of the history that records them.

* `Op.returnedStream`, `Start.opened`: the stream that a call returns, if it is an open that returns
  one, and those that the calls of a run return.
* `Start.run_opened`: the history has one entry for each stream that was returned, and no others.
* `Start.returnedOf`, `Start.promisedOf`: the ids of one kind, and those of them that blocked opens
  returned.
-/

namespace PhpQuic

/-- A stream that an open has returned; `blocked`: ngtcp2 has answered `STREAM_ID_BLOCKED`. -/
structure Opened where
  bidi : Bool
  streamId : Int
  blocked : Bool
  deriving DecidableEq

/-- The stream that an open of the kind `bidi` returns, with ngtcp2's answer `rv`. -/
def Result.opened (bidi : Bool) (rv : Except Err Int) : Result Int → List Opened
  | .returned streamId => [{ bidi, streamId, blocked := decide (rv = .error .streamIdBlocked) }]
  | _ => []

/-- The stream that a call of the application returns to it. -/
def Op.returnedStream (s : State) : Op → List Opened
  | .openStream rv => (Connection.openStream s rv).2.opened true rv
  | .openUniStream rv => (Connection.openUniStream s rv).2.opened false rv
  | _ => []

/-- The streams that the opens of a run return, in their order. -/
def Start.opened (start : Start) (ops : List Op) : List Opened :=
  Runs.outputs step Op.returnedStream start.state ops

/-- An open has returned a stream. -/
def Act.returnsStream : Act → Bool
  | .returned .. => true
  | _ => false

namespace Trace

/-- The streams that were returned, as the history records them. -/
def opened : Trace → List Opened
  | [] => []
  | .returned bidi streamId blocked :: t => opened t ++ [{ bidi, streamId, blocked }]
  | _ :: t => opened t

theorem opened_cons {a : Act} (h : a.returnsStream = false) (t : Trace) :
    opened (a :: t) = opened t := by
  cases a with
  | returned b id p => cases h
  | _ => rfl

theorem returned_eq_opened (b : Bool) (t : Trace) :
    t.returned b = ((t.opened.filter fun o => o.bidi == b).map Opened.streamId).reverse := by
  induction t with
  | nil => rfl
  | cons a t ih =>
    cases a with
    | returned b' id p =>
      unfold Trace.returned opened
      rw [List.filter_append, List.map_append, List.reverse_append, ← ih]
      by_cases hb : b' = b
      · simp [hb]
      · simp [hb]
    | _ => exact ih

theorem promised_eq_opened (b : Bool) (t : Trace) :
    t.promised b =
      ((t.opened.filter fun o => o.bidi == b && o.blocked).map Opened.streamId).reverse := by
  induction t with
  | nil => rfl
  | cons a t ih =>
    cases a with
    | returned b' id p =>
      unfold opened
      rw [List.filter_append, List.map_append, List.reverse_append, ← ih]
      by_cases hb : b' = b
      · cases p <;> simp [hb, Trace.promised]
      · cases p <;> simp [hb, Trace.promised]
    | _ => exact ih

end Trace

/-! ## One call -/

/-- The history records no more streams. -/
def State.SameOpened (s s' : State) : Prop := s'.trace.opened = s.trace.opened

namespace State.SameOpened

variable {s s' s'' : State}

theorem of_trace_eq (h : s'.trace = s.trace) : s.SameOpened s' := congrArg Trace.opened h

theorem log (s : State) {a : Act} (h : a.returnsStream = false) : s.SameOpened (s.log a) :=
  Trace.opened_cons h s.trace

theorem trans (h : s.SameOpened s') (h' : s'.SameOpened s'') : s.SameOpened s'' := Eq.trans h' h

/-- Of all that the polling calls are made of, nothing returns a stream. -/
theorem pieces : Pieces (fun a => !a.returnsStream) State.SameOpened where
  refl _ := rfl
  trans := trans
  log s _ ha := log s (Bool.not_eq_true' _ ▸ ha)
  callback _ _ := rfl
  entries _ _ _ := rfl
  sync s p := by
    rcases s.syncState_trace p with ht | ht
    · exact of_trace_eq ht
    · exact (congrArg Trace.opened ht).trans (Trace.opened_cons rfl _)
  lastError _ _ := rfl

end State.SameOpened

/-- An open records what it returns. -/
theorem Connection.openLocalStream_opened (bidi : Bool) (context : String) (s : State)
    (rv : Except Err Int) :
    (openLocalStream bidi context s rv).1.trace.opened =
      s.trace.opened ++ (openLocalStream bidi context s rv).2.opened bidi rv := by
  unfold openLocalStream
  split
  · exact (List.append_nil _).symm
  · cases rv with
    | ok id => rfl
    | error e =>
      by_cases he : e = .streamIdBlocked
      · subst he; rfl
      · simp only
        exact (List.append_nil _).symm

/-- A call records the stream that it returns, and no other. -/
theorem step_opened (s : State) (o : Op) :
    (step s o).trace.opened = s.trace.opened ++ o.returnedStream s := by
  have hnone (h : s.SameOpened (step s o)) : (step s o).trace.opened = s.trace.opened ++ [] :=
    Eq.trans h (List.append_nil _).symm
  have hpieces := State.SameOpened.pieces
  cases o with
  | openStream rv => exact Connection.openLocalStream_opened true _ s rv
  | openUniStream rv => exact Connection.openLocalStream_opened false _ s rv
  | read id length =>
    refine hnone ?_
    show s.SameOpened (Stream.read s id length).1
    unfold Stream.read
    repeat' split
    all_goals exact rfl
  | write id data =>
    refine hnone ?_
    show s.SameOpened (Stream.write s id data).1
    unfold Stream.write
    repeat' split
    all_goals exact rfl
  | end_ id data =>
    refine hnone ?_
    show s.SameOpened (Stream.end_ s id data).1
    unfold Stream.end_
    repeat' split
    all_goals exact rfl
  | reset id code a =>
    have hshut : s.SameOpened (Stream.shutdownStream s id code.toUInt64 a).1 := by
      unfold Stream.shutdownStream
      split
      · exact (hpieces.runCallbacks s _).trans (.log _ rfl)
      · exact hpieces.refl s
    refine hnone ?_
    show s.SameOpened (Stream.reset s id code a).1
    unfold Stream.reset
    split
    · exact rfl
    · split
      · rename_i heq
        rw [heq] at hshut
        exact hshut
      · rename_i heq
        rw [heq] at hshut
        exact hshut
  | recv g d a => exact hnone (hpieces.recv s g d a (fun _ => rfl) fun _ => rfl)
  | onTimeout a => exact hnone (hpieces.onTimeout s a rfl fun _ => rfl)
  | drainOutgoingDatagrams a =>
    have hclose : s.SameOpened (Connection.drainClose s a.close).1 :=
      hpieces.drainClose s a.close (fun _ => rfl) (fun _ => rfl) (fun _ => rfl) fun _ => rfl
    exact hnone (hpieces.drainOutgoingDatagrams (fun _ _ => rfl) (fun _ _ => rfl) s a hclose
      (fun _ => rfl) fun _ => rfl)
  | drainEvents => exact hnone rfl
  | close code reason => exact hnone (.of_trace_eq (Connection.close_trace s code reason))

/-! ## Every run -/

namespace Start

variable (start : Start) (ops : List Op)

/-- The history of a run records what the opens returned. -/
theorem run_opened : (start.run ops).trace.opened = start.opened ops := by
  have hstart : start.state.trace.opened = [] := by
    cases start with
    | uninitialised => rfl
    | client path r l => rfl
    | server path r l payload cbs =>
      exact State.SameOpened.pieces.runCallbacks (Start.server path r l payload cbs).base cbs
  have hrun := Runs.run_recorded (R := fun s : State => s.trace.opened) step_opened start.state ops
  rw [hstart] at hrun
  exact hrun

/-- The ids of one kind that the opens of a run return, in their order. -/
def returnedOf (bidi : Bool) : List Int :=
  ((start.opened ops).filter fun o => o.bidi == bidi).map Opened.streamId

/-- Those of them that blocked opens return. -/
def promisedOf (bidi : Bool) : List Int :=
  ((start.opened ops).filter fun o => o.bidi == bidi && o.blocked).map Opened.streamId

/-- The ids that the opens of a run return, in their order. -/
def returnedIds : List Int := (start.opened ops).map Opened.streamId

theorem run_returned (b : Bool) :
    (start.run ops).trace.returned b = (start.returnedOf ops b).reverse := by
  rw [Trace.returned_eq_opened, run_opened]
  rfl

theorem run_promised (b : Bool) :
    (start.run ops).trace.promised b = (start.promisedOf ops b).reverse := by
  rw [Trace.promised_eq_opened, run_opened]
  rfl

end Start

end PhpQuic
