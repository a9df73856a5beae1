import PhpQuic.Connection.EntrySteps
import PhpQuic.Connection.Pieces

/-!
# The calls of a run

Proof-only. What one call adds to the history of a run: the act of a stream's method that returns is
the last one of its call (`step_returns`), so the state behind such an act is one that the
application sees.

* `Act.byStream`: a method of a stream has returned.
* `Start.run_uninitialised`: an object without a connection of ngtcp2 never has a stream.
* `Start.run_call`: the call behind such an act, in the state that it finds; so a condition on the
  calls of a run is one on its acts (`Start.each_of_along`).
* `Start.Passes.of_prefix`: a run passes through the states behind its calls.
-/

namespace PhpQuic

open Runs (Moves)

/-- A method of a stream has returned. -/
def Act.byStream : Act → Bool
  | .wrote .. | .ended .. | .wasReset .. | .chunk .. => true
  | _ => false

/-- No method of a stream returns from `s` to `s'`. -/
def State.Apart (s s' : State) : Prop :=
  ∃ new, s'.trace = new ++ s.trace ∧ ∀ a ∈ new, a.byStream = false

/-- The act with which the call returns, if it is one of a stream's method. -/
def Op.returns : Op → Act → Bool
  | .read i _, .chunk j _ => decide (i = j)
  | .write i data, .wrote j data' => decide (i = j) && decide (data = data')
  | .end_ i data, .ended j data' => decide (i = j) && decide (data.getD [] = data')
  | .reset i code _, .wasReset j code' => decide (i = j) && decide (code.toUInt64 = code')
  | _, _ => false

/-- If a method of a stream returns, the call is its, and it does so last. -/
def State.Returns (s : State) (o : Op) (s' : State) : Prop :=
  s.Apart s' ∨ ∃ a s'', s.Apart s'' ∧ s'.trace = a :: s''.trace ∧ o.returns a = true

namespace State.Apart

variable {s s' s'' : State}

theorem of_trace_eq (h : s'.trace = s.trace) : s.Apart s' := ⟨[], h, List.forall_mem_nil _⟩

theorem refl (s : State) : s.Apart s := of_trace_eq rfl

theorem log (s : State) {a : Act} (h : a.byStream = false) : s.Apart (s.log a) :=
  ⟨[a], rfl, by simpa using h⟩

theorem trans (h : s.Apart s') (h' : s'.Apart s'') : s.Apart s'' := by
  obtain ⟨new, ht, hnew⟩ := h
  obtain ⟨new', ht', hnew'⟩ := h'
  refine ⟨new' ++ new, by rw [ht', ht, List.append_assoc], fun a ha => ?_⟩
  rcases List.mem_append.mp ha with ha | ha
  · exact hnew' a ha
  · exact hnew a ha

theorem syncState (s : State) (p : Periods) : s.Apart (s.syncState p) := by
  rcases s.syncState_trace p with ht | ht
  · exact of_trace_eq ht
  · exact ⟨[.periods p], ht, by simp [Act.byStream]⟩

/-- Of all that the polling calls are made of, nothing is a return of a stream's method. -/
theorem pieces : Pieces (fun a => !a.byStream) State.Apart where
  refl := refl
  trans := trans
  log s _ ha := log s (Bool.not_eq_true' _ ▸ ha)
  callback s cb := ⟨[.callback cb], rfl, by simp [Act.byStream]⟩
  entries _ _ _ := of_trace_eq rfl
  sync := syncState
  lastError _ _ := of_trace_eq rfl

theorem returns (h : s.Apart s') (o : Op) : s.Returns o s' := .inl h

/-- The last act. -/
theorem last (h : s.Apart s') {o : Op} {a : Act} (ht : s''.trace = a :: s'.trace)
    (ha : o.returns a = true) : s.Returns o s'' := .inr ⟨a, s', h, ht, ha⟩

end State.Apart

/-! ## One call -/

namespace Connection

theorem openLocalStream_apart (bidi : Bool) (context : String) (s : State) (rv : Except Err Int) :
    s.Apart (openLocalStream bidi context s rv).1 := by
  have hopen : s.Apart (s.log (.openLocal bidi rv)) := .log s rfl
  have hret (b : Bool) (rv' : Except Err Int) (pending : Bool) : (s.log (.openLocal bidi rv)).Apart
      (returnStream (s.log (.openLocal bidi rv)) b rv' pending).1 :=
    ⟨[.returned b _ pending], rfl, by simp [Act.byStream]⟩
  unfold openLocalStream
  split
  · exact .log s rfl
  · cases rv with
    | ok id => exact hopen.trans (hret ..)
    | error e =>
      by_cases he : e = .streamIdBlocked
      · subst he; exact hopen.trans (hret ..)
      · simp only
        exact hopen.trans (.log _ rfl)

end Connection

/-- The act of a stream's method that returns is the last one of the call. -/
theorem step_returns (s : State) (o : Op) : s.Returns o (step s o) := by
  have hquiet {s' : State} {a : Act} (ht : s'.trace = a :: s.trace) (ha : a.byStream = false) :
      s.Returns o s' := .inl ⟨[a], ht, by simpa using ha⟩
  have hone {s' : State} {a : Act} (ht : s'.trace = a :: s.trace) (ha : o.returns a = true) :
      s.Returns o s' := (State.Apart.refl s).last ht ha
  cases o with
  | read id length =>
    show s.Returns _ (Stream.read s id length).1
    unfold Stream.read
    split
    · exact hquiet rfl rfl
    · split
      · exact hone rfl (decide_eq_true rfl)
      · split
        · exact hone rfl (decide_eq_true rfl)
        · exact hone rfl (decide_eq_true rfl)
  | write id data =>
    show s.Returns _ (Stream.write s id data).1
    unfold Stream.write
    repeat' split
    · exact hquiet rfl rfl
    · exact hquiet rfl rfl
    · exact hquiet rfl rfl
    · exact hone rfl (by simp [Op.returns])
  | end_ id data =>
    show s.Returns _ (Stream.end_ s id data).1
    unfold Stream.end_
    repeat' split
    · exact hquiet rfl rfl
    · exact hquiet rfl rfl
    · exact hone rfl (by simp [Op.returns])
  | reset id code a =>
    have hshut : s.Apart (Stream.shutdownStream s id code.toUInt64 a).1 := by
      unfold Stream.shutdownStream
      split
      · exact (State.Apart.pieces.runCallbacks s _).trans (.log _ rfl)
      · exact .refl s
    show s.Returns _ (Stream.reset s id code a).1
    unfold Stream.reset
    split
    · exact hquiet rfl rfl
    · split
      · rename_i heq
        rw [heq] at hshut
        exact (hshut.trans (.log _ rfl)).returns _
      · rename_i heq
        rw [heq] at hshut
        exact hshut.last rfl (by simp [Op.returns])
  | openStream rv => exact (Connection.openLocalStream_apart true _ s rv).returns _
  | openUniStream rv => exact (Connection.openLocalStream_apart false _ s rv).returns _
  | recv g d a => exact (State.Apart.pieces.recv s g d a (fun _ => rfl) fun _ => rfl).returns _
  | onTimeout a => exact (State.Apart.pieces.onTimeout s a rfl fun _ => rfl).returns _
  | drainOutgoingDatagrams a =>
    have hclose : s.Apart (Connection.drainClose s a.close).1 :=
      State.Apart.pieces.drainClose s a.close (fun _ => .of_trace_eq rfl) (fun _ => rfl)
        (fun _ => rfl) fun _ => rfl
    have hdrain : s.Apart (Connection.drainOutgoingDatagrams s a).1 :=
      State.Apart.pieces.drainOutgoingDatagrams (fun _ _ => rfl) (fun _ _ => rfl) s a hclose
        (fun _ => rfl) fun _ => rfl
    exact hdrain.returns _
  | drainEvents => exact hquiet rfl rfl
  | close code reason =>
    exact (State.Apart.of_trace_eq (Connection.close_trace s code reason)).returns _

/-- `read`, `write` and `end` return with nothing before. -/
theorem step_returned {s : State} {o : Op} {a : Act} {t : Trace} (ht : (step s o).trace = a :: t)
    (ho : o.returns a = true) (ha : ∀ id code, a ≠ .wasReset id code) : t = s.trace := by
  have hone : ∃ b, (step s o).trace = b :: s.trace := by
    cases o with
    | read id length =>
      show ∃ b, (Stream.read s id length).1.trace = b :: s.trace
      unfold Stream.read
      repeat' split
      all_goals exact ⟨_, rfl⟩
    | write id data =>
      show ∃ b, (Stream.write s id data).1.trace = b :: s.trace
      unfold Stream.write
      repeat' split
      all_goals exact ⟨_, rfl⟩
    | end_ id data =>
      show ∃ b, (Stream.end_ s id data).1.trace = b :: s.trace
      unfold Stream.end_
      repeat' split
      all_goals exact ⟨_, rfl⟩
    | reset id code x =>
      cases a with
      | wasReset i code => exact absurd rfl (ha i code)
      | _ => cases ho
    | _ => cases ho
  obtain ⟨b, hb⟩ := hone
  exact (List.cons.inj (ht.symm.trans hb)).2

/-! ## The calls of a run -/

namespace Start

variable {start : Start} {ops : List Op}

theorem run_append (start : Start) (ops ops' : List Op) :
    start.run (ops ++ ops') = Runs.run step (start.run ops) ops' := Runs.run_append ..

/-- The run passes through the state behind each of its calls. -/
theorem Passes.of_prefix {pre : List Op} (h : pre <+: ops) : start.Passes ops (start.run pre) := by
  obtain ⟨rest, rfl⟩ := h
  refine ⟨start.run_moves pre, ?_⟩
  rw [run_append]
  exact Moves.of_run step_moves (start.run pre) rest

/-- A stream's method has returned in a call of the run. -/
theorem state_byStream (start : Start) : ∀ a ∈ start.state.trace, a.byStream = false := by
  cases start with
  | uninitialised => exact List.forall_mem_nil _
  | client path r l => exact List.forall_mem_nil _
  | server path r l payload cbs =>
    obtain ⟨new, ht, hnew⟩ := (State.Apart.pieces.runCallbacks (Start.server path r l payload cbs).base
      cbs).trans (.log _ (a := .readPkt path payload none) rfl)
    rw [show (Start.server path r l payload cbs).base.trace = [] from rfl, List.append_nil] at ht
    exact ht ▸ hnew

end Start

theorem Trace.mem_or_suffix {a : Act} {t new t' : Trace} (h : a :: t <:+ new ++ t') :
    a ∈ new ∨ a :: t <:+ t' := by
  induction new with
  | nil => exact .inr h
  | cons b new ih =>
    rcases List.suffix_cons_iff.mp h with heq | hs
    · exact .inl ((List.cons.inj heq).1 ▸ List.mem_cons_self)
    · exact (ih hs).imp_left (List.mem_cons_of_mem b)

/-- The act of a stream's method that has returned is the last one of a call of the run. -/
theorem Start.run_behind {start : Start} {ops : List Op} {a : Act} {t : Trace}
    (ha : a.byStream = true) (h : a :: t <:+ (start.run ops).trace) :
    ∃ pre o, pre ++ [o] <+: ops ∧ o.returns a = true ∧ (start.run (pre ++ [o])).trace = a :: t := by
  induction ops using List.reverseRecOn with
  | nil =>
    rw [start.state_byStream a (h.subset List.mem_cons_self)] at ha
    cases ha
  | append_singleton ops o ih =>
    have hrun : start.run (ops ++ [o]) = step (start.run ops) o := start.run_append ops [o]
    have hearlier {s : State} (hapart : (start.run ops).Apart s) (hs : a :: t <:+ s.trace) :
        ∃ pre o', pre ++ [o'] <+: ops ++ [o] ∧ o'.returns a = true ∧
          (start.run (pre ++ [o'])).trace = a :: t := by
      obtain ⟨new, ht, hnew⟩ := hapart
      rw [ht] at hs
      rcases Trace.mem_or_suffix hs with hmem | hs
      · rw [hnew a hmem] at ha
        cases ha
      · obtain ⟨pre, o', hpre, hrest⟩ := ih hs
        exact ⟨pre, o', hpre.trans (List.prefix_append _ _), hrest⟩
    rcases step_returns (start.run ops) o with hapart | ⟨b, s', hapart, ht, hb⟩
    · exact hearlier hapart (hrun ▸ h)
    · rw [hrun, ht] at h
      rcases List.suffix_cons_iff.mp h with heq | hs
      · obtain ⟨rfl, rfl⟩ := List.cons.inj heq
        exact ⟨ops, o, List.prefix_rfl, hb, by rw [hrun, ht]⟩
      · exact hearlier hapart hs

/-- The call of `read`, `write` or `end` behind its act, in the state that it finds. -/
theorem Start.run_call {start : Start} {ops : List Op} {a : Act} {t : Trace}
    (ha : a.byStream = true) (hreset : ∀ id code, a ≠ .wasReset id code)
    (h : a :: t <:+ (start.run ops).trace) :
    ∃ pre o, pre ++ [o] <+: ops ∧ o.returns a = true ∧ (start.run pre).trace = t ∧
      (step (start.run pre) o).trace = a :: t := by
  obtain ⟨pre, o, hpre, ho, ht⟩ := start.run_behind ha h
  rw [start.run_append pre [o]] at ht
  exact ⟨pre, o, hpre, ho, (step_returned ht ho hreset).symm, ht⟩

/-- A condition on the calls of `read`, `write` and `end` of a run, as one on their acts. -/
theorem Start.each_of_along {P : State → Op → Prop} {Q : Act → Trace → Prop} {start : Start}
    {ops : List Op} (h : Runs.Along step P start.state ops)
    (hother : ∀ a t, a.byStream = false → Q a t) (hreset : ∀ id code t, Q (.wasReset id code) t)
    (hcall : ∀ pre o a, P (start.run pre) o → o.returns a = true →
      (step (start.run pre) o).trace = a :: (start.run pre).trace → Q a (start.run pre).trace) :
    History.Each Q (start.run ops).trace := by
  intro a t hs
  by_cases ha : a.byStream = true
  · by_cases hr : ∃ id code, a = .wasReset id code
    · obtain ⟨id, code, rfl⟩ := hr
      exact hreset id code t
    · obtain ⟨pre, o, hpre, ho, rfl, hstep⟩ :=
        start.run_call ha (fun id code heq => hr ⟨id, code, heq⟩) hs
      exact hcall pre o a (Runs.along_iff.mp h pre o hpre) ho hstep
  · exact hother a t (Bool.not_eq_true _ ▸ ha)

/-! ## An object without a connection -/

theorem step_uninitialised {s : State} (hconn : s.conn.conn = none) (hempty : s.conn.streams = .empty)
    (o : Op) : (step s o).conn.conn = none ∧ (step s o).conn.streams = .empty := by
  have hget (id : Int) : s.conn.getStreamEntry id = none := by
    unfold Connection.getStreamEntry
    rw [hempty]
    rfl
  cases o with
  | read id length => simp [step, Stream.read, hget, apply_ite, hconn, hempty]
  | write id data => simp [step, Stream.write, hget, hconn, hempty]
  | end_ id data => simp [step, Stream.end_, hget, hconn, hempty]
  | reset id code a => simp [step, Stream.reset, hget, hconn, hempty]
  | openStream rv =>
    simp [step, Connection.openStream, Connection.openLocalStream, hconn, hempty]
  | openUniStream rv =>
    simp [step, Connection.openUniStream, Connection.openLocalStream, hconn, hempty]
  | recv g d a => simp [step, Connection.recv, hconn, hempty]
  | onTimeout a => simp [step, Connection.onTimeout, hconn, hempty]
  | drainOutgoingDatagrams a =>
    simp [step, Connection.drainOutgoingDatagrams, Connection.returnDatagrams, hconn, hempty]
  | drainEvents => exact ⟨hconn, hempty⟩
  | close code reason =>
    obtain ⟨_, _, _, _, _, _, hc⟩ := Connection.close_rest s code reason
    show (Connection.close s code reason).1.conn.conn = none ∧
      (Connection.close s code reason).1.conn.streams = .empty
    rw [hc]
    exact ⟨hconn, hempty⟩

/-- An object without a connection of ngtcp2 never has a stream. -/
theorem Start.run_uninitialised {start : Start} (h : start.conn = none) (ops : List Op) (id : Int) :
    (start.run ops).conn.getStreamEntry id = none := by
  have hstart : start = .uninitialised := by
    cases start with
    | uninitialised => rfl
    | client => cases h
    | server => cases h
  subst hstart
  have hinv := Runs.run_inv (I := fun s : State => s.conn.conn = none ∧ s.conn.streams = .empty)
    (fun s o hi => step_uninitialised hi.1 hi.2 o) (s := Start.uninitialised.state) ⟨rfl, rfl⟩ ops
  unfold Connection.getStreamEntry
  rw [show (Start.uninitialised.run ops).conn.streams = _ from hinv.2]
  rfl

end PhpQuic
