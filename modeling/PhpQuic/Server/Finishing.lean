import PhpQuic.Events.Silent
import PhpQuic.Server.Endpoint

/-!
# How a connection gets finished, and its queue

The endpoint drops a connection that is finished (`Connection.finished`): closed, and a requested
close is sent. This module says when a call leaves a connection finished with events in its queue.

* `State.sendsClose`: the call sends the packet of a requested close. With `closed_after_poll` it
  gives the flags of `finished` behind a call that polls ngtcp2.
* `State.InTime`: no open connection is reported to be over in the call, and a connection that is
  finished then had nothing queued, and queues nothing (`State.Silent`). `inTime_iff`: then, and
  only then, a connection that is finished behind the call has an empty queue.
-/

namespace PhpQuic

open Runs (Moves)

/-! ## The close packet -/

/-- The call sends the packet of a close that was requested. -/
def State.sendsClose (s : State) : Op → Bool
  | .drainOutgoingDatagrams a =>
    s.conn.conn.isSome && (s.conn.closeRequested && !s.conn.closePacketSent) &&
      match a.close.result with
      | .ok _ => true
      | .error rv => rv.isNonfatalClosing
  | _ => false

namespace Connection

theorem runCallbacks_closePacketSent (s : State) (cbs : List Callback) :
    (s.runCallbacks cbs).conn.closePacketSent = s.conn.closePacketSent := by
  obtain ⟨_, _, _, h⟩ := s.runCallbacks_rest cbs
  rw [h]

theorem syncState_closePacketSent (s : State) (p : Periods) :
    (s.syncState p).conn.closePacketSent = s.conn.closePacketSent := by
  obtain ⟨_, _, _, _, _, hc⟩ := s.conn.syncState_rest p
  rw [State.syncState_conn, hc]

theorem EntriesOnly.closePacketSent {c c' : Connection} (h : EntriesOnly c c') :
    c'.closePacketSent = c.closePacketSent := by
  obtain ⟨_, _, hc, -⟩ := h
  rw [hc]

/-- The flag of the close packet is set in `drainClose` alone. -/
theorem closePacketSent_pieces : Pieces (fun _ => true) fun s s' =>
    s'.conn.closePacketSent = s.conn.closePacketSent where
  refl _ := rfl
  trans h h' := h'.trans h
  log _ _ _ := rfl
  callback s cb := runCallbacks_closePacketSent s [cb]
  entries _ _ h := h.closePacketSent
  sync := syncState_closePacketSent
  lastError _ _ := rfl

theorem drainOutgoingDatagrams_closePacketSent (s : State) (a : DrainAnswers) :
    (drainOutgoingDatagrams s a).1.conn.closePacketSent =
      (s.conn.closePacketSent || s.sendsClose (.drainOutgoingDatagrams a)) := by
  unfold drainOutgoingDatagrams State.sendsClose
  cases hconn : s.conn.conn with
  | none =>
    simp only [Option.isNone_none, if_true, Option.isSome_none, Bool.false_and, Bool.or_false]
    rfl
  | some role =>
    simp only [Option.isNone_some, Bool.false_eq_true, if_false, Option.isSome_some, Bool.true_and]
    cases hsend : s.conn.closeRequested && !s.conn.closePacketSent with
    | true =>
      rw [if_pos rfl, Bool.true_and]
      unfold drainClose
      cases a.close.result with
      | ok pkt => exact (Bool.or_true _).symm
      | error rv =>
        simp only
        cases rv.isNonfatalClosing with
        | true =>
          refine Eq.trans ?_ (Bool.or_true _).symm
          exact syncState_closePacketSent ..
        | false =>
          refine Eq.trans ?_ (Bool.or_false _).symm
          exact runCallbacks_closePacketSent s a.close.callbacks
    | false =>
      have hloop := closePacketSent_pieces.drainLoop (fun _ _ => rfl) (fun _ _ => rfl) s false []
        a.loop
      rw [if_neg Bool.false_ne_true, Bool.false_and, Bool.or_false]
      split
      · rename_i s' out heq
        rw [heq] at hloop
        exact (syncState_closePacketSent s' a.periods).trans hloop
      · rename_i s' e heq
        rw [heq] at hloop; exact hloop
      · rename_i s' out heq
        rw [heq] at hloop; exact hloop

end Connection

/-- The flag behind a call that polls ngtcp2. -/
theorem closePacketSent_after_poll (s : State) {o : Op} (ho : o.polls = true) :
    (step s o).conn.closePacketSent = (s.conn.closePacketSent || s.sendsClose o) := by
  cases o with
  | recv g d a =>
    refine Eq.trans ?_ (Bool.or_false _).symm
    exact Connection.closePacketSent_pieces.recv s g d a (fun _ => rfl) fun _ => rfl
  | onTimeout a =>
    refine Eq.trans ?_ (Bool.or_false _).symm
    exact Connection.closePacketSent_pieces.onTimeout s a rfl fun _ => rfl
  | drainOutgoingDatagrams a => exact Connection.drainOutgoingDatagrams_closePacketSent s a
  | _ => cases ho

/-! ## Finished in time -/

theorem Start.state_reachable (start : Start) : start.state.Reachable := ⟨start, [], rfl⟩

theorem Start.state_drainedEvents (start : Start) : start.state.trace.drainedEvents = [] := by
  cases start with
  | uninitialised | client => rfl
  | server path remoteAddress localAddress payload callbacks =>
    exact (Polling.runCallbacks _ callbacks).drainedEvents

/-- ngtcp2 reports in the call that the connection is in its closing or its draining period. -/
def State.Over (s : State) (o : Op) : Prop := Trace.sawOver (s.actsSince (PhpQuic.step s o)) = true

instance (s : State) (o : Op) : Decidable (s.Over o) := inferInstanceAs (Decidable (_ = true))

/-- A call leaves no events behind in a connection that it finishes: ngtcp2 does not report an open
connection to be over; and in one that is finished already, or whose requested close is sent in the
call, no event is queued, before the call or in it. -/
structure State.InTime (s : State) (o : Op) : Prop where
  opened : s.conn.closed = false → ¬ s.Over o
  closed : s.conn.closed = true → (s.conn.finished || s.sendsClose o) = true →
    s.conn.events = [] ∧ s.Silent o

namespace State.Reachable

variable {s : State} {o : Op}

/-- A call that closes an open connection leaves an event in its queue. -/
theorem closing_queues (h : s.Reachable) (ho : o.drains = false) (hopen : s.conn.closed = false)
    (hclosed : (PhpQuic.step s o).conn.closed = true) : (PhpQuic.step s o).conn.events ≠ [] := by
  intro hnil
  have hbefore := h.lifecycle.closed_count
  have hafter := (h.step o).lifecycle.closed_count
  rw [hopen, if_neg Bool.false_ne_true] at hbefore
  rw [hclosed, if_pos rfl] at hafter
  unfold State.queued at hbefore hafter
  rw [eventCount_append] at hbefore
  rw [step_drainedEvents s ho, hnil, List.append_nil] at hafter
  omega

theorem closed_after (h : s.Reachable) (ho : o.polls = true) :
    (PhpQuic.step s o).conn.closed = true ↔ s.conn.closed = true ∨ s.Over o := by
  obtain ⟨start, calls, rfl⟩ := h.calls
  rw [← start.runCalls_op, closed_after_poll start calls ho, Bool.or_eq_true, start.runCalls_op]
  rfl

/-- The events of a finished connection are taken in time if and only if none are left behind. -/
theorem inTime_iff (h : s.Reachable) (ho : o.polls = true) :
    s.InTime o ↔ ((PhpQuic.step s o).conn.finished = true → (PhpQuic.step s o).conn.events = []) := by
  have hdrains : o.drains = false := by cases o <;> first | rfl | cases ho
  have hreq : (PhpQuic.step s o).conn.closeRequested = s.conn.closeRequested :=
    (o.polling ho s).closeRequested
  have hsent := closePacketSent_after_poll s ho
  cases hc : s.conn.closed with
  | false =>
    have hnoreq : s.conn.closeRequested = false :=
      Bool.eq_false_iff.mpr fun hr => by
        rw [h.lifecycle.requested_closed hr] at hc; cases hc
    have hfinished : (PhpQuic.step s o).conn.finished = true ↔ s.Over o := by
      unfold Connection.finished
      rw [hreq, hnoreq, Bool.not_false, Bool.true_or, Bool.and_true, h.closed_after ho, hc]
      exact or_iff_right Bool.false_ne_true
    rw [hfinished]
    constructor
    · intro hin hover
      exact absurd hover (hin.opened hc)
    · refine fun hleft => ⟨fun _ hover => ?_, fun hc' => absurd (hc.symm.trans hc') nofun⟩
      exact h.closing_queues hdrains hc ((h.closed_after ho).mpr (.inr hover)) (hleft hover)
  | true =>
    have hfinished : (PhpQuic.step s o).conn.finished = (s.conn.finished || s.sendsClose o) := by
      unfold Connection.finished
      rw [hreq, hsent, (h.closed_after ho).mpr (.inl hc), hc, Bool.true_and, Bool.true_and,
        Bool.or_assoc]
    have hnil : (PhpQuic.step s o).conn.events = [] ↔ s.conn.events = [] ∧ s.Silent o := by
      rw [h.silent_iff ho hc]
      constructor
      · intro he
        obtain ⟨new, hnew⟩ := step_events_grow s hdrains
        rw [he] at hnew ⊢
        have := (List.append_eq_nil_iff.mp hnew).1
        exact ⟨this, this.symm⟩
      · rintro ⟨he, he'⟩
        rw [he', he]
    rw [hfinished, hnil]
    constructor
    · exact fun hin => hin.closed hc
    · exact fun hleft => ⟨fun hc' => absurd (hc.symm.trans hc') nofun, fun _ => hleft⟩

end State.Reachable

end PhpQuic
