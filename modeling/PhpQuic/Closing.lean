import PhpQuic.Lifecycle

/-!
# Terminal answers

What the connection makes of the answers behind which ngtcp2's connection is over: `CLOSING`,
`DRAINING` and `IDLE_CLOSE`, which the code takes for its regular end (`Act.terminal`).

Behind such an answer the code only calls `sync_state`, which closes the connection when ngtcp2
reports one of its two periods. An idle timeout is neither of them.

* `Polling s s'`: what `recv`, `onTimeout` and `drainOutgoingDatagrams` do between `s` and `s'`.
  They never request a close, and they call `sync_state` behind a terminal answer.
* `Move.closedBy`: a connection is closed because a close was requested or a period was seen.
* `terminal_closes_iff`: a terminal answer closes the connection for good unless it is `IDLE_CLOSE`.
-/

namespace PhpQuic

open Runs (Moves)

/-- The error that ngtcp2 answered a call that moves the connection on. -/
def Act.answer : Act → Option Err
  | .readPkt _ _ rv | .handleExpiry rv => rv
  | .writev _ a => errorOf a.result
  | .writeClose _ rv _ => errorOf rv
  | _ => none
where
  errorOf : Except Err Bytes → Option Err
    | .error e => some e
    | .ok _ => none

/-- ngtcp2 answered that its connection is over. -/
def Act.terminal (a : Act) : Bool := a.answer.any Err.isNonfatalClosing

/-- One of the two periods. -/
def Periods.over (p : Periods) : Bool := p.inClosing || p.inDraining

/-- A terminal answer stands with no `sync_state` behind it. -/
def Trace.unsynced : Trace → Bool
  | [] => false
  | .periods _ :: _ => false
  | a :: t => a.terminal || Trace.unsynced t

/-- Some call of `sync_state` saw a period. -/
def Trace.sawOver (t : Trace) : Bool := t.any fun
  | .periods p => p.over
  | _ => false

theorem Trace.unsynced_append {new t : Trace} (h : new.unsynced = false) (ht : t.unsynced = false) :
    Trace.unsynced (new ++ t) = false := by
  induction new with
  | nil => exact ht
  | cons a new ih =>
    cases a with
    | periods p => rfl
    | _ =>
      obtain ⟨ha, hnew⟩ := Bool.or_eq_false_iff.mp h
      exact Bool.or_eq_false_iff.mpr ⟨ha, ih hnew⟩

theorem Trace.unsynced_singleton {a : Act} (h : a.terminal = false) : Trace.unsynced [a] = false := by
  cases a with
  | periods p => rfl
  | _ => exact Bool.or_eq_false_iff.mpr ⟨h, rfl⟩

/-- Behind each terminal answer there is a `sync_state`. -/
theorem Trace.periods_of_synced {new : Trace} {a : Act} (ha : a ∈ new)
    (hterm : a.terminal = true) (h : new.unsynced = false) : ∃ p, .periods p ∈ new := by
  induction new with
  | nil => cases ha
  | cons b new ih =>
    by_cases hb : ∃ p, b = .periods p
    · obtain ⟨p, rfl⟩ := hb
      exact ⟨p, List.mem_cons_self⟩
    · have hcons : Trace.unsynced (b :: new) = (b.terminal || Trace.unsynced new) := by
        cases b with
        | periods p => exact absurd ⟨p, rfl⟩ hb
        | _ => rfl
      rw [hcons] at h
      obtain ⟨hbt, hnew⟩ := Bool.or_eq_false_iff.mp h
      rcases List.mem_cons.mp ha with rfl | ha
      · rw [hterm] at hbt; cases hbt
      · obtain ⟨p, hp⟩ := ih ha hnew
        exact ⟨p, List.mem_cons_of_mem _ hp⟩

/-! ## The three methods -/

/-- What the methods that poll ngtcp2 keep, and what they add to the history. -/
structure Polling (s s' : State) : Prop where
  conn : s'.conn.conn = s.conn.conn
  closeRequested : s'.conn.closeRequested = s.conn.closeRequested
  acts : ∃ new, s'.trace = new ++ s.trace ∧ Trace.unsynced new = false ∧ Trace.drainedEvents new = []

namespace Polling

variable {s s' s'' : State}

theorem refl (s : State) : Polling s s := ⟨rfl, rfl, [], rfl, rfl, rfl⟩

theorem trans (h : Polling s s') (h' : Polling s' s'') : Polling s s'' := by
  obtain ⟨new, ht, hnew, hev⟩ := h.acts
  obtain ⟨new', ht', hnew', hev'⟩ := h'.acts
  refine ⟨h'.conn.trans h.conn, h'.closeRequested.trans h.closeRequested, new' ++ new, ?_, ?_, ?_⟩
  · rw [ht', ht, List.append_assoc]
  · exact Trace.unsynced_append hnew' hnew
  · rw [Trace.drainedEvents_append, hev, hev']; rfl

/-- Only the connection is touched. -/
theorem of_trace_eq (hconn : s'.conn.conn = s.conn.conn)
    (hreq : s'.conn.closeRequested = s.conn.closeRequested) (ht : s'.trace = s.trace) :
    Polling s s' :=
  ⟨hconn, hreq, [], ht, rfl, rfl⟩

theorem log (s : State) {a : Act} (h : a.terminal = false)
    (hev : Trace.drainedEvents [a] = [] := by rfl) : Polling s (s.log a) :=
  ⟨rfl, rfl, [a], rfl, Trace.unsynced_singleton h, hev⟩

theorem runCallbacks (s : State) (cbs : List Callback) : Polling s (s.runCallbacks cbs) := by
  induction cbs generalizing s with
  | nil => exact .refl s
  | cons cb cbs ih =>
    refine Polling.trans ⟨?_, ?_, [.callback cb], rfl, rfl, rfl⟩ (ih (s.runCallback cb))
    · exact s.conn.callback_conn cb
    · exact s.conn.callback_closeRequested cb

theorem suffix (h : Polling s s') : s.trace <:+ s'.trace := by
  obtain ⟨new, ht, -⟩ := h.acts
  exact ⟨new, ht.symm⟩

theorem drainedEvents (h : Polling s s') : s'.trace.drainedEvents = s.trace.drainedEvents := by
  obtain ⟨new, ht, -, hev⟩ := h.acts
  rw [ht, Trace.drainedEvents_append, hev, List.append_nil]

/-- One more act, whatever it answers. -/
theorem adds (h : Polling s s') (a : Act) (hev : Trace.drainedEvents [a] = [] := by rfl) :
    ∃ new, a :: s'.trace = new ++ s.trace ∧ Trace.drainedEvents new = [] := by
  obtain ⟨new, ht, -, hnew⟩ := h.acts
  refine ⟨a :: new, by rw [ht]; rfl, ?_⟩
  rw [show a :: new = [a] ++ new from rfl, Trace.drainedEvents_append, hnew, hev]
  rfl

theorem adds_nothing (h : Polling s s') :
    ∃ new, s'.trace = new ++ s.trace ∧ Trace.drainedEvents new = [] := by
  obtain ⟨new, ht, -, hnew⟩ := h.acts
  exact ⟨new, ht, hnew⟩

/-- Whatever ngtcp2 has answered, `sync_state` settles it. -/
theorem sync (hsome : s.conn.conn.isSome = true) (hconn : s'.conn.conn = s.conn.conn)
    (hreq : s'.conn.closeRequested = s.conn.closeRequested)
    (hacts : ∃ new, s'.trace = new ++ s.trace ∧ Trace.drainedEvents new = []) (p : Periods) :
    Polling s (s'.syncState p) := by
  obtain ⟨new, ht, hev⟩ := hacts
  obtain ⟨_, _, _, _, _, hc⟩ := s'.conn.syncState_rest p
  refine ⟨?_, ?_, .periods p :: new, ?_, rfl, hev⟩
  · rw [State.syncState_conn, hc]; exact hconn
  · rw [State.syncState_conn, hc]; exact hreq
  · unfold State.syncState
    rw [hconn, Option.isNone_eq_false_iff.mpr hsome, if_neg Bool.false_ne_true]
    rw [State.log_trace, State.withConn_trace, ht]
    rfl

theorem entriesOnly {c : Connection} (h : s.conn.EntriesOnly c) : Polling s (s.withConn c) := by
  obtain ⟨_, _, hc, -⟩ := h
  exact .of_trace_eq (by rw [hc]; rfl) (by rw [hc]; rfl) rfl

end Polling

namespace Connection

open Polling (runCallbacks)

theorem recv_polling (s : State) (g : Getaddrinfo) (d : Datagram) (a : ReadPktAnswer) :
    Polling s (recv s g d a).1 := by
  unfold recv
  split
  · exact .log s rfl
  · rename_i hnone
    have hsome : s.conn.conn.isSome = true := by simpa [Option.isSome_iff_ne_none] using hnone
    have hcb := runCallbacks s a.callbacks
    split
    · exact .log s rfl
    · rename_i remoteAddr hremote
      simp only
      split
      · exact .log s rfl
      · rename_i localAddr hlocal
        have hread := Polling.log (s.runCallbacks a.callbacks)
          (a := .readPkt { localAddr, remoteAddr } d.payload a.rv)
        cases hrv : a.rv with
        | none =>
          refine .sync hsome ?_ ?_ ?_ a.periods
          · exact hcb.conn
          · exact hcb.closeRequested
          · exact hcb.adds _
        | some rv =>
          simp only
          split
          · refine .sync hsome ?_ ?_ ?_ a.periods
            · exact hcb.conn
            · exact hcb.closeRequested
            · exact hcb.adds _
          · rename_i hfatal
            rw [hrv] at hread
            refine Polling.trans ?_ (.log _ rfl)
            refine Polling.trans (hcb.trans (hread (Bool.not_eq_true _ ▸ hfatal))) ?_
            split
            · exact .of_trace_eq rfl rfl rfl
            · exact .refl _

theorem onTimeout_polling (s : State) (a : ExpiryAnswer) : Polling s (onTimeout s a).1 := by
  unfold onTimeout
  split
  · exact .refl s
  · rename_i hopen
    have hsome : s.conn.conn.isSome = true := by
      cases h : s.conn.conn with
      | none => simp [h] at hopen
      | some _ => rfl
    have hcb := runCallbacks s a.callbacks
    cases hrv : a.rv with
    | none =>
      refine .sync hsome ?_ ?_ ?_ a.periods
      · exact hcb.conn
      · exact hcb.closeRequested
      · exact hcb.adds _
    | some rv =>
      simp only
      split
      · refine .sync hsome ?_ ?_ ?_ a.periods
        · exact hcb.conn
        · exact hcb.closeRequested
        · exact hcb.adds _
      · rename_i hrv
        refine Polling.trans ?_ (.log _ rfl)
        refine Polling.trans (hcb.trans (.log _ (a := .handleExpiry (some rv)) ?_)) ?_
        · exact Bool.not_eq_true _ ▸ hrv
        · exact .of_trace_eq rfl rfl rfl

theorem drainClose_polling (s : State) (hsome : s.conn.conn.isSome = true) (a : CloseAnswer) :
    Polling s (drainClose s a).1 := by
  have hcb := runCallbacks s a.callbacks
  unfold drainClose
  cases hr : a.result with
  | error rv =>
    simp only
    split
    · refine Polling.trans (.sync hsome ?_ ?_ ?_ a.periods) (.log _ rfl)
      · exact hcb.conn
      · exact hcb.closeRequested
      · exact hcb.adds _
    · rename_i hrv
      refine Polling.trans (hcb.trans (.log _ ?_)) (.log _ rfl)
      exact Bool.not_eq_true _ ▸ hrv
  | ok pkt =>
    simp only
    have hsent := hcb.trans (.log _ (a := .writeClose s.conn.lastError (.ok pkt) a.path) rfl)
    refine (hsent.trans ?_).trans (.log _ rfl)
    exact .of_trace_eq rfl rfl rfl

theorem pickOrNone_polling (s : State) (force : Bool) : Polling s (pickOrNone s force).1 := by
  unfold pickOrNone
  split
  · exact .refl s
  · refine .entriesOnly ?_
    unfold pickTxStream
    split
    · exact .refl _
    · exact .modifyEntry ..

theorem openIfPending_polling (s : State) (offer : Option Offer) (rv : Except Err Int) :
    Polling s (openIfPending s offer rv).1 := by
  unfold openIfPending
  cases offer with
  | none => exact .refl s
  | some o =>
    simp only
    split
    · exact .refl s
    · have hlog := Polling.log s (a := .openPending o.streamId rv) rfl
      cases rv with
      | ok opened =>
        simp only
        split
        · exact hlog
        · exact hlog.trans (.entriesOnly (.modifyEntry ..))
      | error e =>
        by_cases he : e = .streamIdBlocked
        · subst he; exact hlog
        · simp only; exact hlog

theorem writevStream_polling (s : State) (hsome : s.conn.conn.isSome = true)
    (offer : Option Offer) (a : IterAnswer) : Polling s (writevStream s offer a).1 := by
  -- the settled state, but for the answer itself
  have hset : Polling s ((s.runCallbacks a.writev.callbacks).withConn
      ((s.runCallbacks a.writev.callbacks).conn.settle? offer a.writev)) := by
    refine (runCallbacks s _).trans (.entriesOnly ?_)
    cases offer with
    | none => exact .refl _
    | some o => exact settle_entriesOnly ..
  have hsettled (h : (Act.writev offer a.writev).terminal = false) :
      Polling s (settled s offer a.writev) := hset.trans (.log _ h)
  have hterm {e : Err} (hr : a.writev.result = .error e) :
      (Act.writev offer a.writev).terminal = e.isNonfatalClosing := by
    simp [Act.terminal, Act.answer, Act.answer.errorOf, hr]
  rw [writevStream_eq]
  cases hr : a.writev.result with
  | ok pkt =>
    have := hsettled (by simp [Act.terminal, Act.answer, Act.answer.errorOf, hr])
    simp only
    split
    · exact this
    · exact this
  | error e =>
    cases he : e.isNonfatalClosing with
    | true =>
      have hsync : Polling s ((settled s offer a.writev).syncState a.periods) := by
        refine .sync hsome ?_ ?_ ?_ a.periods
        · exact hset.conn
        · exact hset.closeRequested
        · exact hset.adds _
      cases e with
      | closing | draining | idleClose => exact hsync
      | _ => cases he
    | false =>
      have := hsettled ((hterm hr).trans he)
      cases e with
      | closing | draining | idleClose => cases he
      | writeMore | streamDataBlocked | streamShutWr => exact this
      | _ => exact this.trans (.of_trace_eq rfl rfl rfl)

theorem drainIteration_polling (s : State) (hsome : s.conn.conn.isSome = true) (force : Bool)
    (a : IterAnswer) : Polling s (drainIteration s force a).1 := by
  have hpick := (pickOrNone_polling s force).trans
    (openIfPending_polling (pickOrNone s force).1 (pickOrNone s force).2 a.openStream)
  unfold drainIteration
  simp only
  split
  · rename_i s' e heq
    rw [heq] at hpick
    exact hpick
  · rename_i s' offer heq
    rw [heq] at hpick
    exact hpick.trans (writevStream_polling s' (by rw [hpick.conn]; exact hsome) offer a)

theorem drainLoop_polling (s : State) (hsome : s.conn.conn.isSome = true) (force : Bool)
    (out : List Datagram) (as : List IterAnswer) : Polling s (drainLoop s force out as).1 := by
  induction as generalizing s force out with
  | nil => exact .refl s
  | cons a as ih =>
    have hi := drainIteration_polling s hsome force a
    unfold drainLoop
    split
    · rename_i s' force' heq
      rw [heq] at hi
      exact hi.trans (ih s' (by rw [hi.conn]; exact hsome) force' out)
    · rename_i s' heq
      rw [heq] at hi; exact hi
    · rename_i s' e heq
      rw [heq] at hi; exact hi
    · rename_i s' d heq
      rw [heq] at hi
      split
      · exact hi
      · exact hi.trans (ih s' (by rw [hi.conn]; exact hsome) false _)

theorem drainOutgoingDatagrams_polling (s : State) (a : DrainAnswers) :
    Polling s (drainOutgoingDatagrams s a).1 := by
  unfold drainOutgoingDatagrams
  split
  · exact .log s rfl
  · rename_i hnone
    have hsome : s.conn.conn.isSome = true := by simpa [Option.isSome_iff_ne_none] using hnone
    split
    · exact drainClose_polling s hsome a.close
    · have hl := drainLoop_polling s hsome false [] a.loop
      split
      · rename_i s' out heq
        rw [heq] at hl
        exact Polling.trans (.sync hsome hl.conn hl.closeRequested hl.adds_nothing a.periods) (.log _ rfl)
      · rename_i s' e heq
        rw [heq] at hl
        exact hl.trans (.log _ rfl)
      · rename_i s' out heq
        rw [heq] at hl
        exact hl

end Connection

/-- A call that polls ngtcp2: `recv`, `onTimeout` (and with it `handleTimers` and `tick`) or
`drainOutgoingDatagrams`. -/
def Op.polls : Op → Bool
  | .recv .. | .onTimeout .. | .drainOutgoingDatagrams .. => true
  | _ => false

theorem Op.polling {o : Op} (ho : o.polls = true) (s : State) : Polling s (step s o) := by
  cases o with
  | recv g d a => exact Connection.recv_polling s g d a
  | onTimeout a => exact Connection.onTimeout_polling s a
  | drainOutgoingDatagrams a => exact Connection.drainOutgoingDatagrams_polling s a
  | _ => cases ho

/-! ## What closes a connection -/

theorem Connection.syncState_closed (c : Connection) (p : Periods) :
    (c.syncState p).closed = (c.closed || (c.conn.isSome && p.over)) := by
  unfold syncState
  cases hconn : c.conn with
  | none => simp
  | some role =>
    simp only [Option.isNone_some, Bool.false_eq_true, ↓reduceIte]
    have hkeep : (if p.inDraining then c.noteDraining else c).closed = c.closed := by
      unfold noteDraining
      simp only
      repeat' split
      all_goals rfl
    split
    · rename_i hp
      rw [noteClosed_closed, Option.isSome_some, Bool.true_and]
      exact (Bool.or_eq_true_iff.mpr (.inr hp)).symm
    · rename_i hp
      rw [hkeep, Option.isSome_some, Bool.true_and, show p.over = false by simpa [Periods.over] using hp,
        Bool.or_false]

theorem Trace.sawOver_cons {a : Act} (h : ∀ p, a ≠ .periods p) (t : Trace) :
    Trace.sawOver (a :: t) = t.sawOver := by
  cases a with
  | periods p => exact absurd rfl (h p)
  | _ => rfl

/-- A connection is closed because a close was requested or a period was seen. -/
def State.ClosedBy (s : State) : Prop := s.conn.closed = (s.conn.closeRequested || s.trace.sawOver)

theorem State.ClosedBy.congr {s s' : State} (h : s.ClosedBy) (hf : s'.conn.flags = s.conn.flags)
    (ht : s'.trace.sawOver = s.trace.sawOver) : s'.ClosedBy := by
  simp only [Connection.flags, Flags.mk.injEq] at hf
  unfold ClosedBy
  rw [hf.2.2.1, hf.2.2.2.1, ht]
  exact h

theorem Move.closedBy {s s' : State} (hm : Move s s') (h : s.ClosedBy) : s'.ClosedBy := by
  cases hm with
  | quiet a ha =>
    refine h.congr rfl (Trace.sawOver_cons ?_ _)
    rintro p rfl
    cases ha
  | callback cb =>
    obtain ⟨_, _, _, hc⟩ := s.conn.callback_rest cb
    unfold State.ClosedBy State.runCallback
    rw [State.log_conn, State.withConn_conn, hc]
    exact h
  | opened b id hconn => exact h.congr (Connection.returnStream_flags ..) rfl
  | blocked b hconn => exact h.congr (Connection.returnStream_flags ..) rfl
  | settle o a ho hp => exact h.congr (s.conn.settle_entriesOnly o a).flags_eq rfl
  | sync p =>
    obtain ⟨_, _, _, _, _, hc⟩ := s.conn.syncState_rest p
    have hreq : (s.syncState p).conn.closeRequested = s.conn.closeRequested := by
      rw [State.syncState_conn, hc]
    unfold State.ClosedBy
    rw [hreq, State.syncState_conn, s.conn.syncState_closed, show s.conn.closed = _ from h]
    unfold State.syncState
    cases hconn : s.conn.conn with
    | none => simp
    | some role =>
      simp only [Option.isSome_some, Bool.true_and, Option.isNone_some, Bool.false_eq_true,
        ↓reduceIte, State.log_trace, State.withConn_trace]
      rw [Bool.or_assoc, Bool.or_comm s.trace.sawOver]
      rfl
  | close code reason hopen =>
    have hflags : (Connection.close s code reason).1.conn.closed = true ∧
        (Connection.close s code reason).1.conn.closeRequested = true := by
      unfold Connection.close
      rw [if_neg (by rw [hopen]; exact Bool.false_ne_true)]
      simp only
      split
      · exact ⟨rfl, rfl⟩
      · exact ⟨rfl, rfl⟩
    unfold State.ClosedBy
    rw [hflags.1, hflags.2]
    rfl
  | _ => exact h

theorem Call.closedBy {s : State} (call : Call) (h : s.ClosedBy) : (call.step s).ClosedBy := by
  cases call with
  | op o => exact Moves.inv' (I := State.ClosedBy) (fun _ _ hm => hm.closedBy) (step_moves s o) h
  | construct r l a =>
    refine h.congr (Call.construct_step s r l a).1 ?_
    unfold Call.step
    simp only
    split
    · rfl
    · rfl

theorem Start.runCalls_closedBy (start : Start) (calls : List Call) :
    (start.runCalls calls).ClosedBy := by
  have hbase : start.base.ClosedBy := by cases start <;> rfl
  refine Runs.run_inv (I := State.ClosedBy) (fun _ call => call.closedBy) ?_ calls
  exact Moves.inv' (I := State.ClosedBy) (fun _ _ hm => hm.closedBy) (start.run_moves []) hbase

/-! ## Terminal answers -/

/-- The periods that ngtcp2 documents behind a terminal answer: an idle timeout is no period. -/
def Err.fits : Err → Act → Bool
  | .closing, .periods p => p.inClosing
  | .draining, .periods p => p.inDraining
  | .idleClose, .periods p => !p.over
  | _, _ => true

/-- Closed, with one `ConnectionClosed` queued, and without a timer for ever. -/
structure ClosedForGood (start : Start) (calls : List Call) : Prop where
  isClosed : (start.runCalls calls).conn.isClosed = true
  one_event : eventCount .connectionClosed (start.runCalls calls).queued = 1
  no_timeout : ∀ later now expiry,
    (start.runCalls (calls ++ later)).conn.getNextTimeout now expiry = none
  no_expiry : ∀ later now expiry epochMs,
    (start.runCalls (calls ++ later)).conn.getNextExpiry now expiry epochMs = none

/-- The flag decides it all. -/
theorem closedForGood_iff (start : Start) (calls : List Call) :
    ClosedForGood start calls ↔ (start.runCalls calls).conn.closed = true := by
  obtain ⟨hlife, hkept⟩ := lifecycle_run start calls
  constructor
  · intro h
    have hclosed := h.isClosed
    unfold Connection.isClosed at hclosed
    rcases Bool.or_eq_true_iff.mp hclosed with hc | hr
    · exact hc
    · exact hlife.requested_closed hr
  · intro hc
    have hnone (later : List Call) (now expiry : Nat) :
        (start.runCalls (calls ++ later)).conn.getNextTimeoutMs now expiry = none := by
      have hlater : (start.runCalls (calls ++ later)).conn.closed = true := (hkept later).closed hc
      unfold Connection.getNextTimeoutMs Connection.getNextExpiryNs
      rw [hlater, Bool.or_true, if_pos rfl, Option.map_none]
    refine ⟨?_, ?_, ?_, ?_⟩
    · unfold Connection.isClosed; rw [hc, Bool.true_or]
    · rw [hlife.closed_count, if_pos hc]
    · intro later now expiry
      unfold Connection.getNextTimeout; rw [hnone, Option.map_none]
    · intro later now expiry epochMs
      unfold Connection.getNextExpiry; rw [hnone, Option.map_none]

/-- A call that polls closes the connection when it sees a period, and not otherwise. -/
theorem closed_after_poll (start : Start) (calls : List Call) {o : Op} (ho : o.polls = true) :
    (start.runCalls (calls ++ [.op o])).conn.closed =
      ((start.runCalls calls).conn.closed ||
        ((start.runCalls calls).actsSince (start.runCalls (calls ++ [.op o]))).sawOver) := by
  have hrun := start.runCalls_op calls o
  obtain ⟨new, hnew⟩ := (Op.polling ho (start.runCalls calls)).suffix
  have hafter := start.runCalls_closedBy (calls ++ [.op o])
  have hbefore := start.runCalls_closedBy calls
  unfold State.ClosedBy at hafter hbefore
  have hsaw : (start.runCalls (calls ++ [.op o])).trace.sawOver =
      (((start.runCalls calls).actsSince (start.runCalls (calls ++ [.op o]))).sawOver ||
        (start.runCalls calls).trace.sawOver) := by
    rw [← hrun] at hnew
    rw [State.actsSince_eq hnew.symm, ← hnew]
    exact List.any_append
  rw [hafter, hbefore, hsaw, hrun, (Op.polling ho _).closeRequested]
  rw [Bool.or_comm (Trace.sawOver _) (Trace.sawOver _), Bool.or_assoc]

/-- What happens in the call of `o` behind `calls`. -/
def Start.actsOf (start : Start) (calls : List Call) (o : Op) : Trace :=
  (start.runCalls calls).actsSince (start.runCalls (calls ++ [.op o]))

/-- ngtcp2 answers the call of `o` behind `calls` with the terminal error `err`, and the periods that
it reports then are those of `err`, unless the connection is closed already. -/
structure Answered (start : Start) (calls : List Call) (o : Op) (err : Err) : Prop where
  polls : o.polls = true
  terminal : err.isNonfatalClosing = true
  answer : ∃ a ∈ start.actsOf calls o, a.answer = some err
  fits : (start.runCalls calls).conn.closed = false →
    ∀ a ∈ start.actsOf calls o, err.fits a = true

/-- A period is seen in the call unless the answer is an idle timeout. -/
theorem Answered.sawOver_iff {start : Start} {calls : List Call} {o : Op} {err : Err}
    (h : Answered start calls o err) (hopen : (start.runCalls calls).conn.closed = false) :
    (start.actsOf calls o).sawOver = true ↔ err ≠ .idleClose := by
  obtain ⟨a, ha, hans⟩ := h.answer
  have hfits := h.fits hopen
  have hterm := h.terminal
  constructor
  · rintro hsaw rfl
    obtain ⟨b, hb, hover⟩ := List.any_eq_true.mp hsaw
    cases b with
    | periods p =>
      have hover : p.over = true := hover
      have hfit : (!p.over) = true := hfits _ hb
      rw [hover] at hfit
      cases hfit
    | _ => cases hover
  · intro hne
    have hsynced : (start.actsOf calls o).unsynced = false := by
      obtain ⟨new, ht, hnew, -⟩ := (Op.polling h.polls (start.runCalls calls)).acts
      have hacts : start.actsOf calls o = new := by
        rw [Start.actsOf, start.runCalls_op]
        exact State.actsSince_eq ht
      rw [hacts]
      exact hnew
    obtain ⟨p, hp⟩ := Trace.periods_of_synced ha (by unfold Act.terminal; rw [hans]; exact hterm)
      hsynced
    have hfit := hfits _ hp
    refine List.any_eq_true.mpr ⟨_, hp, ?_⟩
    cases err with
    | closing => exact Bool.or_eq_true_iff.mpr (.inl hfit)
    | draining => exact Bool.or_eq_true_iff.mpr (.inr hfit)
    | idleClose => exact absurd rfl hne
    | _ => cases hterm

/-- A terminal answer closes the connection for good unless it is an idle timeout. -/
theorem terminal_closes_iff (start : Start) (calls : List Call) (o : Op) (err : Err)
    (h : Answered start calls o err) :
    ClosedForGood start (calls ++ [.op o]) ↔
      (start.runCalls calls).conn.closed = true ∨ err ≠ .idleClose := by
  rw [closedForGood_iff, closed_after_poll start calls h.polls, Bool.or_eq_true]
  cases hc : (start.runCalls calls).conn.closed with
  | true => exact iff_of_true (.inl rfl) (.inl rfl)
  | false => exact or_congr_right (h.sawOver_iff hc)

/-- A client that a packet of the peer puts into the draining period. -/
def drainedByPeer : Op :=
  .recv (fun _ _ => some [{ family := .inet, addr := [127, 0, 0, 1], port := 4433 }])
    { payload := [0x40], peerAddress := some ⟨[49], 4433⟩, localAddress := none }
    { rv := some .draining, periods := { inDraining := true } }

theorem terminal_closes_iff_drainedByPeer :
    Answered (.client {} none none) [] drainedByPeer .draining ∧
      (ClosedForGood (.client {} none none) [.op drainedByPeer] ↔
        ((Start.client {} none none).runCalls []).conn.closed = true ∨ Err.draining ≠ .idleClose) :=
  have h : Answered (.client {} none none) [] drainedByPeer .draining :=
    ⟨rfl, rfl, by decide, fun _ => by decide⟩
  ⟨h, terminal_closes_iff _ [] _ _ h⟩

/-- An idle timeout leaves the connection open. -/
theorem terminal_leaves_open :
    ¬ ∀ (start : Start) (calls : List Call) (o : Op) (err : Err), Answered start calls o err →
      ClosedForGood start (calls ++ [.op o]) := by
  intro h
  have hidle := h (.client {} none none) [] (.onTimeout { rv := some .idleClose }) .idleClose
    ⟨rfl, rfl, by decide, fun _ => by decide⟩
  have := hidle.isClosed
  revert this
  decide

end PhpQuic
