import PhpQuic.Connection.Pieces

/-!
# Packets under construction

ngtcp2 answers `WRITE_MORE` when it has taken the data of a stream and has room for more: the packet
is under construction until `ngtcp2_conn_writev_stream` answers a length. The send loop goes on behind
`WRITE_MORE`, but not behind every answer that may follow it.

* `Trace.building`: a packet is under construction.
* `Act.leaves`: the answers at which the send loop is left without a length. `Trace.leavesHalf`: one
  of them comes while a packet is under construction.
* `drainLoop_leaves`: by induction on the answers, the loop leaves a packet half built if and only if
  it meets such an answer.
-/

namespace PhpQuic

/-- A packet is under construction. -/
def Trace.building : Trace → Bool
  | [] => false
  | .writev _ a :: t =>
    match a.result with
    | .ok _ => false
    | .error .writeMore => true
    | .error _ => building t
  | _ :: t => building t

/-- The answers at which the send loop is left, but for a length: a deferred open that fails or gives
another stream, `STREAM_DATA_BLOCKED` without a stream, and every error that the loop does not know. -/
def Act.leaves : Act → Bool
  | .openPending id (.ok opened) => decide (opened ≠ id)
  | .openPending _ (.error rv) => decide (rv ≠ .streamIdBlocked)
  | .writev offer a =>
    match a.result with
    | .ok _ | .error .writeMore | .error .streamShutWr => false
    | .error .streamDataBlocked => offer.isNone
    | .error _ => true
  | _ => false

/-- Of the acts behind the history `old`, one leaves the loop while a packet is under construction. -/
def Trace.leavesHalf (old : Trace) : Trace → Bool
  | [] => false
  | a :: new => a.leaves && Trace.building (new ++ old) || leavesHalf old new

theorem Trace.leavesHalf_append (old new new' : Trace) :
    Trace.leavesHalf old (new' ++ new) =
      (Trace.leavesHalf (new ++ old) new' || Trace.leavesHalf old new) := by
  induction new' with
  | nil => rfl
  | cons a new' ih =>
    show (a.leaves && Trace.building (new' ++ new ++ old) || Trace.leavesHalf old (new' ++ new)) = _
    rw [ih, List.append_assoc, ← Bool.or_assoc]
    rfl

/-- Neither an answer of `ngtcp2_conn_writev_stream` nor one that leaves the loop. -/
def Act.aside : Act → Bool
  | .writev .. => false
  | a => !a.leaves

/-- What happens from `s` to `s'`, and whether the loop is left over a packet under construction. -/
structure Leaves (s s' : State) (half : Bool) : Prop where
  acts : ∃ new, s'.trace = new ++ s.trace ∧ Trace.leavesHalf s.trace new = half

/-- Nothing happens that has to do with packets. -/
structure Aside (s s' : State) : Prop where
  acts : ∃ new, s'.trace = new ++ s.trace ∧ ∀ a ∈ new, a.aside = true

namespace Aside

variable {s s' s'' : State}

theorem of_trace_eq (h : s'.trace = s.trace) : Aside s s' := ⟨[], h, List.forall_mem_nil _⟩

/-- One act. -/
theorem one {a : Act} (ht : s'.trace = a :: s.trace) (h : a.aside = true) : Aside s s' := by
  refine ⟨[a], ht, fun b hb => ?_⟩
  rw [List.mem_singleton.mp hb]
  exact h

theorem trans (h : Aside s s') (h' : Aside s' s'') : Aside s s'' := by
  obtain ⟨new, ht, hin⟩ := h.acts
  obtain ⟨new', ht', hin'⟩ := h'.acts
  refine ⟨new' ++ new, by rw [ht', ht, List.append_assoc], fun a ha => ?_⟩
  rcases List.mem_append.mp ha with ha | ha
  · exact hin' a ha
  · exact hin a ha

theorem syncState (s : State) (p : Periods) : Aside s (s.syncState p) := by
  unfold State.syncState
  split
  · exact of_trace_eq rfl
  · exact .one (a := .periods p) rfl rfl

/-- The calls that poll ngtcp2 are made of such things, the answers to the send loop apart. -/
theorem pieces : Pieces Act.aside Aside where
  refl _ := of_trace_eq rfl
  trans := trans
  log _ _ ha := one rfl ha
  callback _ _ := one rfl rfl
  entries _ _ _ := of_trace_eq rfl
  sync := syncState
  lastError _ _ := of_trace_eq rfl

/-- What is under construction stays so. -/
theorem building (h : Aside s s') : Trace.building s'.trace = Trace.building s.trace := by
  obtain ⟨new, ht, hin⟩ := h.acts
  rw [ht]
  clear ht
  induction new with
  | nil => rfl
  | cons a new ih =>
    have hrest := ih fun b hb => hin b (List.mem_cons_of_mem _ hb)
    have ha := hin a List.mem_cons_self
    cases a with
    | writev offer answer => cases ha
    | _ => exact hrest

theorem leaves (h : Aside s s') : Leaves s s' false := by
  obtain ⟨new, ht, hin⟩ := h.acts
  refine ⟨new, ht, ?_⟩
  clear ht
  induction new with
  | nil => rfl
  | cons a new ih =>
    have hrest := ih fun b hb => hin b (List.mem_cons_of_mem _ hb)
    have ha : a.leaves = false := by
      have := hin a List.mem_cons_self
      cases a with
      | writev offer answer => cases this
      | _ => exact Bool.not_eq_true' .. ▸ this
    unfold Trace.leavesHalf
    rw [ha, hrest]
    rfl

end Aside

namespace Leaves

variable {s s' s'' : State} {half half' : Bool}

theorem trans (h : Leaves s s' half) (h' : Leaves s' s'' half') : Leaves s s'' (half' || half) := by
  obtain ⟨new, ht, hl⟩ := h.acts
  obtain ⟨new', ht', hl'⟩ := h'.acts
  refine ⟨new' ++ new, by rw [ht', ht, List.append_assoc], ?_⟩
  rw [Trace.leavesHalf_append, ← ht, hl, hl']

theorem log (s : State) (a : Act) : Leaves s (s.log a) (a.leaves && Trace.building s.trace) :=
  ⟨[a], rfl, Bool.or_false _⟩

/-- Behind a part that has nothing to do with packets. -/
theorem after (h : Aside s s') (h' : Leaves s' s'' half) : Leaves s s'' half := by
  have htrans := h.leaves.trans h'
  rw [Bool.or_false] at htrans
  exact htrans

theorem before (h : Leaves s s' half) (h' : Aside s' s'') : Leaves s s'' half := h.trans h'.leaves

theorem actsSince (h : Leaves s s' half) : Trace.leavesHalf s.trace (s.actsSince s') = half := by
  obtain ⟨new, ht, hl⟩ := h.acts
  rw [State.actsSince_eq ht]
  exact hl

end Leaves

/-- The loop ends with the iteration. -/
def Verdict.ends : Verdict → Bool
  | .stop | .threw _ => true
  | _ => false

namespace Connection

/-- A deferred open at which the loop is left leaves what is under construction; behind another one
the iteration goes on. -/
theorem openIfPending_leaves (s : State) (offer : Option Offer) (rv : Except Err Int) :
    (∀ e, (openIfPending s offer rv).2 = .error e →
      Leaves s (openIfPending s offer rv).1
        (Trace.building (openIfPending s offer rv).1.trace)) ∧
    ∀ o, (openIfPending s offer rv).2 = .ok o → Aside s (openIfPending s offer rv).1 := by
  unfold openIfPending
  cases offer with
  | none => exact ⟨fun _ h => (by cases h), fun _ _ => .of_trace_eq rfl⟩
  | some o =>
    simp only
    split
    · exact ⟨fun _ h => (by cases h), fun _ _ => .of_trace_eq rfl⟩
    · cases rv with
      | ok opened =>
        have hlog := Leaves.log s (.openPending o.streamId (.ok opened))
        by_cases hne : opened ≠ o.streamId
        · simp only [if_pos hne]
          simp only [Act.leaves, hne, ne_eq, not_false_eq_true, decide_true, Bool.true_and] at hlog
          exact ⟨fun _ _ => hlog, fun _ h => by cases h⟩
        · simp only [if_neg hne]
          have haside : (Act.openPending o.streamId (.ok opened)).aside = true := by
            unfold Act.aside Act.leaves
            simp only [hne, decide_false, Bool.not_false]
          exact ⟨fun _ h => (by cases h), fun _ _ => Aside.one rfl haside⟩
      | error e =>
        have hlog := Leaves.log s (.openPending o.streamId (.error e))
        by_cases he : e = .streamIdBlocked
        · subst he
          exact ⟨fun _ h => (by cases h),
            fun _ _ => .one (a := .openPending o.streamId (.error .streamIdBlocked)) rfl rfl⟩
        · simp only [Act.leaves, ne_eq, he, not_false_eq_true, decide_true, Bool.true_and] at hlog ⊢
          exact ⟨fun _ _ => hlog, fun _ h => by cases h⟩

theorem writevStream_leaves (s : State) (offer : Option Offer) (a : IterAnswer) :
    Leaves s (writevStream s offer a).1
        ((writevStream s offer a).2.ends && Trace.building (writevStream s offer a).1.trace) ∧
      ∀ d, (writevStream s offer a).2 = .emit d →
        Trace.building (writevStream s offer a).1.trace = false := by
  have hcb : Aside s ((s.runCallbacks a.writev.callbacks).withConn
      ((s.runCallbacks a.writev.callbacks).conn.settle? offer a.writev)) :=
    (Aside.pieces.runCallbacks s a.writev.callbacks).trans (.of_trace_eq rfl)
  have hsettled := Leaves.after hcb (.log _ (.writev offer a.writev))
  have hbuilding : Trace.building (settled s offer a.writev).trace = match a.writev.result with
      | .ok _ => false
      | .error .writeMore => true
      | .error _ => Trace.building s.trace := by
    rw [← hcb.building]; rfl
  rw [hcb.building] at hsettled
  rw [writevStream_eq]
  cases hr : a.writev.result with
  | ok pkt =>
    simp only [hr] at hbuilding
    simp only [Act.leaves, hr, Bool.false_and] at hsettled
    simp only
    split
    · exact ⟨by rw [hbuilding, Bool.and_false]; exact hsettled, nofun⟩
    · exact ⟨hsettled, fun _ _ => hbuilding⟩
  | error e =>
    cases hc : e.isNonfatalClosing with
    | true =>
      have hsync := Aside.syncState (settled s offer a.writev) a.periods
      cases e with
      | closing | draining | idleClose =>
        simp only [hr] at hbuilding
        simp only [Act.leaves, hr, Bool.true_and] at hsettled
        rw [← hbuilding] at hsettled
        refine ⟨?_, nofun⟩
        have hend := hsettled.before hsync
        rw [← hsync.building] at hend
        exact hend
      | _ => cases hc
    | false =>
      cases e with
      | closing | draining | idleClose => cases hc
      | writeMore | streamShutWr =>
        simp only [Act.leaves, hr, Bool.false_and] at hsettled
        exact ⟨hsettled, nofun⟩
      | streamDataBlocked =>
        simp only [hr] at hbuilding
        simp only [Act.leaves, hr] at hsettled
        rw [← hbuilding] at hsettled
        cases offer with
        | none => exact ⟨hsettled, nofun⟩
        | some o => exact ⟨hsettled, nofun⟩
      | _ =>
        simp only [hr] at hbuilding
        simp only [Act.leaves, hr, Bool.true_and] at hsettled
        rw [← hbuilding] at hsettled
        exact ⟨hsettled.before (.of_trace_eq rfl), nofun⟩

theorem drainIteration_leaves (s : State) (force : Bool) (a : IterAnswer) :
    Leaves s (drainIteration s force a).1
        ((drainIteration s force a).2.ends && Trace.building (drainIteration s force a).1.trace) ∧
      ∀ d, (drainIteration s force a).2 = .emit d →
        Trace.building (drainIteration s force a).1.trace = false := by
  have hpick : Aside s (pickOrNone s force).1 := Aside.pieces.pickOrNone s force
  have hopen := openIfPending_leaves (pickOrNone s force).1 (pickOrNone s force).2 a.openStream
  unfold drainIteration
  simp only
  split
  · rename_i s' e heq
    rw [heq] at hopen
    exact ⟨.after hpick (hopen.1 e rfl), nofun⟩
  · rename_i s' offer heq
    rw [heq] at hopen
    have hwritev := writevStream_leaves s' offer a
    exact ⟨.after (hpick.trans (hopen.2 offer rfl)) hwritev.1, hwritev.2⟩

/-- When the loop ends, a packet is under construction if and only if the loop was left over one. -/
theorem drainLoop_leaves (s : State) (force : Bool) (out : List Datagram) (as : List IterAnswer)
    (hends : ∀ out', (drainLoop s force out as).2 ≠ .running out') :
    Leaves s (drainLoop s force out as).1 (Trace.building (drainLoop s force out as).1.trace) := by
  induction as generalizing s force out with
  | nil => exact absurd rfl (hends out)
  | cons a as ih =>
    have hi := drainIteration_leaves s force a
    unfold drainLoop at hends ⊢
    split at hends
    · rename_i s' force' heq
      rw [heq] at hi
      have hrest := Leaves.trans hi.1 (ih s' force' out hends)
      rw [show (Verdict.again force').ends = false from rfl, Bool.false_and, Bool.or_false] at hrest
      exact hrest
    · rename_i s' heq
      rw [heq] at hi; exact hi.1
    · rename_i s' e heq
      rw [heq] at hi; exact hi.1
    · rename_i s' d heq
      rw [heq] at hi
      have hwhole := hi.2 d rfl
      split at hends
      · rename_i hfull
        rw [if_pos hfull, hwhole]
        exact hi.1
      · rename_i hfull
        rw [if_neg hfull]
        have hrest := Leaves.trans hi.1 (ih s' false _ hends)
        rw [show (Verdict.emit d).ends = false from rfl, Bool.false_and, Bool.or_false] at hrest
        exact hrest

end Connection

theorem drainClose_aside (s : State) (a : CloseAnswer) : Aside s (Connection.drainClose s a).1 :=
  Aside.pieces.drainClose s a (fun _ => .of_trace_eq rfl) (fun _ => rfl) (fun _ => rfl) fun _ => rfl

/-- When a call ends, no packet is under construction if and only if the send loop was not left over
one; a call without a send loop leaves what was under construction before. -/
theorem packet_whole_iff (s : State) (a : DrainAnswers)
    (hends : (Connection.drainOutgoingDatagrams s a).2 ≠ .running) :
    Trace.building (step s (.drainOutgoingDatagrams a)).trace = false ↔
      if s.entersLoop then
        Trace.leavesHalf s.trace (s.actsSince (step s (.drainOutgoingDatagrams a))) = false
      else Trace.building s.trace = false := by
  have hstep : step s (.drainOutgoingDatagrams a) = (Connection.drainOutgoingDatagrams s a).1 := rfl
  rw [hstep]
  cases hloops : s.entersLoop with
  | true =>
    rw [if_pos rfl]
    rw [Connection.drainOutgoingDatagrams_loop a hloops] at hends ⊢
    have hloop := Connection.drainLoop_leaves s false [] a.loop
    -- what follows the loop has nothing to do with packets
    have hend {s' s'' : State} (h : Leaves s s' (Trace.building s'.trace)) (haside : Aside s' s'') :
        Trace.building s''.trace = false ↔ Trace.leavesHalf s.trace (s.actsSince s'') = false := by
      rw [(h.before haside).actsSince, haside.building]
    split at hends
    · rename_i s' out heq
      rw [heq] at hloop
      refine hend (hloop nofun) ?_
      exact (Aside.syncState s' a.periods).trans (.one rfl rfl)
    · rename_i s' e heq
      rw [heq] at hloop
      exact hend (hloop nofun) (.one rfl rfl)
    · exact absurd rfl hends
  | false =>
    rw [if_neg Bool.false_ne_true]
    cases hsome : s.conn.conn.isSome with
    | false =>
      rw [Connection.drainOutgoingDatagrams_none a hsome]
      exact Iff.rfl
    | true =>
      have hdue : (s.conn.closeRequested && !s.conn.closePacketSent) = true := by
        simpa [State.entersLoop, hsome] using hloops
      rw [Connection.drainOutgoingDatagrams_close a hsome hdue, (drainClose_aside s a.close).building]

/-- A client with a byte on stream 0 and a byte on stream 4, whose open is blocked. -/
def openAndPending : List Op :=
  [.openStream (.ok 0), .write 0 [1], .openStream (.error .streamIdBlocked), .write 4 [2]]

/-- The data of the second stream completes the packet. -/
theorem packet_whole_iff_completed :
    let s := (Start.client {} none none).run openAndPending
    let a : DrainAnswers :=
      { loop := [{ writev := { result := .error .writeMore, wdatalen := 1 } },
          { openStream := .ok 4, writev := { result := .ok [7], wdatalen := 1 } },
          { writev := { result := .ok [] } }] }
    (Connection.drainOutgoingDatagrams s a).2 ≠ .running ∧
      (Trace.building (step s (.drainOutgoingDatagrams a)).trace = false ↔
        if s.entersLoop then
          Trace.leavesHalf s.trace (s.actsSince (step s (.drainOutgoingDatagrams a))) = false
        else Trace.building s.trace = false) :=
  have h : (Connection.drainOutgoingDatagrams ((Start.client {} none none).run openAndPending)
      { loop := [{ writev := { result := .error .writeMore, wdatalen := 1 } },
        { openStream := .ok 4, writev := { result := .ok [7], wdatalen := 1 } },
        { writev := { result := .ok [] } }] }).2 ≠ .running := by decide
  ⟨h, packet_whole_iff _ _ h⟩

/-- The deferred open of the second stream fails behind `WRITE_MORE`: its exception leaves the packet
half built. -/
theorem packet_left_half_built :
    ¬ ∀ (start : Start) (ops : List Op) (a : DrainAnswers),
      Trace.building (start.run ops).trace = false →
      (Connection.drainOutgoingDatagrams (start.run ops) a).2 ≠ .running →
      Trace.building (step (start.run ops) (.drainOutgoingDatagrams a)).trace = false := by
  intro h
  have hbad := h (.client {} none none) openAndPending
    { loop := [{ writev := { result := .error .writeMore, wdatalen := 1 } },
        { openStream := .error (.other (-501)), writev := { result := .ok [] } }] }
    (by decide) (by decide)
  revert hbad
  decide

end PhpQuic
