import PhpQuic.Closing
import PhpQuic.Connection.Pieces
import PhpQuic.Connection.StreamCalls

/-!
# The packets that ngtcp2 builds, and the datagrams that are handed out

A packet of ngtcp2 counts as sent when it is built. `drainOutgoingDatagrams` hands the packets of a
call out when it returns; a call that throws returns nothing, and nothing keeps its packets.

* `Trace.built`, `Trace.handed`: the packets built and the datagrams handed out so far.
* `PlainActs`: what the send loop adds to the history; `drainLoop_acts` by induction on the answers.
* `drainOutgoingDatagrams_acts`: a call that returns hands out what was built in it.
* `packets_delivered_iff`: a call delivers its packets, at once or later, if and only if ngtcp2 gives
  no answer that makes it throw behind a packet.
-/

namespace PhpQuic

/-- The packet that ngtcp2 has built in the call. -/
def Act.packet : Act → Option Bytes
  | .writev _ a =>
    match a.result with
    | .ok pkt => if pkt.length > 0 then some pkt else none
    | .error _ => none
  | .writeClose _ (.ok pkt) _ => if pkt.length > 0 then some pkt else none
  | _ => none

/-- The packets that ngtcp2 has built, in their order. -/
def Trace.built : Trace → List Bytes
  | [] => []
  | a :: t => built t ++ a.packet.toList

/-- The datagrams that were returned to the application, in their order. -/
def Trace.handed : Trace → List Datagram
  | [] => []
  | .datagrams ds :: t => handed t ++ ds
  | _ :: t => handed t

theorem Trace.built_append (new t : Trace) :
    Trace.built (new ++ t) = Trace.built t ++ Trace.built new := by
  induction new with
  | nil => exact (List.append_nil _).symm
  | cons a new ih =>
    show Trace.built (new ++ t) ++ _ = Trace.built t ++ (Trace.built new ++ _)
    rw [ih, List.append_assoc]

theorem Trace.handed_append (new t : Trace) :
    Trace.handed (new ++ t) = Trace.handed t ++ Trace.handed new := by
  induction new with
  | nil => exact (List.append_nil _).symm
  | cons a new ih =>
    cases a with
    | datagrams ds =>
      show Trace.handed (new ++ t) ++ ds = Trace.handed t ++ (Trace.handed new ++ ds)
      rw [ih, List.append_assoc]
    | _ => exact ih

/-- The answers of ngtcp2 at which `drainOutgoingDatagrams` throws in its send loop: a deferred open
that fails or gives another stream, and a fatal error of `ngtcp2_conn_writev_stream`. -/
def Act.failure : Act → Bool
  | .openPending id (.ok opened) => decide (opened ≠ id)
  | .openPending _ (.error rv) => decide (rv ≠ .streamIdBlocked)
  | .writev _ a =>
    match a.result with
    | .ok _ | .error .writeMore | .error .streamDataBlocked | .error .streamShutWr => false
    | .error rv => !rv.isNonfatalClosing
  | _ => false

/-- Neither a return of `drainOutgoingDatagrams` nor the call that writes the close packet. -/
def Act.plain : Act → Bool
  | .datagrams _ | .writeClose .. => false
  | _ => true

theorem Trace.handed_plain {new : Trace} (h : ∀ a ∈ new, a.plain = true) :
    Trace.handed new = [] := by
  induction new with
  | nil => rfl
  | cons a new ih =>
    have hrest := ih fun b hb => h b (List.mem_cons_of_mem _ hb)
    cases a with
    | datagrams ds => exact absurd (h _ List.mem_cons_self) nofun
    | _ => exact hrest

/-- What the send loop and the other methods add to the history, with the packets that are built and
whether an answer makes the loop throw. -/
structure PlainActs (s s' : State) (packets : List Bytes) (failed : Bool) : Prop where
  acts : ∃ new, s'.trace = new ++ s.trace ∧ (∀ a ∈ new, a.plain = true) ∧
    Trace.built new = packets ∧ new.any Act.failure = failed

namespace PlainActs

variable {s s' s'' : State} {packets packets' : List Bytes} {failed failed' : Bool}

theorem of_trace_eq (h : s'.trace = s.trace) : PlainActs s s' [] false :=
  ⟨[], h, List.forall_mem_nil _, rfl, rfl⟩

theorem log (s : State) (a : Act) (h : a.plain = true) :
    PlainActs s (s.log a) a.packet.toList a.failure := by
  refine ⟨[a], rfl, ?_, rfl, Bool.or_false _⟩
  intro b hb
  rw [List.mem_singleton.mp hb]
  exact h

theorem trans (h : PlainActs s s' packets failed) (h' : PlainActs s' s'' packets' failed') :
    PlainActs s s'' (packets ++ packets') (failed || failed') := by
  obtain ⟨new, ht, hin, hb, hf⟩ := h.acts
  obtain ⟨new', ht', hin', hb', hf'⟩ := h'.acts
  refine ⟨new' ++ new, ?_, ?_, ?_, ?_⟩
  · rw [ht', ht, List.append_assoc]
  · intro a ha
    rcases List.mem_append.mp ha with ha | ha
    · exact hin' a ha
    · exact hin a ha
  · rw [Trace.built_append, hb, hb']
  · rw [List.any_append, hf, hf', Bool.or_comm]

/-- Behind a part that builds nothing. -/
theorem after (h : PlainActs s s' [] false) (h' : PlainActs s' s'' packets failed) :
    PlainActs s s'' packets failed := h.trans h'

theorem syncState (s : State) (p : Periods) : PlainActs s (s.syncState p) [] false := by
  rcases s.syncState_trace p with ht | ht
  · exact of_trace_eq ht
  · refine ⟨[.periods p], ht, ?_, rfl, rfl⟩
    intro b hb
    rw [List.mem_singleton.mp hb]
    rfl

/-- An act that builds nothing, and at which nothing is thrown. -/
def bare (a : Act) : Bool := a.plain && a.packet.isNone && !a.failure

theorem one {a : Act} (ht : s'.trace = a :: s.trace) (h : bare a = true) : PlainActs s s' [] false := by
  obtain ⟨⟨hplain, hnone⟩, hfail⟩ : (a.plain = true ∧ a.packet.isNone = true) ∧ a.failure = false := by
    simpa [bare] using h
  have hlog := log s a hplain
  rw [Option.isNone_iff_eq_none.mp hnone, hfail] at hlog
  exact hlog.after (of_trace_eq ht)

/-- The calls that poll ngtcp2 are made of such acts, the answers to the send loop apart. -/
theorem pieces : Pieces bare fun s s' => PlainActs s s' [] false where
  refl _ := of_trace_eq rfl
  trans := after
  log _ _ ha := one rfl ha
  callback _ _ := one rfl rfl
  entries _ _ _ := of_trace_eq rfl
  sync := syncState
  lastError _ _ := of_trace_eq rfl

end PlainActs

/-- The packet of an iteration. -/
def Verdict.packets : Verdict → List Bytes
  | .emit d => [d.payload]
  | _ => []

/-- The iteration throws. -/
def Verdict.throws : Verdict → Bool
  | .threw _ => true
  | _ => false

namespace Connection

open PlainActs (of_trace_eq)

/-! ## The send loop -/

theorem openIfPending_acts (s : State) (offer : Option Offer) (rv : Except Err Int) :
    PlainActs s (openIfPending s offer rv).1 []
      (match (openIfPending s offer rv).2 with | .error _ => true | .ok _ => false) := by
  unfold openIfPending
  cases offer with
  | none => exact of_trace_eq rfl
  | some o =>
    simp only
    split
    · exact of_trace_eq rfl
    · cases rv with
      | ok opened =>
        have hlog := PlainActs.log s (.openPending o.streamId (.ok opened)) rfl
        simp only
        by_cases hne : opened ≠ o.streamId
        · rw [if_pos hne]
          simpa [Act.packet, Act.failure, hne] using hlog
        · rw [if_neg hne]
          have hlog : PlainActs s (s.log (.openPending o.streamId (.ok opened))) [] false := by
            simpa [Act.packet, Act.failure, hne] using hlog
          exact hlog.after (of_trace_eq rfl)
      | error e =>
        have hlog := PlainActs.log s (.openPending o.streamId (.error e)) rfl
        cases e <;> exact hlog

theorem writevStream_acts (s : State) (offer : Option Offer) (a : IterAnswer) :
    PlainActs s (writevStream s offer a).1 (writevStream s offer a).2.packets
      (writevStream s offer a).2.throws := by
  have hsettled : PlainActs s (settled s offer a.writev) (Act.writev offer a.writev).packet.toList
      (Act.writev offer a.writev).failure := by
    have hcb := PlainActs.pieces.runCallbacks s a.writev.callbacks
    have hconn : PlainActs s ((s.runCallbacks a.writev.callbacks).withConn
        ((s.runCallbacks a.writev.callbacks).conn.settle? offer a.writev)) [] false :=
      hcb.after (of_trace_eq rfl)
    exact hconn.after (.log _ _ rfl)
  rw [writevStream_eq]
  cases hr : a.writev.result with
  | ok pkt =>
    simp only [Act.packet, Act.failure, hr] at hsettled
    by_cases hlen : pkt.length = 0
    · rw [if_neg (by omega)] at hsettled
      simp only [hlen, if_true]
      exact hsettled
    · rw [if_pos (by omega)] at hsettled
      simp only [hlen, if_false]
      exact hsettled
  | error e =>
    cases hc : e.isNonfatalClosing with
    | true =>
      cases e with
      | closing | draining | idleClose =>
        simp only [Act.packet, Act.failure, hr] at hsettled
        exact hsettled.trans (.syncState _ _)
      | _ => cases hc
    | false =>
      cases e with
      | closing | draining | idleClose => cases hc
      | streamDataBlocked =>
        simp only [Act.packet, Act.failure, hr] at hsettled
        cases offer with
        | none => exact hsettled
        | some o => exact hsettled
      | writeMore | streamShutWr =>
        simp only [Act.packet, Act.failure, hr] at hsettled
        exact hsettled
      | _ =>
        simp only [Act.packet, Act.failure, hr] at hsettled
        exact hsettled.trans (of_trace_eq rfl)

theorem drainIteration_acts (s : State) (force : Bool) (a : IterAnswer) :
    PlainActs s (drainIteration s force a).1 (drainIteration s force a).2.packets
      (drainIteration s force a).2.throws := by
  have hpick : PlainActs s (pickOrNone s force).1 [] false := PlainActs.pieces.pickOrNone s force
  have hopen := openIfPending_acts (pickOrNone s force).1 (pickOrNone s force).2 a.openStream
  unfold drainIteration
  simp only
  split
  · rename_i s' e heq
    rw [heq] at hopen
    exact hpick.after hopen
  · rename_i s' offer heq
    rw [heq] at hopen
    exact hpick.after (hopen.after (writevStream_acts s' offer a))

/-- The loop throws. -/
def loopThrows : LoopEnd → Bool
  | .threw _ => true
  | _ => false

/-- The loop builds the packets of the datagrams that it adds to the array. If it throws, it drops
the array. -/
theorem drainLoop_acts (s : State) (force : Bool) (out : List Datagram) (as : List IterAnswer) :
    ∃ ds, PlainActs s (drainLoop s force out as).1 (ds.map Datagram.payload)
        (loopThrows (drainLoop s force out as).2) ∧
      ∀ out', (drainLoop s force out as).2 = .stopped out' → out' = out ++ ds := by
  induction as generalizing s force out with
  | nil => exact ⟨[], of_trace_eq rfl, nofun⟩
  | cons a as ih =>
    have hi := drainIteration_acts s force a
    unfold drainLoop
    split
    · rename_i s' force' heq
      rw [heq] at hi
      obtain ⟨ds, hl, hout⟩ := ih s' force' out
      exact ⟨ds, hi.after hl, hout⟩
    · rename_i s' heq
      rw [heq] at hi
      refine ⟨[], hi, fun out' h => ?_⟩
      rw [List.append_nil]
      exact (LoopEnd.stopped.inj h).symm
    · rename_i s' e heq
      rw [heq] at hi
      exact ⟨[], hi, nofun⟩
    · rename_i s' d heq
      rw [heq] at hi
      split
      · exact ⟨[d], hi, fun out' h => (LoopEnd.stopped.inj h).symm⟩
      · obtain ⟨ds, hl, hout⟩ := ih s' false (out ++ [d])
        refine ⟨d :: ds, hi.trans hl, fun out' h => ?_⟩
        rw [hout out' h, List.append_assoc]
        rfl

end Connection

/-! ## The calls -/

/-- What a call adds to the history: the datagrams that it hands out, the packets that are built in
it, and whether an answer makes its loop throw. -/
structure CallActs (s s' : State) (handed : List Datagram) (packets : List Bytes) (failed : Bool) :
    Prop where
  acts : ∃ new, s'.trace = new ++ s.trace ∧ Trace.handed new = handed ∧
    Trace.built new = packets ∧ new.any Act.failure = failed

namespace CallActs

variable {s s' s'' : State} {handed : List Datagram} {packets : List Bytes} {failed : Bool}

theorem plain (h : PlainActs s s' packets failed) : CallActs s s' [] packets failed := by
  obtain ⟨new, ht, hp, hb, hf⟩ := h.acts
  exact ⟨new, ht, Trace.handed_plain hp, hb, hf⟩

/-- One more act. -/
theorem log (h : CallActs s s' handed packets failed) (a : Act) :
    CallActs s (s'.log a) (handed ++ Trace.handed [a]) (packets ++ a.packet.toList)
      (a.failure || failed) := by
  obtain ⟨new, ht, hh, hb, hf⟩ := h.acts
  refine ⟨a :: new, ?_, ?_, ?_, ?_⟩
  · rw [State.log_trace, ht]; rfl
  · rw [show a :: new = [a] ++ new from rfl, Trace.handed_append, hh]
  · show Trace.built new ++ _ = _
    rw [hb]
  · rw [List.any_cons, hf]

theorem trans {handed' : List Datagram} {packets' : List Bytes} {failed' : Bool}
    (h : CallActs s s' handed packets failed) (h' : CallActs s' s'' handed' packets' failed') :
    CallActs s s'' (handed ++ handed') (packets ++ packets') (failed || failed') := by
  obtain ⟨new, ht, hh, hb, hf⟩ := h.acts
  obtain ⟨new', ht', hh', hb', hf'⟩ := h'.acts
  refine ⟨new' ++ new, ?_, ?_, ?_, ?_⟩
  · rw [ht', ht, List.append_assoc]
  · rw [Trace.handed_append, hh, hh']
  · rw [Trace.built_append, hb, hb']
  · rw [List.any_append, hf, hf', Bool.or_comm]

theorem thenPlain (h : CallActs s s' handed packets failed) (h' : PlainActs s' s'' [] false) :
    CallActs s s'' handed packets failed := by
  have htrans := h.trans (plain h')
  rw [List.append_nil, List.append_nil, Bool.or_false] at htrans
  exact htrans

theorem withConn (h : CallActs s s' handed packets failed) (c : Connection) :
    CallActs s (s'.withConn c) handed packets failed := ⟨h.acts⟩

/-- The array is returned. -/
theorem returned (h : CallActs s s' [] packets failed) (out : List Datagram) :
    CallActs s (Connection.returnDatagrams s' out).1 out packets failed := by
  have hlog := h.log (.datagrams out)
  rw [show (Act.datagrams out).packet.toList = [] from rfl, List.append_nil] at hlog
  exact hlog

theorem actsSince (h : CallActs s s' handed packets failed) :
    Trace.handed (s.actsSince s') = handed ∧ Trace.built (s.actsSince s') = packets ∧
      (s.actsSince s').any Act.failure = failed := by
  obtain ⟨new, ht, hrest⟩ := h.acts
  rw [State.actsSince_eq ht]
  exact hrest

end CallActs

namespace Connection

theorem drainClose_acts (s : State) (a : CloseAnswer) :
    (∃ ds, (drainClose s a).2 = .returned ds ∧
        CallActs s (drainClose s a).1 ds (ds.map Datagram.payload) false) ∨
      (∃ e, (drainClose s a).2 = .threw e) ∧ CallActs s (drainClose s a).1 [] [] false := by
  have hwrote := (CallActs.plain (PlainActs.pieces.runCallbacks s a.callbacks)).log
    (.writeClose s.conn.lastError a.result a.path)
  unfold drainClose
  cases hr : a.result with
  | ok pkt =>
    rw [hr] at hwrote
    refine .inl ⟨_, rfl, ?_⟩
    by_cases hlen : pkt.length > 0
    · simp only [Act.packet, hlen, if_true] at hwrote ⊢
      exact (hwrote.withConn _).returned _
    · simp only [Act.packet, hlen, if_false] at hwrote ⊢
      exact (hwrote.withConn _).returned _
  | error e =>
    rw [hr] at hwrote
    simp only
    cases e.isNonfatalClosing with
    | true => exact .inl ⟨[], rfl, ((hwrote.withConn _).thenPlain (.syncState _ _)).returned []⟩
    | false => exact .inr ⟨⟨_, rfl⟩, hwrote.log (.threw _)⟩

/-- A call that returns hands out the packets built in it; one that throws hands out nothing, behind
an answer that makes its loop throw, unless nothing was built. -/
theorem drainOutgoingDatagrams_acts (s : State) (a : DrainAnswers) :
    (∃ ds, (drainOutgoingDatagrams s a).2 = .returned ds ∧
        CallActs s (drainOutgoingDatagrams s a).1 ds (ds.map Datagram.payload) false) ∨
      (∃ e, (drainOutgoingDatagrams s a).2 = .threw e) ∧
        (∃ packets failed, CallActs s (drainOutgoingDatagrams s a).1 [] packets failed ∧
          (failed = true ∨ packets = [])) ∨
      (drainOutgoingDatagrams s a).2 = .running ∧
        ∃ packets failed, CallActs s (drainOutgoingDatagrams s a).1 [] packets failed := by
  unfold drainOutgoingDatagrams
  split
  · exact .inl ⟨[], rfl, (CallActs.plain (.of_trace_eq rfl)).returned []⟩
  · split
    · rcases drainClose_acts s a.close with h | ⟨he, h⟩
      · exact .inl h
      · exact .inr (.inl ⟨he, [], false, h, .inr rfl⟩)
    · obtain ⟨ds, hl, hout⟩ := drainLoop_acts s false [] a.loop
      split
      · rename_i s' out heq
        rw [heq] at hl hout
        obtain rfl : out = ds := hout out rfl
        exact .inl ⟨out, rfl, ((CallActs.plain hl).thenPlain (.syncState s' a.periods)).returned out⟩
      · rename_i s' e heq
        rw [heq] at hl
        refine .inr (.inl ⟨⟨e, rfl⟩, ds.map Datagram.payload, true, ?_, .inl rfl⟩)
        have hcall := (CallActs.plain hl).log (.threw e)
        rw [show (Act.threw e).packet.toList = [] from rfl, List.append_nil] at hcall
        exact hcall
      · rename_i s' out heq
        rw [heq] at hl
        exact .inr (.inr ⟨rfl, _, _, .plain hl⟩)

end Connection

theorem Act.plain_of_streams {a : Act} (h : a.ofStreams = true) :
    a.plain = true ∧ a.packet = none ∧ a.failure = false := by
  cases a with
  | wrote | ended | wasReset | chunk | returned | threw | openLocal | shutdownStream | callback =>
    exact ⟨rfl, rfl, rfl⟩
  | _ => cases h

theorem StreamActs.plainActs {s s' : State} (h : StreamActs s s') : PlainActs s s' [] false := by
  obtain ⟨-, new, ht, hnew⟩ := h
  refine ⟨new, ht, fun a ha => (Act.plain_of_streams (hnew a ha)).1, ?_, ?_⟩
  · clear ht
    induction new with
    | nil => rfl
    | cons a new ih =>
      show Trace.built new ++ a.packet.toList = []
      rw [ih fun b hb => hnew b (List.mem_cons_of_mem _ hb),
        (Act.plain_of_streams (hnew a List.mem_cons_self)).2.1]
      rfl
  · refine List.any_eq_false.mpr fun a ha => ?_
    rw [(Act.plain_of_streams (hnew a ha)).2.2]
    exact Bool.false_ne_true

/-- The other calls neither build nor hand out. -/
theorem step_plainActs (s : State) {o : Op} (ho : ∀ a, o ≠ .drainOutgoingDatagrams a) :
    PlainActs s (step s o) [] false := by
  cases o with
  | recv g d a => exact PlainActs.pieces.recv s g d a (fun _ => rfl) fun _ => rfl
  | onTimeout a => exact PlainActs.pieces.onTimeout s a rfl fun _ => rfl
  | drainOutgoingDatagrams a => exact absurd rfl (ho a)
  | drainEvents => exact .one (a := .events s.conn.events) rfl rfl
  | close code reason => exact .of_trace_eq (Connection.close_trace s code reason)
  | _ => exact (step_streamActs s rfl).plainActs

/-! ## Delivery -/

/-- No call hands out more than what is built in it. -/
theorem step_callActs (s : State) (o : Op) :
    ∃ handed packets failed, CallActs s (step s o) handed packets failed ∧
      (handed.map Datagram.payload).Sublist packets := by
  by_cases ho : ∃ a, o = .drainOutgoingDatagrams a
  · obtain ⟨a, rfl⟩ := ho
    rcases Connection.drainOutgoingDatagrams_acts s a with
      ⟨ds, -, h⟩ | ⟨-, packets, failed, h, -⟩ | ⟨-, packets, failed, h⟩
    · exact ⟨ds, _, false, h, List.Sublist.refl _⟩
    · exact ⟨[], packets, failed, h, List.nil_sublist _⟩
    · exact ⟨[], packets, failed, h, List.nil_sublist _⟩
  · refine ⟨[], [], false, .plain (step_plainActs s fun a h => ho ⟨a, h⟩), List.Sublist.refl _⟩

theorem run_callActs (s : State) (ops : List Op) :
    ∃ handed packets failed, CallActs s (Runs.run step s ops) handed packets failed ∧
      (handed.map Datagram.payload).Sublist packets := by
  induction ops generalizing s with
  | nil => exact ⟨[], [], false, .plain (.of_trace_eq rfl), List.Sublist.refl _⟩
  | cons o ops ih =>
    obtain ⟨handed, packets, failed, h, hsub⟩ := step_callActs s o
    obtain ⟨handed', packets', failed', h', hsub'⟩ := ih (step s o)
    refine ⟨_, _, _, h.trans h', ?_⟩
    rw [List.map_append]
    exact hsub.append hsub'

/-- Later calls return the datagram, though ngtcp2 does not build its packet in them. -/
def State.Retrievable (s : State) (d : Datagram) : Prop :=
  ∃ later : List Op, d ∈ Trace.handed (s.actsSince (Runs.run step s later)) ∧
    d.payload ∉ Trace.built (s.actsSince (Runs.run step s later))

/-- Nothing keeps a packet that was not handed out. -/
theorem State.not_retrievable (s : State) (d : Datagram) : ¬ s.Retrievable d := by
  rintro ⟨later, hd, hp⟩
  obtain ⟨handed, packets, failed, h, hsub⟩ := run_callActs s later
  rw [h.actsSince.1] at hd
  rw [h.actsSince.2.1] at hp
  exact hp (hsub.subset (List.mem_map_of_mem hd))

/-- The packets that are built in the call are handed out, in order and each once, by the call or by
later ones. -/
def State.Delivers (s : State) (a : DrainAnswers) : Prop :=
  ∃ later : List Op,
    (Trace.handed (s.actsSince (Runs.run step (step s (.drainOutgoingDatagrams a)) later))).map
        Datagram.payload =
      Trace.built (s.actsSince (Runs.run step (step s (.drainOutgoingDatagrams a)) later))

/-- What is built ahead of an answer that makes the loop throw is lost. -/
theorem State.not_delivers {s : State} {a : DrainAnswers}
    (hfails : (s.actsSince (step s (.drainOutgoingDatagrams a))).any Act.failure = true)
    (hbuilt : Trace.built (s.actsSince (step s (.drainOutgoingDatagrams a))) ≠ []) :
    ¬ s.Delivers a := by
  have hlost {packets : List Bytes} {failed : Bool}
      (h : CallActs s (step s (.drainOutgoingDatagrams a)) [] packets failed) : ¬ s.Delivers a := by
    rintro ⟨later, heq⟩
    -- the packets of the call stay ahead of what is handed out
    obtain ⟨handed', packets', failed', h', hsub⟩ :=
      run_callActs (step s (.drainOutgoingDatagrams a)) later
    have hall := (h.trans h').actsSince
    rw [hall.1, hall.2.1, List.nil_append] at heq
    have hle := hsub.length_le
    rw [heq, List.length_append] at hle
    rw [h.actsSince.2.1] at hbuilt
    have hpos : 0 < packets.length := List.length_pos_iff.mpr hbuilt
    omega
  rcases Connection.drainOutgoingDatagrams_acts s a with
    ⟨ds, -, h⟩ | ⟨-, packets, failed, h, -⟩ | ⟨-, packets, failed, h⟩
  · have hfailed := (CallActs.actsSince h).2.2
    exact absurd (hfails.symm.trans hfailed) nofun
  · exact hlost h
  · exact hlost h

/-- A call delivers its packets if and only if no answer makes its loop throw, or none was built
before. -/
theorem packets_delivered_iff (s : State) (a : DrainAnswers)
    (hends : (Connection.drainOutgoingDatagrams s a).2 ≠ .running) :
    s.Delivers a ↔
      (s.actsSince (step s (.drainOutgoingDatagrams a))).any Act.failure = false ∨
        Trace.built (s.actsSince (step s (.drainOutgoingDatagrams a))) = [] := by
  constructor
  · intro hd
    by_contra hnot
    obtain ⟨hfails, hbuilt⟩ := not_or.mp hnot
    exact State.not_delivers (Bool.not_eq_false _ ▸ hfails) hbuilt hd
  · intro hor
    have hnow {handed : List Datagram} {packets : List Bytes} {failed : Bool}
        (h : CallActs s (step s (.drainOutgoingDatagrams a)) handed packets failed)
        (heq : handed.map Datagram.payload = packets) : s.Delivers a := by
      refine ⟨[], ?_⟩
      rw [Runs.run_nil, h.actsSince.1, h.actsSince.2.1]
      exact heq
    rcases Connection.drainOutgoingDatagrams_acts s a with
      ⟨ds, -, h⟩ | ⟨-, packets, failed, h, hthrew⟩ | ⟨hrun, -⟩
    · exact hnow h rfl
    · have hsince : _ ∧ _ ∧ _ := CallActs.actsSince h
      refine hnow h ?_
      rcases hthrew with rfl | rfl
      · rcases hor with hf | hb
        · exact absurd (hf.symm.trans hsince.2.2) nofun
        · exact (hsince.2.1.symm.trans hb).symm
      · rfl
    · exact absurd hrun hends

/-- A client that has two streams with a byte each. -/
def twoStreams : State :=
  Runs.run step (Start.client {} none none).state
    [.openStream (.ok 0), .write 0 [1], .openStream (.ok 4), .write 4 [2]]

/-- One packet, and nothing more to send. -/
theorem packets_delivered_iff_onePacket :
    let a : DrainAnswers :=
      { loop := [{ writev := { result := .ok [7], wdatalen := 1 } }, { writev := { result := .ok [] } }] }
    (Connection.drainOutgoingDatagrams twoStreams a).2 ≠ .running ∧
      (twoStreams.Delivers a ↔
        (twoStreams.actsSince (step twoStreams (.drainOutgoingDatagrams a))).any Act.failure = false ∨
          Trace.built (twoStreams.actsSince (step twoStreams (.drainOutgoingDatagrams a))) = []) :=
  have h : (Connection.drainOutgoingDatagrams twoStreams
      { loop := [{ writev := { result := .ok [7], wdatalen := 1 } },
        { writev := { result := .ok [] } }] }).2 ≠ .running := by decide
  ⟨h, packets_delivered_iff _ _ h⟩

/-- A fatal error behind a packet: the packet is lost. -/
theorem packet_lost :
    ¬ ∀ (s : State) (a : DrainAnswers), (Connection.drainOutgoingDatagrams s a).2 ≠ .running →
      s.Delivers a := by
  intro h
  -- the first stream's packet is built, and the second stream's call fails
  let a : DrainAnswers :=
    { loop := [{ writev := { result := .ok [7], wdatalen := 1 } },
        { writev := { result := .error .crypto } }] }
  exact State.not_delivers (s := twoStreams) (a := a) (by decide) (by decide)
    (h twoStreams a (by decide))

end PhpQuic
