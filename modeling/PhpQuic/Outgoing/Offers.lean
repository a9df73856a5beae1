import PhpQuic.Connection.Calls
import PhpQuic.Connection.StreamCalls

/-!
# What the send loop asks of ngtcp2

A history says more than each entry (`Trace.entry`): it says which streams are in the table and in
which order, so it says which stream is due (`Trace.pick`). Every call of `ngtcp2_conn_writev_stream`
is then one that the history asks for.

* `Trace.entered`: the streams of the table, in the order in which they came in.
* `State.Tabled`: the table of a connection is what the history says, which no move changes
  (`State.Tabled.moves`).
* `CallDue`: the call that is due behind a history.
* `offers_due`: every call of a run is due; `offers_known`: it is about a stream that ngtcp2 has
  named.
-/

namespace PhpQuic

open Runs (Moves)

/-! ## The table, from the history -/

/-- The stream that comes into the table with an act, if it is not there. -/
def Act.enters? : Act → Option Int
  | .returned _ id _ => some id
  | .callback cb => if cb.enters then cb.streamId? else none
  | _ => none

namespace Trace

/-- The streams of the table, in the order in which they came in. -/
def entered : Trace → List Int
  | [] => []
  | a :: t =>
    match a.enters? with
    | some id => if id ∈ entered t then entered t else entered t ++ [id]
    | none => entered t

theorem entered_cons {a : Act} (h : a.enters? = none) (t : Trace) : entered (a :: t) = entered t := by
  simp only [entered, h]

/-- The offer of the first stream that has something to send. -/
def pick (conn : Option Role) (t : Trace) : Option Offer :=
  ((t.entered.find? fun id => (t.entry conn id).any StreamEntry.eligible).bind (t.entry conn)).map
    StreamEntry.offer

end Trace

/-- The table is what the history says: the streams, their order and their entries. -/
structure State.Tabled (conn : Option Role) (s : State) : Prop where
  keys : s.conn.streams.keys = s.trace.entered
  entries : ∀ id, Replayed conn id (s.conn.getStreamEntry id) s.trace

theorem Act.enters?_of_quiet {a : Act} (h : a.quiet = true) : a.enters? = none := by
  cases a with
  | returned | callback => cases h
  | _ => rfl

namespace Connection

theorem keys_modifyEntry (c : Connection) (id : Int) (f : StreamEntry → StreamEntry)
    (hf : ∀ e, (f e).streamId = e.streamId) : (c.modifyEntry id f hf).streams.keys = c.streams.keys :=
  OrdTable.keys_modify _ id f hf

theorem keys_enterStream (c : Connection) (i : Int) (pending : Bool) :
    (c.enterStream i pending).streams.keys =
      if i ∈ c.streams.keys then c.streams.keys else c.streams.keys ++ [i] := by
  have hmodify := (c.openStreamEntry i).keys_modifyEntry i
    (fun e => { e with pendingOpen := pending, writable := true }) fun _ => rfl
  exact hmodify.trans (OrdTable.keys_addNew c.streams (.alloc i))

end Connection

/-- Each move keeps the order of the table. -/
theorem Move.keys_eq {s s' : State} (h : Move s s') (hk : s.conn.streams.keys = s.trace.entered) :
    s'.conn.streams.keys = s'.trace.entered := by
  have hmodify (id : Int) (f : StreamEntry → StreamEntry) (hf : ∀ e, (f e).streamId = e.streamId) :
      (s.conn.modifyEntry id f hf).streams.keys = s.trace.entered :=
    (s.conn.keys_modifyEntry id f hf).trans hk
  have hreturn (bidi : Bool) (rv : Except Err Int) (pending : Bool) :
      let r := Connection.returnStream (s.log (.openLocal bidi rv)) bidi rv pending
      r.1.conn.streams.keys = r.1.trace.entered := by
    obtain ⟨_, _, hc⟩ := s.conn.assignStreamId_rest bidi rv
    have hstreams : (s.conn.assignStreamId bidi rv).1.streams = s.conn.streams := by rw [hc]
    have henter := (s.conn.assignStreamId bidi rv).1.keys_enterStream
      (s.conn.assignStreamId bidi rv).2 pending
    rw [hstreams, hk] at henter
    exact henter
  cases h with
  | quiet a ha =>
    rw [State.log_trace, Trace.entered_cons (Act.enters?_of_quiet ha)]
    exact hk
  | threw e he => exact hk
  | callback cb =>
    show (s.conn.callback cb).streams.keys = Trace.entered (.callback cb :: s.trace)
    cases hcb : cb.streamId? with
    | none =>
      have hnone : (Act.callback cb).enters? = none := by simp [Act.enters?, hcb]
      rw [Connection.callback_streams_none _ hcb, Trace.entered_cons hnone, hk]
    | some id =>
      rw [Connection.callback_streams _ hcb, OrdTable.keys_modify]
      by_cases henters : cb.enters = true
      · have hid : (Act.callback cb).enters? = some id := by simp [Act.enters?, henters, hcb]
        rw [if_pos henters, OrdTable.keys_addNew, hk]
        simp only [Trace.entered, hid]
        rfl
      · have hnone : (Act.callback cb).enters? = none := by simp [Act.enters?, henters]
        rw [if_neg henters, Trace.entered_cons hnone, hk]
  | clamp id => exact hmodify id _ StreamEntry.clampTxOffset_streamId
  | wrote id data => exact hmodify id (·.write data) fun _ => rfl
  | ended id data => exact hmodify id (·.end_ data) fun _ => rfl
  | reset id code => exact hmodify id StreamEntry.resetLocal fun _ => rfl
  | read id chunk rest => exact hmodify id (·.readRest rest) fun _ => rfl
  | opened bidi id hconn => exact hreturn bidi (.ok id) false
  | blocked bidi hconn => exact hreturn bidi (.error .streamIdBlocked) true
  | openMatched id hconn hi hp =>
    exact hmodify id (fun e => { e with pendingOpen := false }) fun _ => rfl
  | openMismatched id opened hconn hi hp hne => exact hk
  | settle o a ho hp =>
    show (s.conn.settle o a).streams.keys = s.trace.entered
    rw [Connection.settle_streams]
    exact hmodify o.streamId (·.answer o a) (StreamEntry.answer_streamId o a)
  | sync p =>
    obtain ⟨_, _, _, _, _, hc⟩ := s.conn.syncState_rest p
    rw [State.syncState_conn, hc]
    rcases s.syncState_trace p with ht | ht
    · rw [ht]; exact hk
    · rw [ht]; exact hk
  | lastError e => exact hk
  | close code reason hopen =>
    obtain ⟨_, _, _, _, _, _, hc⟩ := Connection.close_rest s code reason
    rw [hc, Connection.close_trace]
    exact hk
  | closeSent hreq => exact hk
  | drainEvents => exact hk

namespace State.Tabled

variable {conn : Option Role} {s s' : State}

/-- Moves keep the table as the history says. -/
theorem moves (h : s.Tabled conn) (hconn : s.conn.conn = conn) (hm : Moves Move s s') :
    s'.Tabled conn := by
  have hinv : s'.conn.conn = conn ∧ s'.Tabled conn := by
    refine Moves.inv' (I := fun s : State => s.conn.conn = conn ∧ s.Tabled conn) ?_ hm ⟨hconn, h⟩
    rintro s s' hm ⟨hconn, h⟩
    refine ⟨hm.conn_eq.trans hconn, hm.keys_eq h.keys, fun id => ?_⟩
    obtain ⟨es, hstep, -⟩ := hm.entryMove id
    rw [hconn] at hstep
    exact hstep.replayed (h.entries id)
  exact hinv.2

/-- What `pick_tx_stream` finds is what is due by the history. -/
theorem pick (h : s.Tabled conn) : s.conn.pickTxStream.2 = s.trace.pick conn := by
  have hget : s.conn.streams.find? = fun id => s.trace.entry conn id :=
    funext fun id => (h.entries id).entry
  have hpick : s.conn.pickTxStream.2 =
      (s.conn.streams.vals.find? StreamEntry.eligible).map fun e => e.clampTxOffset.offer := by
    unfold Connection.pickTxStream
    cases s.conn.streams.vals.find? StreamEntry.eligible <;> rfl
  rw [hpick, OrdTable.vals_eq_filterMap, List.find?_filterMap, h.keys, hget]
  unfold Trace.pick
  refine Option.map_congr fun e he => ?_
  -- the offset of an entry is in its buffer, so the clamp does nothing
  obtain ⟨id, -, hid⟩ := Option.bind_eq_some_iff.mp he
  have hentry : s.conn.getStreamEntry id = some e := (h.entries id).entry.trans hid
  rw [StreamEntry.clampTxOffset_self ((h.entries id).offset_le e hentry)]

end State.Tabled

/-! ## The call that is due -/

/-- The open of the stream is pending, by the history. -/
def Trace.pendingOpen (conn : Option Role) (id : Int) (t : Trace) : Bool :=
  (t.entry conn id).any StreamEntry.pendingOpen

/-- The call of `ngtcp2_conn_writev_stream` that is due behind a history, by what it offers. -/
inductive CallDue (conn : Option Role) : Option Offer → Trace → Prop
  | picked {o : Offer} {t : Trace} (h : t.pick conn = some o)
    (hopen : t.pendingOpen conn o.streamId = false) : CallDue conn (some o) t
  | opened {o : Offer} {t : Trace} (h : t.pick conn = some o)
    (hpending : t.pendingOpen conn o.streamId = true) :
    CallDue conn (some o) (.openPending o.streamId (.ok o.streamId) :: t)
  | idle {t : Trace} (h : t.pick conn = none) : CallDue conn none t
  | refused {o : Offer} {t : Trace} (h : t.pick conn = some o)
    (hpending : t.pendingOpen conn o.streamId = true) :
    CallDue conn none (.openPending o.streamId (.error .streamIdBlocked) :: t)
  | blocked {o : Offer} {a : WritevAnswer} {t : Trace} (ha : a.result = .error .streamDataBlocked) :
    CallDue conn none (.writev (some o) a :: t)

/-- The act is a call of `ngtcp2_conn_writev_stream`. -/
def Act.isWritev : Act → Bool
  | .writev .. => true
  | _ => false

/-- Every call of `ngtcp2_conn_writev_stream` was due when it was made, before its callbacks. -/
def Trace.CallsDue (conn : Option Role) : Trace → Prop :=
  History.Each fun act t => ∀ offer a, act = .writev offer a →
    ∃ t₁, t = (a.callbacks.map Act.callback).reverse ++ t₁ ∧ CallDue conn offer t₁

namespace Trace

variable {conn : Option Role}

theorem callsDue_cons {a : Act} (h : a.isWritev = false) {t : Trace} :
    CallsDue conn (a :: t) ↔ t.CallsDue conn := by
  refine History.each_cons.trans (and_iff_right ?_)
  rintro offer w rfl
  cases h

theorem callsDue_append {as : List Act} (h : ∀ a ∈ as, a.isWritev = false) {t : Trace} :
    CallsDue conn (as ++ t) ↔ t.CallsDue conn := by
  induction as with
  | nil => exact Iff.rfl
  | cons a as ih =>
    obtain ⟨ha, has⟩ := List.forall_mem_cons.mp h
    exact (callsDue_cons ha).trans (ih has)

end Trace

/-- Calls that do not call `ngtcp2_conn_writev_stream` keep what is due. -/
def KeepsDue (conn : Option Role) (s s' : State) : Prop :=
  s.trace.CallsDue conn → s'.trace.CallsDue conn

namespace KeepsDue

variable {conn : Option Role} {s s' : State}

theorem of_trace_eq (h : s'.trace = s.trace) : KeepsDue conn s s' := fun hd => h ▸ hd

theorem log (s : State) {a : Act} (h : a.isWritev = false) : KeepsDue conn s (s.log a) :=
  (Trace.callsDue_cons h).mpr

theorem sync (s : State) (p : Periods) : KeepsDue conn s (s.syncState p) := by
  rcases s.syncState_trace p with ht | ht
  · exact of_trace_eq ht
  · intro hd
    rw [ht]
    exact (Trace.callsDue_cons rfl).mpr hd

theorem pieces (conn : Option Role) : Pieces (fun a => !a.isWritev) (KeepsDue conn) where
  refl _ := id
  trans h h' := h' ∘ h
  log s _ h := log s (by simpa using h)
  callback s cb := log (s.withConn (s.conn.callback cb)) (a := .callback cb) rfl
  entries _ _ _ := of_trace_eq rfl
  sync := sync
  lastError _ _ := of_trace_eq rfl

end KeepsDue

namespace State

theorem runCallbacks_trace (s : State) (cbs : List Callback) :
    (s.runCallbacks cbs).trace = (cbs.map Act.callback).reverse ++ s.trace := by
  induction cbs generalizing s with
  | nil => rfl
  | cons cb cbs ih =>
    show ((s.runCallback cb).runCallbacks cbs).trace = _
    rw [ih, List.map_cons, List.reverse_cons, List.append_assoc]
    rfl

end State

namespace Connection

variable {conn : Option Role} {s : State}

/-- A call without a stream is due behind a stream that was blocked. -/
def Forced (force : Bool) (s : State) : Prop :=
  force = true → ∃ o a t, s.trace = .writev (some o) a :: t ∧ a.result = .error .streamDataBlocked

/-- The clamp leaves the pending open. -/
theorem pickTxStream_pending (c : Connection) (id : Int) :
    (c.pickTxStream.1.getStreamEntry id).any StreamEntry.pendingOpen =
      (c.getStreamEntry id).any StreamEntry.pendingOpen := by
  cases hp : c.pickTxStream.2 with
  | none => rw [(pickTxStream_none hp).1]
  | some o =>
    rw [(pickTxStream_some hp).2.2.2, get_modifyEntry]
    split
    · cases c.getStreamEntry id with
      | none => rfl
      | some e =>
        show e.clampTxOffset.pendingOpen = e.pendingOpen
        rw [StreamEntry.clampTxOffset_eq]
    · rfl

/-- What an iteration has at hand for its call is due. -/
theorem callDue_of_open {s' : State} {force : Bool} {rv : Except Err Int} {offer : Option Offer}
    (htab : s.Tabled conn) (hforce : Forced force s)
    (h : openIfPending (pickOrNone s force).1 (pickOrNone s force).2 rv = (s', .ok offer)) :
    CallDue conn offer s'.trace := by
  cases force with
  | true =>
    obtain ⟨o, a, t, ht, ha⟩ := hforce rfl
    obtain ⟨rfl, rfl⟩ : s = s' ∧ none = offer := by cases h; exact ⟨rfl, rfl⟩
    rw [ht]
    exact .blocked ha
  | false =>
    have hpick : (pickOrNone s false).2 = s.trace.pick conn := htab.pick
    have hpending (id : Int) : ((pickOrNone s false).1.conn.getStreamEntry id).any
        StreamEntry.pendingOpen = s.trace.pendingOpen conn id := by
      rw [Trace.pendingOpen, ← (htab.entries id).entry]
      exact s.conn.pickTxStream_pending id
    have htrace : (pickOrNone s false).1.trace = s.trace := rfl
    generalize (pickOrNone s false).1 = s₁ at h hpending htrace
    rw [hpick] at h
    cases hp : s.trace.pick conn with
    | none =>
      rw [hp] at h
      cases h
      rw [htrace]
      exact .idle hp
    | some o =>
      rw [hp] at h
      unfold openIfPending at h
      simp only [hpending] at h
      cases hopen : s.trace.pendingOpen conn o.streamId with
      | false =>
        rw [hopen] at h
        cases h
        rw [htrace]
        exact .picked hp hopen
      | true =>
        rw [hopen] at h
        cases rv with
        | ok opened =>
          by_cases heq : opened = o.streamId
          · subst heq
            simp only [Bool.not_true, Bool.false_eq_true, ↓reduceIte, ne_eq, not_true_eq_false] at h
            cases h
            rw [State.modifyEntry_trace, State.log_trace, htrace]
            exact .opened hp hopen
          · simp [heq] at h
        | error e =>
          by_cases he : e = .streamIdBlocked
          · subst he
            cases h
            rw [State.log_trace, htrace]
            exact .refused hp hopen
          · simp at h

theorem settled_trace (s : State) (offer : Option Offer) (a : WritevAnswer) :
    (settled s offer a).trace =
      .writev offer a :: ((a.callbacks.map Act.callback).reverse ++ s.trace) := by
  rw [← s.runCallbacks_trace]
  rfl

/-- The call of an iteration keeps what is due, and a call without a stream follows a blocked one. -/
theorem writevStream_due {offer : Option Offer} (hcall : CallDue conn offer s.trace)
    (hdue : s.trace.CallsDue conn) (a : IterAnswer) :
    (writevStream s offer a).1.trace.CallsDue conn ∧
      ∀ force, (writevStream s offer a).2 = .again force → Forced force (writevStream s offer a).1 := by
  have hcbs : ∀ b ∈ (a.writev.callbacks.map Act.callback).reverse, b.isWritev = false := by
    simp [Act.isWritev]
  have hset : (settled s offer a.writev).trace.CallsDue conn := by
    rw [settled_trace]
    refine History.each_cons.mpr ⟨?_, (Trace.callsDue_append hcbs).mpr hdue⟩
    rintro _ _ ⟨⟩
    exact ⟨s.trace, rfl, hcall⟩
  rw [writevStream_eq]
  split
  · exact ⟨hset, by rintro _ ⟨⟩ ⟨⟩⟩
  · rename_i hres
    refine ⟨hset, fun force h => ?_⟩
    cases offer with
    | none => cases h
    | some o => exact fun _ => ⟨o, a.writev, _, settled_trace .., hres⟩
  · exact ⟨hset, by rintro _ ⟨⟩ ⟨⟩⟩
  · split
    · exact ⟨KeepsDue.sync _ _ hset, by rintro _ ⟨⟩⟩
    · exact ⟨hset, by rintro _ ⟨⟩⟩
  · split
    · exact ⟨hset, by rintro _ ⟨⟩⟩
    · exact ⟨hset, by rintro _ ⟨⟩⟩

theorem drainIteration_due (htab : s.Tabled conn) (force : Bool) (hforce : Forced force s)
    (hdue : s.trace.CallsDue conn) (a : IterAnswer) :
    (drainIteration s force a).1.trace.CallsDue conn ∧
      ∀ force', (drainIteration s force a).2 = .again force' →
        Forced force' (drainIteration s force a).1 := by
  have hopen : (openIfPending (pickOrNone s force).1 (pickOrNone s force).2
      a.openStream).1.trace.CallsDue conn :=
    (KeepsDue.pieces conn).openIfPending _ _ _ (fun _ => rfl) ((KeepsDue.pieces conn).pickOrNone s force hdue)
  unfold drainIteration
  simp only
  split
  · rename_i s' e heq
    rw [heq] at hopen
    exact ⟨hopen, by rintro _ ⟨⟩⟩
  · rename_i s' offer heq
    rw [heq] at hopen
    exact writevStream_due (callDue_of_open htab hforce heq) hopen a

/-- Every call of the send loop is due. -/
theorem drainLoop_due (hconn : s.conn.conn = conn) (hsome : conn.isSome = true)
    (htab : s.Tabled conn) (force : Bool) (hforce : Forced force s) (hdue : s.trace.CallsDue conn)
    (out : List Datagram) (as : List IterAnswer) :
    (drainLoop s force out as).1.trace.CallsDue conn := by
  induction as generalizing s force out with
  | nil => exact hdue
  | cons a as ih =>
    have hm := drainIteration_moves (hconn ▸ hsome) force a
    have hconn' := (Moves.keeps (fun _ _ h => Move.conn_eq h) hm).trans hconn
    have htab' := htab.moves hconn hm
    obtain ⟨hdue', hforce'⟩ := drainIteration_due htab force hforce hdue a
    unfold drainLoop
    split
    · rename_i s' force' heq
      rw [heq] at hconn' htab' hdue' hforce'
      exact ih hconn' htab' force' (hforce' force' rfl) hdue' out
    · rename_i s' heq
      rw [heq] at hdue'; exact hdue'
    · rename_i s' e heq
      rw [heq] at hdue'; exact hdue'
    · rename_i s' d heq
      rw [heq] at hconn' htab' hdue'
      split
      · exact hdue'
      · exact ih hconn' htab' false (by rintro ⟨⟩) hdue' _

theorem drainOutgoingDatagrams_due (hconn : s.conn.conn = conn) (htab : s.Tabled conn)
    (hdue : s.trace.CallsDue conn) (a : DrainAnswers) :
    (drainOutgoingDatagrams s a).1.trace.CallsDue conn := by
  have hlog {s : State} {b : Act} (h : b.isWritev = false) (hd : s.trace.CallsDue conn) :
      (s.log b).trace.CallsDue conn := KeepsDue.log s h hd
  unfold drainOutgoingDatagrams
  split
  · exact hlog rfl hdue
  · rename_i hnone
    split
    · exact (KeepsDue.pieces conn).drainClose s a.close (fun _ => KeepsDue.of_trace_eq rfl)
        (fun _ => rfl) (fun _ => rfl) (fun _ => rfl) hdue
    · have hsome : conn.isSome = true := by
        rw [← hconn]
        cases h : s.conn.conn with
        | none => rw [h] at hnone; exact absurd rfl hnone
        | some role => rfl
      have hloop := drainLoop_due hconn hsome htab false (by rintro ⟨⟩) hdue [] a.loop
      split
      · rename_i heq
        rw [heq] at hloop
        exact hlog rfl (KeepsDue.sync _ _ hloop)
      · rename_i heq
        rw [heq] at hloop
        exact hlog rfl hloop
      · rename_i heq
        rw [heq] at hloop
        exact hloop

end Connection

/-! ## The runs -/

theorem step_due {conn : Option Role} {s : State} (hconn : s.conn.conn = conn) (htab : s.Tabled conn)
    (hdue : s.trace.CallsDue conn) (o : Op) : (step s o).trace.CallsDue conn := by
  have hstream (h : o.ofStreams = true) : (step s o).trace.CallsDue conn := by
    obtain ⟨new, ht, hnew⟩ := (step_streamActs s h).acts
    rw [ht]
    refine (Trace.callsDue_append fun a ha => ?_).mpr hdue
    have hof := hnew a ha
    cases a <;> first | rfl | cases hof
  cases o with
  | recv g d a => exact (KeepsDue.pieces conn).recv s g d a (fun _ => rfl) (fun _ => rfl) hdue
  | onTimeout a => exact (KeepsDue.pieces conn).onTimeout s a rfl (fun _ => rfl) hdue
  | drainOutgoingDatagrams a => exact Connection.drainOutgoingDatagrams_due hconn htab hdue a
  | drainEvents => exact (Trace.callsDue_cons rfl).mpr hdue
  | close code reason =>
    rw [show (step s (.close code reason)).trace = s.trace from Connection.close_trace s code reason]
    exact hdue
  | read | write | end_ | reset | openStream | openUniStream => exact hstream rfl

theorem Start.run_due (start : Start) (ops : List Op) :
    (start.run ops).conn.conn = start.conn ∧ (start.run ops).Tabled start.conn ∧
      (start.run ops).trace.CallsDue start.conn := by
  refine Runs.run_inv (I := fun s : State => s.conn.conn = start.conn ∧ s.Tabled start.conn ∧
    s.trace.CallsDue start.conn) ?_ ?_ ops
  · rintro s o ⟨hconn, htab, hdue⟩
    have hm := step_moves s o
    exact ⟨(Moves.keeps (fun _ _ h => Move.conn_eq h) hm).trans hconn, htab.moves hconn hm,
      step_due hconn htab hdue o⟩
  · have hbase : start.base.Tabled start.conn := by
      refine ⟨?_, fun id => ?_⟩
      · cases start <;> rfl
      · cases start <;> exact .nil _ _
    have hm : Moves Move start.base start.state := start.run_moves []
    refine ⟨Moves.keeps (fun _ _ h => Move.conn_eq h) hm, hbase.moves rfl hm, ?_⟩
    cases start with
    | uninitialised => exact History.each_nil
    | client path r l => exact History.each_nil
    | server path r l payload cbs =>
      refine (Trace.callsDue_cons rfl).mpr ?_
      exact (KeepsDue.pieces _).runCallbacks _ cbs History.each_nil

/-- The send loop does what the history asks for. Every call of `ngtcp2_conn_writev_stream` offers
all of the first stream in the table that has something to send, opened if its open was pending; and
a call that offers nothing is made where no stream has anything to send, or where the one that is due
was blocked. -/
theorem offers_due (start : Start) (ops : List Op) (offer : Option Offer) (a : WritevAnswer)
    (t : Trace) (h : .writev offer a :: t <:+ (start.run ops).trace) :
    ∃ t₁, t = (a.callbacks.map Act.callback).reverse ++ t₁ ∧ CallDue start.conn offer t₁ :=
  (start.run_due ops).2.2 _ t h offer a rfl

/-- Two streams with data, the first of which is blocked. -/
def blockedFirst : List Op :=
  [.openStream (.ok 0), .openStream (.ok 4), .write 4 [2], .write 0 [1],
    .drainOutgoingDatagrams { loop := [{ writev := { result := .error .streamDataBlocked } }] }]

theorem offers_due_blockedFirst : ∃ o a t t₁,
    .writev (some o) a :: t <:+ ((Start.client {} none none).run blockedFirst).trace ∧
      o = { streamId := 0, data := [1], fin := false } ∧
      t = (a.callbacks.map Act.callback).reverse ++ t₁ ∧ CallDue (some .client) (some o) t₁ := by
  have hs : .writev (some { streamId := 0, data := [1], fin := false })
      { result := .error .streamDataBlocked } ::
        ((Start.client {} none none).run (blockedFirst.take 4)).trace <:+
      ((Start.client {} none none).run blockedFirst).trace := by decide
  obtain ⟨t₁, ht, hcall⟩ := offers_due _ _ _ _ _ hs
  exact ⟨_, _, _, t₁, hs, rfl, ht, hcall⟩

/-! ## The streams that ngtcp2 has named -/

/-- ngtcp2 has named the stream: it gave the id to an open, or called back about it. -/
def Act.names (id : Int) : Act → Bool
  | .openLocal _ (.ok i) | .openPending _ (.ok i) => decide (i = id)
  | .callback cb => decide (cb.streamId? = some id)
  | _ => false

/-- A stream that an open returned without waiting has the id that ngtcp2 gave. -/
def ReturnsNamed (a : Act) (t : Trace) : Prop :=
  ∀ b id, a = .returned b id false → ∃ t', t = .openLocal b (.ok id) :: t'

theorem Move.returnsNamed {s s' : State} (h : Move s s') (he : History.Each ReturnsNamed s.trace) :
    History.Each ReturnsNamed s'.trace := by
  have hother {a : Act} (hne : ∀ b id, a ≠ .returned b id false) :
      History.Each ReturnsNamed (a :: s.trace) :=
    History.each_cons.mpr ⟨fun b id heq => absurd heq (hne b id), he⟩
  cases h with
  | quiet a ha =>
    refine hother ?_
    rintro b id rfl
    cases ha
  | opened bidi id hconn =>
    refine History.each_cons.mpr ⟨?_, History.each_cons.mpr ⟨by rintro _ _ ⟨⟩, he⟩⟩
    rintro b i heq
    cases heq
    exact ⟨s.trace, rfl⟩
  | blocked bidi hconn =>
    refine History.each_cons.mpr ⟨?_, History.each_cons.mpr ⟨by rintro _ _ ⟨⟩, he⟩⟩
    rintro b i heq
    cases heq
  | sync p =>
    rcases s.syncState_trace p with ht | ht
    · rw [ht]; exact he
    · rw [ht]; exact hother (by rintro _ _ ⟨⟩)
  | close code reason hopen => rw [Connection.close_trace]; exact he
  | clamp | lastError | closeSent => exact he
  | _ => exact hother (by rintro _ _ ⟨⟩)

/-- An open that was not named yet: it is still pending, or the stream is closed. -/
def StreamEntry.Unopened (e : StreamEntry) : Prop := e.pendingOpen = true ∨ e.closed = true

namespace Trace

variable {conn : Option Role} {id : Int} {t : Trace}

/-- An act that does not name the stream keeps its entry unopened. -/
theorem unopened_or_named {a : Act} (hr : ReturnsNamed a t)
    (ih : ∀ e, t.entry conn id = some e → e.Unopened ∨ ∃ b ∈ t, b.names id = true) {e : StreamEntry}
    (he : a.entry conn id (t.entry conn id) = some e) :
    e.Unopened ∨ a.names id = true ∨ ∃ b ∈ t, b.names id = true := by
  have hmap {f : StreamEntry → StreamEntry} (hf : ∀ e : StreamEntry, e.Unopened → (f e).Unopened)
      (he : (t.entry conn id).map f = some e) :
      e.Unopened ∨ a.names id = true ∨ ∃ b ∈ t, b.names id = true := by
    obtain ⟨e', he', rfl⟩ := Option.map_eq_some_iff.mp he
    exact (ih e' he').imp (hf e') .inr
  unfold Act.entry at he
  split at he
  · rename_i hc
    cases a with
    | wrote i data => exact hmap (f := (·.write data)) (fun _ h => h) he
    | ended i data => exact hmap (f := (·.end_ data)) (fun _ h => h) he
    | wasReset i => exact hmap (f := StreamEntry.resetLocal) (fun _ _ => .inr rfl) he
    | chunk i data =>
      exact hmap (f := fun e => e.readRest (e.rxBuffer.drop data.length)) (fun _ h => h) he
    | returned b i pending =>
      obtain rfl : i = id := of_decide_eq_true hc
      cases pending with
      | true =>
        cases he
        exact .inl (.inl rfl)
      | false =>
        obtain ⟨t', rfl⟩ := hr b i rfl
        exact .inr (.inr ⟨_, List.mem_cons_self, decide_eq_true rfl⟩)
    | openPending i rv =>
      cases rv with
      | ok opened =>
        obtain ⟨-, hopened⟩ := Bool.and_eq_true_iff.mp hc
        exact .inr (.inl hopened)
      | error e => cases hc
    | writev offer w =>
      cases offer with
      | none => cases hc
      | some o =>
        refine hmap (f := (·.answer o w)) (fun e h => ?_) he
        obtain ⟨_, _, _, _, _, hans⟩ := e.answer_rest o w
        rw [hans]
        exact h
    | callback cb => exact .inr (.inl hc)
    | _ => cases hc
  · exact (ih e he).imp_right .inr

theorem unopened_or_mem_named (hr : History.Each ReturnsNamed t) (e : StreamEntry)
    (he : t.entry conn id = some e) : e.Unopened ∨ ∃ b ∈ t, b.names id = true := by
  induction t generalizing e with
  | nil => cases he
  | cons a t ih =>
    obtain ⟨ha, hr⟩ := History.each_cons.mp hr
    rcases unopened_or_named ha (ih hr) he with h | h | ⟨b, hb, h⟩
    · exact .inl h
    · exact .inr ⟨a, List.mem_cons_self, h⟩
    · exact .inr ⟨b, List.mem_cons_of_mem a hb, h⟩

/-- An entry is the entry of its stream. -/
theorem entry_streamId (e : StreamEntry) (he : t.entry conn id = some e) : e.streamId = id := by
  induction t generalizing e with
  | nil => cases he
  | cons a t ih =>
    have hmap {f : StreamEntry → StreamEntry} (hf : ∀ e, (f e).streamId = e.streamId)
        (he : (entry conn id t).map f = some e) : e.streamId = id := by
      obtain ⟨e', he', rfl⟩ := Option.map_eq_some_iff.mp he
      exact (hf e').trans (ih e' he')
    have hfound : ((entry conn id t).getD (.alloc id)).streamId = id :=
      StreamEntry.found (P := fun e => e.streamId = id) ih rfl
    replace he : a.entry conn id (entry conn id t) = some e := he
    unfold Act.entry at he
    split at he
    · rename_i hc
      cases a with
      | wrote i data => exact hmap (f := (·.write data)) (fun _ => rfl) he
      | ended i data => exact hmap (f := (·.end_ data)) (fun _ => rfl) he
      | wasReset i => exact hmap (f := StreamEntry.resetLocal) (fun _ => rfl) he
      | chunk i data =>
        exact hmap (f := fun e => e.readRest (e.rxBuffer.drop data.length)) (fun _ => rfl) he
      | returned b i pending => cases he; exact hfound
      | openPending i rv =>
        exact hmap (f := fun e => { e with pendingOpen := false }) (fun _ => rfl) he
      | writev offer w =>
        cases offer with
        | none => cases hc
        | some o => exact hmap (f := (·.answer o w)) (StreamEntry.answer_streamId o w) he
      | callback cb =>
        obtain ⟨e', he', rfl⟩ := Option.map_eq_some_iff.mp he
        rw [StreamEntry.react_streamId]
        exact Callback.found (P := fun e => e.streamId = id) ih rfl e' he'
      | _ => cases hc
    · exact ih e he

/-- The stream that is due has an entry with something to send. -/
theorem eligible_of_pick {o : Offer} (h : t.pick conn = some o) :
    ∃ e, t.entry conn o.streamId = some e ∧ e.eligible = true := by
  obtain ⟨e, he, rfl⟩ := Option.map_eq_some_iff.mp h
  obtain ⟨i, hi, hentry⟩ := Option.bind_eq_some_iff.mp he
  have hid : e.offer.streamId = i := entry_streamId e hentry
  have helig := List.find?_some hi
  rw [hentry] at helig
  exact ⟨e, hid.symm ▸ hentry, helig⟩

end Trace

/-- The extension never offers ngtcp2 data of a stream that ngtcp2 has not named. -/
theorem offers_known (start : Start) (ops : List Op) (o : Offer) (a : WritevAnswer) (t : Trace)
    (h : .writev (some o) a :: t <:+ (start.run ops).trace) :
    ∃ b ∈ t, b.names o.streamId = true := by
  obtain ⟨t₁, rfl, hcall⟩ := (start.run_due ops).2.2 _ t h (some o) a rfl
  have hreturns : History.Each ReturnsNamed (start.run ops).trace := by
    refine Moves.inv' (I := fun s : State => History.Each ReturnsNamed s.trace)
      (fun _ _ hm => hm.returnsNamed) (start.run_moves ops) ?_
    cases start <;> exact History.each_nil
  cases hcall with
  | opened hpick hpending =>
    exact ⟨_, List.mem_append_right _ List.mem_cons_self, decide_eq_true rfl⟩
  | picked hpick hopen =>
    obtain ⟨e, he, helig⟩ := Trace.eligible_of_pick hpick
    have hs : t₁ <:+ (start.run ops).trace :=
      (List.suffix_append _ t₁).trans ((List.suffix_cons _ _).trans h)
    rcases Trace.unopened_or_mem_named (hreturns.of_suffix hs) e he with hun | ⟨b, hb, hnames⟩
    · rcases hun with hp | hc
      · rw [Trace.pendingOpen, he] at hopen
        exact absurd (hp.symm.trans hopen) nofun
      · unfold StreamEntry.eligible at helig
        simp [hc] at helig
    · exact ⟨b, List.mem_append_right _ hb, hnames⟩

theorem offers_known_blockedFirst : ∃ b t,
    .writev (some { streamId := 0, data := [1], fin := false })
      { result := .error .streamDataBlocked } :: t <:+
        ((Start.client {} none none).run blockedFirst).trace ∧
      b ∈ t ∧ b.names 0 = true := by
  have hs : .writev (some { streamId := 0, data := [1], fin := false })
      { result := .error .streamDataBlocked } ::
        ((Start.client {} none none).run (blockedFirst.take 4)).trace <:+
      ((Start.client {} none none).run blockedFirst).trace := by decide
  obtain ⟨b, hb, hnames⟩ := offers_known _ _ _ _ _ hs
  exact ⟨b, _, hs, hb, hnames⟩

end PhpQuic
