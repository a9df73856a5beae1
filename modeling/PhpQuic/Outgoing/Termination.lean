import PhpQuic.Outgoing.Buffer

/-!
# The send loop ends

`drainOutgoingDatagrams` goes on as long as ngtcp2 has answers that make it go on. Only a packet
counts towards the limit of 256, so the loop ends because every other way to go on uses up something
else: unsent bytes, a pending FIN, or the one retry without a stream.

* `Act.inContract`: what the proof uses of ngtcp2's documentation of `ngtcp2_conn_writev_stream`.
* `StreamEntry.work`: what an entry still has to send. A FIN counts twice until ngtcp2 takes it
  alone, and once then: it stays pending until a packet comes.
* `Wears s s'`: from `s` to `s'` the work of the entries has not grown. Callbacks and the parts of an
  iteration are such steps; `settled_lt`: a stream's answer that goes on lowers the work.
* `Connection.loopWork`: the measure. `drainIteration_loopWork`: one iteration lowers it;
  `drainLoop_ends`: by induction, as many answers as the measure are enough.
-/

namespace PhpQuic

open Runs (Moves)

/-! ## What ngtcp2 documents -/

/-- The answer asks for more of the stream and has taken no byte of the offer. -/
def WritevAnswer.moreForNoByte (a : WritevAnswer) (o : Offer) : Bool :=
  decide (a.result = .error .writeMore) && (a.taken o).isEmpty

/-- ngtcp2 has taken the FIN of the stream alone, and asked for more. -/
def Trace.finTakenAlone (id : Int) (t : Trace) : Bool :=
  t.any fun
    | .writev (some o) a => decide (o.streamId = id) && a.moreForNoByte o
    | _ => false

/-- A call without a stream is not answered with `WRITE_MORE`, `STREAM_DATA_BLOCKED` or
`STREAM_SHUT_WR`. For a stream, `WRITE_MORE` comes with a byte taken, or for the FIN, once: behind
the FIN a call for the stream is not answered so. -/
def Act.inContract (a : Act) (t : Trace) : Bool :=
  match a with
  | .writev none w =>
    match w.result with
    | .error .writeMore | .error .streamDataBlocked | .error .streamShutWr => false
    | _ => true
  | .writev (some o) w => !w.moreForNoByte o || o.fin && !t.finTakenAlone o.streamId
  | _ => true

/-- The answers behind `s` keep to the documentation. -/
def State.ContractSince (s : State) (t : Trace) : Prop :=
  History.Each (fun a t' => s.trace <:+ t' → a.inContract t' = true) t

instance (s : State) (t : Trace) : Decidable (s.ContractSince t) :=
  inferInstanceAs (Decidable (History.Each _ t))

theorem Trace.finTakenAlone_suffix {t t' : Trace} (h : t <:+ t') {id : Int}
    (hfin : t.finTakenAlone id = true) : t'.finTakenAlone id = true := by
  obtain ⟨new, rfl⟩ := h
  unfold finTakenAlone at hfin ⊢
  rw [List.any_append, hfin, Bool.or_true]

/-! ## The work of an entry -/

namespace StreamEntry

/-- What is left to send of the entry. -/
def work (t : Trace) (e : StreamEntry) : Nat :=
  e.unsent.length + if e.finPending then if t.finTakenAlone e.streamId then 1 else 2 else 0

variable {t t' : Trace} {e e' : StreamEntry}

@[simp] theorem work_alloc (t : Trace) (id : Int) : (alloc id).work t = 0 := rfl

theorem work_le (hs : t <:+ t') (hid : e'.streamId = e.streamId)
    (hunsent : e'.unsent.length ≤ e.unsent.length)
    (hfin : e'.finPending = true → e.finPending = true) : e'.work t' ≤ e.work t := by
  have halone : t.finTakenAlone e.streamId = true → t'.finTakenAlone e.streamId = true :=
    Trace.finTakenAlone_suffix hs
  unfold work
  rw [hid]
  refine Nat.add_le_add hunsent ?_
  cases hp : e'.finPending with
  | false => exact Nat.zero_le _
  | true =>
    rw [hfin hp, if_pos rfl, if_pos rfl]
    split
    · split <;> omega
    · rename_i hnot
      rw [if_neg (fun h => hnot (halone h))]

theorem work_mono (hs : t <:+ t') (e : StreamEntry) : e.work t' ≤ e.work t :=
  work_le hs rfl (Nat.le_refl _) id

theorem work_react (hs : t <:+ t') (conn : Option Role) (cb : Callback) (e : StreamEntry) :
    (e.react conn cb).work t' ≤ e.work t := by
  refine work_le hs (react_streamId conn cb e) ?_ ?_
  · cases cb with
    | ackedStreamDataOffset =>
      rw [react_acked]
      exact Nat.le_refl _
    | _ => exact Nat.le_refl _
  · cases cb with
    | ackedStreamDataOffset =>
      rw [react_acked]
      exact id
    | _ => exact id

theorem updateTx_unsent (e : StreamEntry) (w : Int) (f p : Bool) :
    (e.updateTx w f p).unsent = e.unsent.drop w.toNat := by
  rw [updateTx_eq]
  unfold unsent
  simp only [List.drop_drop]
  split
  · rename_i hout
    rw [List.drop_nil, List.drop_eq_nil_of_le (of_decide_eq_true hout)]
  · rfl

theorem work_woken (e : StreamEntry) (t : Trace) : e.woken.work t = e.work t := by
  rw [woken_eq]
  rfl

/-- No answer adds to the work. -/
theorem work_answer (hs : t <:+ t') (o : Offer) (a : WritevAnswer) (e : StreamEntry) :
    (e.answer o a).work t' ≤ e.work t := by
  unfold answer
  cases a.effect with
  | update p =>
    simp only [work_woken]
    refine work_le hs (updateTx_streamId ..) ?_ ?_
    · rw [updateTx_unsent, List.length_drop]; omega
    · rw [updateTx_eq]
      intro h
      exact (Bool.and_eq_true_iff.mp h).1
  | discard => exact Nat.zero_le _
  | ignore => exact work_mono hs e

end StreamEntry

/-! ## What the parts of an iteration do to the work -/

namespace State

/-- What the entries still have to send. -/
def entriesWork (s : State) : Nat := s.conn.streams.total (StreamEntry.work s.trace)

end State

/-- The work of the entries does not grow. -/
structure Wears (s s' : State) : Prop where
  trace : s.trace <:+ s'.trace
  work : s'.entriesWork ≤ s.entriesWork

namespace Wears

variable {s s' s'' : State}

theorem refl (s : State) : Wears s s := ⟨List.suffix_rfl, Nat.le_refl _⟩

theorem trans (h : Wears s s') (h' : Wears s' s'') : Wears s s'' :=
  ⟨h.trace.trans h'.trace, Nat.le_trans h'.work h.work⟩

/-- A longer history, and writes to one entry that add nothing. -/
theorem of_modify {i : Int} {f : StreamEntry → StreamEntry} (hf : ∀ e, (f e).streamId = e.streamId)
    (ht : s.trace <:+ s'.trace) (hs : s'.conn.streams = s.conn.streams.modify i f hf)
    (hwork : ∀ e, (f e).work s'.trace ≤ e.work s.trace) : Wears s s' := by
  refine ⟨ht, ?_⟩
  unfold State.entriesWork
  rw [hs]
  exact OrdTable.total_modify_le _ hf (StreamEntry.work_mono ht) fun e _ => hwork e

theorem of_streams_eq (ht : s.trace <:+ s'.trace) (hs : s'.conn.streams = s.conn.streams) :
    Wears s s' := by
  refine of_modify (i := 0) (fun _ => rfl) ht ?_ (StreamEntry.work_mono ht)
  exact hs.trans (OrdTable.modify_eq_self fun _ _ => rfl).symm

theorem log (s : State) (a : Act) : Wears s (s.log a) := of_streams_eq (List.suffix_cons _ _) rfl

theorem runCallback (s : State) (cb : Callback) : Wears s (s.runCallback cb) := by
  have ht : s.trace <:+ (s.runCallback cb).trace := List.suffix_cons _ _
  cases hcb : cb.streamId? with
  | none => exact of_streams_eq ht (s.conn.callback_streams_none hcb)
  | some id =>
    -- a new entry has no work
    have hnew : Wears s (s.withConn { s.conn with
        streams := if cb.enters then s.conn.streams.addNew (.alloc id) else s.conn.streams }) := by
      refine ⟨List.suffix_rfl, ?_⟩
      unfold State.entriesWork
      simp only [State.withConn_conn, State.withConn_trace]
      split
      · rw [OrdTable.total_addNew _ (StreamEntry.work_alloc _ _)]
      · exact Nat.le_refl _
    exact hnew.trans (of_modify (StreamEntry.react_streamId _ _) ht (s.conn.callback_streams hcb)
      (StreamEntry.work_react ht _ cb))

theorem runCallbacks (s : State) (cbs : List Callback) : Wears s (s.runCallbacks cbs) := by
  induction cbs generalizing s with
  | nil => exact .refl s
  | cons cb cbs ih => exact (runCallback s cb).trans (ih (s.runCallback cb))

end Wears

namespace Connection

theorem pickOrNone_wears (s : State) (force : Bool) : Wears s (pickOrNone s force).1 := by
  unfold pickOrNone
  split
  · exact .refl s
  · cases hp : s.conn.pickTxStream.2 with
    | none => rw [(pickTxStream_none hp).1]; exact .refl s
    | some o =>
      obtain ⟨-, -, -, hc⟩ := pickTxStream_some hp
      rw [hc]
      refine .of_modify StreamEntry.clampTxOffset_streamId List.suffix_rfl rfl fun e => ?_
      refine StreamEntry.work_le List.suffix_rfl e.clampTxOffset_streamId ?_ ?_
      · rw [unsent_clamp]
      · rw [StreamEntry.clampTxOffset_eq]
        exact id

theorem openIfPending_wears (s : State) (offer : Option Offer) (rv : Except Err Int) :
    Wears s (openIfPending s offer rv).1 := by
  unfold openIfPending
  cases offer with
  | none => exact .refl s
  | some o =>
    simp only
    split
    · exact .refl s
    · have hlog := Wears.log s (.openPending o.streamId rv)
      cases rv with
      | ok opened =>
        simp only
        split
        · exact hlog
        · refine hlog.trans (.of_modify (f := fun e => { e with pendingOpen := false })
            (fun _ => rfl) List.suffix_rfl rfl fun e => ?_)
          exact StreamEntry.work_le List.suffix_rfl rfl (Nat.le_refl _) id
      | error e =>
        by_cases he : e = .streamIdBlocked
        · subst he; exact hlog
        · simp only; exact hlog

/-- The entries behind an answer. -/
theorem settled_streams (s : State) (o : Offer) (a : WritevAnswer) :
    (settled s (some o) a).conn.streams = (s.runCallbacks a.callbacks).conn.streams.modify o.streamId
      (·.answer o a) (StreamEntry.answer_streamId o a) :=
  (s.runCallbacks a.callbacks).conn.settle_streams o a

theorem settled_wears (s : State) (offer : Option Offer) (a : WritevAnswer) :
    Wears s (settled s offer a) := by
  refine (Wears.runCallbacks s a.callbacks).trans ?_
  have ht : (s.runCallbacks a.callbacks).trace <:+ (settled s offer a).trace := List.suffix_cons _ _
  cases offer with
  | none => exact .of_streams_eq ht rfl
  | some o =>
    exact .of_modify (StreamEntry.answer_streamId o a) ht (settled_streams s o a)
      (StreamEntry.work_answer ht o a)

end Connection

/-! ## Going on with the same stream -/

namespace StreamEntry

variable {t : Trace} {e : StreamEntry} {o : Offer} {a : WritevAnswer}

/-- `WRITE_MORE` takes a byte or the FIN of what was offered. -/
theorem work_answer_writeMore (hid : o.streamId = e.streamId) (hdata : o.data = e.unsent)
    (hfin : o.fin = e.finPending) (hmore : a.result = .error .writeMore)
    (hc : (Act.writev (some o) a).inContract t = true) :
    (e.answer o a).work (.writev (some o) a :: t) < e.work t := by
  have heff : a.effect = .update false := by unfold WritevAnswer.effect; rw [hmore]
  have htaken : a.taken o = e.unsent.take a.wdatalen.toNat := by rw [a.taken_eq, heff, hdata]
  have hanswer : e.answer o a = (e.updateTx a.wdatalen o.fin false).woken := by
    unfold answer; rw [heff]
  have hpending : (e.updateTx a.wdatalen o.fin false).finPending = e.finPending := by
    rw [updateTx_eq]; simp
  have hle : (e.updateTx a.wdatalen o.fin false).work (.writev (some o) a :: t) ≤
      (e.unsent.drop a.wdatalen.toNat).length + (e.work t - e.unsent.length) := by
    have hmono := work_mono (List.suffix_cons (.writev (some o) a) t) e
    unfold work at hmono ⊢
    rw [hpending, updateTx_streamId, updateTx_unsent]
    omega
  have hge : e.unsent.length ≤ e.work t := Nat.le_add_right _ _
  rw [hanswer, work_woken]
  rw [List.length_drop] at hle
  cases hnone : a.moreForNoByte o with
  | false =>
    -- a byte was taken, so there was one
    have hne : e.unsent.take a.wdatalen.toNat ≠ [] := by
      intro hnil
      rw [← htaken] at hnil
      simp [WritevAnswer.moreForNoByte, hmore, hnil] at hnone
    have hpos : 0 < (e.unsent.take a.wdatalen.toNat).length := List.length_pos_iff.mpr hne
    rw [List.length_take] at hpos
    omega
  | true =>
    -- the FIN was taken, and for the first time
    simp only [Act.inContract, hnone, Bool.not_true, Bool.false_or, Bool.and_eq_true,
      Bool.not_eq_true'] at hc
    have halone : Trace.finTakenAlone e.streamId (.writev (some o) a :: t) = true := by
      simp [Trace.finTakenAlone, hid, hnone]
    rw [hid] at hc
    rw [hfin] at hc
    unfold work
    rw [hpending, updateTx_streamId, updateTx_unsent, halone, hc.1, hc.2]
    simp only [if_true, List.length_drop]
    rw [if_neg Bool.false_ne_true]
    omega

/-- `STREAM_SHUT_WR` leaves nothing of what was offered. -/
theorem work_answer_shutWr (t' : Trace) (hdata : o.data = e.unsent) (hfin : o.fin = e.finPending)
    (hdue : o.data ≠ [] ∨ o.fin = true) (hshut : a.result = .error .streamShutWr) :
    (e.answer o a).work t' < e.work t := by
  have hanswer : e.answer o a = e.discardTx := by
    unfold answer WritevAnswer.effect; rw [hshut]
  rw [hanswer]
  show 0 < e.work t
  unfold work
  rcases hdue with hne | hpending
  · rw [hdata] at hne
    have := List.length_pos_iff.mpr hne
    omega
  · rw [← hfin, hpending, if_pos rfl]
    split <;> omega

end StreamEntry

namespace Connection

/-- An answer behind which the loop goes on with the stream lowers the work. -/
theorem settled_lt {s : State} {o : Offer} {a : WritevAnswer} (h : s.conn.Offered o)
    (hagain : a.result = .error .writeMore ∨ a.result = .error .streamShutWr)
    (hc : (Act.writev (some o) a).inContract (s.runCallbacks a.callbacks).trace = true) :
    (settled s (some o) a).entriesWork < s.entriesWork := by
  have hoff := State.runCallbacks_offered h a.callbacks
  have hget := get_of_hasEntry hoff.hasEntry
  have hid := (s.runCallbacks a.callbacks).conn.entry_streamId o.streamId
  refine Nat.lt_of_lt_of_le ?_ (Wears.runCallbacks s a.callbacks).work
  unfold State.entriesWork
  rw [settled_streams]
  refine OrdTable.total_modify_lt _ _ (StreamEntry.work_mono (List.suffix_cons _ _)) hget ?_
  rcases hagain with hmore | hshut
  · exact StreamEntry.work_answer_writeMore hid.symm hoff.data_eq hoff.fin_eq hmore hc
  · exact StreamEntry.work_answer_shutWr _ hoff.data_eq hoff.fin_eq hoff.due hshut

/-! ## The loop -/

/-- The measure of the loop: two for each datagram that may still come, one for the retry without a
stream, and the work of the entries. -/
def loopWork (s : State) (forceConnOnly : Bool) (out : List Datagram) : Nat :=
  2 * (256 - out.length) + (if forceConnOnly then 0 else 1) + s.entriesWork

/-- A call without a stream does not make the loop go on. -/
theorem offer_of_again {offer : Option Offer} {a : WritevAnswer} {t : Trace}
    (hagain : a.result = .error .writeMore ∨ a.result = .error .streamShutWr)
    (hc : (Act.writev offer a).inContract t = true) : ∃ o, offer = some o := by
  cases offer with
  | some o => exact ⟨o, rfl⟩
  | none =>
    rcases hagain with hr | hr
    · simp [Act.inContract, hr] at hc
    · simp [Act.inContract, hr] at hc

/-- What the call of `ngtcp2_conn_writev_stream` leaves of the measure. -/
theorem writevStream_loopWork {s : State} {offer : Option Offer} {a : IterAnswer}
    (ho : ∀ o, offer = some o → s.conn.Offered o)
    (hc : (Act.writev offer a.writev).inContract (s.runCallbacks a.writev.callbacks).trace = true)
    (out : List Datagram) :
    (∀ force, (writevStream s offer a).2 = .again force → (∃ o, offer = some o) ∧
      loopWork (writevStream s offer a).1 force out < loopWork s false out) ∧
    ∀ d, (writevStream s offer a).2 = .emit d →
      (writevStream s offer a).1.entriesWork ≤ s.entriesWork := by
  have hle := (settled_wears s offer a.writev).work
  have hlt (hagain : a.writev.result = .error .writeMore ∨ a.writev.result = .error .streamShutWr) :
      (∃ o, offer = some o) ∧ (settled s offer a.writev).entriesWork < s.entriesWork := by
    obtain ⟨o, rfl⟩ := offer_of_again hagain hc
    exact ⟨⟨o, rfl⟩, settled_lt (ho o rfl) hagain hc⟩
  unfold loopWork
  rw [writevStream_eq]
  split
  · rename_i hr
    refine ⟨?_, nofun⟩
    rintro force ⟨⟩
    obtain ⟨hsome, hless⟩ := hlt (.inl hr)
    refine ⟨hsome, ?_⟩
    simp only [Bool.false_eq_true, ↓reduceIte]
    omega
  · rename_i hr
    refine ⟨?_, ?_⟩
    · intro force h
      cases offer with
      | none => cases h
      | some o =>
        cases h
        refine ⟨⟨o, rfl⟩, ?_⟩
        simp only [Bool.false_eq_true, ↓reduceIte]
        omega
    · intro d h
      split at h <;> cases h
  · rename_i hr
    refine ⟨?_, nofun⟩
    rintro force ⟨⟩
    obtain ⟨hsome, hless⟩ := hlt (.inr hr)
    refine ⟨hsome, ?_⟩
    simp only [Bool.false_eq_true, ↓reduceIte]
    omega
  · split
    · exact ⟨nofun, nofun⟩
    · exact ⟨nofun, nofun⟩
  · split
    · exact ⟨nofun, nofun⟩
    · exact ⟨nofun, fun _ _ => hle⟩

/-- The call is in the history behind the iteration. -/
theorem writevStream_trace (s : State) (offer : Option Offer) (a : IterAnswer) :
    .writev offer a.writev :: (s.runCallbacks a.writev.callbacks).trace <:+
      (writevStream s offer a).1.trace := by
  have hsettled : .writev offer a.writev :: (s.runCallbacks a.writev.callbacks).trace <:+
      (settled s offer a.writev).trace := List.suffix_rfl
  rw [writevStream_eq]
  split
  · exact hsettled
  · exact hsettled
  · exact hsettled
  · split
    · exact hsettled.trans (Move.sync _).trace_suffix
    · exact hsettled
  · split
    · exact hsettled
    · exact hsettled

/-- An offer is made in an iteration that is not the retry. -/
theorem force_of_offer {s : State} {force : Bool} {rv : Except Err Int} {o : Offer}
    (h : (openIfPending (pickOrNone s force).1 (pickOrNone s force).2 rv).2 = .ok (some o)) :
    force = false := by
  cases force with
  | false => rfl
  | true => cases h

/-- One iteration: going on lowers the measure, and a datagram leaves the work of the entries. -/
theorem drainIteration_loopWork {s₀ s : State} {force : Bool} {a : IterAnswer}
    (hconn : s.conn.conn.isSome = true) (h0 : s₀.trace <:+ s.trace)
    (hc : s₀.ContractSince (drainIteration s force a).1.trace) (out : List Datagram) :
    (∀ force', (drainIteration s force a).2 = .again force' →
      loopWork (drainIteration s force a).1 force' out < loopWork s force out) ∧
    ∀ d, (drainIteration s force a).2 = .emit d →
      (drainIteration s force a).1.entriesWork ≤ s.entriesWork := by
  have hpick := pickOrNone_wears s force
  have hopen := openIfPending_wears (pickOrNone s force).1 (pickOrNone s force).2 a.openStream
  have hw := hpick.trans hopen
  obtain ⟨-, -, hconn', hoff⟩ := pickOrNone_spec s force
  obtain ⟨-, -, hoff'⟩ := openIfPending_spec (by rw [hconn']; exact hconn) hoff a.openStream
  have hforce := @force_of_offer s force a.openStream
  unfold drainIteration at hc ⊢
  simp only at hc ⊢
  generalize openIfPending (pickOrNone s force).1 (pickOrNone s force).2 a.openStream = r
    at hw hoff' hforce hc ⊢
  obtain ⟨s₁, _ | offer⟩ := r
  · exact ⟨nofun, nofun⟩
  · simp only at hw hoff' hforce hc ⊢
    have hbefore := (h0.trans hw.trace).trans (Wears.runCallbacks s₁ a.writev.callbacks).trace
    have hcall := hc _ _ (writevStream_trace s₁ offer a) hbefore
    obtain ⟨hagain, hemit⟩ := writevStream_loopWork (fun o h => (hoff' o (by rw [h])).1) hcall out
    refine ⟨fun force' h => ?_, fun d h => Nat.le_trans (hemit d h) hw.work⟩
    obtain ⟨⟨o, rfl⟩, hlt⟩ := hagain force' h
    obtain rfl := hforce rfl
    refine Nat.lt_of_lt_of_le hlt ?_
    exact Nat.add_le_add_left hw.work _

/-- The loop stops with no more than 256 datagrams. -/
theorem drainLoop_length {s : State} {force : Bool} {out out' : List Datagram} {as : List IterAnswer}
    (h : (drainLoop s force out as).2 = .stopped out') (hout : out.length < 256) :
    out'.length ≤ 256 := by
  induction as generalizing s force out with
  | nil => cases h
  | cons a as ih =>
    unfold drainLoop at h
    split at h
    · exact ih h hout
    · cases h; omega
    · cases h
    · split at h
      · cases h
        rw [List.length_append, List.length_singleton]
        omega
      · rename_i hlt
        refine ih h ?_
        rw [List.length_append, List.length_singleton]
        omega

/-- As many answers as the measure are enough for the loop to end. -/
theorem drainLoop_ends {s₀ s : State} {force : Bool} {out : List Datagram} {as : List IterAnswer}
    (hconn : s.conn.conn.isSome = true) (h0 : s₀.trace <:+ s.trace)
    (hc : s₀.ContractSince (drainLoop s force out as).1.trace) (hout : out.length < 256)
    (hwork : loopWork s force out ≤ as.length) :
    (∃ out', (drainLoop s force out as).2 = .stopped out') ∨
      ∃ e, (drainLoop s force out as).2 = .threw e := by
  induction as generalizing s force out with
  | nil =>
    unfold loopWork at hwork
    rw [List.length_nil] at hwork
    omega
  | cons a as ih =>
    have hmoves := drainIteration_moves hconn force a
    have hconn' : (drainIteration s force a).1.conn.conn.isSome = true := by
      rw [Moves.keeps (fun _ _ h => Move.conn_eq h) hmoves]; exact hconn
    have htrace := h0.trans (State.moves_suffix hmoves)
    have hsuffix (force' : Bool) (out' : List Datagram) := State.moves_suffix
      (drainLoop_moves hconn' force' out' as)
    have hiter (hc : s₀.ContractSince (drainIteration s force a).1.trace) :=
      drainIteration_loopWork hconn h0 hc out
    rw [List.length_cons] at hwork
    unfold drainLoop at hc ⊢
    generalize drainIteration s force a = r at hconn' htrace hsuffix hiter hc ⊢
    obtain ⟨s', v⟩ := r
    cases v with
    | again force' =>
      have hlt : loopWork s' force' out < loopWork s force out :=
        (hiter (hc.of_suffix (hsuffix force' out))).1 force' rfl
      exact ih hconn' htrace hc hout (by omega)
    | stop => exact .inl ⟨out, rfl⟩
    | threw e => exact .inr ⟨e, rfl⟩
    | emit d =>
      simp only at hc ⊢
      split
      · exact .inl ⟨_, rfl⟩
      · rename_i hmore
        rw [if_neg hmore] at hc
        have hle := (hiter (hc.of_suffix (hsuffix false _))).2 d rfl
        refine ih hconn' htrace hc ?_ ?_
        · rw [List.length_append, List.length_singleton]; omega
        · -- the datagram pays for the flag
          unfold loopWork at hwork ⊢
          rw [List.length_append, List.length_singleton, if_neg Bool.false_ne_true]
          simp only at hle
          omega

end Connection

/-- The send loop of a call ends when ngtcp2 has given as many answers as this. -/
def State.drainWork (s : State) : Nat := Connection.loopWork s false []

/-- `drainOutgoingDatagrams` ends: once ngtcp2 has given `drainWork` answers that keep to its
documentation, the call has returned at most 256 datagrams, or has thrown. -/
theorem drain_terminates (s : State) (a : DrainAnswers)
    (hc : s.ContractSince (Connection.drainOutgoingDatagrams s a).1.trace)
    (hanswers : s.drainWork ≤ a.loop.length) :
    (∃ ds, (Connection.drainOutgoingDatagrams s a).2 = .returned ds ∧ ds.length ≤ 256) ∨
      ∃ e, (Connection.drainOutgoingDatagrams s a).2 = .threw e := by
  cases hconn : s.conn.conn.isSome with
  | false =>
    rw [Connection.drainOutgoingDatagrams_none a hconn]
    exact .inl ⟨[], rfl, Nat.zero_le _⟩
  | true =>
    cases hdue : s.conn.closeRequested && !s.conn.closePacketSent with
    | true =>
      rw [Connection.drainOutgoingDatagrams_close a hconn hdue]
      unfold Connection.drainClose
      simp only
      split
      · split
        · exact .inl ⟨[], rfl, Nat.zero_le _⟩
        · exact .inr ⟨_, rfl⟩
      · refine .inl ⟨_, rfl, ?_⟩
        split <;> simp
    | false =>
      have henter : s.entersLoop = true := by unfold State.entersLoop; rw [hconn, hdue]; rfl
      rw [Connection.drainOutgoingDatagrams_loop a henter] at hc ⊢
      have hlength (out : List Datagram) := @Connection.drainLoop_length s false [] out a.loop
      have hends := @Connection.drainLoop_ends s s false [] a.loop hconn List.suffix_rfl
      generalize Connection.drainLoop s false [] a.loop = r at hc hlength hends ⊢
      obtain ⟨s', v⟩ := r
      cases v with
      | stopped out =>
        exact .inl ⟨out, rfl, hlength out rfl (by simp)⟩
      | threw e => exact .inr ⟨e, rfl⟩
      | running out =>
        rcases hends hc (by simp) hanswers with ⟨_, h⟩ | ⟨_, h⟩
        · cases h
        · cases h

/-- A client with two bytes and a FIN to send on its stream. -/
def finSender : State :=
  (Start.client {} none none).run [.openStream (.ok 0), .write 0 [1], .end_ 0 (some [2])]

/-- ngtcp2 takes the bytes one by one, then the FIN, and then says that the stream is shut. -/
def byteByByte : DrainAnswers where
  loop := [{ writev := { result := .error .writeMore, wdatalen := 1 } },
    { writev := { result := .error .writeMore, wdatalen := 1 } },
    { writev := { result := .error .writeMore, wdatalen := 0 } },
    { writev := { result := .error .streamShutWr } }] ++
    List.replicate 513 { writev := { result := .ok [] } }

theorem drain_terminates_byteByByte :
    finSender.drainWork = 517 ∧
      ((∃ ds, (Connection.drainOutgoingDatagrams finSender byteByByte).2 = .returned ds ∧
          ds.length ≤ 256) ∨
        ∃ e, (Connection.drainOutgoingDatagrams finSender byteByByte).2 = .threw e) := by
  have hwork : finSender.drainWork = 517 := by decide
  have hanswers : byteByByte.loop.length = 517 := by
    unfold byteByByte
    rw [List.length_append, List.length_replicate]
    rfl
  refine ⟨hwork, drain_terminates finSender byteByByte (by decide) ?_⟩
  rw [hwork, hanswers]

end PhpQuic
