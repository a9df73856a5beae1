import PhpQuic.Lib.Progress
import PhpQuic.Outgoing.Eligible
import PhpQuic.Outgoing.Fin
import PhpQuic.Outgoing.Termination

/-!
# All that was written is sent

What the streams of a connection still have to send only grows by `write` and `end`. A call of
`drainOutgoingDatagrams` in which ngtcp2 refuses nothing (`Act.generous`) takes 256 datagrams off it,
or leaves nothing to send at all. So it is sent, whatever happens in between, once there were enough
such calls: ngtcp2 may refuse what it likes in all others.

* `Eases s s'`: from `s` to `s'` no stream gets anything to send. `Move.eases`: one move, if it is
  neither `write` nor `end`.
* `drainIteration_generous`, `drainLoop_generous`: the send loop in a generous call.
* `drains_progress`: the send loop's progress, step by step; `everything_sent`: over a run.
-/

namespace PhpQuic

open Runs (Moves Along)

/-- `P` of every act of the history `t` behind the state `s`. -/
def State.EachSince (s : State) (P : Act → Bool) (t : Trace) : Prop :=
  History.Each (fun a t' => s.trace <:+ t' → P a = true) t

instance (s : State) (P : Act → Bool) (t : Trace) : Decidable (s.EachSince P t) :=
  inferInstanceAs (Decidable (History.Each _ t))

theorem State.EachSince.head {s : State} {P : Act → Bool} {a : Act} {t : Trace}
    (h : s.EachSince P (a :: t)) (ht : s.trace <:+ t) : P a = true := h a t List.suffix_rfl ht

theorem State.EachSince.of_suffix {s : State} {P : Act → Bool} {t t' : Trace} (h : s.EachSince P t)
    (ht : t' <:+ t) : s.EachSince P t' := History.Each.of_suffix h ht

/-- The application adds nothing to what is to be sent. -/
def Act.addsNothing : Act → Bool
  | .wrote .. | .ended .. => false
  | _ => true

/-- ngtcp2 refuses nothing: it opens the stream that the extension promised, and of an offer it takes
a byte or the FIN and goes on. -/
def Act.generous : Act → Bool
  | .openPending id rv => decide (rv = .ok id)
  | .writev none w =>
    match w.result with
    | .ok _ => true
    | .error _ => false
  | .writev (some o) w =>
    match w.result with
    | .ok pkt => !pkt.isEmpty && (o.data.isEmpty || decide (0 < w.wdatalen))
    | .error .writeMore | .error .streamShutWr => true
    | .error _ => false
  | _ => true

/-! ## Nothing is added -/

/-- No stream gets anything to send, and none that had nothing to send has now. -/
structure Eases (s s' : State) : Prop extends Wears s s' where
  wanes : s.conn.Wanes s'.conn

namespace Eases

variable {s s' s'' : State}

theorem refl (s : State) : Eases s s := ⟨.refl s, .of_streams_eq rfl⟩

theorem trans (h : Eases s s') (h' : Eases s' s'') : Eases s s'' :=
  ⟨h.toWears.trans h'.toWears, h.wanes.trans h'.wanes⟩

theorem of_streams_eq (ht : s.trace <:+ s'.trace) (hs : s'.conn.streams = s.conn.streams) :
    Eases s s' := ⟨.of_streams_eq ht hs, .of_streams_eq hs⟩

/-- Where nothing was eligible, nothing is. -/
theorem idle (h : Eases s s') (hidle : s.conn.eligibleIds = []) : s'.conn.eligibleIds = [] :=
  List.sublist_nil.mp (hidle ▸ h.wanes)

/-- A write to one entry that adds nothing. -/
theorem of_modify {i : Int} {f : StreamEntry → StreamEntry} (hf : ∀ e, (f e).streamId = e.streamId)
    (ht : s.trace <:+ s'.trace) (hs : s'.conn.streams = s.conn.streams.modify i f hf)
    (hwork : ∀ e, (f e).work s'.trace ≤ e.work s.trace)
    (heligible : ∀ e, (f e).eligible = true → e.eligible = true) : Eases s s' := by
  refine ⟨.of_modify hf ht hs hwork, ?_⟩
  have hw : s.conn.Wanes (s.conn.modifyEntry i f hf) := .modifyEntry (.of_streams_eq rfl) i hf heligible
  exact hw.trans (.of_streams_eq hs)

theorem callback (s : State) (cb : Callback) : Eases s (s.runCallback cb) :=
  ⟨.runCallback s cb, s.conn.callback_wanes cb⟩

/-- A new entry has nothing to send. -/
theorem openStreamEntry (s : State) (id : Int) :
    Eases s (s.withConn (s.conn.openStreamEntry id)) := by
  refine ⟨⟨List.suffix_rfl, ?_⟩, .openStreamEntry s.conn id⟩
  unfold State.entriesWork Connection.openStreamEntry
  rw [State.withConn_conn, State.withConn_trace, OrdTable.total_addNew _ (StreamEntry.work_alloc _ _)]

end Eases

theorem StreamEntry.eligible_of_answer {o : Offer} {a : WritevAnswer} {e : StreamEntry}
    (h : (e.answer o a).eligible = true) : e.eligible = true := by
  unfold answer at h
  cases heff : a.effect with
  | update p =>
    rw [heff] at h
    simp only [woken_eq] at h
    exact eligible_of_updateTx h
  | discard =>
    rw [heff] at h
    obtain ⟨-, -, hsend⟩ := eligible_iff.mp h
    rcases hsend with hlt | hfin
    · cases hlt
    · cases hfin
  | ignore => rwa [heff] at h

/-- A returned stream has a new entry, or the one it had. -/
theorem Connection.returnStream_eases (s : State) (bidi : Bool) (rv : Except Err Int)
    (pending : Bool) :
    Eases s (returnStream (s.log (.openLocal bidi rv)) bidi rv pending).1 := by
  obtain ⟨_, _, hc⟩ := s.conn.assignStreamId_rest bidi rv
  have hassign : (s.conn.assignStreamId bidi rv).1.streams = s.conn.streams := by rw [hc]
  refine (Eases.openStreamEntry s (s.conn.assignStreamId bidi rv).2).trans ?_
  refine .of_modify (i := (s.conn.assignStreamId bidi rv).2)
    (f := fun e => { e with pendingOpen := pending, writable := true }) (fun _ => rfl)
    ((List.suffix_cons _ _).trans (List.suffix_cons _ _)) ?_ (fun e => ?_) fun e he => he
  · exact congrArg (fun t : StreamTable => (t.addNew (.alloc _)).modify _
      (fun e => { e with pendingOpen := pending, writable := true }) fun _ => rfl) hassign
  · exact StreamEntry.work_le ((List.suffix_cons _ _).trans (List.suffix_cons _ _)) rfl
      (Nat.le_refl _) id

open Connection in
/-- Every move but `write` and `end` adds nothing. -/
theorem Move.eases {s₀ s s' : State} (h : Move s s') (h0 : s₀.trace <:+ s.trace)
    (hquiet : s₀.EachSince Act.addsNothing s'.trace) : Eases s s' := by
  have ht := h.trace_suffix
  cases h with
  | quiet a ha => exact .of_streams_eq ht rfl
  | threw e he => exact .of_streams_eq ht rfl
  | callback cb => exact .callback s cb
  | clamp i hi =>
    refine .of_modify StreamEntry.clampTxOffset_streamId ht rfl (fun e => ?_) fun e he => by
      rwa [e.eligible_clamp] at he
    refine StreamEntry.work_le ht e.clampTxOffset_streamId ?_ ?_
    · rw [unsent_clamp]
    · rw [StreamEntry.clampTxOffset_eq]
      exact id
  | wrote i data hi hclosed hsent hfin => cases hquiet.head h0
  | ended i data hi => cases hquiet.head h0
  | reset i code hi =>
    refine .of_modify (f := StreamEntry.resetLocal) (fun _ => rfl) ht rfl (fun e => ?_) fun e he => ?_
    · exact StreamEntry.work_le ht rfl (Nat.le_refl _) nofun
    · cases (StreamEntry.eligible_iff.mp he).1
  | read i chunk rest hi hrx =>
    refine .of_modify (f := (·.readRest rest)) (fun _ => rfl) ht rfl (fun e => ?_) fun e he => he
    exact StreamEntry.work_le ht rfl (Nat.le_refl _) id
  | opened bidi i hconn => exact returnStream_eases s bidi (.ok i) false
  | blocked bidi hconn => exact returnStream_eases s bidi (.error .streamIdBlocked) true
  | openMatched i hconn hi hp =>
    refine .of_modify (f := fun e => { e with pendingOpen := false }) (fun _ => rfl) ht rfl
      (fun e => ?_) fun e he => he
    exact StreamEntry.work_le ht rfl (Nat.le_refl _) id
  | openMismatched i opened hconn hi hp hne => exact .of_streams_eq ht rfl
  | settle o a ho hp =>
    refine .of_modify (StreamEntry.answer_streamId o a) ht (s.conn.settle_streams o a) (fun e => ?_)
      fun e => StreamEntry.eligible_of_answer
    exact e.work_answer ht o a
  | sync p =>
    obtain ⟨_, _, _, _, _, hc⟩ := s.conn.syncState_rest p
    refine .of_streams_eq ht ?_
    rw [State.syncState_conn, hc]
  | lastError e => exact .of_streams_eq ht rfl
  | close code reason hopen =>
    obtain ⟨_, _, _, _, _, _, hc⟩ := close_rest s code reason
    refine .of_streams_eq ht ?_
    rw [hc]
  | closeSent hreq => exact .of_streams_eq ht rfl
  | drainEvents => exact .of_streams_eq ht rfl

/-- A run in which nothing is written adds nothing. -/
theorem State.eases_of_moves {s₀ s s' : State} (h : Moves Move s s') (h0 : s₀.trace <:+ s.trace)
    (hquiet : s₀.EachSince Act.addsNothing s'.trace) : Eases s s' := by
  refine (Moves.inv (C := fun s' => s₀.EachSince Act.addsNothing s'.trace)
    (I := fun s' => s.trace <:+ s'.trace ∧ Eases s s') ?_ ?_ h hquiet ⟨List.suffix_rfl, .refl s⟩).2
  · exact fun _ _ hm hq => hq.of_suffix hm.trace_suffix
  · rintro t t' hm hq ⟨ht, hle⟩
    exact ⟨ht.trans hm.trace_suffix, hle.trans (hm.eases (h0.trans ht) hq)⟩

/-! ## A generous call -/

namespace StreamEntry

/-- Fewer unsent bytes, and no new FIN. -/
theorem work_lt {t t' : Trace} {e e' : StreamEntry} (hs : t <:+ t')
    (hid : e'.streamId = e.streamId) (hunsent : e'.unsent.length < e.unsent.length)
    (hfin : e'.finPending = true → e.finPending = true) : e'.work t' < e.work t := by
  -- the same FIN behind the old bytes
  have hle : work t' { e' with txBuffer := e.txBuffer, txOffset := e.txOffset } ≤ e.work t :=
    work_le hs hid (Nat.le_refl _) hfin
  exact Nat.add_lt_add_of_lt_of_le hunsent (Nat.le_of_add_le_add_left hle)

/-- A packet for an offer takes a byte of it, or its FIN. -/
theorem work_answer_packet {t t' : Trace} {e : StreamEntry} {o : Offer} {a : WritevAnswer}
    {pkt : Bytes} (hs : t <:+ t') (hdata : o.data = e.unsent) (hfin : o.fin = e.finPending)
    (hdue : o.data ≠ [] ∨ o.fin = true) (hpkt : a.result = .ok pkt)
    (hg : Act.generous (.writev (some o) a) = true) : (e.answer o a).work t' < e.work t := by
  simp only [Act.generous, hpkt, Bool.and_eq_true, Bool.not_eq_true', List.isEmpty_eq_false_iff,
    Bool.or_eq_true, List.isEmpty_iff, decide_eq_true_eq] at hg
  obtain ⟨hne, htakes⟩ := hg
  have heff : a.effect = .update true := by
    unfold WritevAnswer.effect
    rw [hpkt]
    simp only [List.length_pos_iff.mpr hne, decide_true]
  have hanswer : e.answer o a = (e.updateTx a.wdatalen o.fin true).woken := by
    unfold answer; rw [heff]
  rw [hanswer, work_woken]
  by_cases hnil : o.data = []
  · -- the FIN was all there was to send, and it is gone
    have hset : o.fin = true := hdue.resolve_left fun h => h hnil
    have hpending : e.finPending = true := by rw [← hfin, hset]
    have hout : e.txBuffer.length ≤ e.txOffset + a.wdatalen.toNat := by
      have hlen := congrArg List.length (hdata.symm.trans hnil)
      rw [e.unsent_length, List.length_nil] at hlen
      omega
    have hgone : (e.updateTx a.wdatalen o.fin true).finPending = false := by
      rw [updateTx_eq]
      simp [hset, hpending, hout]
    unfold work
    rw [hgone, hpending, updateTx_unsent, ← hdata, hnil, List.drop_nil, if_pos rfl,
      if_neg Bool.false_ne_true]
    split <;> decide
  · -- a byte is gone
    have hbyte : 0 < a.wdatalen := htakes.resolve_left hnil
    have hpos : 0 < e.unsent.length := by rw [← hdata]; exact List.length_pos_iff.mpr hnil
    refine work_lt hs (updateTx_streamId ..) ?_ fun h => ?_
    · rw [updateTx_unsent, List.length_drop]
      omega
    · rw [updateTx_eq] at h
      exact (Bool.and_eq_true_iff.mp h).1

end StreamEntry

namespace Connection

/-- Nothing is eligible when nothing is picked. -/
theorem pickOrNone_idle {s : State} (h : (pickOrNone s false).2 = none) : s.conn.eligibleIds = [] := by
  have hhead : s.conn.eligibleIds.head? =
      (s.conn.streams.vals.find? StreamEntry.eligible).map StreamEntry.streamId :=
    OrdTable.head?_keysWhere _ _
  have hnone : s.conn.streams.vals.find? StreamEntry.eligible = none :=
    List.find?_eq_none.mpr fun e he => by simp [(pickTxStream_none h).2 e he]
  rw [hnone] at hhead
  exact List.head?_eq_none_iff.mp hhead

/-- A generous open leaves the offer as it is. -/
theorem openIfPending_generous {s₀ s : State} {offer offer' : Option Offer} {rv : Except Err Int}
    (h : (openIfPending s offer rv).2 = .ok offer') (h0 : s₀.trace <:+ s.trace)
    (hg : s₀.EachSince Act.generous (openIfPending s offer rv).1.trace) : offer' = offer := by
  unfold openIfPending at h hg
  cases offer with
  | none => cases h; rfl
  | some o =>
    simp only at h hg
    split at h
    · cases h; rfl
    · rename_i hp
      rw [if_neg hp] at hg
      cases rv with
      | ok opened =>
        simp only at h
        split at h
        · cases h
        · cases h; rfl
      | error e =>
        by_cases he : e = .streamIdBlocked
        · subst he
          cases hg.head h0
        · simp only at h
          cases h

/-- The packet for an offer lowers the work. -/
theorem settled_packet_lt {s : State} {o : Offer} {a : WritevAnswer} {pkt : Bytes}
    (h : s.conn.Offered o) (hpkt : a.result = .ok pkt)
    (hg : Act.generous (.writev (some o) a) = true) :
    (settled s (some o) a).entriesWork < s.entriesWork := by
  have hoff := State.runCallbacks_offered h a.callbacks
  have hget := get_of_hasEntry hoff.hasEntry
  refine Nat.lt_of_lt_of_le ?_ (Wears.runCallbacks s a.callbacks).work
  unfold State.entriesWork
  rw [settled_streams]
  refine OrdTable.total_modify_lt _ _ (StreamEntry.work_mono (List.suffix_cons _ _)) hget ?_
  exact StreamEntry.work_answer_packet (List.suffix_cons _ _) hoff.data_eq hoff.fin_eq hoff.due hpkt hg

/-- What a generous answer does to an iteration: it goes on, or a packet takes work off an offer, or
nothing was offered. -/
theorem writevStream_generous {s : State} {offer : Option Offer} {a : IterAnswer}
    (ho : ∀ o, offer = some o → s.conn.Offered o)
    (hg : Act.generous (.writev offer a.writev) = true) :
    (∀ force, (writevStream s offer a).2 = .again force → force = false) ∧
      ((writevStream s offer a).2 = .stop → offer = none) ∧
      ∀ d, (writevStream s offer a).2 = .emit d → offer = none ∨
        (writevStream s offer a).1.entriesWork < s.entriesWork := by
  rw [writevStream_eq]
  split
  · exact ⟨fun _ h => (Verdict.again.inj h).symm, nofun, nofun⟩
  · rename_i hr
    cases offer <;> simp [Act.generous, hr] at hg
  · exact ⟨fun _ h => (Verdict.again.inj h).symm, nofun, nofun⟩
  · rename_i rv _ _ _ hr
    cases offer <;> cases rv <;> simp_all [Act.generous]
  · rename_i pkt hr
    cases offer with
    | none =>
      split
      · exact ⟨nofun, fun _ => rfl, nofun⟩
      · exact ⟨nofun, nofun, fun _ _ => .inl rfl⟩
    | some o =>
      have hlt := settled_packet_lt (ho o rfl) hr hg
      split
      · rename_i hz
        obtain rfl := List.length_eq_zero_iff.mp hz
        simp [Act.generous, hr] at hg
      · exact ⟨nofun, nofun, fun _ _ => .inr hlt⟩

theorem writevStream_eases (s : State) (offer : Option Offer) (a : IterAnswer) :
    Eases s (writevStream s offer a).1 := by
  have hsettled := settled_wears s offer a.writev
  refine ⟨?_, (writevStream_tries s offer a).1.wanes⟩
  rw [writevStream_eq]
  split
  · exact hsettled
  · exact hsettled
  · exact hsettled
  · split
    · obtain ⟨_, _, _, _, _, hc⟩ := (settled s offer a.writev).conn.syncState_rest a.periods
      refine hsettled.trans (.of_streams_eq (Move.sync a.periods).trace_suffix ?_)
      rw [State.syncState_conn, hc]
    · exact hsettled.trans (.of_streams_eq List.suffix_rfl rfl)
  · split
    · exact hsettled
    · exact hsettled

/-- One iteration of a generous call, not behind a blocked answer. -/
theorem drainIteration_generous {s₀ s : State} {a : IterAnswer} (hconn : s.conn.conn.isSome = true)
    (h0 : s₀.trace <:+ s.trace)
    (hg : s₀.EachSince Act.generous (drainIteration s false a).1.trace) :
    (∀ force, (drainIteration s false a).2 = .again force →
        force = false ∧ Eases s (drainIteration s false a).1) ∧
      ((drainIteration s false a).2 = .stop → (drainIteration s false a).1.conn.eligibleIds = []) ∧
      ∀ d, (drainIteration s false a).2 = .emit d → Eases s (drainIteration s false a).1 ∧
        ((drainIteration s false a).1.conn.eligibleIds = [] ∨
          (drainIteration s false a).1.entriesWork < s.entriesWork) := by
  have hw := (pickOrNone_wears s false).trans
    (openIfPending_wears (pickOrNone s false).1 (pickOrNone s false).2 a.openStream)
  obtain ⟨-, hpick, hconn', hoff⟩ := pickOrNone_spec s false
  obtain ⟨-, -, hoff'⟩ := openIfPending_spec (by rw [hconn']; exact hconn) hoff a.openStream
  have hsame (offer : Option Offer) := @openIfPending_generous s₀ (pickOrNone s false).1
    (pickOrNone s false).2 offer a.openStream
  have hwanes (t : State) (offer : Option Offer) := @opened_wanes s t false a.openStream offer
  unfold drainIteration at hg ⊢
  simp only at hg ⊢
  generalize openIfPending (pickOrNone s false).1 (pickOrNone s false).2 a.openStream = r
    at hw hoff' hsame hwanes hg ⊢
  obtain ⟨t, _ | offer⟩ := r
  · exact ⟨nofun, nofun, nofun⟩
  · simp only at hw hoff' hsame hwanes hg ⊢
    have ht : Eases s t := ⟨hw, hwanes t offer rfl⟩
    have hcall := writevStream_eases t offer a
    have hbefore := (h0.trans hw.trace).trans (Wears.runCallbacks t a.writev.callbacks).trace
    obtain ⟨hagain, hstop, hemit⟩ := writevStream_generous (fun o h => (hoff' o (by rw [h])).1)
      ((hg.of_suffix (writevStream_trace t offer a)).head hbefore)
    -- where no stream is offered, none was eligible
    have hidle (hnone : offer = none) : (writevStream t offer a).1.conn.eligibleIds = [] := by
      refine (ht.trans hcall).idle (pickOrNone_idle ?_)
      rw [← hsame offer rfl (by rw [hpick]; exact h0) (hg.of_suffix hcall.trace)]
      exact hnone
    refine ⟨fun force h => ⟨hagain force h, ht.trans hcall⟩, fun h => hidle (hstop h), fun d h => ?_⟩
    refine ⟨ht.trans hcall, (hemit d h).imp hidle fun hlt => ?_⟩
    exact Nat.lt_of_lt_of_le hlt hw.work

/-- The loop of a generous call ends with nothing left to send, or with a full array of datagrams,
each of which took something off what was to be sent. -/
theorem drainLoop_generous {s₀ s : State} {out out' : List Datagram} {as : List IterAnswer}
    {total : Nat} (hconn : s.conn.conn.isSome = true) (h0 : s₀.trace <:+ s.trace)
    (hg : s₀.EachSince Act.generous (drainLoop s false out as).1.trace)
    (h : s.conn.eligibleIds = [] ∨ s.entriesWork + out.length ≤ total)
    (hstop : (drainLoop s false out as).2 = .stopped out') :
    (drainLoop s false out as).1.conn.eligibleIds = [] ∨
      (drainLoop s false out as).1.entriesWork + 256 ≤ total := by
  induction as generalizing s out with
  | nil => cases hstop
  | cons a as ih =>
    have hmoves := drainIteration_moves hconn false a
    have hconn' : (drainIteration s false a).1.conn.conn.isSome = true := by
      rw [Moves.keeps (fun _ _ h => Move.conn_eq h) hmoves]; exact hconn
    have htrace := h0.trans (State.moves_suffix hmoves)
    have hsuffix (force : Bool) (out : List Datagram) := State.moves_suffix
      (drainLoop_moves hconn' force out as)
    have hiter := @drainIteration_generous s₀ s a hconn h0
    unfold drainLoop at hg hstop ⊢
    generalize drainIteration s false a = r at hconn' htrace hsuffix hiter hg hstop ⊢
    obtain ⟨s', v⟩ := r
    cases v with
    | again force =>
      simp only at hg hstop ⊢
      obtain ⟨rfl, heases⟩ := (hiter (hg.of_suffix (hsuffix force out))).1 force rfl
      refine ih hconn' htrace hg ?_ hstop
      refine h.imp heases.idle fun hle => ?_
      exact Nat.le_trans (Nat.add_le_add_right heases.work _) hle
    | stop => exact .inl ((hiter hg).2.1 rfl)
    | threw e => cases hstop
    | emit d =>
      simp only at hg hstop ⊢
      split at hstop
      · rename_i hfull
        rw [if_pos hfull] at hg ⊢
        obtain ⟨heases, hless⟩ := (hiter hg).2.2 d rfl
        rcases h with hidle | hle
        · exact .inl (heases.idle hidle)
        · refine hless.imp_right fun hlt => ?_
          have hlt : s'.entriesWork < s.entriesWork := hlt
          show s'.entriesWork + 256 ≤ total
          omega
      · rename_i hmore
        rw [if_neg hmore] at hg ⊢
        obtain ⟨heases, hless⟩ := (hiter (hg.of_suffix (hsuffix false _))).2.2 d rfl
        refine ih hconn' htrace hg ?_ hstop
        rcases h with hidle | hle
        · exact .inl (heases.idle hidle)
        · refine hless.imp_right fun hlt => ?_
          rw [List.length_append, List.length_singleton]
          simp only at hlt
          omega

end Connection

/-- The call is one of `drainOutgoingDatagrams` that enters the send loop and returns, and ngtcp2 is
generous all along. -/
def State.gives (s : State) : Op → Bool
  | .drainOutgoingDatagrams a =>
    s.entersLoop &&
      decide (s.EachSince Act.generous (Connection.drainOutgoingDatagrams s a).1.trace) &&
      match (Connection.drainOutgoingDatagrams s a).2 with
      | .returned _ => true
      | _ => false
  | _ => false

/-- A generous call takes 256 datagrams off what is to be sent, or leaves nothing. -/
theorem State.gives_pays {s : State} {o : Op} (h : s.gives o = true) :
    (step s o).conn.eligibleIds = [] ∨ (step s o).entriesWork + 256 ≤ s.entriesWork := by
  cases o with
  | drainOutgoingDatagrams a =>
    simp only [gives, Bool.and_eq_true, decide_eq_true_eq] at h
    obtain ⟨⟨henter, hg⟩, hret⟩ := h
    have hconn : s.conn.conn.isSome = true := (Bool.and_eq_true_iff.mp henter).1
    show (Connection.drainOutgoingDatagrams s a).1.conn.eligibleIds = [] ∨
      (Connection.drainOutgoingDatagrams s a).1.entriesWork + 256 ≤ s.entriesWork
    rw [Connection.drainOutgoingDatagrams_loop a henter] at hg hret ⊢
    have hloop (out : List Datagram) := @Connection.drainLoop_generous s s [] out a.loop
      s.entriesWork hconn List.suffix_rfl
    generalize Connection.drainLoop s false [] a.loop = r at hg hret hloop ⊢
    obtain ⟨t, v⟩ := r
    cases v with
    | stopped out =>
      -- the last `sync_state` and the result change no stream
      have hlast : Eases t (Connection.returnDatagrams (t.syncState a.periods) out).1 := by
        obtain ⟨_, _, _, _, _, hc⟩ := t.conn.syncState_rest a.periods
        refine .of_streams_eq ((Move.sync a.periods).trace_suffix.trans (List.suffix_cons _ _)) ?_
        show (t.syncState a.periods).conn.streams = _
        rw [State.syncState_conn, hc]
      rcases hloop out (hg.of_suffix hlast.trace) (.inr (Nat.le_refl _)) rfl with hidle | hpaid
      · exact .inl (hlast.idle hidle)
      · exact .inr (Nat.le_trans (Nat.add_le_add_right hlast.work _) hpaid)
    | threw e => cases hret
    | running out => cases hret
  | _ => cases h

/-! ## A run -/

/-- The operation adds nothing to what is to be sent. -/
def State.Quiet (s : State) (o : Op) : Prop := s.EachSince Act.addsNothing (step s o).trace

instance (s : State) (o : Op) : Decidable (s.Quiet o) :=
  inferInstanceAs (Decidable (s.EachSince _ _))

/-- What is to be sent goes down with every generous call, and up with no operation that writes
nothing. -/
theorem drains_progress : Progress step State.Quiet (fun s o => s.gives o = true)
    (fun s => s.conn.eligibleIds = []) State.entriesWork 256 where
  keeps s o h := (State.eases_of_moves (step_moves s o) List.suffix_rfl h).idle
  rank_le s o h := (State.eases_of_moves (step_moves s o) List.suffix_rfl h).work
  pays _ _ _ := State.gives_pays

/-- A stream that is not eligible, and not at its end, has sent all. -/
theorem Connection.unsent_of_idle {c : Connection} {id : Int} (h : c.eligibleIds = [])
    (hclosed : (c.entry id).closed = false) (hreset : (c.entry id).reset = false) :
    (c.entry id).unsent = [] ∧ (c.entry id).finPending = false := by
  by_cases hhas : c.hasEntry id
  · have hnot : ¬ (c.entry id).eligible = true := by
      intro helig
      have hmem : id ∈ c.eligibleIds := OrdTable.mem_keysWhere.mpr ⟨_, get_of_hasEntry hhas, helig⟩
      rw [h] at hmem
      cases hmem
    rw [StreamEntry.eligible_iff] at hnot
    simp only [hclosed, hreset, true_and, not_or, Bool.not_eq_true] at hnot
    exact ⟨List.drop_eq_nil_of_le (Nat.le_of_not_lt hnot.1), hnot.2⟩
  · rw [entry_of_not_hasEntry hhas]
    exact ⟨rfl, rfl⟩

/-- Liveness of the send path: what a connection had to send at some moment is sent once enough calls
of `drainOutgoingDatagrams` found ngtcp2 generous, whatever else was called meanwhile and whatever
ngtcp2 refused in all other calls, unless more was written. No stream then has anything to send. Of a
stream that has not come to its end and that ngtcp2 never answered `STREAM_SHUT_WR`, it has taken all
that was written; and if ngtcp2 kept to its documentation for the stream (`TakesNothingShut`,
`WithinOffer`) and answered each offer of a FIN alone (`FinOnlyAnswered`), no FIN is still owed. -/
theorem everything_sent (start : Start) (before after : List Op)
    (hquiet : Along step State.Quiet (start.run before) after)
    (henough : (start.run before).entriesWork <
      256 * Progress.payments step (fun s o => s.gives o = true) (start.run before) after) :
    let s := start.run (before ++ after)
    s.conn.eligibleIds = [] ∧
      ∀ id, (s.conn.entry id).closed = false → (s.conn.entry id).reset = false →
        s.trace.TakesNothingShut id →
        (s.trace.shutWr id = false → s.trace.taken id = s.trace.accepted id) ∧
          (s.trace.WithinOffer id → s.trace.FinOnlyAnswered id → s.trace.finRequested id = false) := by
  intro s
  have hrun : s = Runs.run step (start.run before) after := Runs.run_append ..
  have hidle : s.conn.eligibleIds = [] := by
    rw [hrun]
    exact drains_progress.done_of_lt hquiet henough
  refine ⟨hidle, fun id hclosed hreset hshut => ?_⟩
  obtain ⟨hunsent, hfin⟩ := Connection.unsent_of_idle hidle hclosed hreset
  refine ⟨fun hopen => ?_, fun hwithin honly => ?_⟩
  · have hb := (Trace.balanced (start.run_offersWhole (before ++ after) id) hshut).taken_unsent hopen
    rwa [← (start.run_holds (before ++ after) id).unsent, hunsent, List.append_nil] at hb
  · have hsound := fin_sound_of_finOnlyAnswered start (before ++ after) id hwithin honly
    rw [← Bool.not_eq_true]
    intro hreq
    exact absurd (hsound.pending hreq) (by rw [hfin]; exact Bool.false_ne_true)

/-- A client writes to two streams, and ends one. -/
def twoWritten : List Op :=
  [.openStream (.ok 0), .openStream (.ok 4), .write 0 [1], .end_ 4 (some [2])]

/-- ngtcp2 sends nothing at first, and everything in the next call. -/
def refusedOnce : List Op :=
  [.drainOutgoingDatagrams { loop := [{ writev := { result := .ok [] } }] }, .drainEvents,
    .drainOutgoingDatagrams { loop := [
      { writev := { result := .ok [7], wdatalen := 1 } },
      { writev := { result := .ok [8], wdatalen := 1 } },
      { writev := { result := .ok [] } }] }]

theorem everything_sent_refusedOnce :
    let s := (Start.client {} none none).run (twoWritten ++ refusedOnce)
    s.conn.eligibleIds = [] ∧ s.trace.taken 4 = s.trace.accepted 4 ∧
      s.trace.finRequested 4 = false := by
  have hquiet : Along step State.Quiet ((Start.client {} none none).run twoWritten) refusedOnce :=
    ⟨by decide, by decide, by decide, trivial⟩
  obtain ⟨hidle, hall⟩ := everything_sent (.client {} none none) twoWritten refusedOnce hquiet
    (by decide)
  obtain ⟨htaken, hfin⟩ := hall 4 (by decide) (by decide) (by decide)
  exact ⟨hidle, htaken (by decide), hfin (by decide) (by decide)⟩

end PhpQuic
