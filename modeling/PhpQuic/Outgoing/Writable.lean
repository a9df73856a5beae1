import PhpQuic.Connection.Calls

/-!
# When a stream is writable

`isWritable()` reads two flags of the entry and `write()` tests others. They agree
(`writable_truthful`) as long as nothing marks a stream as writable that `write` refuses. Four of the
six places that set `writable` do not test what `write` tests; `Act.wakesRightly` is what they rely
on. The callback for acknowledgements is the one that breaks it in the ordinary course of events
(`acked_behind_end`): data that is acknowledged between `end()` and the drain that sends the FIN.

The other way round, a stream that is not writable wakes its writer when its unsent bytes are gone,
so it must have some. Only a `write` of nothing clears the flag without them
(`writable_or_unsent_iff`, `write_nothing`).
-/

namespace PhpQuic

open Runs (Moves)

/-! ## What `write` tests -/

/-- `Stream::write` refuses the entry of the stream `id`. -/
def StreamEntry.refuses (conn : Option Role) (id : Int) (e : StreamEntry) : Bool :=
  isRemoteUni conn id || e.closed || e.finSent || e.finPending

theorem StreamEntry.refuses_eq_false {conn : Option Role} {id : Int} {e : StreamEntry} :
    e.refuses conn id = false ↔ isRemoteUni conn id = false ∧ e.closed = false ∧ e.finSent = false ∧
      e.finPending = false := by
  unfold refuses
  simp only [Bool.or_eq_false_iff, and_assoc]

/-- `write` takes any data if the entry is there and not refused. -/
theorem Stream.write_taken {s : State} {id : Int} {e : StreamEntry}
    (hget : s.conn.getStreamEntry id = some e) (h : e.refuses s.conn.conn id = false) (data : Bytes) :
    Stream.write s id data =
      ((s.modifyEntry id (·.write data) fun _ => rfl).log (.wrote id data), .returned data.length) := by
  obtain ⟨hlocal, hclosed, hsent, hfin⟩ := StreamEntry.refuses_eq_false.mp h
  unfold Stream.write
  rw [hget]
  simp only
  rw [s.conn.isRemoteUnidirectional_eq, hlocal, if_neg Bool.false_ne_true, hclosed, hsent, hfin]
  rfl

theorem Stream.write_returns {s : State} {id : Int} {e : StreamEntry}
    (hget : s.conn.getStreamEntry id = some e) (h : e.refuses s.conn.conn id = false) (data : Bytes) :
    (Stream.write s id data).2 = .returned data.length := by
  rw [write_taken hget h]

/-- What `write` refuses, it refuses with an exception. -/
theorem Stream.write_refused {s : State} {id : Int} {e : StreamEntry}
    (hget : s.conn.getStreamEntry id = some e) (h : e.refuses s.conn.conn id = true) (data : Bytes) :
    ∃ x, Stream.write s id data = s.throw x := by
  unfold Stream.write
  rw [hget]
  simp only
  split
  · exact ⟨_, rfl⟩
  · rename_i hlocal
    split
    · exact ⟨_, rfl⟩
    · rename_i hopen
      unfold StreamEntry.refuses at h
      rw [← s.conn.isRemoteUnidirectional_eq, Bool.or_assoc, Bool.or_assoc, Bool.or_eq_true] at h
      exact absurd (h.resolve_left hlocal) (by simpa [Bool.or_assoc] using hopen)

/-! ## Who marks a stream as writable -/

/-- The act marks no stream as writable that `write` refuses: an id is handed out, or opened by the
peer, whose entry takes data; data of the peer's unidirectional streams comes behind `stream_open`;
and what is acknowledged has no FIN pending. -/
def Act.wakesRightly (conn : Option Role) (id : Int) (a : Act) (e : Option StreamEntry) : Bool :=
  match a with
  | .returned _ i _ => decide (i ≠ id) || !(e.getD (.alloc id)).refuses conn id
  | .callback (.streamOpen i) =>
    decide (i ≠ id) || isRemoteUni conn id || e.all fun e => e.closed || !e.refuses conn id
  | .callback (.recvStreamData _ i _ _) => decide (i ≠ id) || e.isSome || !isRemoteUni conn id
  | .callback (.ackedStreamDataOffset i _ _) =>
    decide (i ≠ id) || e.all fun e => e.closed || e.reset || e.finSent || !e.refuses conn id
  | _ => true

/-- `Act.wakesRightly` of every act, for the entry that it finds. -/
def Trace.WakesRightly (conn : Option Role) (id : Int) : Trace → Prop :=
  History.Each fun a t => a.wakesRightly conn id (Trace.entry conn id t) = true

instance (conn : Option Role) (id : Int) (t : Trace) : Decidable (t.WakesRightly conn id) :=
  inferInstanceAs (Decidable (History.Each _ t))

theorem Trace.WakesRightly.head {conn : Option Role} {id : Int} {a : Act} {t : Trace}
    (h : Trace.WakesRightly conn id (a :: t)) :
    a.wakesRightly conn id (Trace.entry conn id t) = true := h a t List.suffix_rfl

/-- The peer's unidirectional streams are neither local nor bidirectional. -/
theorem isRemoteUni_open {conn : Option Role} {id : Int} (h : isRemoteUni conn id = true) :
    (isLocalStream (conn.getD .client) id || isBidiStream id) = false := by
  cases conn with
  | none => cases h
  | some role =>
    simp only [isRemoteUni, Option.any_some, Bool.and_eq_true, Bool.not_eq_true'] at h
    rw [Option.getD_some, h.1, h.2]
    rfl

/-- The invariant: an open entry that is marked as writable takes data, and one of the peer's
unidirectional streams has nothing to send. -/
structure StreamEntry.Truthful (conn : Option Role) (id : Int) (e : StreamEntry) : Prop where
  writable : e.writable = true → e.closed = false → e.refuses conn id = false
  remote : isRemoteUni conn id = true → e.unsent = [] ∧ e.finPending = false

namespace StreamEntry.Truthful

variable {conn : Option Role} {id : Int} {e e' : StreamEntry}

/-- An offer is made of the streams that the local side may write to. -/
theorem local_of_due (h : e.Truthful conn id) {o : Offer} (hdata : o.data = e.unsent)
    (hfin : o.fin = e.finPending) (hdue : o.data ≠ [] ∨ o.fin = true) :
    isRemoteUni conn id = false := by
  rw [← Bool.not_eq_true]
  intro hremote
  obtain ⟨hnil, hpending⟩ := h.remote hremote
  rcases hdue with hne | hset
  · exact hne (hdata.trans hnil)
  · rw [hfin, hpending] at hset
    cases hset

/-- An entry of a stream that the local side may write to. -/
theorem of_local (hlocal : isRemoteUni conn id = false)
    (h : e.writable = true → e.closed = false → e.refuses conn id = false) : e.Truthful conn id :=
  ⟨h, fun hremote => by rw [hlocal] at hremote; cases hremote⟩

/-- An answer leaves the writer woken only if the stream takes data. -/
theorem woken (hlocal : isRemoteUni conn id = false) (h : e.becomesWritable = true) :
    { e with writable := true }.refuses conn id = false := by
  unfold becomesWritable at h
  simp only [Bool.and_eq_true, Bool.not_eq_true'] at h
  exact refuses_eq_false.mpr ⟨hlocal, h.1.1.1.2, h.1.1.1.1.2, h.1.1.1.1.1⟩

theorem updateTx (h : e.Truthful conn id) (hlocal : isRemoteUni conn id = false) (w : Int)
    (f p : Bool) : (e.updateTx w f p).Truthful conn id := by
  refine of_local hlocal ?_
  rw [updateTx_eq]
  generalize decide (e.txBuffer.length ≤ e.txOffset + w.toNat) = out
  simp only
  intro hw hclosed
  obtain ⟨hw, hfin⟩ := Bool.and_eq_true_iff.mp hw
  obtain ⟨-, -, hsent, hpending⟩ := refuses_eq_false.mp (h.writable hw hclosed)
  rw [Bool.not_eq_true'] at hfin
  refine refuses_eq_false.mpr ⟨hlocal, hclosed, ?_, ?_⟩
  · simp only [hsent, hfin, Bool.or_false]
  · simp only [hpending, Bool.false_and]

theorem answer (h : e.Truthful conn id) (hlocal : isRemoteUni conn id = false) (o : Offer)
    (a : WritevAnswer) : (e.answer o a).Truthful conn id := by
  unfold StreamEntry.answer
  cases a.effect with
  | update p =>
    have hup := h.updateTx hlocal a.wdatalen o.fin p
    simp only
    unfold StreamEntry.woken
    split
    · rename_i hw
      exact of_local hlocal fun _ _ => woken hlocal hw
    · exact hup
  | discard => exact of_local hlocal fun hw => absurd hw Bool.false_ne_true
  | ignore => exact h

theorem fresh (conn : Option Role) (id : Int) (hlocal : isRemoteUni conn id = false) :
    (alloc id).Truthful conn id :=
  of_local hlocal fun _ _ => refuses_eq_false.mpr ⟨hlocal, rfl, rfl, rfl⟩

end StreamEntry.Truthful

/-! ## The changes of an entry -/

section

variable {conn : Option Role} {id : Int} {e e' : Option StreamEntry} {t t' : Trace}
  {es : List Event}

open StreamEntry (Truthful)

/-- The entry that a callback finds or makes. -/
theorem StreamEntry.Truthful.found (he : ∀ y ∈ e, y.Truthful conn id)
    (hlocal : e = none → isRemoteUni conn id = false) : (e.getD (.alloc id)).Truthful conn id := by
  cases e with
  | none => exact .fresh conn id (hlocal rfl)
  | some x => exact he x rfl

theorem StreamEntry.Truthful.remote_found (he : ∀ y ∈ e, y.Truthful conn id)
    (hremote : isRemoteUni conn id = true) :
    (e.getD (.alloc id)).unsent = [] ∧ (e.getD (.alloc id)).finPending = false := by
  cases e with
  | none => exact ⟨rfl, rfl⟩
  | some x => exact (he x rfl).remote hremote

/-- A callback that marks nothing wrongly. -/
theorem StreamEntry.Truthful.callback {x : StreamEntry} {cb : Callback} (hid : cb.streamId? = some id)
    (hc : (Act.callback cb).wakesRightly conn id e = true)
    (hx : (if cb.enters then some (e.getD (.alloc id)) else e) = some x)
    (he : ∀ y ∈ e, y.Truthful conn id) : (x.react conn cb).Truthful conn id := by
  cases cb with
  | handshakeCompleted => cases hid
  | streamOpen i =>
    cases hid
    obtain rfl : e.getD (.alloc id) = x := Option.some.inj hx
    refine ⟨fun hw hclosed => ?_, remote_found he⟩
    have hlocal : isRemoteUni conn id = false := by
      rw [← Bool.not_eq_true]
      intro hremote
      rw [show (StreamEntry.react conn (.streamOpen id) (e.getD (.alloc id))).writable = _ from
        isRemoteUni_open hremote] at hw
      cases hw
    simp only [Act.wakesRightly, ne_eq, not_true_eq_false, decide_false, hlocal, Bool.or_self,
      Bool.false_or] at hc
    cases e with
    | none => exact refuses_eq_false.mpr ⟨hlocal, rfl, rfl, rfl⟩
    | some y =>
      rw [Option.all_some, Bool.or_eq_true, Bool.not_eq_true'] at hc
      rcases hc with hc | hc
      · exact absurd (hc.symm.trans hclosed) nofun
      · exact hc
  | recvStreamData fin i off data =>
    cases hid
    obtain rfl : e.getD (.alloc id) = x := Option.some.inj hx
    have hfound := found he fun hnone => by
      subst hnone
      simpa [Act.wakesRightly] using hc
    exact ⟨hfound.writable, hfound.remote⟩
  | streamClose set i code =>
    obtain rfl : e.getD (.alloc id) = x := Option.some.inj hx
    exact ⟨fun hw => absurd hw Bool.false_ne_true, remote_found he⟩
  | streamReset i size code =>
    obtain rfl : e.getD (.alloc id) = x := Option.some.inj hx
    exact ⟨fun hw => absurd hw Bool.false_ne_true, remote_found he⟩
  | ackedStreamDataOffset i off len =>
    cases hid
    obtain rfl : e = some x := hx
    unfold StreamEntry.react
    simp only
    split
    · exact he x rfl
    · rename_i hopen
      refine ⟨fun _ _ => ?_, (he x rfl).remote⟩
      simp only [Bool.or_eq_true, not_or, Bool.not_eq_true] at hopen
      simp only [Act.wakesRightly, ne_eq, not_true_eq_false, decide_false, Option.all_some,
        hopen.1.1, hopen.1.2, hopen.2, Bool.or_self, Bool.false_or, Bool.not_eq_true'] at hc
      exact hc

/-- Every change keeps the invariant, if no act marks a stream wrongly. -/
theorem EntryStep.truthful (hstep : EntryStep conn id e t e' t' es) (hr : Replayed conn id e t)
    (hc : t'.WakesRightly conn id) (h : ∀ x ∈ e, x.Truthful conn id) :
    ∀ x ∈ e', x.Truthful conn id := by
  cases hstep with
  | other as has => exact h
  | clamp =>
    rintro x ⟨⟩
    rename_i e
    rw [StreamEntry.clampTxOffset_self (hr.offset_le e rfl)]
    exact h e rfl
  | wrote data hclosed hsent hfin hlocal =>
    rintro x ⟨⟩
    exact .of_local hlocal fun hw => absurd hw Bool.false_ne_true
  | ended data hlocal =>
    rintro x ⟨⟩
    exact .of_local hlocal fun hw => absurd hw Bool.false_ne_true
  | reset code =>
    rintro x ⟨⟩
    rename_i e
    exact ⟨fun hw => absurd hw Bool.false_ne_true, fun hremote => ⟨((h e rfl).remote hremote).1, rfl⟩⟩
  | read chunk rest hrx hchunk =>
    rintro x ⟨⟩
    rename_i e
    exact ⟨(h e rfl).writable, (h e rfl).remote⟩
  | returned bidi pending rv =>
    rintro x ⟨⟩
    have hret : (Act.returned bidi id pending).wakesRightly conn id (Trace.entry conn id t) = true :=
      hc.head
    rw [← hr.entry] at hret
    simp only [Act.wakesRightly, ne_eq, not_true_eq_false, decide_false, Bool.false_or,
      Bool.not_eq_true'] at hret
    exact .of_local (StreamEntry.refuses_eq_false.mp hret).1 fun _ _ => hret
  | openMatched =>
    rintro x ⟨⟩
    rename_i e
    exact ⟨(h e rfl).writable, (h e rfl).remote⟩
  | answered o a hid hdata hfin hdue =>
    rintro x ⟨⟩
    rename_i e
    exact (h e rfl).answer ((h e rfl).local_of_due hdata hfin hdue) o a
  | callback cb hid =>
    intro x hx
    obtain ⟨y, hy, rfl⟩ := Option.map_eq_some_iff.mp hx
    have hcb := hc.head
    rw [← hr.entry] at hcb
    exact .callback hid hcb hy h

/-- An acknowledgement that wakes a writer. -/
theorem StreamEntry.Truthful.acked {i : Int} {off len : Nat}
    (hid : (Callback.ackedStreamDataOffset i off len).streamId? = some id)
    (hc : (Act.callback (.ackedStreamDataOffset i off len)).wakesRightly conn id e = true)
    (hmem : EventType.streamWritable ∈
      if (Callback.ackedStreamDataOffset i off len).enters || e.isSome then
        ((e.getD (.alloc id)).tells (.ackedStreamDataOffset i off len)).map Event.type else []) :
    ∃ x, e = some x ∧ (x.react conn (.ackedStreamDataOffset i off len)).refuses conn id = false := by
  cases hid
  cases e with
  | none => simp [Callback.enters] at hmem
  | some x =>
    refine ⟨x, rfl, ?_⟩
    simp only [Callback.enters, Option.isSome_some, Bool.or_true, if_true, Option.getD_some] at hmem
    unfold StreamEntry.tells at hmem
    simp only at hmem
    split at hmem
    · simp at hmem
    · rename_i hopen
      simp only [Bool.or_eq_true, not_or, Bool.not_eq_true] at hopen
      simp only [Act.wakesRightly, ne_eq, not_true_eq_false, decide_false, Option.all_some,
        hopen.1.1.1, hopen.1.1.2, hopen.1.2, Bool.or_self, Bool.false_or, Bool.not_eq_true'] at hc
      unfold StreamEntry.react
      simp only
      split
      · exact hc
      · exact hc

/-- A stream that is told of as writable takes data. -/
theorem EntryStep.wakes (hstep : EntryStep conn id e t e' t' es) (hr : Replayed conn id e t)
    (hc : t'.WakesRightly conn id) (h : ∀ x ∈ e, x.Truthful conn id)
    (hmem : .streamWritable ∈ es.map Event.type) : ∃ x, e' = some x ∧ x.refuses conn id = false := by
  cases hstep with
  | reset => simp at hmem
  | returned bidi pending rv =>
    have hret : (Act.returned bidi id pending).wakesRightly conn id (Trace.entry conn id t) = true :=
      hc.head
    rw [← hr.entry] at hret
    simp only [Act.wakesRightly, ne_eq, not_true_eq_false, decide_false, Bool.false_or,
      Bool.not_eq_true'] at hret
    exact ⟨_, rfl, hret⟩
  | answered o a hid hdata hfin hdue =>
    rename_i e
    have hlocal := (h e rfl).local_of_due hdata hfin hdue
    refine ⟨_, rfl, ?_⟩
    unfold StreamEntry.answerTells at hmem
    unfold StreamEntry.answer
    cases heff : a.effect with
    | update p =>
      rw [heff] at hmem
      simp only [StreamEntry.wakes] at hmem ⊢
      split at hmem
      · rename_i hw
        unfold StreamEntry.woken
        rw [if_pos hw]
        exact Truthful.woken hlocal hw
      · simp at hmem
    | discard => rw [heff] at hmem; simp at hmem
    | ignore => rw [heff] at hmem; simp at hmem
  | callback cb hid =>
    have hcb := hc.head
    rw [← hr.entry] at hcb
    rw [apply_ite (List.map Event.type)] at hmem
    cases cb with
    | handshakeCompleted => cases hid
    | ackedStreamDataOffset i off len =>
      obtain ⟨x, rfl, hx⟩ := Truthful.acked hid hcb hmem
      exact ⟨_, rfl, hx⟩
    | recvStreamData fin i off data =>
      simp only [Callback.enters, Bool.true_or, if_true, StreamEntry.tells] at hmem
      split at hmem <;> simp at hmem
    | streamOpen | streamClose | streamReset =>
      simp [Callback.enters, StreamEntry.tells] at hmem
  | _ => cases hmem

end

/-! ## Every run -/

theorem Start.Passes.truthful {start : Start} {ops : List Op} {id : Int} {s : State}
    (h : start.Passes ops s) (hc : (start.run ops).trace.WakesRightly start.conn id) :
    ∀ x ∈ s.conn.getStreamEntry id, x.Truthful start.conn id := by
  refine (h.inv (I := fun e t => Replayed start.conn id e t ∧ ∀ x ∈ e, x.Truthful start.conn id)
    ?_ ?_ hc).2
  · rintro e t e' t' es hstep hc ⟨hr, he⟩
    exact ⟨hstep.replayed hr, hstep.truthful hr hc he⟩
  · exact ⟨.nil _ _, fun _ h => by cases h⟩

/-- Where no act marks a stream as writable that `write` refuses, `isWritable()` and every
`StreamWritable` event tell the truth, in every state that the run passes through. -/
theorem writable_truthful (start : Start) (ops : List Op) (id : Int)
    (h : (start.run ops).trace.WakesRightly start.conn id) :
    (∀ s, start.Passes ops s → Stream.isWritable s id = true →
      ∀ data, (Stream.write s id data).2 = .returned data.length) ∧
    ∀ s s', start.Passes ops s → Move s s' → Moves Move s' (start.run ops) →
      ∀ es, s'.told id = s.told id ++ es → .streamWritable ∈ es →
      ∀ data, (Stream.write s' id data).2 = .returned data.length := by
  refine ⟨fun s hs hw data => ?_, fun s s' hs hm hafter es htold hmem data => ?_⟩
  · have htruth := hs.truthful h
    unfold Stream.isWritable at hw
    cases hget : s.conn.getStreamEntry id with
    | none => rw [hget] at hw; cases hw
    | some e =>
      rw [hget, Option.any_some, Bool.and_eq_true, Bool.not_eq_true'] at hw
      refine Stream.write_returns hget ?_ data
      rw [hs.conn_eq]
      exact (htruth e hget).writable hw.1 hw.2
  · obtain ⟨es', hstep, habout⟩ := hm.entryMove id
    obtain rfl : es'.map Event.type = es :=
      List.append_cancel_left ((State.told_of_about habout).symm.trans htold)
    rw [hs.conn_eq] at hstep
    have hc := h.of_suffix (State.moves_suffix hafter)
    obtain ⟨x, hget, hx⟩ := EntryStep.wakes hstep (hs.replayed id) hc (hs.truthful h) hmem
    refine Stream.write_returns hget ?_ data
    rw [hm.conn_eq, hs.conn_eq]
    exact hx

/-- A client's stream sends a byte, which is acknowledged. -/
def ackedInTime : List Op :=
  [.openStream (.ok 0), .write 0 [1],
    .drainOutgoingDatagrams { loop := [
      { writev := { result := .ok [7], wdatalen := 1 } }, { writev := { result := .ok [] } }] },
    .recv (fun _ _ => some [{ family := .inet }])
      { payload := [1], peerAddress := some { host := [49], port := 4433 }, localAddress := none }
      { callbacks := [.ackedStreamDataOffset 0 0 1] }]

theorem writable_truthful_ackedInTime :
    let s := (Start.client {} none none).run ackedInTime
    s.trace.WakesRightly (some .client) 0 ∧ Stream.isWritable s 0 = true ∧
      (Stream.write s 0 [3]).2 = .returned 1 := by
  have h : ((Start.client {} none none).run ackedInTime).trace.WakesRightly
      (Start.client {} none none).conn 0 := by decide
  have hw : Stream.isWritable ((Start.client {} none none).run ackedInTime) 0 = true := by
    decide
  exact ⟨h, hw, (writable_truthful _ _ 0 h).1 _ (Start.Passes.last _ _) hw [3]⟩

/-- The first byte is acknowledged behind `end`, before the drain that would send the FIN. -/
theorem acked_behind_end :
    ¬ ∀ (start : Start) (ops : List Op) (id : Int), Stream.isWritable (start.run ops) id = true →
      ∀ data, (Stream.write (start.run ops) id data).2 = .returned data.length := by
  intro h
  have hbad := h (.client {} none none)
    [.openStream (.ok 0), .write 0 [1],
      .drainOutgoingDatagrams { loop := [
        { writev := { result := .ok [7], wdatalen := 1 } }, { writev := { result := .ok [] } }] },
      .end_ 0 (some [2]),
      .recv (fun _ _ => some [{ family := .inet }])
        { payload := [1], peerAddress := some { host := [49], port := 4433 }, localAddress := none }
        { callbacks := [.ackedStreamDataOffset 0 0 1] }] 0 (by decide) [3]
  revert hbad
  decide

/-! ## A stream that is not writable -/

namespace StreamEntry

/-- A stream of the local side that can still be written to and is not marked as writable has unsent
bytes. -/
def WokenLater (e : StreamEntry) : Prop :=
  e.closed = false → e.reset = false → e.finSent = false → e.finPending = false →
    e.writable = false → e.txOffset < e.txBuffer.length

theorem wokenLater_of_writable {e : StreamEntry} (h : e.writable = true) : e.WokenLater :=
  fun _ _ _ _ hw => by rw [h] at hw; cases hw

/-- What an answer leaves unwoken has unsent bytes. -/
theorem WokenLater.answer {e : StreamEntry} (h : e.WokenLater) (o : Offer) (a : WritevAnswer) :
    (e.answer o a).WokenLater := by
  unfold StreamEntry.answer
  cases a.effect with
  | update p =>
    simp only
    unfold woken
    split
    · exact wokenLater_of_writable rfl
    · rename_i hnot
      intro hclosed _ hsent hpending hw
      rw [Bool.not_eq_true] at hnot
      unfold becomesWritable at hnot
      simp only [hclosed, hsent, hpending, hw, Bool.not_false, Bool.true_and, Bool.and_eq_false_iff,
        decide_eq_false_iff_not] at hnot
      rw [updateTx_eq] at hnot ⊢
      simp only at hnot ⊢
      split at hnot
      · simp at hnot
      · rename_i hout
        rw [if_neg hout, if_neg hout]
        rw [decide_eq_true_eq] at hout
        omega
  | discard => intro _ _ hsent; cases hsent
  | ignore => exact h

end StreamEntry

/-- No call of `write` without data finds an entry without unsent bytes. -/
def Act.leavesUnsent (id : Int) (a : Act) (e : Option StreamEntry) : Bool :=
  match a with
  | .wrote i data => decide (i ≠ id) || decide (data ≠ []) || e.all fun e => decide (e.unsent ≠ [])
  | _ => true

/-- `Act.leavesUnsent` of every act, for the entry that it finds. -/
def Trace.LeavesUnsent (conn : Option Role) (id : Int) : Trace → Prop :=
  History.Each fun a t => a.leavesUnsent id (Trace.entry conn id t) = true

instance (conn : Option Role) (id : Int) (t : Trace) : Decidable (t.LeavesUnsent conn id) :=
  inferInstanceAs (Decidable (History.Each _ t))

/-- A stream that the local side may write to is writable when its peer has opened it. -/
theorem StreamEntry.react_open_writable {role : Role} {id : Int}
    (hlocal : isRemoteUni (some role) id = false) (e : StreamEntry) :
    (e.react (some role) (.streamOpen id)).writable = true := by
  simp only [isRemoteUni, Option.any_some, Bool.and_eq_false_iff, Bool.not_eq_false'] at hlocal
  show (isLocalStream role id || isBidiStream id) = true
  rcases hlocal with hbidi | hown
  · rw [hbidi, Bool.or_true]
  · rw [hown, Bool.true_or]

/-- No callback makes a stream wait without unsent bytes. -/
theorem StreamEntry.WokenLater.react {role : Role} {id : Int} {x : StreamEntry} (h : x.WokenLater)
    (hlocal : isRemoteUni (some role) id = false) {cb : Callback} (hid : cb.streamId? = some id) :
    (x.react (some role) cb).WokenLater := by
  cases cb with
  | handshakeCompleted => cases hid
  | streamOpen i =>
    cases hid
    exact wokenLater_of_writable (react_open_writable hlocal x)
  | recvStreamData fin i off data => exact h
  | streamClose set i code => exact fun hclosed => absurd hclosed.symm Bool.false_ne_true
  | streamReset i size code => exact fun hclosed => absurd hclosed.symm Bool.false_ne_true
  | ackedStreamDataOffset i off len =>
    unfold StreamEntry.react
    simp only
    split
    · exact h
    · exact wokenLater_of_writable rfl

/-- A write leaves unsent bytes if it brings some or finds some. -/
theorem StreamEntry.wokenLater_write {e : StreamEntry} (hle : e.txOffset ≤ e.txBuffer.length)
    {data : Bytes} (h : data ≠ [] ∨ e.unsent ≠ []) : (e.write data).WokenLater := by
  intro _ _ _ _ _
  simp only [StreamEntry.write, bufferAppend_eq, List.length_append]
  rcases h with hdata | hunsent
  · have := List.length_pos_iff.mpr hdata
    omega
  · unfold unsent at hunsent
    rw [ne_eq, List.drop_eq_nil_iff] at hunsent
    omega

theorem EntryStep.wokenLater {role : Role} {id : Int} {e e' : Option StreamEntry} {t t' : Trace}
    {es : List Event} (hstep : EntryStep (some role) id e t e' t' es)
    (hlocal : isRemoteUni (some role) id = false) (hr : Replayed (some role) id e t)
    (hc : t'.LeavesUnsent (some role) id) (h : ∀ x ∈ e, x.WokenLater) : ∀ x ∈ e', x.WokenLater := by
  cases hstep with
  | other as has => exact h
  | clamp =>
    rintro x ⟨⟩
    rename_i e
    rw [StreamEntry.clampTxOffset_self (hr.offset_le e rfl)]
    exact h e rfl
  | wrote data hclosed hsent hfin hlocal =>
    rintro x ⟨⟩
    rename_i e
    have hwrote : (Act.wrote id data).leavesUnsent id (Trace.entry (some role) id t) = true :=
      hc _ t List.suffix_rfl
    rw [← hr.entry] at hwrote
    refine StreamEntry.wokenLater_write (hr.offset_le e rfl) ?_
    simpa [Act.leavesUnsent] using hwrote
  | ended data hlocal =>
    rintro x ⟨⟩
    exact fun _ _ _ hpending => absurd hpending.symm Bool.false_ne_true
  | reset =>
    rintro x ⟨⟩
    exact fun hclosed => absurd hclosed.symm Bool.false_ne_true
  | read chunk rest hrx hchunk =>
    rintro x ⟨⟩
    rename_i e
    exact h e rfl
  | returned bidi pending rv =>
    rintro x ⟨⟩
    exact StreamEntry.wokenLater_of_writable rfl
  | openMatched =>
    rintro x ⟨⟩
    rename_i e
    exact h e rfl
  | answered o a hid hdata hfin hdue =>
    rintro x ⟨⟩
    rename_i e
    exact (h e rfl).answer o a
  | callback cb hid =>
    intro x hx
    obtain ⟨y, hy, rfl⟩ := Option.map_eq_some_iff.mp hx
    refine StreamEntry.WokenLater.react ?_ hlocal hid
    split at hy
    · cases hy
      cases e with
      | none => exact StreamEntry.wokenLater_of_writable rfl
      | some e => exact h e rfl
    · exact h y hy

/-! ### The drain that wakes the writer -/

/-- The answer that takes all unsent bytes of such a stream marks it as writable, and says so. -/
theorem StreamEntry.answer_wakes {e : StreamEntry} (hclosed : e.closed = false)
    (hsent : e.finSent = false) (hpending : e.finPending = false) (hw : e.writable = false)
    (o : Offer) {a : WritevAnswer} {p : Bool} (heff : a.effect = .update p)
    (hall : e.unsent.length ≤ a.wdatalen.toNat) :
    (e.answer o a).writable = true ∧
      (e.answerTells o a).map Event.type = [.streamWritable] := by
  have hout : e.txBuffer.length ≤ e.txOffset + a.wdatalen.toNat := by
    unfold unsent at hall
    rw [List.length_drop] at hall
    omega
  have hwakes : (e.updateTx a.wdatalen o.fin p).becomesWritable = true := by
    rw [updateTx_eq]
    simp [becomesWritable, hclosed, hsent, hpending, hw, hout]
  unfold StreamEntry.answer answerTells
  rw [heff]
  simp only
  unfold woken wakes
  rw [if_pos hwakes, if_pos hwakes]
  exact ⟨rfl, rfl⟩

/-- The call does not write nothing to a stream that takes data and has none unsent. -/
def Op.leavesUnsent (s : State) : Op → Bool
  | .write id data => decide (data ≠ []) || (s.conn.getStreamEntry id).all fun e =>
      e.refuses s.conn.conn id || decide (e.unsent ≠ [])
  | _ => true

/-- What the calls leave, their acts do. -/
theorem Start.run_leavesUnsent {start : Start} {ops : List Op}
    (h : Runs.Along step (fun s o => o.leavesUnsent s = true) start.state ops) (id : Int) :
    (start.run ops).trace.LeavesUnsent start.conn id := by
  refine Start.each_of_along h (fun a t ha => ?_) (fun _ _ _ => rfl) fun pre o a hfound ho hstep => ?_
  · cases a with
    | wrote => cases ha
    | _ => rfl
  · have hentry := ((Start.Passes.last start pre).replayed id).entry
    cases a with
    | wrote i data =>
      by_cases hid : i = id
      · subst hid
        unfold Act.leavesUnsent
        rw [← hentry]
        cases o with
        | write j data' =>
          obtain ⟨rfl, rfl⟩ : j = i ∧ data' = data := by simpa [Op.returns] using ho
          cases hget : (start.run pre).conn.getStreamEntry j with
          | none => simp
          | some e =>
            simp only [Op.leavesUnsent, hget, Option.all_some, Bool.or_eq_true] at hfound
            rcases hfound with hdata | hrefuses | hunsent
            · simp [of_decide_eq_true hdata]
            · -- then the call has thrown
              obtain ⟨x, hx⟩ := Stream.write_refused hget hrefuses data'
              have hthrew : (step (start.run pre) (.write j data')).trace =
                  .threw x :: (start.run pre).trace := congrArg (fun r => r.1.trace) hx
              cases (List.cons.inj (hthrew.symm.trans hstep)).1
            · simp [of_decide_eq_true hunsent]
        | _ => cases ho
      · simp [Act.leavesUnsent, hid]
    | _ => rfl

/-! ### Every run -/

theorem Start.Passes.wokenLater {start : Start} {ops : List Op} {id : Int} {s : State} {role : Role}
    (h : start.Passes ops s) (hrole : start.conn = some role)
    (hlocal : isRemoteUni (some role) id = false)
    (hc : (start.run ops).trace.LeavesUnsent start.conn id) :
    ∀ x ∈ s.conn.getStreamEntry id, x.WokenLater := by
  refine (h.inv (I := fun e t => Replayed start.conn id e t ∧ ∀ x ∈ e, x.WokenLater) ?_
    ⟨.nil _ _, fun _ h => by cases h⟩ hc).2
  rintro e t e' t' es hstep hc ⟨hr, he⟩
  rw [hrole] at hstep hc hr ⊢
  exact ⟨hstep.replayed hr, hstep.wokenLater hlocal hr hc he⟩

/-- A `write` of nothing that is taken leaves the stream without a wake-up, unless it has unsent
bytes. -/
theorem Stream.leavesUnsent_of_wokenLater {s : State} {id : Int} {data : Bytes}
    (hreset : ∀ e ∈ s.conn.getStreamEntry id, e.reset = true → e.closed = true)
    (h : ∀ e, (Stream.write s id data).1.conn.getStreamEntry id = some e →
      (Stream.write s id data).1.conn.isRemoteUnidirectional id = false → e.WokenLater) :
    (Op.write id data).leavesUnsent s = true := by
  unfold Op.leavesUnsent
  simp only
  cases hget : s.conn.getStreamEntry id with
  | none => simp
  | some e =>
    rw [Option.all_some]
    by_cases hdata : data = []
    · subst hdata
      cases hrefuses : e.refuses s.conn.conn id with
      | true => simp
      | false =>
        obtain ⟨hlocal, hclosed, hsent, hpending⟩ := StreamEntry.refuses_eq_false.mp hrefuses
        have hopen : e.reset = false := by
          rw [← Bool.not_eq_true]
          intro hset
          rw [hreset e hget hset] at hclosed
          cases hclosed
        rw [Stream.write_taken hget hrefuses] at h
        have hwritten : (s.conn.modifyEntry id (·.write []) fun _ => rfl).getStreamEntry id =
            some (e.write []) := by
          refine (Connection.get_modifyEntry _ _).trans ?_
          rw [if_pos rfl, hget]
          rfl
        have hlt := h _ hwritten ((s.conn.isRemoteUnidirectional_eq id).trans hlocal)
          hclosed hopen hsent hpending rfl
        simp only [StreamEntry.write, bufferAppend_eq, List.append_nil] at hlt
        have hunsent : e.unsent ≠ [] := by
          unfold StreamEntry.unsent
          rw [ne_eq, List.drop_eq_nil_iff]
          omega
        simp [hunsent]
    · simp [hdata]

/-- A stream that can be written to and is not marked as writable has unsent bytes, in every state of
a run, if and only if every `write` of nothing that is taken finds some; and the answer that takes
them marks the stream and says so. -/
theorem writable_or_unsent_iff (start : Start) (ops : List Op) :
    ((∀ pre, pre <+: ops → ∀ id e, (start.run pre).conn.getStreamEntry id = some e →
        (start.run pre).conn.isRemoteUnidirectional id = false → e.WokenLater) ↔
      Runs.Along step (fun s o => o.leavesUnsent s = true) start.state ops) ∧
    ∀ e : StreamEntry, e.closed = false → e.finSent = false → e.finPending = false →
      e.writable = false → ∀ o a p, a.effect = .update p →
        e.unsent.length ≤ a.wdatalen.toNat →
        (e.answer o a).writable = true ∧ (e.answerTells o a).map Event.type = [.streamWritable] := by
  refine ⟨⟨fun h => ?_, fun hc pre hpre id e hget hlocal => ?_⟩, fun e hclosed hsent hpending hw o a p
    heff hall => StreamEntry.answer_wakes hclosed hsent hpending hw o heff hall⟩
  · refine Runs.along_iff.mpr fun pre o hpre => ?_
    cases o with
    | write id data =>
      refine Stream.leavesUnsent_of_wokenLater
        ((Start.Passes.last start pre).replayed id).reset_closed fun e hget hlocal => ?_
      have hrun : start.run (pre ++ [.write id data]) = (Stream.write (start.run pre) id data).1 :=
        start.run_append pre [.write id data]
      exact h _ hpre id e (by rw [hrun]; exact hget) (by rw [hrun]; exact hlocal)
    | _ => rfl
  · have hpass : start.Passes ops (start.run pre) := Start.Passes.of_prefix hpre
    cases hrole : start.conn with
    | none =>
      rw [Start.run_uninitialised hrole pre id] at hget
      cases hget
    | some role =>
      rw [Connection.isRemoteUnidirectional_eq, hpass.conn_eq, hrole] at hlocal
      exact hpass.wokenLater hrole hlocal (Start.run_leavesUnsent hc id) e hget

/-- A client writes nothing to a stream that has nothing to send. -/
theorem write_nothing :
    ¬ ∀ (start : Start) (ops : List Op) (id : Int) (e : StreamEntry),
      (start.run ops).conn.getStreamEntry id = some e →
      (start.run ops).conn.isRemoteUnidirectional id = false → e.WokenLater := by
  intro h
  have hbad := h (.client {} none none) [.openStream (.ok 0), .write 0 []] 0
    { StreamEntry.alloc 0 with writable := false } (by decide) (by decide) rfl rfl rfl rfl rfl
  revert hbad
  decide

end PhpQuic
