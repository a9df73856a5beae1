import PhpQuic.Peers.Transport

/-!
# From one application to the other

What an application writes to a stream at one end of a connection, and what the application at the
other end reads of it, when ngtcp2 keeps what it documents of the stream (`Peers.Reliable`). The two
halves of the extension meet here: the outgoing buffer of one end and the receive buffer of the other.

* `end_to_end_conserved`: what was written is what was read, what waits to be read, what is with
  ngtcp2 and what waits to be sent, in this order. So nothing is lost, doubled or out of order.
* `end_to_end_complete`: an end that has the FIN of a stream has all that was written before the FIN
  was taken.
-/

namespace PhpQuic

open Runs (Moves)
open StreamEntry (TxSame)

variable {id : Int}

/-! ## The FIN at both ends -/

theorem StreamEntry.settle_finPending {o : Offer} {a : WritevAnswer} {e : StreamEntry}
    (h : (e.settle o a).finPending = true) : e.finPending = true := by
  unfold StreamEntry.settle at h
  split at h
  · rw [StreamEntry.updateTx_eq] at h
    exact (Bool.and_eq_true_iff.mp h).1
  · cases h
  · exact h

/-- A FIN is pending only if `end()` was called. -/
def FinAsked (id : Int) (e : StreamEntry) (t : Trace) : Prop :=
  e.finPending = true → ∃ data, .ended id data ∈ t

theorem TxStep.finAsked {e e' : StreamEntry} {t t' : Trace} (hstep : TxStep id e t e' t')
    (h : FinAsked id e t) : FinAsked id e' t' := by
  have hlater (as : List Act) (hf : e.finPending = true) : ∃ data, .ended id data ∈ as ++ t := by
    obtain ⟨data, hmem⟩ := h hf
    exact ⟨data, List.mem_append_right as hmem⟩
  intro hf
  cases hstep with
  | other as has hs => exact hlater as (hs.finPending ▸ hf)
  | clamp =>
    rw [StreamEntry.clampTxOffset_eq] at hf
    exact h hf
  | wrote data hsent hfin => exact hlater [_] hf
  | ended data => exact ⟨data, List.mem_cons_self⟩
  | reset => cases hf
  | answered o a hid hle hdata hfin hs =>
    exact hlater [_] (StreamEntry.settle_finPending (hs.finPending ▸ hf))

/-- An offer asks for a FIN only behind `end()`. -/
theorem Start.run_finAsked (start : Start) (ops : List Op) (id : Int) :
    History.Each (fun a t => ∀ p ∈ a.answered id, p.1.fin = true → ∃ data, .ended id data ∈ t)
      (start.run ops).trace := by
  refine (Moves.inv' (I := fun s => FinAsked id (s.conn.entry id) s.trace ∧
    History.Each (fun a t => ∀ p ∈ a.answered id, p.1.fin = true → ∃ data, .ended id data ∈ t)
      s.trace) ?_ (start.run_moves ops) ?_).2
  · rintro s s' hm ⟨h, heach⟩
    have hstep := hm.txStep id
    refine ⟨hstep.finAsked h, ?_⟩
    generalize s'.conn.entry id = e' at hstep
    generalize s'.trace = t' at hstep ⊢
    have hcons {a : Act} (ha : a.answered id = none) : History.Each (fun a t =>
        ∀ p ∈ a.answered id, p.1.fin = true → ∃ data, .ended id data ∈ t) (a :: s.trace) := by
      refine History.each_cons.mpr ⟨fun p hp => ?_, heach⟩
      rw [ha] at hp
      cases hp
    cases hstep with
    | other as has hs =>
      rw [Trace.other_append (f := History.Each _) ?_ has]
      · exact heach
      · intro a t ha
        refine propext (History.each_cons.trans (and_iff_right ?_))
        rw [Trace.answered_eq_none ha]
        intro p hp; cases hp
    | clamp => exact heach
    | wrote data hsent hfin => exact hcons rfl
    | ended data => exact hcons rfl
    | reset => exact hcons rfl
    | answered o a hid hle hdata hfin hs =>
      refine History.each_cons.mpr ⟨?_, heach⟩
      intro p hp hpfin
      simp only [Act.answered, hid, ↓reduceIte, Option.mem_def, Option.some.injEq] at hp
      rw [← hp, hfin] at hpfin
      exact h hpfin
  · rw [start.base_trace]
    refine ⟨fun hf => ?_, History.each_nil⟩
    rw [start.base_entry] at hf
    cases hf

theorem Trace.finDelivered_append (as t : Trace) (h : t.finDelivered id = true) :
    Trace.finDelivered id (as ++ t) = true := by
  induction as with
  | nil => exact h
  | cons a as ih =>
    rw [List.cons_append]
    cases a with
    | callback cb =>
      cases cb with
      | recvStreamData fin i off data => exact Bool.or_eq_true_iff.mpr (.inr ih)
      | _ => exact ih
    | _ => exact ih

/-- The flag `fin_recv` of an entry is set only if ngtcp2 has delivered the FIN. -/
theorem EntryStep.finRecv {conn : Option Role} {e e' : Option StreamEntry} {t t' : Trace}
    {es : List Event} (hstep : EntryStep conn id e t e' t' es)
    (h : ∀ x ∈ e, x.finRecv = true → t.finDelivered id = true) :
    ∀ x ∈ e', x.finRecv = true → t'.finDelivered id = true := by
  have hfresh : ∀ x ∈ some (e.getD (.alloc id)), x.finRecv = true → t.finDelivered id = true := by
    rintro x ⟨⟩
    exact StreamEntry.found (P := fun x => x.finRecv = true → t.finDelivered id = true) h
      fun hf => absurd hf Bool.false_ne_true
  cases hstep with
  | other as has => exact fun x hx hf => Trace.finDelivered_append as t (h x hx hf)
  | clamp =>
    rintro x ⟨⟩ hf
    rw [StreamEntry.clampTxOffset_eq] at hf
    exact h _ rfl hf
  | wrote | ended | reset | read | openMatched => rintro x ⟨⟩ hf; exact h _ rfl hf
  | returned bidi pending rv => rintro x ⟨⟩ hf; exact hfresh _ rfl hf
  | answered o a hid hdata hfin hdue =>
    rintro x ⟨⟩ hf
    obtain ⟨_, _, _, _, _, hrest⟩ := StreamEntry.answer_rest o a _
    rw [hrest] at hf
    exact h _ rfl hf
  | callback cb hid =>
    intro x hx hf
    obtain ⟨y, hy, rfl⟩ := Option.map_eq_some_iff.mp hx
    have hbefore (hf : y.finRecv = true) : t.finDelivered id = true := by
      split at hy
      · exact hfresh y hy hf
      · exact h y hy hf
    cases cb with
    | recvStreamData fin i off data =>
      obtain rfl : i = id := Option.some.inj hid
      rcases Bool.or_eq_true_iff.mp hf with hf | hf
      · exact Bool.or_eq_true_iff.mpr (.inr (hbefore hf))
      · simp [Trace.finDelivered, hf]
    | ackedStreamDataOffset i off len =>
      rw [StreamEntry.react_acked] at hf
      exact hbefore hf
    | _ => exact hbefore hf

theorem Start.run_finRecv {start : Start} {ops : List Op}
    (hf : ((start.run ops).conn.entry id).finRecv = true) :
    (start.run ops).trace.finDelivered id = true := by
  have hinv : ∀ x ∈ (start.run ops).conn.getStreamEntry id, x.finRecv = true →
      (start.run ops).trace.finDelivered id = true := by
    refine (Start.Passes.last start ops).inv (P := fun _ _ => True)
      (I := fun e t => ∀ x ∈ e, x.finRecv = true → t.finDelivered id = true) ?_ ?_ ?_
    · exact fun _ _ _ _ _ hstep _ h => hstep.finRecv h
    · intro x hx; cases hx
    · exact fun _ _ _ => trivial
  rw [Connection.entry_eq] at hf
  cases hget : (start.run ops).conn.getStreamEntry id with
  | none => rw [hget] at hf; cases hf
  | some e =>
    rw [hget] at hf
    exact hinv e hget hf

/-! ## Both ends -/

namespace Peers

variable {p : Peers}

theorem Reliable.balanced (h : p.Reliable id) (r : Role) {t : Trace}
    (hs : t <:+ (p.state r).trace) : t.Balanced id :=
  Trace.balanced ((Start.run_offersWhole (p.start r) (p.ops r) id).of_suffix hs)
    (Trace.TakesNothingBehindEnd.shut ((h.ends r).of_suffix hs))

/-- What was written before the FIN was taken is what was taken, then and ever after. -/
theorem Reliable.taken_of_finTaken (h : p.Reliable id) {r : Role} {o : Offer} {a : WritevAnswer}
    {t : Trace} (hs : .writev (some o) a :: t <:+ (p.state r).trace) (hid : o.streamId = id)
    (ha : a.takesFin o = true) : Trace.taken id (.writev (some o) a :: t) = t.accepted id := by
  have hmem : (o, a) ∈ (Act.writev (some o) a).answered id := by simp [Act.answered, hid]
  have hnone := h.ends r _ t hs (o, a) hmem
  have hcut : t.shutWr id = false := by
    by_contra hshut
    rw [Bool.not_eq_false] at hshut
    have hno := (hnone (by rw [hshut, Bool.true_or])).2
    rw [show (o, a).2.takesFin (o, a).1 = a.takesFin o from rfl, ha] at hno
    cases hno
  have hdata : o.data = t.unsent id := Start.run_offersWhole (p.start r) (p.ops r) id _ t hs (o, a) hmem
  have hbal := h.balanced r ((List.suffix_cons _ t).trans hs)
  show (if o.streamId = id then t.taken id ++ a.taken o else t.taken id) = t.accepted id
  rw [if_pos hid, WritevAnswer.taken_of_takesFin ha, hdata]
  exact hbal.taken_unsent hcut

/-- Behind the FIN nothing more is taken. -/
theorem taken_behind_fin {new t : Trace} (hend : Trace.TakesNothingBehindEnd id (new ++ t))
    (hfin : t.finTaken id = true) :
    Trace.finTaken id (new ++ t) = true ∧ Trace.taken id (new ++ t) = t.taken id := by
  induction new with
  | nil => exact ⟨hfin, rfl⟩
  | cons a new ih =>
    rw [List.cons_append] at hend ⊢
    obtain ⟨ha, hrest⟩ := History.each_cons.mp hend
    obtain ⟨htaken, heq⟩ := ih hrest
    by_cases hout : a.outgoing id = false
    · rw [Trace.finTaken_cons hout, Trace.taken_cons hout]
      exact ⟨htaken, heq⟩
    · cases a with
      | writev offer w =>
        cases offer with
        | none => exact absurd rfl hout
        | some o =>
          have hid : o.streamId = id := by simpa [Act.outgoing] using hout
          obtain ⟨hnone, -⟩ := ha (o, w) (by simp [Act.answered, hid]) (by rw [htaken, Bool.or_true])
          refine ⟨by simp [Trace.finTaken, htaken], ?_⟩
          show (if o.streamId = id then Trace.taken id (new ++ t) ++ w.taken o else _) = _
          rw [if_pos hid, hnone, List.append_nil, heq]
      | wrote | ended | wasReset => exact ⟨htaken, heq⟩
      | _ => exact absurd rfl hout

end Peers

/-- Conservation: what the application at one end has written to a stream is, in this order, what the
application at the other end has read of it, what waits there to be read, what is with ngtcp2, and
what waits to be sent; the last part unless `STREAM_SHUT_WR` has dropped it. -/
theorem end_to_end_conserved (p : Peers) (id : Int) (h : p.Reliable id) (r : Role) :
    let near := p.state r
    let far := p.state r.other
    near.trace.chunks id ++ (near.conn.entry id).rxBuffer <+: far.trace.accepted id ∧
      (far.trace.shutWr id = false → ∃ inFlight,
        far.trace.accepted id = near.trace.chunks id ++ (near.conn.entry id).rxBuffer ++ inFlight ++
          (far.conn.entry id).unsent) := by
  intro near far
  have hread : near.trace.chunks id ++ (near.conn.entry id).rxBuffer = near.trace.delivered id :=
    Start.run_integrity (p.start r) (p.ops r) id
  have hbal : far.trace.Balanced id := h.balanced r.other List.suffix_rfl
  have hpre : near.trace.delivered id <+: far.trace.taken id := (h.carried r).delivered_taken
  rw [hread]
  refine ⟨hpre.trans hbal.taken_prefix, fun hcut => ?_⟩
  obtain ⟨inFlight, hflight⟩ := hpre
  have hunsent : (far.conn.entry id).unsent = far.trace.unsent id :=
    (Start.run_holds (p.start r.other) (p.ops r.other) id).unsent
  exact ⟨inFlight, by rw [hflight, hunsent, hbal.taken_unsent hcut]⟩

/-- The client of `twoPartSend`, and a server that gets its bytes and reads two of them. -/
def sentAndRead : Peers where
  start
    | .client => .client {} none none
    | .server => .server {} none none [5]
        [.streamOpen 0, .recvStreamData false 0 0 [1, 2], .recvStreamData true 0 2 [3]]
  ops
    | .client => twoPartSend
    | .server => [.read 0 2]
  log :=
    ((Start.server {} none none [5] [.streamOpen 0, .recvStreamData false 0 0 [1, 2],
        .recvStreamData true 0 2 [3]]).run [.read 0 2]).trace.map (Prod.mk .server) ++
      ((Start.client {} none none).run twoPartSend).trace.map (Prod.mk .client)
  log_of r := by cases r <;> rfl

theorem sentAndRead_reliable : sentAndRead.Reliable 0 :=
  ⟨by decide, fun r => by cases r <;> decide⟩

theorem end_to_end_conserved_sentAndRead :
    (sentAndRead.state .server).trace.chunks 0 = [1, 2] ∧
      (sentAndRead.state .server).trace.chunks 0 ++
        ((sentAndRead.state .server).conn.entry 0).rxBuffer <+:
          (sentAndRead.state .client).trace.accepted 0 ∧
      ∃ inFlight, (sentAndRead.state .client).trace.accepted 0 =
        (sentAndRead.state .server).trace.chunks 0 ++
          ((sentAndRead.state .server).conn.entry 0).rxBuffer ++ inFlight ++
            ((sentAndRead.state .client).conn.entry 0).unsent := by
  obtain ⟨hread, hall⟩ := end_to_end_conserved sentAndRead 0 sentAndRead_reliable .server
  exact ⟨by decide, hread, hall (by decide)⟩

/-- Completeness: an end that has received the FIN of a stream has all that the other application had
written when its ngtcp2 took the FIN, which it did behind `end()`. -/
theorem end_to_end_complete (p : Peers) (id : Int) (h : p.Reliable id) (r : Role)
    (hfin : ((p.state r).conn.entry id).finRecv = true) :
    ∃ o a, ∃ t : Trace, .writev (some o) a :: t <:+ (p.state r.other).trace ∧ o.streamId = id ∧
      a.takesFin o = true ∧ (∃ data, .ended id data ∈ t) ∧
      (p.state r).trace.chunks id ++ ((p.state r).conn.entry id).rxBuffer = t.accepted id := by
  obtain ⟨htaken, hall⟩ := (h.carried r).fin (Start.run_finRecv hfin)
  obtain ⟨o, a, t, hs, hid, ha⟩ := Trace.exists_of_finTaken htaken
  refine ⟨o, a, t, hs, hid, ha, ?_, ?_⟩
  · exact Start.run_finAsked (p.start r.other) (p.ops r.other) id _ t hs (o, a)
      (by simp [Act.answered, hid]) (WritevAnswer.fin_of_takesFin ha)
  · have hread : (p.state r).trace.chunks id ++ ((p.state r).conn.entry id).rxBuffer =
        (p.state r).trace.delivered id := Start.run_integrity (p.start r) (p.ops r) id
    have hthen := h.taken_of_finTaken hs hid ha
    rw [hread, hall]
    obtain ⟨new, hnew⟩ := hs
    have hend := h.ends r.other
    rw [← hnew] at hend
    obtain ⟨-, hsince⟩ := Peers.taken_behind_fin hend (by simp [Trace.finTaken, hid, ha])
    rw [← hnew, hsince, hthen]

theorem end_to_end_complete_sentAndRead :
    ∃ o a, ∃ t : Trace, .writev (some o) a :: t <:+ (sentAndRead.state .client).trace ∧
      o.streamId = 0 ∧ a.takesFin o = true ∧ (∃ data, .ended 0 data ∈ t) ∧
      (sentAndRead.state .server).trace.chunks 0 ++
        ((sentAndRead.state .server).conn.entry 0).rxBuffer = t.accepted 0 :=
  end_to_end_complete sentAndRead 0 sentAndRead_reliable .server (by decide)

end PhpQuic
