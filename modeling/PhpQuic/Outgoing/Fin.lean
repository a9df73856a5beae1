import PhpQuic.Outgoing.Buffer

/-!
# The end of a stream

A FIN is sent when ngtcp2 accepts it: an offer with the FIN is answered with all of its bytes taken
(`Trace.finAccepted`). The extension counts it as sent when the packet of such an offer comes and
nothing is left in the buffer. The two agree (`FinSound`) unless the offer is nothing but a FIN and
the packet is not about the stream (`Trace.FinOnlyAnswered` excludes that for a FIN that is still
requested).

* `finRequested id t`: `end` was called, and since then the FIN was neither accepted nor cut off by
  `STREAM_SHUT_WR`, nor was the stream reset by the application.
* `fin_sound_of_finOnlyAnswered`: the runs without that answer; `fin_lost`: one with it.
-/

namespace PhpQuic

open Runs (Moves)
open StreamEntry (TxSame Holds)

/-- The FIN of the offer was accepted: `wdatalen` is the number of bytes offered. -/
def WritevAnswer.acceptsFin (a : WritevAnswer) (o : Offer) : Bool :=
  o.fin && decide (a.wdatalen = o.data.length)

/-- The answer is a packet. -/
def WritevAnswer.emitsPacket (a : WritevAnswer) : Bool :=
  match a.result with
  | .ok pkt => decide (pkt.length > 0)
  | .error _ => false

theorem WritevAnswer.emitsPacket_of_effect {a : WritevAnswer} {p : Bool}
    (h : a.effect = .update p) : a.emitsPacket = p := by
  unfold WritevAnswer.effect at h
  unfold emitsPacket
  cases hr : a.result with
  | ok pkt => rw [hr] at h; exact Effect.update.inj h
  | error e =>
    rw [hr] at h
    cases e with
    | writeMore | streamDataBlocked => exact Effect.update.inj h
    | _ => cases h

namespace Trace

def finAccepted (id : Int) : Trace → Bool
  | [] => false
  | .writev (some o) a :: t => (o.streamId = id && a.acceptsFin o) || finAccepted id t
  | _ :: t => finAccepted id t

def finRequested (id : Int) : Trace → Bool
  | [] => false
  | .ended i _ :: t => i = id || finRequested id t
  | .wasReset i _ :: t => i ≠ id && finRequested id t
  | .writev (some o) a :: t =>
    !(o.streamId = id && (a.acceptsFin o || a.isShutWr)) && finRequested id t
  | _ :: t => finRequested id t

variable {id : Int} {a : Act} {t : Trace}

theorem finAccepted_cons (h : a.outgoing id = false) :
    finAccepted id (a :: t) = finAccepted id t := by
  cases a with
  | writev o w => cases o <;> simp_all [finAccepted, Act.outgoing]
  | _ => rfl

theorem finRequested_cons (h : a.outgoing id = false) :
    finRequested id (a :: t) = finRequested id t := by
  cases a with
  | writev o w => cases o <;> simp_all [finRequested, Act.outgoing]
  | ended i d => simp_all [finRequested, Act.outgoing]
  | wasReset i code => simp_all [finRequested, Act.outgoing]
  | _ => rfl

/-- No answer reports more than was offered. -/
def WithinOffer (id : Int) : Trace → Prop :=
  History.Each fun a _ => ∀ p ∈ a.answered id, p.2.wdatalen ≤ p.1.data.length

/-- No offer of nothing but a requested FIN is answered with a packet that is not about the stream
(`wdatalen = -1`). -/
def FinOnlyAnswered (id : Int) : Trace → Prop :=
  History.Each fun a t => ∀ p ∈ a.answered id, Trace.finRequested id t = true →
    p.1.fin = true → p.1.data = [] → p.2.emitsPacket = true → 0 ≤ p.2.wdatalen

instance (id : Int) (t : Trace) : Decidable (WithinOffer id t) :=
  inferInstanceAs (Decidable (History.Each _ t))

instance (id : Int) (t : Trace) : Decidable (FinOnlyAnswered id t) :=
  inferInstanceAs (Decidable (History.Each _ t))

end Trace

/-- A FIN that counts as sent was accepted or cut off, and a requested one is still pending. -/
structure FinSound (id : Int) (e : StreamEntry) (t : Trace) : Prop where
  sent : e.finSent = true → t.finAccepted id = true ∨ t.shutWr id = true
  pending : t.finRequested id = true → e.finPending = true

instance (id : Int) (e : StreamEntry) (t : Trace) : Decidable (FinSound id e t) :=
  decidable_of_iff ((e.finSent = true → t.finAccepted id = true ∨ t.shutWr id = true) ∧
    (t.finRequested id = true → e.finPending = true)) ⟨fun h => ⟨h.1, h.2⟩, fun h => ⟨h.1, h.2⟩⟩

/-- The invariant: besides, a pending FIN is a requested one, or was accepted or cut off. -/
structure FinInv (id : Int) (e : StreamEntry) (t : Trace) : Prop extends FinSound id e t where
  requested : e.finPending = true →
    t.finRequested id = true ∨ t.finAccepted id = true ∨ t.shutWr id = true

namespace FinInv

variable {id : Int} {e e' : StreamEntry} {t t' : Trace}

theorem fresh (id : Int) : FinInv id (.alloc id) [] where
  sent h := absurd h Bool.false_ne_true
  pending h := absurd h Bool.false_ne_true
  requested h := absurd h Bool.false_ne_true

theorem same (h : FinInv id e t) (hs : TxSame e e') : FinInv id e' t where
  sent := by rw [hs.finSent]; exact h.sent
  pending := by rw [hs.finPending]; exact h.pending
  requested := by rw [hs.finPending]; exact h.requested

/-- The FIN of an offer that takes all that was left is accepted, or the offer was a FIN alone. -/
theorem acceptsFin_of_all {o : Offer} {a : WritevAnswer} (hwithin : a.wdatalen ≤ o.data.length)
    (hfin : o.fin = true) (hall : o.data.length ≤ a.wdatalen.toNat)
    (honly : o.data = [] → 0 ≤ a.wdatalen) : a.acceptsFin o = true := by
  have heq : a.wdatalen = o.data.length := by
    rcases Nat.eq_zero_or_pos o.data.length with hz | hpos
    · have := honly (List.length_eq_zero_iff.mp hz)
      omega
    · omega
  simp [WritevAnswer.acceptsFin, hfin, heq]

/-- Behind an update the FIN is as before, or it counts as sent; then ngtcp2 accepted it unless the
request was settled before. -/
theorem update {o : Offer} {a : WritevAnswer} {p : Bool}
    (hp : a.effect = .update p) (hdata : o.data = e.unsent)
    (hwithin : a.wdatalen ≤ o.data.length)
    (honly : t.finRequested id = true → o.fin = true → o.data = [] → a.emitsPacket = true →
      0 ≤ a.wdatalen) :
    ((e.updateTx a.wdatalen o.fin p).finSent = e.finSent ∧
        (e.updateTx a.wdatalen o.fin p).finPending = e.finPending) ∨
      (e.finPending = true ∧ (t.finRequested id = true → a.acceptsFin o = true)) := by
  rw [StreamEntry.updateTx_eq]
  cases hf : o.fin && p && e.finPending &&
      decide (e.txBuffer.length ≤ e.txOffset + a.wdatalen.toNat) with
  | false => left; simp [hf]
  | true =>
    right
    simp only [Bool.and_eq_true, decide_eq_true_eq] at hf
    obtain ⟨⟨⟨hfin, rfl⟩, hpend⟩, hall⟩ := hf
    refine ⟨hpend, fun hreq => acceptsFin_of_all hwithin hfin ?_ fun hnil => ?_⟩
    · rw [hdata, e.unsent_length]; omega
    · exact honly hreq hfin hnil (WritevAnswer.emitsPacket_of_effect hp)

theorem answer (h : FinInv id e t) {o : Offer} {a : WritevAnswer} (hid : o.streamId = id)
    (hdata : o.data = e.unsent) (hwithin : a.wdatalen ≤ o.data.length)
    (honly : t.finRequested id = true → o.fin = true → o.data = [] → a.emitsPacket = true →
      0 ≤ a.wdatalen) :
    FinInv id (e.settle o a) (.writev (some o) a :: t) := by
  have hacc : Trace.finAccepted id (.writev (some o) a :: t) =
      (a.acceptsFin o || t.finAccepted id) := by simp [Trace.finAccepted, hid]
  have hshut : Trace.shutWr id (.writev (some o) a :: t) = (a.isShutWr || t.shutWr id) := by
    simp [Trace.shutWr, hid]
  have hreq : Trace.finRequested id (.writev (some o) a :: t) =
      (!(a.acceptsFin o || a.isShutWr) && t.finRequested id) := by simp [Trace.finRequested, hid]
  -- an entry whose FIN is as before
  have hkeep : ∀ e' : StreamEntry, e'.finSent = e.finSent → e'.finPending = e.finPending →
      FinInv id e' (.writev (some o) a :: t) := by
    intro e' hsent hpend
    refine ⟨⟨?_, ?_⟩, ?_⟩
    · rw [hsent, hacc, hshut]
      intro hs
      rcases h.sent hs with hs | hs
      · rw [hs, Bool.or_true]; exact .inl rfl
      · rw [hs, Bool.or_true]; exact .inr rfl
    · rw [hpend, hreq]
      intro hr
      exact h.pending (Bool.and_eq_true_iff.mp hr).2
    · rw [hpend, hreq, hacc, hshut]
      intro hf
      rcases h.requested hf with hs | hs | hs
      · rw [hs, Bool.and_true]
        cases a.acceptsFin o <;> cases a.isShutWr <;> simp
      · rw [hs, Bool.or_true]; exact .inr (.inl rfl)
      · rw [hs, Bool.or_true]; exact .inr (.inr rfl)
  have hcut := a.isShutWr_eq
  cases heff : a.effect with
  | update p =>
    rw [StreamEntry.settle_update heff]
    rcases update heff hdata hwithin honly with ⟨hsent, hpend⟩ | ⟨hpend, haccepts⟩
    · exact hkeep _ hsent hpend
    · -- the FIN counts as sent: its request was accepted now, or settled before
      have hnow : Trace.finAccepted id (.writev (some o) a :: t) = true ∨
          Trace.shutWr id (.writev (some o) a :: t) = true := by
        rw [hacc, hshut]
        rcases h.requested hpend with hs | hs | hs
        · rw [haccepts hs]; exact .inl rfl
        · rw [hs, Bool.or_true]; exact .inl rfl
        · rw [hs, Bool.or_true]; exact .inr rfl
      refine ⟨⟨fun _ => hnow, ?_⟩, fun _ => .inr hnow⟩
      rw [hreq]
      intro hr
      simp only [Bool.and_eq_true, Bool.not_eq_true', Bool.or_eq_false_iff] at hr
      rw [haccepts hr.2] at hr
      cases hr.1.1
  | discard =>
    rw [heff] at hcut
    have hshut' : Trace.shutWr id (.writev (some o) a :: t) = true := by rw [hshut, hcut]; rfl
    refine ⟨⟨fun _ => .inr hshut', ?_⟩, fun _ => .inr (.inr hshut')⟩
    rw [hreq, hcut, Bool.or_true]
    intro hr; cases hr
  | ignore =>
    rw [StreamEntry.settle_ignore heff]
    exact hkeep e rfl rfl

/-- The excluded answer loses the FIN. -/
theorem not_finSound_of_missed {o : Offer} {a : WritevAnswer} (hid : o.streamId = id)
    (hdata : o.data = e.unsent) (hpend : o.fin = e.finPending) (hreq : t.finRequested id = true)
    (hfin : o.fin = true) (hnil : o.data = []) (hemit : a.emitsPacket = true)
    (hmiss : a.wdatalen < 0) : ¬ FinSound id (e.settle o a) (.writev (some o) a :: t) := by
  intro h
  obtain ⟨pkt, hr, hpkt⟩ : ∃ pkt, a.result = .ok pkt ∧ pkt.length > 0 := by
    unfold WritevAnswer.emitsPacket at hemit
    cases hr : a.result with
    | ok pkt => rw [hr] at hemit; exact ⟨pkt, rfl, of_decide_eq_true hemit⟩
    | error e => rw [hr] at hemit; cases hemit
  have heff : a.effect = .update true := by
    unfold WritevAnswer.effect; rw [hr]; simp only [hpkt, decide_true]
  have hacc : a.acceptsFin o = false := by
    simp only [WritevAnswer.acceptsFin, hfin, hnil, List.length_nil, Bool.true_and,
      decide_eq_false_iff_not]
    omega
  have hout : e.txBuffer.length ≤ e.txOffset + a.wdatalen.toNat := by
    have hlen := congrArg List.length (hdata.symm.trans hnil)
    rw [e.unsent_length, List.length_nil] at hlen
    omega
  have hreq' : Trace.finRequested id (.writev (some o) a :: t) = true := by
    have hcut := a.isShutWr_eq
    rw [heff] at hcut
    simp [Trace.finRequested, hid, hacc, hcut, hreq]
  have hp := h.pending hreq'
  rw [StreamEntry.settle_update heff, StreamEntry.updateTx_eq] at hp
  simp [hfin, hout, ← hpend] at hp

theorem step (hstep : TxStep id e t e' t') (hwithin : t'.WithinOffer id)
    (honly : t'.FinOnlyAnswered id) (h : FinInv id e t) : FinInv id e' t' := by
  cases hstep with
  | other as has hs =>
    have hacc := Trace.other_append (f := Trace.finAccepted id) (fun a t => Trace.finAccepted_cons)
      has t
    have hreq := Trace.other_append (f := Trace.finRequested id)
      (fun a t => Trace.finRequested_cons) has t
    have hshut := Trace.other_append (f := Trace.shutWr id) (fun a t => Trace.shutWr_cons) has t
    refine same ⟨⟨?_, ?_⟩, ?_⟩ hs
    · rw [hacc, hshut]; exact h.sent
    · rw [hreq]; exact h.pending
    · rw [hreq, hacc, hshut]; exact h.requested
  | clamp =>
    rw [StreamEntry.clampTxOffset_eq]
    exact ⟨⟨h.sent, h.pending⟩, h.requested⟩
  | wrote data hsent hfin => exact ⟨⟨h.sent, h.pending⟩, h.requested⟩
  | ended data =>
    refine ⟨⟨h.sent, fun _ => rfl⟩, fun _ => .inl ?_⟩
    simp [Trace.finRequested]
  | reset =>
    refine ⟨⟨h.sent, ?_⟩, fun hf => absurd hf Bool.false_ne_true⟩
    intro hr; simp [Trace.finRequested] at hr
  | answered o a hid hle hdata hfin hs =>
    have hmem : (o, a) ∈ (Act.writev (some o) a).answered id := by simp [Act.answered, hid]
    exact (h.answer hid hdata ((History.each_cons.mp hwithin).1 _ hmem)
      ((History.each_cons.mp honly).1 _ hmem)).same hs

end FinInv

/-- In a run in which no requested FIN alone is answered with a packet that is not about the stream,
a FIN that counts as sent was accepted or cut off, and a requested FIN stays pending until then. -/
theorem fin_sound_of_finOnlyAnswered (start : Start) (ops : List Op) (id : Int)
    (hwithin : (start.run ops).trace.WithinOffer id)
    (honly : (start.run ops).trace.FinOnlyAnswered id) :
    FinSound id ((start.run ops).conn.entry id) (start.run ops).trace := by
  refine (Moves.inv (C := fun s => s.trace.WithinOffer id ∧ s.trace.FinOnlyAnswered id)
    (I := fun s => FinInv id (s.conn.entry id) s.trace) ?_ ?_ (start.run_moves ops)
    ⟨hwithin, honly⟩ ?_).toFinSound
  · rintro s s' hm ⟨hw, ho⟩
    exact ⟨hw.of_suffix hm.trace_suffix, ho.of_suffix hm.trace_suffix⟩
  · rintro s s' hm ⟨hw, ho⟩ h
    exact h.step (hm.txStep id) hw ho
  · rw [start.base_entry, start.base_trace]
    exact .fresh id

/-- A stream is ended without data, and ngtcp2 answers the offer with a packet and `wdatalen`. -/
def endWithout (wdatalen : Int) : List Op :=
  [.openStream (.ok 0), .end_ 0 none,
    .drainOutgoingDatagrams { loop := [
      { writev := { result := .ok [7], wdatalen } },
      { writev := { result := .ok [] } }] }]

theorem fin_sound_endWithout :
    let s := (Start.client {} none none).run (endWithout 0)
    s.trace.WithinOffer 0 ∧ s.trace.FinOnlyAnswered 0 ∧ FinSound 0 (s.conn.entry 0) s.trace ∧
      (s.conn.entry 0).finSent = true :=
  have hw : ((Start.client {} none none).run (endWithout 0)).trace.WithinOffer 0 := by decide
  have ho : ((Start.client {} none none).run (endWithout 0)).trace.FinOnlyAnswered 0 := by decide
  ⟨hw, ho, fin_sound_of_finOnlyAnswered _ _ 0 hw ho, by decide⟩

/-- A FIN that ngtcp2 did not put into the packet counts as sent. -/
theorem fin_lost :
    ¬ ∀ (start : Start) (ops : List Op) (id : Int), (start.run ops).trace.WithinOffer id →
      FinSound id ((start.run ops).conn.entry id) (start.run ops).trace := by
  intro h
  have hbad := h (.client {} none none) (endWithout (-1)) 0 (by decide)
  revert hbad
  decide

end PhpQuic
