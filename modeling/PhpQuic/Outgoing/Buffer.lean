import PhpQuic.Outgoing.History

/-!
# The outgoing buffer of a stream

`StreamEntry.Holds id e t`: the buffer of the entry holds the bytes taken from `released` on, then
the unsent ones, and the offset parts the two. It holds of every entry in every state that a run
reaches (`Start.run_holds`), whatever ngtcp2 answers.

* `Trace.OffersWhole t`: each offer of the history was all that the stream had left to send.
* `Trace.TakesNothingShut id t`: behind `STREAM_SHUT_WR` ngtcp2 takes nothing more of the stream.
* `outgoing_integrity`: what ngtcp2 took is a prefix of what the application wrote.
* `retained_iff`: the bytes that ngtcp2 has taken but not acknowledged are still in the buffer if
  and only if those before `released` are acknowledged.
-/

namespace PhpQuic

open Runs (Moves)
open StreamEntry (TxSame)

namespace StreamEntry

variable {id : Int} {e e' : StreamEntry} {t : Trace}

theorem unsent_length (e : StreamEntry) : e.unsent.length = e.txBuffer.length - e.txOffset :=
  List.length_drop

/-- The buffer is what was taken from `released` on, then what is unsent. -/
structure Holds (id : Int) (e : StreamEntry) (t : Trace) : Prop where
  released_le : t.released id ≤ (t.taken id).length
  txBuffer : e.txBuffer = (t.taken id).drop (t.released id) ++ t.unsent id
  txOffset : e.txOffset = (t.taken id).length - t.released id
  exhausted : t.unsent id = [] → t.released id = (t.taken id).length

theorem Holds.offset_le (h : Holds id e t) : e.txOffset ≤ e.txBuffer.length := by
  rw [h.txOffset, h.txBuffer, List.length_append, List.length_drop]
  omega

theorem Holds.unsent (h : Holds id e t) : e.unsent = t.unsent id := by
  unfold StreamEntry.unsent
  rw [h.txOffset, h.txBuffer, List.drop_append_of_le_length (Nat.le_of_eq List.length_drop.symm),
    ← List.length_drop, List.drop_length, List.nil_append]

theorem Holds.fresh (id : Int) : Holds id (.alloc id) [] :=
  ⟨Nat.le_refl _, rfl, rfl, fun _ => rfl⟩

theorem Holds.same (h : Holds id e t) (hs : TxSame e e') : Holds id e' t :=
  ⟨h.released_le, hs.txBuffer.trans h.txBuffer, hs.txOffset.trans h.txOffset, h.exhausted⟩

/-- Data at the end of the buffer. -/
theorem Holds.append (h : Holds id e t) {t' : Trace} {data : Bytes}
    (hb : e'.txBuffer = e.txBuffer ++ data) (ho : e'.txOffset = e.txOffset)
    (hu : t'.unsent id = t.unsent id ++ data) (ht : t'.taken id = t.taken id)
    (hr : t'.released id = t.released id) : Holds id e' t' := by
  refine ⟨?_, ?_, ?_, ?_⟩
  · rw [ht, hr]; exact h.released_le
  · rw [hb, h.txBuffer, hu, ht, hr, List.append_assoc]
  · rw [ho, ht, hr]; exact h.txOffset
  · intro hnil
    rw [hu] at hnil
    rw [ht, hr]; exact h.exhausted (List.append_eq_nil_iff.mp hnil).1

/-- An answer that takes a part of the offer, or all of it. -/
theorem Holds.take (h : Holds id e t) {t' : Trace} {w : Nat}
    (ht : t'.taken id = t.taken id ++ (t.unsent id).take w)
    (hu : t'.unsent id = (t.unsent id).drop w)
    (hr : t'.released id =
      if t'.unsent id = [] then (t'.taken id).length else t.released id)
    (hb : e'.txBuffer = if e.unsent.length ≤ w then [] else e.txBuffer)
    (ho : e'.txOffset = if e.unsent.length ≤ w then 0 else e.txOffset + w) :
    Holds id e' t' := by
  rw [h.unsent] at hb ho
  by_cases hall : (t.unsent id).length ≤ w
  · -- nothing is left, so the buffer is let go
    have hnil : t'.unsent id = [] := by rw [hu]; exact List.drop_eq_nil_of_le hall
    rw [if_pos hnil] at hr
    refine ⟨Nat.le_of_eq hr, ?_, ?_, fun _ => hr⟩
    · rw [hb, if_pos hall, hr, hnil, List.drop_length]; rfl
    · rw [ho, if_pos hall, hr, Nat.sub_self]
  · have hne : t'.unsent id ≠ [] := by
      rw [hu]; exact fun hnil => hall (List.drop_eq_nil_iff.mp hnil)
    have hle := h.released_le
    have hlen : (t'.taken id).length = (t.taken id).length + w := by
      rw [ht, List.length_append, List.length_take]; omega
    rw [if_neg hne] at hr
    refine ⟨by omega, ?_, ?_, fun hnil => absurd hnil hne⟩
    · rw [hb, if_neg hall, h.txBuffer, hr, ht, hu, List.drop_append_of_le_length hle,
        List.append_assoc, List.take_append_drop]
    · rw [ho, if_neg hall, h.txOffset, hr, hlen]; omega

theorem Holds.step (hstep : TxStep id e t e' t') (h : Holds id e t) : Holds id e' t' := by
  cases hstep with
  | other as has hs =>
    have ht := Trace.other_append (f := Trace.taken id) (fun a t => Trace.taken_cons) has t
    have hu := Trace.other_append (f := Trace.unsent id) (fun a t => Trace.unsent_cons) has t
    have hr := Trace.other_append (f := Trace.released id) (fun a t => Trace.released_cons) has t
    refine Holds.same ⟨?_, ?_, ?_, ?_⟩ hs
    · rw [ht, hr]; exact h.released_le
    · rw [ht, hr, hu]; exact h.txBuffer
    · rw [ht, hr]; exact h.txOffset
    · rw [ht, hr, hu]; exact h.exhausted
  | clamp =>
    rw [clampTxOffset_self h.offset_le]
    exact h
  | wrote data hsent hfin =>
    exact h.append (bufferAppend_eq _ _) rfl (if_pos rfl) rfl rfl
  | ended data => exact h.append (bufferAppend_eq _ _) rfl (if_pos rfl) rfl rfl
  | reset => exact ⟨h.released_le, h.txBuffer, h.txOffset, h.exhausted⟩
  | answered o a hid hle hdata hfin hs =>
    refine Holds.same ?_ hs
    rw [h.unsent] at hdata
    have ht : Trace.taken id (.writev (some o) a :: t) = t.taken id ++ a.taken o := if_pos hid
    have hu : Trace.unsent id (.writev (some o) a :: t) =
        if a.isShutWr then [] else (t.unsent id).drop (a.taken o).length := if_pos hid
    have hr : Trace.released id (.writev (some o) a :: t) =
        if Trace.unsent id (.writev (some o) a :: t) = [] then
          (Trace.taken id (.writev (some o) a :: t)).length else t.released id := by
      simp only [Trace.released, hid, true_and]
    rw [a.taken_eq o] at ht hu
    rw [a.isShutWr_eq] at hu
    cases heff : a.effect with
    | update p =>
      rw [settle_update heff]
      simp only [heff, hdata, Bool.false_eq_true, ↓reduceIte] at ht hu
      have hdrop : (t.unsent id).drop ((t.unsent id).take a.wdatalen.toNat).length =
          (t.unsent id).drop a.wdatalen.toNat := by
        rw [List.length_take]
        rcases Nat.le_total a.wdatalen.toNat (t.unsent id).length with hl | hl
        · rw [Nat.min_eq_left hl]
        · rw [Nat.min_eq_right hl, List.drop_length, List.drop_eq_nil_of_le hl]
      rw [hdrop] at hu
      have hout : decide (e.txBuffer.length ≤ e.txOffset + a.wdatalen.toNat) =
          decide (e.unsent.length ≤ a.wdatalen.toNat) := by
        rw [e.unsent_length]; exact decide_eq_decide.mpr (by omega)
      refine h.take ht hu hr ?_ ?_
      · rw [updateTx_eq]; simp only [hout, decide_eq_true_eq]
      · rw [updateTx_eq]; simp only [hout, decide_eq_true_eq]
    | discard =>
      rw [settle_discard heff]
      simp only [heff, List.append_nil, ↓reduceIte] at ht hu
      rw [if_pos hu] at hr
      refine ⟨Nat.le_of_eq hr, ?_, ?_, fun _ => hr⟩
      · rw [hr, hu, List.drop_length]; rfl
      · rw [hr, Nat.sub_self]; rfl
    | ignore =>
      rw [settle_ignore heff]
      simp only [heff, List.append_nil, List.length_nil, List.drop_zero, Bool.false_eq_true,
        ↓reduceIte] at ht hu
      rw [hu, ht] at hr
      have hr' : Trace.released id (.writev (some o) a :: t) = t.released id := by
        rw [hr]
        split
        · rename_i hnil; exact (h.exhausted hnil).symm
        · rfl
      refine ⟨?_, ?_, ?_, ?_⟩
      · rw [hr', ht]; exact h.released_le
      · rw [hr', ht, hu]; exact h.txBuffer
      · rw [hr', ht]; exact h.txOffset
      · rw [hr', ht, hu]; exact h.exhausted

end StreamEntry

/-! ## The runs -/

open StreamEntry (Holds)

variable {id : Int}

@[simp] theorem Start.base_entry (start : Start) (id : Int) :
    start.base.conn.entry id = .alloc id := by
  cases start <;> rfl

@[simp] theorem Start.base_trace (start : Start) : start.base.trace = [] := by
  cases start <;> rfl

/-- In every state of every run the buffer of every stream is what the history says. -/
theorem Start.run_holds (start : Start) (ops : List Op) (id : Int) :
    Holds id ((start.run ops).conn.entry id) (start.run ops).trace := by
  refine Moves.inv' (I := fun s => Holds id (s.conn.entry id) s.trace)
    (fun s s' hm h => h.step (hm.txStep id)) (start.run_moves ops) ?_
  rw [start.base_entry, start.base_trace]
  exact Holds.fresh id

namespace Trace

variable {t : Trace} {as : List Act}

/-- Each offer of the stream was all that it had left to send. -/
def OffersWhole (id : Int) : Trace → Prop :=
  History.Each fun a t => ∀ p ∈ a.answered id, p.1.data = Trace.unsent id t

/-- Behind `STREAM_SHUT_WR` ngtcp2 takes nothing more of the stream. -/
def TakesNothingShut (id : Int) : Trace → Prop :=
  History.Each fun a t => ∀ p ∈ a.answered id, Trace.shutWr id t = true → p.2.taken p.1 = []

instance (id : Int) (t : Trace) : Decidable (TakesNothingShut id t) :=
  inferInstanceAs (Decidable (History.Each _ t))

/-- The accounts of a stream: what was taken is a prefix of what was accepted, and the rest of it
is unsent, unless `STREAM_SHUT_WR` cut it off. -/
structure Balanced (id : Int) (t : Trace) : Prop where
  taken_prefix : t.taken id <+: t.accepted id
  taken_unsent : t.shutWr id = false → t.taken id ++ t.unsent id = t.accepted id

theorem Balanced.nil (id : Int) : Balanced id [] := ⟨List.prefix_rfl, fun _ => rfl⟩

theorem Balanced.accept (h : Balanced id t) {t' : Trace} {data : Bytes}
    (hacc : t'.accepted id = t.accepted id ++ data) (hu : t'.unsent id = t.unsent id ++ data)
    (ht : t'.taken id = t.taken id) (hs : t'.shutWr id = t.shutWr id) : Balanced id t' := by
  refine ⟨?_, ?_⟩
  · rw [ht, hacc]; exact h.taken_prefix.trans (List.prefix_append _ _)
  · rw [hs, ht, hu, hacc]
    intro hshut
    rw [← List.append_assoc, h.taken_unsent hshut]

theorem Balanced.answer (h : Balanced id t) {o : Offer} {w : WritevAnswer} (hid : o.streamId = id)
    (hdata : o.data = t.unsent id) (hshut : t.shutWr id = true → w.taken o = []) :
    Balanced id (.writev (some o) w :: t) := by
  have hacc : Trace.accepted id (.writev (some o) w :: t) = t.accepted id := rfl
  have ht : Trace.taken id (.writev (some o) w :: t) = t.taken id ++ w.taken o := if_pos hid
  have hs : Trace.shutWr id (.writev (some o) w :: t) = (w.isShutWr || t.shutWr id) := by
    simp [Trace.shutWr, hid]
  have hu : Trace.unsent id (.writev (some o) w :: t) =
      if w.isShutWr then [] else (t.unsent id).drop (w.taken o).length := if_pos hid
  have hpre : w.taken o <+: t.unsent id := by
    rw [w.taken_eq o, hdata]
    cases w.effect with
    | update p => exact List.take_prefix _ _
    | discard | ignore => exact List.nil_prefix
  cases hcut : t.shutWr id with
  | true =>
    refine ⟨?_, ?_⟩
    · rw [ht, hacc, hshut hcut, List.append_nil]; exact h.taken_prefix
    · rw [hs, hcut, Bool.or_true]; intro hf; cases hf
  | false =>
    have heq := h.taken_unsent hcut
    refine ⟨?_, ?_⟩
    · rw [ht, hacc, ← heq]; exact (List.prefix_append_right_inj _).mpr hpre
    · rw [hs, hcut, Bool.or_false, ht, hu, hacc]
      intro hw
      obtain ⟨rest, hrest⟩ := hpre
      rw [if_neg (by rw [hw]; exact Bool.false_ne_true), ← hrest, List.drop_left, List.append_assoc,
        hrest, heq]

/-- The accounts of a history whose offers were whole balance. -/
theorem balanced (hw : OffersWhole id t) (hshut : TakesNothingShut id t) : Balanced id t := by
  induction t with
  | nil => exact .nil id
  | cons a t ih =>
    obtain ⟨hwa, hw⟩ := History.each_cons.mp hw
    obtain ⟨hsa, hshut⟩ := History.each_cons.mp hshut
    have h := ih hw hshut
    by_cases hout : a.outgoing id = true
    · cases a with
      | wrote i data =>
        obtain rfl : i = id := by simpa [Act.outgoing] using hout
        exact h.accept (if_pos rfl) (if_pos rfl) rfl rfl
      | ended i data =>
        obtain rfl : i = id := by simpa [Act.outgoing] using hout
        exact h.accept (if_pos rfl) (if_pos rfl) rfl rfl
      | wasReset i => exact ⟨h.taken_prefix, h.taken_unsent⟩
      | writev offer w =>
        cases offer with
        | none => simp [Act.outgoing] at hout
        | some o =>
          have hid : o.streamId = id := by simpa [Act.outgoing] using hout
          have hmem : (o, w) ∈ (Act.writev (some o) w).answered id := by simp [Act.answered, hid]
          exact h.answer hid (hwa _ hmem) (hsa _ hmem)
      | _ => simp [Act.outgoing] at hout
    · rw [Bool.not_eq_true] at hout
      refine ⟨?_, ?_⟩
      · rw [taken_cons hout, accepted_cons hout]; exact h.taken_prefix
      · rw [shutWr_cons hout, taken_cons hout, unsent_cons hout, accepted_cons hout]
        exact h.taken_unsent

end Trace

/-- Every offer of every run was whole. -/
theorem Start.run_offersWhole (start : Start) (ops : List Op) (id : Int) :
    (start.run ops).trace.OffersWhole id := by
  refine (Moves.inv' (I := fun s => Holds id (s.conn.entry id) s.trace ∧ s.trace.OffersWhole id)
    ?_ (start.run_moves ops) ?_).2
  · rintro s s' hm ⟨h, hw⟩
    refine ⟨h.step (hm.txStep id), ?_⟩
    have hstep := hm.txStep id
    generalize s'.conn.entry id = e' at hstep
    generalize s'.trace = t' at hstep ⊢
    cases hstep with
    | other as has hs =>
      rw [Trace.OffersWhole, Trace.other_append (f := History.Each _) ?_ has]
      · exact hw
      · intro a t ha
        refine propext (History.each_cons.trans (and_iff_right ?_))
        rw [Trace.answered_eq_none ha]
        intro p hp; cases hp
    | clamp => exact hw
    | wrote data hsent hfin =>
      refine History.each_cons.mpr ⟨?_, hw⟩
      rintro p ⟨⟩
    | ended data =>
      refine History.each_cons.mpr ⟨?_, hw⟩
      rintro p ⟨⟩
    | reset =>
      refine History.each_cons.mpr ⟨?_, hw⟩
      rintro p ⟨⟩
    | answered o a hid hle hdata hfin hs =>
      refine History.each_cons.mpr ⟨?_, hw⟩
      intro p hp
      simp only [Act.answered, hid, ↓reduceIte, Option.mem_def, Option.some.injEq] at hp
      rw [← hp, ← h.unsent]
      exact hdata
  · rw [start.base_trace]
    exact ⟨by rw [start.base_entry]; exact Holds.fresh id, History.each_nil⟩

/-- Outgoing stream integrity: in every state of every run the offset is in the buffer, what ngtcp2
took is a prefix of what the application wrote, what it did not take is still to be sent unless
`STREAM_SHUT_WR` dropped it, and every offer of the stream was all of its unsent bytes. -/
theorem outgoing_integrity (start : Start) (ops : List Op) (id : Int)
    (hshut : (start.run ops).trace.TakesNothingShut id) :
    let s := start.run ops
    let e := s.conn.entry id
    e.txOffset ≤ e.txBuffer.length ∧
      e.unsent = s.trace.unsent id ∧
      s.trace.taken id <+: s.trace.accepted id ∧
      (s.trace.shutWr id = false → s.trace.taken id ++ e.unsent = s.trace.accepted id) ∧
      (∀ o, s.conn.pickTxStream.2 = some o → o.streamId = id → o.data = e.unsent) ∧
      ∀ o a (t : Trace), .writev (some o) a :: t <:+ s.trace → o.streamId = id →
        o.data = t.unsent id := by
  intro s e
  have h : Holds id e s.trace := start.run_holds ops id
  have hw : s.trace.OffersWhole id := start.run_offersWhole ops id
  have hb : s.trace.Balanced id := Trace.balanced hw hshut
  refine ⟨h.offset_le, h.unsent, hb.taken_prefix, ?_, ?_, ?_⟩
  · rw [h.unsent]; exact hb.taken_unsent
  · rintro o ho rfl
    obtain ⟨-, -, heq, -⟩ := Connection.pickTxStream_some ho
    rw [heq]
    exact Connection.unsent_clamp e
  · intro o a t hsuf hid
    exact hw _ t hsuf (o, a) (by simp [Act.answered, hid])

/-- A client opens a stream, writes three bytes with a FIN, and ngtcp2 takes two, then the rest. -/
def twoPartSend : List Op :=
  [.openStream (.ok 0), .write 0 [1, 2], .end_ 0 (some [3]),
    .drainOutgoingDatagrams { loop := [
      { writev := { result := .ok [7], wdatalen := 2 } },
      { writev := { result := .ok [7], wdatalen := 1 } },
      { writev := { result := .ok [] } }] }]

theorem outgoing_integrity_twoPartSend :
    let s := (Start.client {} none none).run twoPartSend
    s.trace.TakesNothingShut 0 ∧ s.trace.taken 0 <+: s.trace.accepted 0 ∧
      s.trace.taken 0 = [1, 2, 3] :=
  have h : ((Start.client {} none none).run twoPartSend).trace.TakesNothingShut 0 := by decide
  ⟨h, (outgoing_integrity _ _ 0 h).2.2.1, by decide⟩

end PhpQuic
