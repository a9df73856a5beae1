import PhpQuic.Outgoing.Packets
import PhpQuic.Server.Finishing

/-!
# What leaves a connection behind a requested close

Behind `close()` a call of `drainOutgoingDatagrams` asks ngtcp2 for the close packet, until one of
the calls marks it as sent. Later calls come to the send loop again, and nothing but the answers of
ngtcp2 keeps ordinary packets from leaving: it builds none in its closing or its draining period.

The period is a function `period` of the history, which the extension does not see.

* `Trace.FitsPeriod`: what ngtcp2 documents of the period.
* `Trace.ClosesInPeriod`: ngtcp2 answers the call for the close packet without a packet only in a
  period. Otherwise the extension marks a packet as sent that does not exist.
* `Sealed`: a close that is marked as sent is in a period; kept by every call (`step_sealed`).
* `only_closePacket`: then the close packet is all that leaves. `ordinary_packet_leaves`: a client
  whose first call for the close packet comes before its first Initial.
-/

namespace PhpQuic

open Runs (Moves)

/-- What ngtcp2 documents of its closing and draining period: it does not end; the close packet
begins it, and the answer 0 does not; in it, and only in it, `ngtcp2_conn_writev_stream` answers
`CLOSING` or `DRAINING`. -/
def Act.fitsPeriod (period : Trace → Bool) (a : Act) (t : Trace) : Bool :=
  (!period t || period (a :: t)) &&
    match a with
    | .writeClose _ (.ok pkt) _ => period (a :: t) == (period t || decide (pkt.length > 0))
    | .writev _ w => decide (w.result = .error .closing ∨ w.result = .error .draining) == period t
    | _ => true

/-- The call for the close packet is answered without a packet, by 0 or by a closing error, only in
a period. -/
def Act.closesInPeriod (period : Trace → Bool) (a : Act) (t : Trace) : Bool :=
  match a with
  | .writeClose _ (.ok pkt) _ => period t || decide (pkt.length > 0)
  | .writeClose _ (.error rv) _ => period t || !rv.isNonfatalClosing
  | _ => true

namespace Trace

def FitsPeriod (period : Trace → Bool) : Trace → Prop :=
  History.Each fun a t => a.fitsPeriod period t = true

def ClosesInPeriod (period : Trace → Bool) : Trace → Prop :=
  History.Each fun a t => a.closesInPeriod period t = true

instance (period : Trace → Bool) (t : Trace) : Decidable (FitsPeriod period t) :=
  inferInstanceAs (Decidable (History.Each _ t))

instance (period : Trace → Bool) (t : Trace) : Decidable (ClosesInPeriod period t) :=
  inferInstanceAs (Decidable (History.Each _ t))

variable {period : Trace → Bool} {t t' new : Trace}

/-- A period does not end. -/
theorem FitsPeriod.period_stays (hfits : FitsPeriod period t') (hs : t <:+ t')
    (hp : period t = true) : period t' = true := by
  induction t' with
  | nil => rw [← List.suffix_nil.mp hs]; exact hp
  | cons a t' ih =>
    rcases List.suffix_cons_iff.mp hs with rfl | hs
    · exact hp
    · obtain ⟨ha, hrest⟩ := History.each_cons.mp hfits
      have hbefore := ih hrest hs
      simp only [Act.fitsPeriod, hbefore, Bool.not_true, Bool.false_or, Bool.and_eq_true] at ha
      exact ha.1

/-- In a period the send loop builds no packet. -/
theorem FitsPeriod.built_nil (hfits : FitsPeriod period (new ++ t)) (hp : period t = true)
    (hplain : ∀ a ∈ new, a.plain = true) : Trace.built new = [] := by
  induction new with
  | nil => rfl
  | cons a new ih =>
    obtain ⟨ha, hrest⟩ := History.each_cons.mp hfits
    have hin := FitsPeriod.period_stays hrest (List.suffix_append new t) hp
    have hbuilt := ih hrest fun b hb => hplain b (List.mem_cons_of_mem _ hb)
    have hpacket : a.packet = none := by
      cases a with
      | writev o w =>
        have hw : w.result = .error .closing ∨ w.result = .error .draining := by
          simp only [Act.fitsPeriod, hin, Bool.and_eq_true, beq_iff_eq, decide_eq_true_eq] at ha
          exact ha.2
        rcases hw with hw | hw <;> simp [Act.packet, hw]
      | writeClose e rv path => cases hplain _ List.mem_cons_self
      | _ => rfl
    show Trace.built new ++ a.packet.toList = []
    rw [hbuilt, hpacket]
    rfl

end Trace

/-- The flag `close_packet_sent` behind a call. -/
theorem step_closePacketSent (s : State) (o : Op) :
    (step s o).conn.closePacketSent = (s.conn.closePacketSent || s.sendsClose o) := by
  have hstreams {o : Op} (ho : o.ofStreams = true) (hsends : s.sendsClose o = false) :
      (step s o).conn.closePacketSent = (s.conn.closePacketSent || s.sendsClose o) := by
    obtain ⟨⟨_, _, _, _, _, hc⟩, -⟩ := step_streamActs s ho
    rw [hc, hsends, Bool.or_false]
  cases o with
  | recv | onTimeout | drainOutgoingDatagrams => exact closePacketSent_after_poll s rfl
  | drainEvents => exact (Bool.or_false _).symm
  | close code reason =>
    obtain ⟨_, _, _, _, _, _, hc⟩ := Connection.close_rest s code reason
    show (Connection.close s code reason).1.conn.closePacketSent = _
    rw [hc]
    exact (Bool.or_false _).symm
  | _ => exact hstreams rfl rfl

/-! ## What a call hands out behind a requested close -/

/-- A datagram of a packet that ngtcp2 built for the close. -/
def Trace.ClosePacket (t : Trace) (d : Datagram) : Prop :=
  ∃ ccerr path, .writeClose ccerr (.ok d.payload) path ∈ t

theorem Trace.ClosePacket.mono {t t' : Trace} {d : Datagram} (h : t.ClosePacket d)
    (hsub : ∀ a ∈ t, a ∈ t') : t'.ClosePacket d := by
  obtain ⟨ccerr, path, hmem⟩ := h
  exact ⟨ccerr, path, hsub _ hmem⟩

/-- A close that is marked as sent is in a period. -/
def State.Sealed (period : Trace → Bool) (s : State) : Prop :=
  s.conn.closePacketSent = true → period s.trace = true

theorem step_suffix (s : State) (o : Op) : s.trace <:+ (step s o).trace :=
  State.moves_suffix (step_moves s o)

/-- A call for the close packet that is answered without a fatal error leaves ngtcp2 in a period. -/
theorem Act.writeClose_period {period : Trace → Bool} {ccerr : CcErr} {rv : Except Err Bytes}
    {path : Path} {t : Trace}
    (hfits : (Act.writeClose ccerr rv path).fitsPeriod period t = true)
    (hcloses : (Act.writeClose ccerr rv path).closesInPeriod period t = true)
    (hrv : ∀ e, rv = .error e → e.isNonfatalClosing = true) :
    period (.writeClose ccerr rv path :: t) = true := by
  cases rv with
  | ok pkt =>
    simp only [Act.fitsPeriod, Bool.and_eq_true, beq_iff_eq] at hfits
    rw [hfits.2]
    exact hcloses
  | error e =>
    simp only [Act.closesInPeriod, hrv e rfl, Bool.not_true, Bool.or_false] at hcloses
    simpa [Act.fitsPeriod, hcloses] using hfits

/-- The errors that were given to `ngtcp2_conn_write_connection_close`, in their order. -/
def Trace.closeErrors : Trace → List CcErr
  | [] => []
  | .writeClose ccerr _ _ :: t => closeErrors t ++ [ccerr]
  | _ :: t => closeErrors t

theorem Trace.closeErrors_append (new t : Trace) :
    Trace.closeErrors (new ++ t) = Trace.closeErrors t ++ Trace.closeErrors new := by
  induction new with
  | nil => exact (List.append_nil _).symm
  | cons a new ih =>
    cases a with
    | writeClose ccerr rv path =>
      show Trace.closeErrors (new ++ t) ++ [ccerr] =
        Trace.closeErrors t ++ (Trace.closeErrors new ++ [ccerr])
      rw [ih, List.append_assoc]
    | _ => exact ih

theorem Trace.closeErrors_plain {new : Trace} (h : ∀ a ∈ new, a.plain = true) :
    Trace.closeErrors new = [] := by
  induction new with
  | nil => rfl
  | cons a new ih =>
    have hrest := ih fun b hb => h b (List.mem_cons_of_mem _ hb)
    cases a with
    | writeClose ccerr rv path => exact absurd (h _ List.mem_cons_self) nofun
    | _ => exact hrest

/-- What the close branch adds to the history: the call for the close packet, and behind it at most
one datagram, of the packet that was built. -/
theorem Connection.drainClose_trace (s : State) (a : CloseAnswer) :
    ∃ new, (drainClose s a).1.trace =
        new ++ .writeClose s.conn.lastError a.result a.path ::
          (s.runCallbacks a.callbacks).trace ∧
      (Trace.handed new = [] ∨ ∃ d, Trace.handed new = [d] ∧ a.result = .ok d.payload) ∧
      Trace.closeErrors new = [] := by
  unfold drainClose
  cases hr : a.result with
  | ok pkt =>
    refine ⟨[.datagrams _], rfl, ?_⟩
    by_cases hlen : pkt.length > 0
    · rw [if_pos hlen]
      exact ⟨.inr ⟨_, rfl, rfl⟩, rfl⟩
    · rw [if_neg hlen]
      exact ⟨.inl rfl, rfl⟩
  | error e =>
    simp only
    split
    · rcases State.syncState_trace _ a.periods with ht | ht
      · exact ⟨[.datagrams []], congrArg (_ :: ·) ht, .inl rfl, rfl⟩
      · exact ⟨[.datagrams [], .periods a.periods], congrArg (_ :: ·) ht, .inl rfl, rfl⟩
    · exact ⟨[.threw _], rfl, .inl rfl, rfl⟩

/-- A close that is marked as sent stays in a period. -/
theorem step_sealed {period : Trace → Bool} {s : State} {o : Op}
    (hfits : (step s o).trace.FitsPeriod period) (hcloses : (step s o).trace.ClosesInPeriod period)
    (h : s.Sealed period) : (step s o).Sealed period := by
  intro hsent
  rw [step_closePacketSent, Bool.or_eq_true] at hsent
  rcases hsent with hsent | hsends
  · exact hfits.period_stays (step_suffix s o) (h hsent)
  · cases o with
    | drainOutgoingDatagrams a =>
      simp only [State.sendsClose, Bool.and_eq_true] at hsends
      obtain ⟨⟨hconn, hreq⟩, hrv⟩ := hsends
      obtain ⟨new, ht, -⟩ := Connection.drainClose_trace s a.close
      rw [← Connection.drainOutgoingDatagrams_close a hconn (by simpa using hreq)] at ht
      have hwrote : _ <:+ (step s (.drainOutgoingDatagrams a)).trace := ⟨new, ht.symm⟩
      refine hfits.period_stays hwrote ?_
      refine Act.writeClose_period (hfits _ _ hwrote) (hcloses _ _ hwrote) ?_
      intro e he
      rw [he] at hrv
      exact hrv
    | _ => cases hsends

/-- In a period the send loop adds no datagram to the array. -/
theorem Connection.drainLoop_nil {period : Trace → Bool} {s : State} (hp : period s.trace = true)
    (as : List IterAnswer) (hfits : (drainLoop s false [] as).1.trace.FitsPeriod period) :
    PlainActs s (drainLoop s false [] as).1 [] (loopThrows (drainLoop s false [] as).2) ∧
      ∀ out, (drainLoop s false [] as).2 = .stopped out → out = [] := by
  obtain ⟨ds, hl, hout⟩ := drainLoop_acts s false [] as
  obtain ⟨new, ht, hplain, hb, -⟩ := hl.acts
  rw [ht] at hfits
  rw [Trace.FitsPeriod.built_nil hfits hp hplain] at hb
  obtain rfl : ds = [] := List.map_eq_nil_iff.mp hb.symm
  exact ⟨hl, hout⟩

/-- A call that comes to the send loop in a period hands out nothing. -/
theorem Connection.drainOutgoingDatagrams_inPeriod {period : Trace → Bool} {s : State}
    {a : DrainAnswers} (hconn : s.conn.conn.isSome = true)
    (hsent : s.conn.closePacketSent = true) (hp : period s.trace = true)
    (hfits : (drainOutgoingDatagrams s a).1.trace.FitsPeriod period) :
    ∃ packets failed, CallActs s (drainOutgoingDatagrams s a).1 [] packets failed := by
  have hloop := drainLoop_nil (s := s) hp a.loop
  rw [drainOutgoingDatagrams_loop a (by unfold State.entersLoop; rw [hconn, hsent]; simp)]
    at hfits ⊢
  generalize drainLoop s false [] a.loop = r at hloop hfits ⊢
  obtain ⟨s', out | e | out⟩ := r
  · have hs : s'.trace <:+ (returnDatagrams (s'.syncState a.periods) out).1.trace := by
      refine List.IsSuffix.trans ?_ (List.suffix_cons _ _)
      rcases s'.syncState_trace a.periods with ht | ht
      · rw [ht]
      · rw [ht]; exact List.suffix_cons _ _
    obtain ⟨hl, hout⟩ := hloop (hfits.of_suffix hs)
    obtain rfl := hout out rfl
    exact ⟨_, _, ((CallActs.plain hl).thenPlain (.syncState s' a.periods)).returned []⟩
  · obtain ⟨hl, -⟩ := hloop (hfits.of_suffix (List.suffix_cons _ _))
    exact ⟨_, _, (CallActs.plain hl).log (.threw e)⟩
  · obtain ⟨hl, -⟩ := hloop hfits
    exact ⟨_, _, .plain hl⟩

/-- Behind a requested close a call hands out nothing, or the close packet, which it then marks as
sent. -/
theorem step_handed {period : Trace → Bool} {s : State} (hreq : s.conn.closeRequested = true)
    (h : s.Sealed period) (o : Op) (hfits : (step s o).trace.FitsPeriod period) :
    ∃ new, (step s o).trace = new ++ s.trace ∧
      (Trace.handed new = [] ∨
        s.conn.closePacketSent = false ∧ (step s o).conn.closePacketSent = true ∧
          ∃ d, Trace.handed new = [d] ∧ new.ClosePacket d) := by
  by_cases ho : ∃ a, o = .drainOutgoingDatagrams a
  · obtain ⟨a, rfl⟩ := ho
    cases hconn : s.conn.conn.isSome with
    | false =>
      refine ⟨[.datagrams []], ?_, .inl rfl⟩
      show (Connection.drainOutgoingDatagrams s a).1.trace = _
      rw [Connection.drainOutgoingDatagrams_none a hconn]
      rfl
    | true =>
      cases hsent : s.conn.closePacketSent with
      | true =>
        obtain ⟨_, _, hcall⟩ := Connection.drainOutgoingDatagrams_inPeriod hconn hsent (h hsent) hfits
        obtain ⟨new, ht, hh, -⟩ := hcall.acts
        exact ⟨new, ht, .inl hh⟩
      | false =>
        have hbranch := Connection.drainOutgoingDatagrams_close a hconn (by rw [hreq, hsent]; rfl)
        obtain ⟨new, ht, hh, -⟩ := Connection.drainClose_trace s a.close
        obtain ⟨cbs, hcbs, hplain, -⟩ := (PlainActs.pieces.runCallbacks s a.close.callbacks).acts
        have hafter := step_closePacketSent s (.drainOutgoingDatagrams a)
        rw [← hbranch, hcbs] at ht
        refine ⟨new ++ .writeClose s.conn.lastError a.close.result a.close.path :: cbs, ?_, ?_⟩
        · rw [List.append_assoc]
          exact ht
        · have hall : Trace.handed
              (new ++ .writeClose s.conn.lastError a.close.result a.close.path :: cbs) =
                Trace.handed new := by
            rw [Trace.handed_append]
            show Trace.handed cbs ++ _ = _
            rw [Trace.handed_plain hplain, List.nil_append]
          rw [hall]
          rcases hh with hh | ⟨d, hd, hr⟩
          · exact .inl hh
          · refine .inr ⟨rfl, ?_, d, hd, s.conn.lastError, a.close.path, ?_⟩
            · rw [hafter, hsent]
              simp [State.sendsClose, hconn, hreq, hsent, hr]
            · rw [hr]
              exact List.mem_append_right _ List.mem_cons_self
  · have hplain := (step_plainActs s fun a heq => ho ⟨a, heq⟩).acts
    obtain ⟨new, ht, hp, -⟩ := hplain
    exact ⟨new, ht, .inl (Trace.handed_plain hp)⟩

/-! ## Runs -/

theorem step_closeRequested {s : State} (h : s.conn.closeRequested = true) (o : Op) :
    (step s o).conn.closeRequested = true :=
  Moves.inv' (I := fun s : State => s.conn.closeRequested = true)
    (fun _ _ hm => hm.flags_kept.closeRequested) (step_moves s o) h

theorem run_suffix (s : State) (ops : List Op) : s.trace <:+ (Runs.run step s ops).trace := by
  induction ops generalizing s with
  | nil => exact List.suffix_rfl
  | cons o ops ih => exact (step_suffix s o).trans (ih (step s o))

/-- Nothing, or the close packet while the close is not marked as sent. -/
theorem run_handed {period : Trace → Bool} {s : State} (hreq : s.conn.closeRequested = true)
    (h : s.Sealed period) (ops : List Op)
    (hfits : (Runs.run step s ops).trace.FitsPeriod period)
    (hcloses : (Runs.run step s ops).trace.ClosesInPeriod period) :
    ∃ new, (Runs.run step s ops).trace = new ++ s.trace ∧
      (Trace.handed new = [] ∨
        s.conn.closePacketSent = false ∧ ∃ d, Trace.handed new = [d] ∧ new.ClosePacket d) := by
  induction ops generalizing s with
  | nil => exact ⟨[], rfl, .inl rfl⟩
  | cons o ops ih =>
    have hlater := run_suffix (step s o) ops
    have hfits' := hfits.of_suffix hlater
    obtain ⟨new, ht, hnew⟩ := step_handed hreq h o hfits'
    obtain ⟨rest, htr, hrest⟩ := ih (step_closeRequested hreq o)
      (step_sealed hfits' (hcloses.of_suffix hlater) h) hfits hcloses
    refine ⟨rest ++ new, ?_, ?_⟩
    · rw [Runs.run_cons, htr, ht, List.append_assoc]
    · rw [Trace.handed_append]
      rcases hnew with hnew | ⟨hunsent, hsent, d, hd, hpacket⟩
      · rw [hnew, List.nil_append]
        rcases hrest with hrest | ⟨hunsent, d, hd, hpacket⟩
        · exact .inl hrest
        · refine .inr ⟨?_, d, hd, hpacket.mono fun a => List.mem_append_left new⟩
          rw [step_closePacketSent, Bool.or_eq_false_iff] at hunsent
          exact hunsent.1
      · rcases hrest with hrest | ⟨hunsent', -⟩
        · rw [hrest, List.append_nil]
          exact .inr ⟨hunsent, d, hd, hpacket.mono fun a => List.mem_append_right rest⟩
        · exact absurd (hsent.symm.trans hunsent') nofun

/-- Behind `close()` the datagrams are none, or one that carries the close packet. -/
def OnlyClosePacket (acts : Trace) : Prop :=
  Trace.handed acts = [] ∨ ∃ d, Trace.handed acts = [d] ∧ acts.ClosePacket d

theorem Connection.close_requested (s : State) (code : Int64) (reason : Option Bytes) :
    (close s code reason).1.conn.closeRequested = true := by
  unfold close
  split
  · rename_i h; exact h
  · simp only
    split
    · rfl
    · rfl

theorem Start.state_unsent (start : Start) : start.state.conn.closePacketSent = false := by
  cases start with
  | uninitialised | client => rfl
  | server path remoteAddress localAddress payload callbacks =>
    exact Connection.runCallbacks_closePacketSent _ callbacks

theorem Start.run_sealed {period : Trace → Bool} (start : Start) (ops : List Op)
    (hfits : (start.run ops).trace.FitsPeriod period)
    (hcloses : (start.run ops).trace.ClosesInPeriod period) : (start.run ops).Sealed period := by
  have hrun (s : State) (ops : List Op) (h : s.Sealed period)
      (hfits : (Runs.run step s ops).trace.FitsPeriod period)
      (hcloses : (Runs.run step s ops).trace.ClosesInPeriod period) :
      (Runs.run step s ops).Sealed period := by
    induction ops generalizing s with
    | nil => exact h
    | cons o ops ih =>
      have hlater := run_suffix (step s o) ops
      exact ih _ (step_sealed (hfits.of_suffix hlater) (hcloses.of_suffix hlater) h) hfits hcloses
  refine hrun start.state ops ?_ hfits hcloses
  intro hsent
  exact absurd (start.state_unsent.symm.trans hsent) nofun

/-- When the call for the close packet is answered without a packet only in a period, the close
packet is all that leaves behind `close()`. -/
theorem only_closePacket (period : Trace → Bool) (start : Start) (ops : List Op) (code : Int64)
    (reason : Option Bytes) (later : List Op)
    (hfits : (start.run (ops ++ .close code reason :: later)).trace.FitsPeriod period)
    (hcloses : (start.run (ops ++ .close code reason :: later)).trace.ClosesInPeriod period) :
    OnlyClosePacket ((step (start.run ops) (.close code reason)).actsSince
      (start.run (ops ++ .close code reason :: later))) := by
  have hrun : start.run (ops ++ .close code reason :: later) =
      Runs.run step (step (start.run ops) (.close code reason)) later := by
    unfold Start.run
    rw [Runs.run_append, Runs.run_cons]
  rw [hrun] at hfits hcloses ⊢
  have hclosed := run_suffix (step (start.run ops) (.close code reason)) later
  have hbefore := (step_suffix (start.run ops) (.close code reason)).trans hclosed
  have hsealed : (step (start.run ops) (.close code reason)).Sealed period :=
    step_sealed (hfits.of_suffix hclosed) (hcloses.of_suffix hclosed)
      (start.run_sealed ops (hfits.of_suffix hbefore) (hcloses.of_suffix hbefore))
  have hreq : (step (start.run ops) (.close code reason)).conn.closeRequested = true :=
    Connection.close_requested (start.run ops) code reason
  obtain ⟨new, ht, hnew⟩ := run_handed hreq hsealed later hfits hcloses
  rw [State.actsSince_eq ht]
  rcases hnew with hnil | ⟨-, d, hd, hpacket⟩
  · exact .inl hnil
  · exact .inr ⟨d, hd, hpacket⟩

/-- The period of an ngtcp2 that has built a close packet. -/
def closePacketBuilt (t : Trace) : Bool :=
  t.any fun
    | .writeClose _ (.ok pkt) _ => decide (pkt.length > 0)
    | _ => false

/-- A client that closes, sends the close packet, and is asked for more. -/
theorem only_closePacket_sent :
    OnlyClosePacket ((step (Start.client {} none none).state (.close 7 none)).actsSince
      (Start.run (.client {} none none)
        [.close 7 none, .drainOutgoingDatagrams { close := { result := .ok [9] } },
          .drainOutgoingDatagrams { loop := [{ writev := { result := .error .closing } }] }])) :=
  only_closePacket closePacketBuilt (.client {} none none) [] 7 none
    [.drainOutgoingDatagrams { close := { result := .ok [9] } },
      .drainOutgoingDatagrams { loop := [{ writev := { result := .error .closing } }] }]
    (by decide) (by decide)

/-- A client closes before its first Initial: there is no close packet, and the Initial leaves behind
the close. -/
theorem ordinary_packet_leaves :
    ¬ ∀ (period : Trace → Bool) (start : Start) (ops : List Op) (code : Int64)
      (reason : Option Bytes) (later : List Op),
      (start.run (ops ++ .close code reason :: later)).trace.FitsPeriod period →
      OnlyClosePacket ((step (start.run ops) (.close code reason)).actsSince
        (start.run (ops ++ .close code reason :: later))) := by
  intro hall
  have hclaim := hall closePacketBuilt (.client {} none none) [] 7 none
    [.drainOutgoingDatagrams { close := { result := .ok [] } },
      .drainOutgoingDatagrams
        { loop := [{ writev := { result := .ok [5] } }, { writev := { result := .ok [] } }] }]
    (by decide)
  rcases hclaim with hnil | ⟨d, hd, ccerr, path, hmem⟩
  · exact absurd hnil (by decide)
  · have hpayload : d.payload = [5] := by
      have hsingle := (congrArg (List.map Datagram.payload) hd).symm
      exact List.singleton_inj.mp (hsingle.trans (by decide))
    rw [hpayload] at hmem
    -- the call for the close packet was answered 0
    have hbuilt : closePacketBuilt _ = true := List.any_eq_true.mpr ⟨_, hmem, rfl⟩
    exact absurd hbuilt (by decide)

end PhpQuic
