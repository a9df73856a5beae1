import PhpQuic.Connection.EntrySteps
import PhpQuic.Incoming.Integrity
import PhpQuic.Lib.Joint
import PhpQuic.Outgoing.Fin

/-!
# Two connections and the transport between them

Both ends of a connection can be of this extension. `Peers` is a run of each end and one order of
all that happened at both: the ends run at the same time, so any order that keeps the two histories
is one (`Joint.of`). Between the extension at one end and the extension at the other are ngtcp2, the
application's sockets and ngtcp2 again.

* `WritevAnswer.takesFin`, `Trace.finTaken`: ngtcp2 has taken the FIN of a stream with the last of
  its bytes.
* `Peers.Reliable p id`: what ngtcp2 documents of the stream `id` at both ends. What it has taken at
  one end it delivers at the other, in order and without gaps, and the FIN with the last byte; behind
  the FIN it takes nothing more.
* `Carried`: what was delivered at an end is a prefix of what was taken at the other, all of it when
  the FIN was delivered. `Peers.Reliable.carried`: by induction on the joint history.
-/

namespace PhpQuic

/-- The other end. -/
def Role.other : Role → Role
  | .client => .server
  | .server => .client

theorem Role.other_ne (r : Role) : r.other ≠ r := by cases r <;> nofun

theorem Role.eq_other {r r' : Role} (h : r' ≠ r) : r' = r.other := by
  cases r <;> cases r' <;> first | rfl | exact absurd rfl h

/-! ## The FIN -/

/-- ngtcp2 has taken the FIN of the offer: `wdatalen` is the number of bytes offered. -/
def WritevAnswer.takesFin (a : WritevAnswer) (o : Offer) : Bool :=
  match a.result with
  | .ok _ | .error .writeMore | .error .streamDataBlocked => a.acceptsFin o
  | .error _ => false

/-- With the FIN it takes all of the offer. -/
theorem WritevAnswer.taken_of_takesFin {a : WritevAnswer} {o : Offer} (h : a.takesFin o = true) :
    a.taken o = o.data := by
  have hall (hacc : a.acceptsFin o = true) : o.data.take a.wdatalen.toNat = o.data := by
    have hlen : a.wdatalen = o.data.length := of_decide_eq_true (Bool.and_eq_true_iff.mp hacc).2
    rw [hlen, Int.toNat_natCast, List.take_length]
  unfold takesFin at h
  unfold taken
  cases hres : a.result with
  | ok pkt =>
    rw [hres] at h
    exact hall h
  | error e =>
    rw [hres] at h
    cases e <;> first | exact hall h | cases h

theorem WritevAnswer.fin_of_takesFin {a : WritevAnswer} {o : Offer} (h : a.takesFin o = true) :
    o.fin = true := by
  unfold takesFin at h
  cases hres : a.result with
  | ok pkt =>
    rw [hres] at h
    exact (Bool.and_eq_true_iff.mp h).1
  | error e =>
    rw [hres] at h
    cases e <;> first | exact (Bool.and_eq_true_iff.mp h).1 | cases h

namespace Trace

/-- ngtcp2 has taken the FIN of the stream. -/
def finTaken (id : Int) : Trace → Bool
  | [] => false
  | .writev (some o) a :: t => (o.streamId = id && a.takesFin o) || finTaken id t
  | _ :: t => finTaken id t

/-- ngtcp2 has delivered the FIN of the stream. -/
def finDelivered (id : Int) : Trace → Bool
  | [] => false
  | .callback (.recvStreamData fin i _ _) :: t => (decide (i = id) && fin) || finDelivered id t
  | _ :: t => finDelivered id t

/-- Behind the end of a stream ngtcp2 takes nothing more of it, and no second FIN. -/
def TakesNothingBehindEnd (id : Int) : Trace → Prop :=
  History.Each fun a t => ∀ p ∈ a.answered id, (Trace.shutWr id t || Trace.finTaken id t) = true →
    p.2.taken p.1 = [] ∧ p.2.takesFin p.1 = false

instance (id : Int) (t : Trace) : Decidable (TakesNothingBehindEnd id t) :=
  inferInstanceAs (Decidable (History.Each _ t))

variable {id : Int} {a : Act} {t : Trace}

theorem finTaken_cons (h : a.outgoing id = false) : finTaken id (a :: t) = finTaken id t := by
  cases a with
  | writev o w => cases o <;> simp_all [finTaken, Act.outgoing]
  | _ => rfl

theorem finDelivered_cons (h : a.incoming id = false) :
    finDelivered id (a :: t) = finDelivered id t := by
  cases a with
  | callback cb => cases cb <;> simp_all [finDelivered, Act.incoming]
  | _ => rfl

theorem TakesNothingBehindEnd.shut (h : TakesNothingBehindEnd id t) : TakesNothingShut id t :=
  fun a t' hs p hp hshut => (h a t' hs p hp (by rw [hshut, Bool.true_or])).1

/-- The answer with which ngtcp2 took the FIN. -/
theorem exists_of_finTaken (h : finTaken id t = true) :
    ∃ o a t', .writev (some o) a :: t' <:+ t ∧ o.streamId = id ∧ a.takesFin o = true := by
  induction t with
  | nil => cases h
  | cons b t ih =>
    by_cases hearlier : finTaken id t = true
    · obtain ⟨o, a, t', hs, hid, ha⟩ := ih hearlier
      exact ⟨o, a, t', hs.trans (List.suffix_cons _ _), hid, ha⟩
    · cases b with
      | writev offer w =>
        cases offer with
        | none => exact absurd h hearlier
        | some o =>
          rw [Bool.not_eq_true] at hearlier
          unfold finTaken at h
          rw [hearlier, Bool.or_false, Bool.and_eq_true, decide_eq_true_eq] at h
          exact ⟨o, w, t, List.suffix_rfl, h.1, h.2⟩
      | _ => exact absurd h hearlier

end Trace

/-! ## The transport -/

/-- Two ends of a connection: a run of each, and one order of all that has happened. -/
structure Peers where
  start : Role → Start
  ops : Role → List Op
  log : List (Role × Act)
  log_of : ∀ r, Joint.of r log = ((start r).run (ops r)).trace

/-- The state of an end. -/
def Peers.state (p : Peers) (r : Role) : State := (p.start r).run (p.ops r)

/-- What ngtcp2 documents of the data callback of a stream. The data begins where the last data ended,
and it is what the other end's ngtcp2 has taken there; the FIN comes with the last byte that was taken
before the other end's FIN. -/
def BringsTaken (id : Int) (x : Role × Act) (h : List (Role × Act)) : Prop :=
  match x with
  | (r, .callback (.recvStreamData fin i offset data)) => i = id →
    offset = (Trace.delivered id (Joint.of r h)).length ∧
      data = ((Trace.taken id (Joint.of r.other h)).drop offset).take data.length ∧
      (fin = true → Trace.finTaken id (Joint.of r.other h) = true ∧
        offset + data.length = (Trace.taken id (Joint.of r.other h)).length)
  | _ => True

instance (id : Int) (x : Role × Act) (h : List (Role × Act)) : Decidable (BringsTaken id x h) := by
  unfold BringsTaken
  split <;> infer_instance

/-- What ngtcp2 documents of a stream at both ends. -/
structure Peers.Reliable (p : Peers) (id : Int) : Prop where
  brings : History.Each (BringsTaken id) p.log
  ends : ∀ r, (p.state r).trace.TakesNothingBehindEnd id

/-- What is delivered at one end was taken at the other: all of it with the FIN. -/
structure Carried (id : Int) (near far : Trace) : Prop where
  delivered_taken : near.delivered id <+: far.taken id
  fin : near.finDelivered id = true → far.finTaken id = true ∧ near.delivered id = far.taken id

namespace Carried

variable {id : Int} {near far : Trace}

theorem nil (id : Int) : Carried id [] [] := ⟨List.prefix_rfl, fun h => absurd h Bool.false_ne_true⟩

/-- An act of the receiving end. -/
theorem near_cons (h : Carried id near far) {a : Act} {r : Role} {log : List (Role × Act)}
    (hnear : Joint.of r log = near) (hfar : Joint.of r.other log = far)
    (hb : BringsTaken id (r, a) log) : Carried id (a :: near) far := by
  by_cases ha : a.incoming id = false
  · refine ⟨?_, ?_⟩
    · rw [Trace.delivered_cons ha]; exact h.delivered_taken
    · rw [Trace.finDelivered_cons ha, Trace.delivered_cons ha]; exact h.fin
  · cases a with
    | chunk i data => exact ⟨h.delivered_taken, h.fin⟩
    | callback cb =>
      cases cb with
      | recvStreamData fin i offset data =>
        obtain rfl : i = id := by simpa [Act.incoming] using ha
        obtain ⟨hoff, hdata, hfin⟩ := hb rfl
        rw [hnear] at hoff
        rw [hfar] at hdata hfin
        have hdel : Trace.delivered i (.callback (.recvStreamData fin i offset data) :: near) =
            near.delivered i ++ data := if_pos rfl
        obtain ⟨rest, hrest⟩ := h.delivered_taken
        have hdrop : (far.taken i).drop offset = rest := by
          rw [← hrest, hoff]; exact List.drop_left
        rw [hdrop] at hdata
        have hpre : near.delivered i ++ data <+: far.taken i := by
          rw [← hrest, hdata]
          exact (List.prefix_append_right_inj _).mpr (List.take_prefix _ _)
        refine ⟨hdel ▸ hpre, fun hf => ?_⟩
        rw [hdel]
        have hlen : (near.delivered i ++ data).length = offset + data.length := by
          rw [List.length_append, hoff]
        cases fin with
        | true =>
          obtain ⟨htaken, hend⟩ := hfin rfl
          exact ⟨htaken, hpre.eq_of_length (hlen.trans hend)⟩
        | false =>
          -- the FIN came before, so nothing is left to be delivered
          have hbefore : near.finDelivered i = true := by simpa [Trace.finDelivered] using hf
          obtain ⟨htaken, hall⟩ := h.fin hbefore
          refine ⟨htaken, ?_⟩
          have hnil : rest = [] := by simpa [hall] using hrest
          rw [hnil, List.take_nil] at hdata
          rw [hdata, List.append_nil]
          exact hall
      | _ => simp [Act.incoming] at ha
    | _ => simp [Act.incoming] at ha

/-- An act of the sending end. -/
theorem far_cons (h : Carried id near far) {a : Act}
    (hend : ∀ p ∈ a.answered id, (far.shutWr id || far.finTaken id) = true →
      p.2.taken p.1 = [] ∧ p.2.takesFin p.1 = false) : Carried id near (a :: far) := by
  by_cases ha : a.outgoing id = false
  · refine ⟨?_, ?_⟩
    · rw [Trace.taken_cons ha]; exact h.delivered_taken
    · rw [Trace.finTaken_cons ha, Trace.taken_cons ha]; exact h.fin
  · cases a with
    | writev offer w =>
      cases offer with
      | none => exact absurd rfl ha
      | some o =>
        have hid : o.streamId = id := by simpa [Act.outgoing] using ha
        have htaken : Trace.taken id (.writev (some o) w :: far) = far.taken id ++ w.taken o :=
          if_pos hid
        refine ⟨htaken ▸ h.delivered_taken.trans (List.prefix_append _ _), fun hf => ?_⟩
        obtain ⟨hfin, hall⟩ := h.fin hf
        obtain ⟨hnone, -⟩ := hend (o, w) (by simp [Act.answered, hid]) (by rw [hfin, Bool.or_true])
        refine ⟨?_, by rw [htaken, hnone, List.append_nil]; exact hall⟩
        simp [Trace.finTaken, hfin]
    | wrote | ended | wasReset => exact ⟨h.delivered_taken, h.fin⟩
    | _ => exact absurd rfl ha

end Carried

/-- The transport between the ends, by induction on the joint history. -/
theorem carried_of_each {id : Int} {r : Role} {log : List (Role × Act)}
    (hb : History.Each (BringsTaken id) log)
    (hend : Trace.TakesNothingBehindEnd id (Joint.of r.other log)) :
    Carried id (Joint.of r log) (Joint.of r.other log) := by
  induction log with
  | nil => exact .nil id
  | cons x log ih =>
    obtain ⟨r', a⟩ := x
    obtain ⟨hx, hb⟩ := History.each_cons.mp hb
    have hearlier := ih hb (hend.of_suffix (Joint.of_suffix (List.suffix_cons _ _)))
    by_cases hr : r' = r
    · subst hr
      rw [Joint.of_cons_self, Joint.of_cons_ne r'.other_ne.symm]
      exact hearlier.near_cons rfl rfl hx
    · obtain rfl := Role.eq_other hr
      rw [Joint.of_cons_self] at hend
      rw [Joint.of_cons_self, Joint.of_cons_ne hr]
      exact hearlier.far_cons (History.each_cons.mp hend).1

theorem Peers.Reliable.carried {p : Peers} {id : Int} (h : p.Reliable id) (r : Role) :
    Carried id (p.state r).trace (p.state r.other).trace := by
  have hlog := carried_of_each (r := r) h.brings (by rw [p.log_of]; exact h.ends r.other)
  rw [p.log_of, p.log_of] at hlog
  exact hlog

end PhpQuic
