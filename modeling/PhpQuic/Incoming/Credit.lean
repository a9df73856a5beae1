import Mathlib.Algebra.GroupWithZero.Nat
import PhpQuic.Incoming.Integrity

/-!
# Receive credit

A peer may send on a stream, and on all streams together, up to the limits that ngtcp2 has told it.
The first limits are the windows of the transport parameters; ngtcp2 raises them only when it is told
to, by `ngtcp2_conn_extend_max_stream_offset` and `ngtcp2_conn_extend_max_offset`.

* `State.streamCredit`, `State.credit`: what the peer may still send.
* `Move.grants_nothing`: no function of the extension raises a limit.
* `credit_restored_iff`: so the credit is what was advertised less what was delivered, and reading
  gives nothing of it back.
-/

namespace PhpQuic

open Runs (Moves)

/-- The windows of `ngtcp2_transport_params`. -/
structure TransportParams where
  initialMaxStreamDataBidiLocal : Nat := 0
  initialMaxStreamDataBidiRemote : Nat := 0
  initialMaxStreamDataUni : Nat := 0
  initialMaxData : Nat := 0

/-- The windows that `php_quic_connection_init_native` and `ServerConnection::accept` set. -/
def Role.transportParams : Role → TransportParams
  | .client =>
    { initialMaxStreamDataBidiLocal := 128 * 1024
      initialMaxStreamDataBidiRemote := 128 * 1024
      initialMaxData := 1024 * 1024 }
  | .server =>
    { initialMaxStreamDataBidiLocal := 64 * 1024
      initialMaxStreamDataBidiRemote := 64 * 1024
      initialMaxStreamDataUni := 64 * 1024
      initialMaxData := 1024 * 1024 }

/-- The window of a stream: nothing arrives on a unidirectional stream of one's own. -/
def Role.initialMaxStreamData (role : Role) (streamId : Int) : Nat :=
  if isBidiStream streamId then
    if isLocalStream role streamId then role.transportParams.initialMaxStreamDataBidiLocal
    else role.transportParams.initialMaxStreamDataBidiRemote
  else if isLocalStream role streamId then 0
  else role.transportParams.initialMaxStreamDataUni

/-- By how much an act raises the limit of the stream. -/
def Act.extendsStream (id : Int) : Act → Nat
  | .extendMaxStreamOffset i datalen => if i = id then datalen else 0
  | _ => 0

/-- By how much an act raises the limit of the connection. -/
def Act.extends : Act → Nat
  | .extendMaxOffset datalen => datalen
  | _ => 0

/-- How many bytes of stream data an act brings. -/
def Act.arrives : Act → Nat
  | .callback (.recvStreamData _ _ _ data) => data.length
  | _ => 0

/-- How many bytes ngtcp2 has delivered on all streams. -/
def Trace.received (t : Trace) : Nat := (t.map Act.arrives).sum

namespace State

variable (s : State) (role : Role)

/-- What the peer may send on the stream beyond what was delivered. -/
def streamCredit (id : Int) : Int :=
  role.initialMaxStreamData id + (s.trace.map (Act.extendsStream id)).sum -
    (s.trace.delivered id).length

/-- What the peer may send on the connection beyond what was delivered. -/
def credit : Int :=
  role.transportParams.initialMaxData + (s.trace.map Act.extends).sum - s.trace.received

/-- The credit is what was advertised at first. -/
structure CreditRestored : Prop where
  stream : ∀ id, s.streamCredit role id = role.initialMaxStreamData id
  connection : s.credit role = role.transportParams.initialMaxData

end State

/-- All that was delivered has been read. -/
def State.AllRead (s : State) : Prop := ∀ id, (s.conn.entry id).rxBuffer = []

/-! ## No limit is raised -/

/-- The act raises a limit. -/
def Act.grants : Act → Bool
  | .extendMaxStreamOffset .. | .extendMaxOffset _ => true
  | _ => false

/-- No function of the extension raises a limit. -/
theorem Move.grants_nothing {s s' : State} (h : Move s s') (hs : ∀ a ∈ s.trace, a.grants = false) :
    ∀ a ∈ s'.trace, a.grants = false := by
  have hone {a : Act} (ha : a.grants = false) : ∀ b ∈ a :: s.trace, b.grants = false := by
    intro b hb
    rcases List.mem_cons.mp hb with rfl | hb
    · exact ha
    · exact hs b hb
  have hreturned (bidi : Bool) (rv : Except Err Int) (pending : Bool) :
      ∀ b ∈ (Connection.returnStream (s.log (.openLocal bidi rv)) bidi rv pending).1.trace,
        b.grants = false := by
    intro b hb
    rcases List.mem_cons.mp hb with rfl | hb
    · rfl
    · exact hone rfl b hb
  cases h with
  | quiet a ha =>
    refine hone ?_
    cases a with
    | extendMaxStreamOffset id n => cases ha
    | extendMaxOffset n => cases ha
    | _ => rfl
  | opened bidi id hconn => exact hreturned bidi (.ok id) false
  | blocked bidi hconn => exact hreturned bidi (.error .streamIdBlocked) true
  | sync p =>
    rcases s.syncState_trace p with ht | ht
    · rw [ht]; exact hs
    · rw [ht]; exact hone rfl
  | close code reason hopen => rw [Connection.close_trace]; exact hs
  | clamp | lastError | closeSent => exact hs
  | threw | callback | wrote | ended | reset | read | openMatched | openMismatched | settle
  | drainEvents => exact hone rfl

theorem Start.run_grants_nothing (start : Start) (ops : List Op) :
    ∀ a ∈ (start.run ops).trace, a.grants = false := by
  refine Moves.inv' (I := fun s : State => ∀ a ∈ s.trace, a.grants = false)
    (fun _ _ hm => hm.grants_nothing) (start.run_moves ops) ?_
  cases start <;> exact List.forall_mem_nil _

/-- Acts that raise no limit add nothing to it. -/
theorem sum_eq_zero {t : Trace} {f : Act → Nat} (hf : ∀ a : Act, a.grants = false → f a = 0)
    (h : ∀ a ∈ t, a.grants = false) : (t.map f).sum = 0 := by
  induction t with
  | nil => rfl
  | cons a t ih =>
    rw [List.map_cons, List.sum_cons, hf a (h a List.mem_cons_self),
      ih fun b hb => h b (List.mem_cons_of_mem _ hb)]

/-- Nothing has arrived if nothing was delivered on any stream. -/
theorem Trace.received_eq_zero {t : Trace} (h : ∀ id, Trace.delivered id t = []) :
    Trace.received t = 0 := by
  induction t with
  | nil => rfl
  | cons a t ih =>
    show Act.arrives a + Trace.received t = 0
    by_cases hcb : ∃ fin i offset data, a = .callback (.recvStreamData fin i offset data)
    · obtain ⟨fin, i, offset, data, rfl⟩ := hcb
      have hcons (id : Int) : (if i = id then Trace.delivered id t ++ data else Trace.delivered id t) =
          [] := h id
      have hi := hcons i
      rw [if_pos rfl] at hi
      obtain ⟨hdelivered, rfl⟩ := List.append_eq_nil_iff.mp hi
      refine (Nat.zero_add _).trans (ih fun id => ?_)
      by_cases hid : i = id
      · exact hid ▸ hdelivered
      · have hother := hcons id
        rw [if_neg hid] at hother
        exact hother
    · have hnone : Act.arrives a = 0 ∧ ∀ id, Trace.delivered id (a :: t) = Trace.delivered id t := by
        cases a with
        | callback cb =>
          cases cb with
          | recvStreamData fin i offset data => exact absurd ⟨_, _, _, _, rfl⟩ hcb
          | _ => exact ⟨rfl, fun _ => rfl⟩
        | _ => exact ⟨rfl, fun _ => rfl⟩
      rw [hnone.1, Nat.zero_add]
      exact ih fun id => hnone.2 id ▸ h id

/-- The credit behind a run is what was advertised less what was delivered. When all of that has been
read, it is what was advertised if and only if nothing has been read. -/
theorem credit_restored_iff (start : Start) (ops : List Op) (role : Role) :
    (∀ id, (start.run ops).streamCredit role id =
      role.initialMaxStreamData id - ((start.run ops).trace.delivered id).length) ∧
    (start.run ops).credit role =
      role.transportParams.initialMaxData - (start.run ops).trace.received ∧
    ((start.run ops).AllRead →
      ((start.run ops).CreditRestored role ↔ ∀ id, (start.run ops).trace.chunks id = [])) := by
  have hgrants := start.run_grants_nothing ops
  have hstream (id : Int) : (start.run ops).streamCredit role id =
      role.initialMaxStreamData id - ((start.run ops).trace.delivered id).length := by
    unfold State.streamCredit
    rw [sum_eq_zero (f := Act.extendsStream id) _ hgrants]
    · omega
    · intro a ha
      cases a with
      | extendMaxStreamOffset i n => cases ha
      | _ => rfl
  have hconn : (start.run ops).credit role =
      role.transportParams.initialMaxData - (start.run ops).trace.received := by
    unfold State.credit
    rw [sum_eq_zero (f := Act.extends) _ hgrants]
    · omega
    · intro a ha
      cases a with
      | extendMaxOffset n => cases ha
      | _ => rfl
  refine ⟨hstream, hconn, fun hread => ?_⟩
  -- all that was delivered has been read
  have hchunks (id : Int) :
      (start.run ops).trace.chunks id = (start.run ops).trace.delivered id := by
    have hi := start.run_integrity ops id
    rw [hread id, List.append_nil] at hi
    exact hi
  simp only [hchunks]
  constructor
  · intro h id
    have hid := h.stream id
    rw [hstream] at hid
    exact List.length_eq_zero_iff.mp (by omega)
  · intro h
    refine ⟨fun id => ?_, ?_⟩
    · rw [hstream, h id, List.length_nil]; omega
    · rw [hconn, Trace.received_eq_zero h]; omega

/-- A client that has opened a stream, on which a byte arrives and is read. -/
def byteRead : List Op :=
  [.openStream (.ok 0),
    .recv (fun _ _ => some [{ family := .inet }]) ⟨[9], some ⟨[49], 1⟩, none⟩
      { callbacks := [.recvStreamData false 0 0 [7]] },
    .read 0 8192]

/-- The byte's credit is gone. -/
theorem credit_lost :
    ¬ ∀ (start : Start) (ops : List Op) (role : Role), start.base.conn.conn = some role →
      (start.run ops).AllRead → (start.run ops).CreditRestored role := by
  intro h
  have hread : ((Start.client {} none none).run byteRead).AllRead := by
    intro id
    have hi := (Start.client {} none none).run_integrity byteRead id
    have hdelivered : ((Start.client {} none none).run byteRead).trace.delivered id =
        if (0 : Int) = id then [7] else [] := rfl
    by_cases hid : 0 = id
    · subst hid; decide
    · rw [hdelivered, if_neg hid] at hi
      exact (List.append_eq_nil_iff.mp hi).2
  have hbad := (h (.client {} none none) byteRead .client rfl hread).stream 0
  revert hbad
  decide

end PhpQuic
