import Mathlib.Algebra.GroupWithZero.Nat
import PhpQuic.Outgoing.ClosePacket

/-!
# What the close frame and the close event say

`close()` writes its code and its reason to `last_error`, which the close packet reports, and queues
a `ConnectionClosed`. Until the packet is written, `last_error` is shared with the error path of
`recv`, which takes a code of 0 for "no error yet".

* `Follows`: what becomes of an error; kept by every call while the close waits
  (`run_lastError`, by induction on the calls).
* `close_event`: the event that `close()` queues. Its reason is a C string.
* `close_says_iff`: frame and event say what `close()` said if and only if the code is not 0 or no
  datagram failed in between, and the reason has no NUL or another event came first.
-/

namespace PhpQuic

open Runs (Moves)

/-- `ngtcp2_conn_read_pkt` fails, and not because of a closing period. -/
def Act.readFailed : Act → Bool
  | .readPkt _ _ (some rv) => !rv.isNonfatalClosing
  | _ => false

/-- What becomes of the error `e` behind the acts: a failed datagram overwrites the code 0. -/
def Follows (e : CcErr) (acts : Trace) (e' : CcErr) : Prop :=
  if e.errorCode = 0 ∧ acts.any Act.readFailed = true then e'.type = .transport else e' = e

theorem Follows.keeps {e e' : CcErr} {acts : Trace} (h : e' = e)
    (hacts : acts.any Act.readFailed = false) : Follows e acts e' := by
  unfold Follows
  rw [hacts, if_neg (by simp)]
  exact h

theorem Follows.trans {e e' e'' : CcErr} {acts acts' : Trace} (h : Follows e acts e')
    (h' : Follows e' acts' e'') : Follows e (acts' ++ acts) e'' := by
  unfold Follows at h h' ⊢
  rw [List.any_append]
  by_cases hover : e.errorCode = 0 ∧ acts.any Act.readFailed = true
  · rw [if_pos hover] at h
    rw [if_pos ⟨hover.1, by rw [hover.2, Bool.or_true]⟩]
    split at h'
    · exact h'
    · rw [h']; exact h
  · rw [if_neg hover] at h
    subst h
    by_cases hcode : e'.errorCode = 0
    · have hnone : acts.any Act.readFailed = false := by simpa [hcode] using hover
      rw [hnone, Bool.or_false]
      exact h'
    · rw [if_neg fun hand => hcode hand.1] at h' ⊢
      exact h'

/-- What becomes of the error of the connection. -/
def State.ErrorFollows (s s' : State) : Prop :=
  ∃ new, s'.trace = new ++ s.trace ∧ Follows s.conn.lastError new s'.conn.lastError

namespace State.ErrorFollows

variable {s s' s'' : State}

theorem trans (h : s.ErrorFollows s') (h' : s'.ErrorFollows s'') : s.ErrorFollows s'' := by
  obtain ⟨new, ht, he⟩ := h
  obtain ⟨new', ht', he'⟩ := h'
  exact ⟨new' ++ new, by rw [ht', ht, List.append_assoc], he.trans he'⟩

/-- The error is left alone. -/
theorem of_eq (new : Trace) (ht : s'.trace = new ++ s.trace)
    (he : s'.conn.lastError = s.conn.lastError) (hnew : new.any Act.readFailed = false) :
    s.ErrorFollows s' := ⟨new, ht, .keeps he hnew⟩

theorem refl (s : State) : s.ErrorFollows s := of_eq [] rfl rfl rfl

theorem log (s : State) {a : Act} (h : a.readFailed = false) : s.ErrorFollows (s.log a) :=
  of_eq [a] rfl rfl (by simp [h])

theorem syncState (s : State) (p : Periods) : s.ErrorFollows (s.syncState p) := by
  have he : (s.syncState p).conn.lastError = s.conn.lastError := by
    obtain ⟨_, _, _, _, _, hc⟩ := s.conn.syncState_rest p
    rw [State.syncState_conn, hc]
  rcases s.syncState_trace p with ht | ht
  · exact of_eq [] ht he rfl
  · exact of_eq [.periods p] ht he rfl

theorem streamActs (h : StreamActs s s') : s.ErrorFollows s' := by
  obtain ⟨⟨_, _, _, _, _, hc⟩, new, ht, hnew⟩ := h
  refine of_eq new ht (by rw [hc]) (List.any_eq_false.mpr fun a ha => ?_)
  have hof := hnew a ha
  cases a with
  | readPkt => cases hof
  | _ => exact Bool.false_ne_true

end State.ErrorFollows

namespace Connection

open State.ErrorFollows (log streamActs)

/-- The answer of `ngtcp2_conn_read_pkt` and what `recv` writes to the error behind it. -/
theorem readPkt_error (s : State) (path : Path) (payload : Bytes) {rv : Err}
    (hfatal : rv.isNonfatalClosing = false) {e : CcErr} (he : e.type = .transport) :
    s.ErrorFollows (if s.conn.lastError.errorCode = 0 then
      (s.log (.readPkt path payload (some rv))).setLastError e
      else s.log (.readPkt path payload (some rv))) := by
  have hfailed : List.any [Act.readPkt path payload (some rv)] Act.readFailed = true := by
    simp [Act.readFailed, hfatal]
  by_cases hcode : s.conn.lastError.errorCode = 0
  · rw [if_pos hcode]
    refine ⟨[.readPkt path payload (some rv)], rfl, ?_⟩
    unfold Follows
    rw [if_pos ⟨hcode, hfailed⟩]
    exact he
  · rw [if_neg hcode]
    refine ⟨[.readPkt path payload (some rv)], rfl, ?_⟩
    unfold Follows
    rw [if_neg fun hand => hcode hand.1]
    rfl

theorem recv_error (s : State) (g : Getaddrinfo) (d : Datagram) (a : ReadPktAnswer) :
    s.ErrorFollows (recv s g d a).1 := by
  have hcb := streamActs (.runCallbacks s a.callbacks)
  have hread (path : Path) (h : ∀ rv, a.rv = some rv → rv.isNonfatalClosing = true) :
      s.ErrorFollows ((s.runCallbacks a.callbacks).log (.readPkt path d.payload a.rv)) := by
    refine hcb.trans (log _ ?_)
    cases hrv : a.rv with
    | none => rfl
    | some rv => simp [Act.readFailed, h rv hrv]
  unfold recv
  split
  · exact log s rfl
  · split
    · exact log s rfl
    · rename_i remoteAddr hremote
      simp only
      split
      · exact log s rfl
      · rename_i localAddr hlocal
        cases hrv : a.rv with
        | none =>
          simp only [hrv] at hread ⊢
          exact (hread _ nofun).trans (.syncState _ _)
        | some rv =>
          simp only [hrv] at hread ⊢
          cases hfatal : rv.isNonfatalClosing with
          | true => exact (hread _ fun _ h => Option.some.inj h ▸ hfatal).trans (.syncState _ _)
          | false =>
            refine (hcb.trans (readPkt_error _ _ _ hfatal ?_)).trans (log _ rfl)
            split
            · rfl
            · rfl

theorem drainClose_error (s : State) (a : CloseAnswer) : s.ErrorFollows (drainClose s a).1 := by
  have hwrote : s.ErrorFollows ((s.runCallbacks a.callbacks).log
      (.writeClose s.conn.lastError a.result a.path)) :=
    (streamActs (.runCallbacks s a.callbacks)).trans (log _ rfl)
  have hsent : s.ErrorFollows (((s.runCallbacks a.callbacks).log
      (.writeClose s.conn.lastError a.result a.path)).withConn
        { (s.runCallbacks a.callbacks).conn with closePacketSent := true }) := hwrote
  unfold drainClose
  simp only
  split
  · split
    · exact (hsent.trans (.syncState _ _)).trans (log _ rfl)
    · exact hwrote.trans (log _ rfl)
  · exact hsent.trans (log _ rfl)

end Connection

/-- While a requested close waits for its packet, only a failed datagram touches the error. -/
theorem step_lastError {s : State} (hreq : s.conn.closeRequested = true)
    (hclosed : s.conn.closed = true) (hunsent : s.conn.closePacketSent = false) (o : Op) :
    s.ErrorFollows (step s o) := by
  cases o with
  | recv g d a => exact Connection.recv_error s g d a
  | onTimeout a =>
    show s.ErrorFollows (Connection.onTimeout s a).1
    unfold Connection.onTimeout
    rw [if_pos (by rw [hclosed, Bool.or_true])]
    exact .refl s
  | drainOutgoingDatagrams a =>
    show s.ErrorFollows (Connection.drainOutgoingDatagrams s a).1
    cases hconn : s.conn.conn.isSome with
    | false =>
      rw [Connection.drainOutgoingDatagrams_none a hconn]
      exact .log s rfl
    | true =>
      rw [Connection.drainOutgoingDatagrams_close a hconn (by rw [hreq, hunsent]; rfl)]
      exact Connection.drainClose_error s a.close
  | drainEvents => exact .of_eq [.events s.conn.events] rfl rfl rfl
  | close code reason =>
    show s.ErrorFollows (Connection.close s code reason).1
    unfold Connection.close
    rw [if_pos hreq]
    exact .refl s
  | _ => exact .streamActs (step_streamActs s rfl)

theorem run_flags_kept (s : State) (ops : List Op) :
    s.conn.flags.Kept (Runs.run step s ops).conn.flags :=
  Moves.inv' (I := fun s' : State => s.conn.flags.Kept s'.conn.flags)
    (fun _ _ hm h => h.trans hm.flags_kept) (Moves.of_run step_moves s ops) (.refl _)

theorem run_lastError {s : State} (hreq : s.conn.closeRequested = true)
    (hclosed : s.conn.closed = true) (ops : List Op)
    (hunsent : (Runs.run step s ops).conn.closePacketSent = false) :
    s.ErrorFollows (Runs.run step s ops) := by
  induction ops generalizing s with
  | nil => exact .refl s
  | cons o ops ih =>
    have hstep := run_flags_kept s [o]
    have hnow : s.conn.closePacketSent = false := by
      by_contra hsent
      have hlater := (run_flags_kept s (o :: ops)).closePacketSent (Bool.not_eq_false _ ▸ hsent)
      exact absurd (hlater.symm.trans hunsent) nofun
    exact (step_lastError hreq hclosed hnow o).trans
      (ih (hstep.closeRequested hreq) (hstep.closed hclosed) hunsent)

/-! ## The frame -/

/-- The send loop does not write the close packet. -/
theorem Connection.drainOutgoingDatagrams_closeErrors {s : State} (hconn : s.conn.conn.isSome = true)
    (hsent : s.conn.closePacketSent = true) (a : DrainAnswers) :
    Trace.closeErrors (s.actsSince (drainOutgoingDatagrams s a).1) = [] := by
  obtain ⟨ds, hl, -⟩ := drainLoop_acts s false [] a.loop
  rw [drainOutgoingDatagrams_loop a (by unfold State.entersLoop; rw [hconn, hsent]; simp)]
  generalize drainLoop s false [] a.loop = r at hl
  obtain ⟨s', out | e | out⟩ := r
  · obtain ⟨new, ht, hp, -⟩ := (hl.trans (.syncState s' a.periods)).acts
    have hnew : (returnDatagrams (s'.syncState a.periods) out).1.trace =
        (.datagrams out :: new) ++ s.trace := congrArg (_ :: ·) ht
    rw [State.actsSince_eq hnew]
    show Trace.closeErrors new = []
    exact Trace.closeErrors_plain hp
  · obtain ⟨new, ht, hp, -⟩ := hl.acts
    have hnew : (s'.throw e : State × Result (List Datagram)).1.trace =
        (.threw e :: new) ++ s.trace := congrArg (_ :: ·) ht
    rw [State.actsSince_eq hnew]
    show Trace.closeErrors new = []
    exact Trace.closeErrors_plain hp
  · obtain ⟨new, ht, hp, -⟩ := hl.acts
    rw [State.actsSince_eq ht]
    exact Trace.closeErrors_plain hp

/-- A call that writes the close packet gives ngtcp2 the error of the connection. -/
theorem step_closeErrors {s : State} (hreq : s.conn.closeRequested = true) (a : DrainAnswers)
    (hcalls : Trace.closeErrors (s.actsSince (step s (.drainOutgoingDatagrams a))) ≠ []) :
    s.conn.closePacketSent = false ∧
      Trace.closeErrors (s.actsSince (step s (.drainOutgoingDatagrams a))) =
        [s.conn.lastError] := by
  cases hconn : s.conn.conn.isSome with
  | false =>
    have hnew : (step s (.drainOutgoingDatagrams a)).trace = [.datagrams []] ++ s.trace := by
      show (Connection.drainOutgoingDatagrams s a).1.trace = _
      rw [Connection.drainOutgoingDatagrams_none a hconn]
      rfl
    rw [State.actsSince_eq hnew] at hcalls
    exact absurd rfl hcalls
  | true =>
    cases hsent : s.conn.closePacketSent with
    | true => exact absurd (Connection.drainOutgoingDatagrams_closeErrors hconn hsent a) hcalls
    | false =>
      refine ⟨rfl, ?_⟩
      have hbranch := Connection.drainOutgoingDatagrams_close a hconn (by rw [hreq, hsent]; rfl)
      obtain ⟨new, ht, -, hnew⟩ := Connection.drainClose_trace s a.close
      obtain ⟨cbs, hcbs, hplain, -⟩ := (PlainActs.pieces.runCallbacks s a.close.callbacks).acts
      rw [← hbranch, hcbs, ← List.cons_append, ← List.append_assoc] at ht
      have hacts : s.actsSince (step s (.drainOutgoingDatagrams a)) = _ := State.actsSince_eq ht
      rw [hacts, Trace.closeErrors_append, hnew, List.append_nil]
      show Trace.closeErrors cbs ++ [s.conn.lastError] = _
      rw [Trace.closeErrors_plain hplain, List.nil_append]

/-! ## What `close()` said -/

/-- The error that the close packet reports. -/
structure CcErr.Says (e : CcErr) (code : Nat) (reason : Bytes) : Prop where
  type : e.type = .application
  errorCode : e.errorCode.toNat = code
  reason : e.reason = reason

/-- The event about the close; no reason is `""`. -/
structure Event.Says (e : Event) (code : Nat) (reason : Bytes) : Prop where
  type : e.type = .connectionClosed
  errorCode : e.errorCode.toNat = code
  reason : e.reason.getD [] = reason

theorem toUInt64_ofNat {code : Nat} (h : code < 2 ^ 62) :
    (Int64.ofNat code).toUInt64.toNat = code := by
  show (BitVec.ofNat 64 code).toNat = code
  rw [BitVec.toNat_ofNat]
  exact Nat.mod_eq_of_lt (by omega)

namespace Connection

theorem close_lastError {s : State} (hopen : s.conn.closeRequested = false) {code : Nat}
    (hcode : code < 2 ^ 62) (reason : Option Bytes) :
    (close s (Int64.ofNat code) reason).1.conn.lastError.Says code (reason.getD []) := by
  have hreason (r : Bytes) : (if r.length > 0 then some r else none).getD [] = r := by
    split
    · rfl
    · rename_i hlen
      obtain rfl : r = [] := List.length_eq_zero_iff.mp (by omega)
      rfl
  unfold close
  rw [if_neg (by rw [hopen]; exact Bool.false_ne_true)]
  simp only
  cases reason with
  | none =>
    split
    · exact ⟨rfl, toUInt64_ofNat hcode, rfl⟩
    · exact ⟨rfl, toUInt64_ofNat hcode, rfl⟩
  | some r =>
    split
    · exact ⟨rfl, toUInt64_ofNat hcode, hreason r⟩
    · exact ⟨rfl, toUInt64_ofNat hcode, hreason r⟩

/-- The event that `close()` queues if no other has been queued. Its reason is a C string. -/
theorem close_event {s : State} (hopen : s.conn.closeRequested = false)
    (hevent : s.conn.closeEventEmitted = false) (code : Int64) (reason : Option Bytes) :
    (close s code reason).1.conn.events = s.conn.events ++
      [{ type := .connectionClosed, streamId := -1, errorCode := code.toUInt64, byPeer := false,
         reason := reason.map cString }] := by
  unfold close
  rw [if_neg (by rw [hopen]; exact Bool.false_ne_true)]
  simp only
  rw [if_neg (by rw [hevent]; exact Bool.false_ne_true)]
  rfl

end Connection

/-- `close` is called in the state `s`, the calls `between` follow, and then the call of
`drainOutgoingDatagrams` with the answers `a`. The close packet of that call and the event of
`close` say what `close` was given; the event only if it is the first of its kind. -/
structure CloseSays (s : State) (code : Nat) (reason : Option Bytes) (between : List Op)
    (a : DrainAnswers) : Prop where
  frame : ∃ e : CcErr, e.Says code (reason.getD []) ∧
    Trace.closeErrors ((Runs.run step s (.close (Int64.ofNat code) reason :: between)).actsSince
      (Runs.run step s (.close (Int64.ofNat code) reason :: between ++
        [.drainOutgoingDatagrams a]))) = [e]
  event : eventCount .connectionClosed s.queued = 0 →
    ∃ e : Event, e.Says code (reason.getD []) ∧
      (step s (.close (Int64.ofNat code) reason)).conn.events = s.conn.events ++ [e]

theorem Follows.says_iff {e e' : CcErr} {acts : Trace} {code : Nat} {reason : Bytes}
    (h : Follows e acts e') (he : e.Says code reason) :
    e'.Says code reason ↔ code ≠ 0 ∨ acts.any Act.readFailed = false := by
  have hzero : e.errorCode = 0 ↔ code = 0 := by
    rw [← he.errorCode, ← UInt64.toNat_inj]
    rfl
  unfold Follows at h
  split at h
  · rename_i hover
    refine iff_of_false ?_ ?_
    · intro hsaid
      exact absurd (hsaid.type.symm.trans h) nofun
    · rw [not_or, hover.2]
      exact ⟨not_not_intro (hzero.mp hover.1), nofun⟩
  · rename_i hkept
    rw [h]
    refine iff_of_true he ?_
    by_contra hnot
    obtain ⟨hcode, hfailed⟩ := not_or.mp hnot
    exact hkept ⟨hzero.mpr (not_not.mp hcode), Bool.not_eq_false _ ▸ hfailed⟩

theorem Start.run_lifecycle (start : Start) (ops : List Op) :
    Lifecycle (start.run ops).conn (start.run ops).queued :=
  Moves.inv' (I := fun s : State => Lifecycle s.conn s.queued) (fun _ _ hm => hm.lifecycle)
    (start.run_moves ops) start.base_lifecycle

theorem Lifecycle.not_emitted_iff {c : Connection} {queued : List Event}
    (h : Lifecycle c queued) :
    c.closeEventEmitted = false ↔ eventCount .connectionClosed queued = 0 := by
  rw [← h.closed_iff, h.closed_count]
  cases c.closed with
  | true => simp
  | false => simp

theorem cString_says_iff {s : State} (hopen : s.conn.closeRequested = false)
    (hevent : s.conn.closeEventEmitted = false) {code : Nat} (hcode : code < 2 ^ 62)
    (reason : Option Bytes) :
    (∃ e : Event, e.Says code (reason.getD []) ∧
        (step s (.close (Int64.ofNat code) reason)).conn.events = s.conn.events ++ [e]) ↔
      0 ∉ reason.getD [] := by
  have hqueued := Connection.close_event hopen hevent (Int64.ofNat code) reason
  have hreason : (reason.map cString).getD [] = cString (reason.getD []) := by
    cases reason with
    | none => rfl
    | some r => rfl
  rw [← cString_eq_iff, ← hreason]
  constructor
  · rintro ⟨e, hsaid, he⟩
    rw [show (step s (.close (Int64.ofNat code) reason)).conn.events = _ from hqueued,
      List.append_cancel_left_eq, List.singleton_inj] at he
    rw [← hsaid.reason, ← he]
  · exact fun heq => ⟨_, ⟨rfl, toUInt64_ofNat hcode, heq⟩, hqueued⟩

/-- Frame and event say what `close()` said if and only if the code is not 0 or no datagram failed in
between, and another event came first or the reason has no NUL. -/
theorem close_says_iff (start : Start) (ops : List Op) (code : Nat) (hcode : code < 2 ^ 62)
    (reason : Option Bytes) (between : List Op) (a : DrainAnswers)
    (hopen : (start.run ops).conn.closeRequested = false)
    (hcalls : Trace.closeErrors
      ((Runs.run step (start.run ops) (.close (Int64.ofNat code) reason :: between)).actsSince
        (Runs.run step (start.run ops) (.close (Int64.ofNat code) reason :: between ++
          [.drainOutgoingDatagrams a]))) ≠ []) :
    CloseSays (start.run ops) code reason between a ↔
      (code ≠ 0 ∨ ((start.run ops).actsSince (Runs.run step (start.run ops)
        (.close (Int64.ofNat code) reason :: between))).any Act.readFailed = false) ∧
      (eventCount .connectionClosed (start.run ops).queued ≠ 0 ∨ 0 ∉ reason.getD []) := by
  have hlife := start.run_lifecycle ops
  generalize start.run ops = s at hopen hcalls hlife ⊢
  have hclose : (step s (.close (Int64.ofNat code) reason)).conn.closeRequested = true :=
    Connection.close_requested s _ reason
  have hlater := run_flags_kept (step s (.close (Int64.ofNat code) reason)) between
  have hdrain : Runs.run step s (.close (Int64.ofNat code) reason :: between ++
      [.drainOutgoingDatagrams a]) = step (Runs.run step s
        (.close (Int64.ofNat code) reason :: between)) (.drainOutgoingDatagrams a) :=
    Runs.run_append ..
  have hframe : (∃ e : CcErr, e.Says code (reason.getD []) ∧
      Trace.closeErrors ((Runs.run step s (.close (Int64.ofNat code) reason :: between)).actsSince
        (Runs.run step s (.close (Int64.ofNat code) reason :: between ++
          [.drainOutgoingDatagrams a]))) = [e]) ↔
      (code ≠ 0 ∨ (s.actsSince (Runs.run step s
        (.close (Int64.ofNat code) reason :: between))).any Act.readFailed = false) := by
    rw [hdrain] at hcalls ⊢
    obtain ⟨hunsent, hpassed⟩ := step_closeErrors (hlater.closeRequested hclose) a hcalls
    obtain ⟨new, ht, hfollows⟩ := run_lastError hclose
      ((hlife.close (Int64.ofNat code) reason).requested_closed hclose) between hunsent
    have hacts : s.actsSince (Runs.run step s (.close (Int64.ofNat code) reason :: between)) =
        new := State.actsSince_eq (ht.trans (congrArg _ (Connection.close_trace ..)))
    rw [hacts, ← hfollows.says_iff (Connection.close_lastError hopen hcode reason)]
    constructor
    · rintro ⟨e, hsaid, he⟩
      have heq := List.singleton_inj.mp (hpassed.symm.trans he)
      exact heq ▸ hsaid
    · exact fun hsaid => ⟨_, hsaid, hpassed⟩
  have hevent : (eventCount .connectionClosed s.queued = 0 →
      ∃ e : Event, e.Says code (reason.getD []) ∧
        (step s (.close (Int64.ofNat code) reason)).conn.events = s.conn.events ++ [e]) ↔
      (eventCount .connectionClosed s.queued ≠ 0 ∨ 0 ∉ reason.getD []) := by
    rw [← imp_iff_not_or]
    refine imp_congr_right fun hnone => ?_
    exact cString_says_iff hopen (hlife.not_emitted_iff.mpr hnone) hcode reason
  rw [← hframe, ← hevent]
  exact ⟨fun h => ⟨h.frame, h.event⟩, fun h => ⟨h.1, h.2⟩⟩

/-- A datagram arrives, and ngtcp2 fails on it. -/
def failingRecv : Op :=
  .recv (fun _ _ => some [{ family := .inet }])
    { payload := [1], peerAddress := some { host := [49], port := 4433 }, localAddress := none }
    { rv := some (.other (-210)), liberrCode := 10 }

/-- `close(7, "a")`, a datagram on which ngtcp2 fails, and the close packet. -/
theorem close_says_iff_failing :
    CloseSays (Start.run (.client {} none none) []) 7 (some [97]) [failingRecv]
        { close := { result := .ok [9] } } ↔
      (7 ≠ 0 ∨ ((Start.run (.client {} none none) []).actsSince
        (Runs.run step (Start.run (.client {} none none) [])
          [.close (Int64.ofNat 7) (some [97]), failingRecv])).any Act.readFailed = false) ∧
      (eventCount .connectionClosed (Start.run (.client {} none none) []).queued ≠ 0 ∨
        0 ∉ (some [97] : Option Bytes).getD []) :=
  close_says_iff (.client {} none none) [] 7 (by decide) (some [97]) [failingRecv]
    { close := { result := .ok [9] } } rfl (by decide)

/-- `close()`, whose code is 0: the close packet reports the failure of the datagram. -/
theorem close_overwritten :
    ¬ ∀ (start : Start) (ops : List Op) (code : Nat) (_ : code < 2 ^ 62) (reason : Option Bytes)
      (between : List Op) (a : DrainAnswers), (start.run ops).conn.closeRequested = false →
      Trace.closeErrors
        ((Runs.run step (start.run ops) (.close (Int64.ofNat code) reason :: between)).actsSince
          (Runs.run step (start.run ops) (.close (Int64.ofNat code) reason :: between ++
            [.drainOutgoingDatagrams a]))) ≠ [] →
      CloseSays (start.run ops) code reason between a := by
  intro hall
  have hsaid := hall (.client {} none none) [] 0 (by decide) none [failingRecv]
    { close := { result := .ok [9] } } rfl (by decide)
  obtain ⟨e, he, hpassed⟩ := hsaid.frame
  obtain rfl : e = .liberr 10 := (List.singleton_inj.mp (hpassed.symm.trans (by decide)))
  exact absurd he.type (by decide)

end PhpQuic
