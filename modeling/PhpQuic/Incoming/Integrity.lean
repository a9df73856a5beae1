import PhpQuic.Connection.Moves

/-!
# What arrives on a stream, and what the application reads

* `delivered id t`: the data that ngtcp2 has brought of the stream, one callback behind the other.
* `chunks id t`: what the calls of `Stream::read` have returned of it.
* `RxStep`: what one move means for the receive buffer of one stream; every move is one
  (`Move.rxStep`).
* `incoming_integrity`: the chunks and the buffer together are what was delivered.
-/

namespace PhpQuic

open Runs (Moves)

namespace Trace

/-- The data of the callbacks of the stream. -/
def delivered (id : Int) : Trace → Bytes
  | [] => []
  | .callback (.recvStreamData _ i _ data) :: t =>
    if i = id then delivered id t ++ data else delivered id t
  | _ :: t => delivered id t

/-- The chunks that were read of the stream. -/
def chunks (id : Int) : Trace → Bytes
  | [] => []
  | .chunk i data :: t => if i = id then chunks id t ++ data else chunks id t
  | _ :: t => chunks id t

end Trace

/-- The act is about the incoming half of the stream. -/
def Act.incoming (id : Int) : Act → Bool
  | .chunk i _ => i = id
  | .callback (.recvStreamData _ i _ _) => i = id
  | _ => false

namespace Trace

variable {id : Int} {a : Act} {t : Trace}

theorem delivered_cons (h : a.incoming id = false) : delivered id (a :: t) = delivered id t := by
  cases a with
  | callback cb => cases cb <;> simp_all [delivered, Act.incoming]
  | _ => rfl

theorem chunks_cons (h : a.incoming id = false) : chunks id (a :: t) = chunks id t := by
  cases a with
  | chunk i data => simp_all [chunks, Act.incoming]
  | _ => rfl

end Trace

/-- What a move means for the receive buffer of the stream `id`. -/
inductive RxStep (id : Int) : Bytes → Trace → Bytes → Trace → Prop
  | same {rx : Bytes} {t : Trace} : RxStep id rx t rx t
  | other {rx : Bytes} {t : Trace} (a : Act) (ha : a.incoming id = false) : RxStep id rx t rx (a :: t)
  | opened {rx : Bytes} {t : Trace} (a b : Act) (ha : a.incoming id = false)
    (hb : b.incoming id = false) : RxStep id rx t rx (a :: b :: t)
  | received {rx : Bytes} {t : Trace} (fin : Bool) (offset : Nat) (data : Bytes) :
    RxStep id rx t (rx ++ data) (.callback (.recvStreamData fin id offset data) :: t)
  | read {rest : Bytes} {t : Trace} (chunk : Bytes) :
    RxStep id (chunk ++ rest) t rest (.chunk id chunk :: t)

theorem RxStep.cast {id : Int} {rx rx' rx'' : Bytes} {t t' : Trace} (h : RxStep id rx t rx'' t')
    (heq : rx' = rx'') : RxStep id rx t rx' t' := heq ▸ h

/-- The chunks and the buffer stay what was delivered. -/
theorem RxStep.integrity {id : Int} {rx rx' : Bytes} {t t' : Trace} (h : RxStep id rx t rx' t')
    (hi : t.chunks id ++ rx = t.delivered id) : t'.chunks id ++ rx' = t'.delivered id := by
  cases h with
  | same => exact hi
  | other a ha => rw [Trace.chunks_cons ha, Trace.delivered_cons ha]; exact hi
  | opened a b ha hb =>
    rw [Trace.chunks_cons ha, Trace.chunks_cons hb, Trace.delivered_cons ha, Trace.delivered_cons hb]
    exact hi
  | received fin offset data =>
    show t.chunks id ++ (rx ++ data) = if id = id then t.delivered id ++ data else t.delivered id
    rw [if_pos rfl, ← List.append_assoc, hi]
  | read chunk =>
    show (if id = id then t.chunks id ++ chunk else t.chunks id) ++ rx' = t.delivered id
    rw [if_pos rfl, List.append_assoc]
    exact hi

/-! ## The receive buffers -/

namespace Connection

variable {c : Connection}

/-- A write that leaves the receive buffers alone. -/
theorem modifyEntry_rx {f : StreamEntry → StreamEntry} (hf : ∀ e, (f e).streamId = e.streamId)
    (i id : Int) (h : ∀ e, (f e).rxBuffer = e.rxBuffer := by intro e; rfl) :
    ((c.modifyEntry i f hf).entry id).rxBuffer = (c.entry id).rxBuffer :=
  modifyEntry_rel (R := fun e e' => e'.rxBuffer = e.rxBuffer) (fun _ => rfl) hf h i

theorem callback_rxStep (s : State) (cb : Callback) (id : Int) :
    RxStep id (s.conn.entry id).rxBuffer s.trace ((s.conn.callback cb).entry id).rxBuffer
      (.callback cb :: s.trace) := by
  rw [entry_callback]
  by_cases hid : cb.streamId? = some id
  · rw [if_pos hid]
    cases cb with
    | recvStreamData fin i offset data =>
      cases hid
      exact .received fin offset data
    | ackedStreamDataOffset =>
      rw [StreamEntry.react_acked]
      exact .other _ rfl
    | _ => exact .other _ rfl
  · rw [if_neg hid]
    refine .other _ ?_
    cases cb with
    | recvStreamData fin i offset data => exact decide_eq_false fun h => hid (congrArg some h)
    | _ => rfl

theorem settle_rx {o : Offer} (h : c.hasEntry o.streamId) (a : WritevAnswer) (id : Int) :
    ((c.settle o a).entry id).rxBuffer = (c.entry id).rxBuffer := by
  rw [entry_settle h]
  split
  · rename_i hid
    obtain ⟨_, _, _, _, _, hanswer⟩ := StreamEntry.answer_rest o a (c.entry o.streamId)
    rw [hid, hanswer]
  · rfl

theorem returnStream_rxStep (s : State) (bidi : Bool) (rv : Except Err Int) (pending : Bool)
    (id : Int) : RxStep id (s.conn.entry id).rxBuffer s.trace
      ((returnStream (s.log (.openLocal bidi rv)) bidi rv pending).1.conn.entry id).rxBuffer
      (returnStream (s.log (.openLocal bidi rv)) bidi rv pending).1.trace := by
  obtain ⟨_, _, hc⟩ := s.conn.assignStreamId_rest bidi rv
  have hentry : (s.conn.assignStreamId bidi rv).1.entry id = s.conn.entry id :=
    entry_congr (by rw [hc]) id
  have hopen (c : Connection) (i : Int) : (((c.openStreamEntry i).modifyEntry i
      (fun e => { e with pendingOpen := pending, writable := true }) fun _ => rfl).entry id).rxBuffer =
      (c.entry id).rxBuffer := by
    rw [entry_openModify]
    split
    · rename_i hid; rw [hid]
    · rfl
  have hrx := hopen (s.conn.assignStreamId bidi rv).1 (s.conn.assignStreamId bidi rv).2
  rw [hentry] at hrx
  show RxStep id _ s.trace _ (.returned bidi _ pending :: .openLocal bidi rv :: s.trace)
  rw [show ((returnStream (s.log (.openLocal bidi rv)) bidi rv pending).1.conn.entry id).rxBuffer = _
    from hrx]
  exact .opened _ _ rfl rfl

end Connection

open Connection in
/-- Every move is an `RxStep` of every stream. -/
theorem Move.rxStep {s s' : State} (h : Move s s') (id : Int) :
    RxStep id (s.conn.entry id).rxBuffer s.trace (s'.conn.entry id).rxBuffer s'.trace := by
  -- the buffer is as it was, behind an act
  have hkeeps {c : Connection} (a : Act) (ha : a.incoming id = false)
      (hrx : (c.entry id).rxBuffer = (s.conn.entry id).rxBuffer) :
      RxStep id (s.conn.entry id).rxBuffer s.trace (c.entry id).rxBuffer (a :: s.trace) := by
    rw [hrx]; exact .other a ha
  have hstreams {c : Connection} (hc : c.streams = s.conn.streams) :
      (c.entry id).rxBuffer = (s.conn.entry id).rxBuffer := by rw [entry_congr hc]
  cases h with
  | quiet a ha =>
    cases a with
    | chunk i data =>
      have hnil : data = [] := by simpa [Act.quiet] using ha
      subst hnil
      by_cases hid : i = id
      · subst hid; exact .read []
      · exact .other _ (decide_eq_false hid)
    | callback cb => cases ha
    | _ => exact .other _ rfl
  | threw e he => exact .other _ rfl
  | callback cb => exact callback_rxStep s cb id
  | clamp i hi =>
    have hclamp (e : StreamEntry) : e.clampTxOffset.rxBuffer = e.rxBuffer := by
      rw [StreamEntry.clampTxOffset_eq]
    rw [State.modifyEntry_conn, modifyEntry_rx _ i id hclamp]
    exact .same
  | wrote i data hi hclosed hsent hfin => exact hkeeps (.wrote i data) rfl (modifyEntry_rx _ i id)
  | ended i data hi => exact hkeeps (.ended i data) rfl (modifyEntry_rx _ i id)
  | reset i code hi =>
    have hrx := modifyEntry_rx (c := s.conn) (f := StreamEntry.resetLocal) (fun _ => rfl) i id
    exact hkeeps (.wasReset i code) rfl hrx
  | read i chunk rest hi hrx =>
    have hentry : (s.conn.modifyEntry i (fun e => e.readRest rest) fun _ => rfl).entry id =
        if id = i then (s.conn.entry i).readRest rest else s.conn.entry id :=
      entry_modifyEntry _ _ hi
    by_cases hid : id = i
    · subst hid
      rw [if_pos rfl] at hentry
      rw [hrx]
      exact .cast (.read chunk) (congrArg StreamEntry.rxBuffer hentry)
    · rw [if_neg hid] at hentry
      exact hkeeps _ (decide_eq_false (Ne.symm hid)) (congrArg StreamEntry.rxBuffer hentry)
  | opened bidi i hconn => exact returnStream_rxStep s bidi (.ok i) false id
  | blocked bidi hconn => exact returnStream_rxStep s bidi (.error .streamIdBlocked) true id
  | openMatched i hconn hi hp =>
    exact hkeeps (.openPending i (.ok i)) rfl (modifyEntry_rx _ i id)
  | openMismatched i opened hconn hi hp hne => exact .other _ rfl
  | settle o a ho hp =>
    rw [State.log_conn, State.withConn_conn, settle_rx ho.hasEntry]
    exact .other _ rfl
  | sync p =>
    obtain ⟨_, _, _, _, _, hc⟩ := s.conn.syncState_rest p
    have hsync : ((s.syncState p).conn.entry id).rxBuffer = (s.conn.entry id).rxBuffer := by
      rw [State.syncState_conn]
      exact hstreams (by rw [hc])
    rw [hsync]
    rcases s.syncState_trace p with ht | ht
    · rw [ht]; exact .same
    · rw [ht]; exact .other _ rfl
  | lastError e => exact .same
  | close code reason hopen =>
    obtain ⟨_, _, _, _, _, _, hc⟩ := close_rest s code reason
    rw [close_trace, hstreams (c := (Connection.close s code reason).1.conn) (by rw [hc])]
    exact .same
  | closeSent hreq => exact .same
  | drainEvents => exact .other _ rfl

/-! ## Reading -/

/-- A read returns as much of the buffer as was asked for and is there, and takes it out. -/
theorem Stream.read_spec (s : State) (id : Int) {length : Int} (h : 0 < length) :
    ∃ chunk rest, (read s id length).2 = .returned chunk ∧
      (s.conn.entry id).rxBuffer = chunk ++ rest ∧
      chunk.length = min length.toNat (s.conn.entry id).rxBuffer.length ∧
      ((read s id length).1.conn.entry id).rxBuffer = rest ∧
      (read s id length).1.trace = .chunk id chunk :: s.trace := by
  unfold read
  rw [if_neg (by omega)]
  cases hget : s.conn.getStreamEntry id with
  | none =>
    have hnil : (s.conn.entry id).rxBuffer = [] := by
      rw [Connection.entry_of_not_hasEntry (by unfold Connection.hasEntry; rw [hget]; nofun)]
      rfl
    refine ⟨[], [], rfl, hnil, ?_, hnil, rfl⟩
    rw [hnil]
    exact (Nat.min_zero _).symm
  | some e =>
    have hentry := Connection.entry_of_get hget
    rw [hentry]
    simp only
    by_cases hlen : e.rxBuffer.length = 0
    · have hnil := List.length_eq_zero_iff.mp hlen
      rw [if_pos hlen]
      refine ⟨[], [], rfl, hnil, ?_, ?_, rfl⟩
      · rw [hlen]; exact (Nat.min_zero _).symm
      · show (s.conn.entry id).rxBuffer = []
        rw [hentry, hnil]
    · rw [if_neg hlen]
      have hread : bufferRead e.rxBuffer length.toNat =
          (e.rxBuffer.take (min length.toNat e.rxBuffer.length),
            e.rxBuffer.drop (min length.toNat e.rxBuffer.length)) := by
        have hmin : (if length.toNat < e.rxBuffer.length then length.toNat else e.rxBuffer.length) =
            min length.toNat e.rxBuffer.length := by
          split <;> omega
        unfold bufferRead
        rw [if_neg (by omega), hmin]
      rw [hread]
      refine ⟨_, _, rfl, (List.take_append_drop _ _).symm, ?_, ?_, rfl⟩
      · rw [List.length_take]; omega
      · have hself := Connection.entry_modifyEntry_self (f := fun e' => e'.readRest
          (e.rxBuffer.drop (min length.toNat e.rxBuffer.length))) (fun _ => rfl)
          (Connection.hasEntry_of_get hget)
        exact congrArg StreamEntry.rxBuffer hself

theorem Start.run_integrity (start : Start) (ops : List Op) (id : Int) :
    (start.run ops).trace.chunks id ++ ((start.run ops).conn.entry id).rxBuffer =
      (start.run ops).trace.delivered id := by
  refine Moves.inv' (I := fun s : State =>
    s.trace.chunks id ++ (s.conn.entry id).rxBuffer = s.trace.delivered id)
    (fun _ _ hm => (hm.rxStep id).integrity) (start.run_moves ops) ?_
  cases start <;> rfl

/-- What the reads of a stream have returned, followed by its buffer, is what was delivered; and the
next read returns as much as was asked for and is there. -/
theorem incoming_integrity (start : Start) (ops : List Op) (id : Int) :
    (start.run ops).trace.chunks id ++ ((start.run ops).conn.entry id).rxBuffer =
        (start.run ops).trace.delivered id ∧
      ∀ length : Int, 0 < length →
        ∃ chunk, (Stream.read (start.run ops) id length).2 = .returned chunk ∧
          chunk.length = min length.toNat ((start.run ops).conn.entry id).rxBuffer.length ∧
          (step (start.run ops) (.read id length)).trace = .chunk id chunk :: (start.run ops).trace := by
  refine ⟨start.run_integrity ops id, fun length h => ?_⟩
  obtain ⟨chunk, rest, hret, -, hlen, -, ht⟩ := Stream.read_spec (start.run ops) id h
  exact ⟨chunk, hret, hlen, ht⟩

end PhpQuic
