import PhpQuic.Lifecycle

/-!
# The end of the peer's data

The data callback records a FIN of the peer in `fin_recv`, and nothing reads it. A run in which the
peer's FINs are left out (`withoutFin`) is a run with the same answers of all public methods and the
same events, so two runs that differ in the FINs alone cannot be told apart (`peerFin_hidden`).

* `State.Forgets`: the second state is the first without the flag. Each method keeps it and answers
  the same (`Agree`): the run without the flag simulates the run.
* `Call.answer`, `Getter.answer`: what the application gets to see.
-/

namespace PhpQuic

/-! ## Without the FIN -/

def Callback.withoutFin : Callback → Callback
  | .recvStreamData _ id offset data => .recvStreamData false id offset data
  | cb => cb

def ReadPktAnswer.withoutFin (a : ReadPktAnswer) : ReadPktAnswer :=
  { a with callbacks := a.callbacks.map Callback.withoutFin }

def ExpiryAnswer.withoutFin (a : ExpiryAnswer) : ExpiryAnswer :=
  { a with callbacks := a.callbacks.map Callback.withoutFin }

def ShutdownAnswer.withoutFin (a : ShutdownAnswer) : ShutdownAnswer :=
  { a with callbacks := a.callbacks.map Callback.withoutFin }

def IterAnswer.withoutFin (a : IterAnswer) : IterAnswer :=
  { a with writev := { a.writev with callbacks := a.writev.callbacks.map Callback.withoutFin } }

def CloseAnswer.withoutFin (a : CloseAnswer) : CloseAnswer :=
  { a with callbacks := a.callbacks.map Callback.withoutFin }

def DrainAnswers.withoutFin (a : DrainAnswers) : DrainAnswers :=
  { a with close := a.close.withoutFin, loop := a.loop.map IterAnswer.withoutFin }

/-- The call, with the same answers of ngtcp2 but for the FINs of the peer. -/
def Op.withoutFin : Op → Op
  | .reset id code a => .reset id code a.withoutFin
  | .recv getaddrinfo datagram a => .recv getaddrinfo datagram a.withoutFin
  | .onTimeout a => .onTimeout a.withoutFin
  | .drainOutgoingDatagrams a => .drainOutgoingDatagrams a.withoutFin
  | o => o

def Call.withoutFin : Call → Call
  | .op o => .op o.withoutFin
  | call => call

def Start.withoutFin : Start → Start
  | .server path r l payload callbacks =>
    .server path r l payload (callbacks.map Callback.withoutFin)
  | start => start

def StreamEntry.withoutFin (e : StreamEntry) : StreamEntry := { e with finRecv := false }

theorem StreamEntry.withoutFin_streamId (e : StreamEntry) : e.withoutFin.streamId = e.streamId := rfl

def Connection.withoutFin (c : Connection) : Connection :=
  { c with streams := c.streams.mapVals StreamEntry.withoutFin StreamEntry.withoutFin_streamId }

/-! ## The functions on the entries -/

namespace Connection

variable (c : Connection) (id : Int)

theorem get_withoutFin :
    c.withoutFin.getStreamEntry id = (c.getStreamEntry id).map StreamEntry.withoutFin :=
  OrdTable.find?_mapVals _ _ StreamEntry.withoutFin_streamId id

theorem modifyEntry_withoutFin {f g : StreamEntry → StreamEntry}
    {hf : ∀ e, (f e).streamId = e.streamId} {hg : ∀ e, (g e).streamId = e.streamId}
    (h : ∀ e : StreamEntry, (f e).withoutFin = g e.withoutFin) :
    (c.modifyEntry id f hf).withoutFin = c.withoutFin.modifyEntry id g hg :=
  congrArg (fun streams => { c with streams }) (OrdTable.mapVals_modify c.streams id _ hf hg h)

theorem openStreamEntry_withoutFin :
    (c.openStreamEntry id).withoutFin = c.withoutFin.openStreamEntry id :=
  congrArg (fun streams => { c with streams }) (OrdTable.mapVals_addNew ..)

theorem openModify_withoutFin {f g : StreamEntry → StreamEntry}
    {hf : ∀ e, (f e).streamId = e.streamId} {hg : ∀ e, (g e).streamId = e.streamId}
    (h : ∀ e : StreamEntry, (f e).withoutFin = g e.withoutFin) :
    ((c.openStreamEntry id).modifyEntry id f hf).withoutFin =
      (c.withoutFin.openStreamEntry id).modifyEntry id g hg := by
  rw [← openStreamEntry_withoutFin]
  exact modifyEntry_withoutFin _ id h

/-- A test of an entry that does not read the flag. -/
theorem any_withoutFin {p : StreamEntry → Bool} (h : ∀ e : StreamEntry, p e.withoutFin = p e) :
    (c.withoutFin.getStreamEntry id).any p = (c.getStreamEntry id).any p := by
  rw [get_withoutFin, Option.any_map]
  exact congrArg (fun q => (c.getStreamEntry id).any q) (funext h)

/-- The flag itself is forgotten. -/
theorem finRecv_withoutFin {f : StreamEntry → StreamEntry} {hf : ∀ e, (f e).streamId = e.streamId}
    (h : ∀ e : StreamEntry, (f e).withoutFin = e.withoutFin) :
    (c.modifyEntry id f hf).withoutFin = c.withoutFin := by
  have hnone : c.withoutFin.modifyEntry id (fun e => e) (fun _ => rfl) = c.withoutFin :=
    congrArg (fun streams => { c with streams }) (OrdTable.modify_eq_self fun _ _ => rfl)
  rw [← hnone]
  exact modifyEntry_withoutFin c id h

theorem pushEvent_withoutFin (t : EventType) (code : UInt64) (p : Bool) (r : Option Bytes) :
    (c.pushEvent t id code p r).withoutFin = c.withoutFin.pushEvent t id code p r := rfl

theorem recvStreamDataCb_withoutFin (fin : Bool) (data : Bytes) :
    (c.recvStreamDataCb fin id data).withoutFin = c.withoutFin.recvStreamDataCb false id data := by
  have hdata : ((c.openStreamEntry id).modifyEntry id
      (fun e => { e with rxBuffer := bufferAppend e.rxBuffer data }) fun _ => rfl).withoutFin =
      (c.withoutFin.openStreamEntry id).modifyEntry id
        (fun e => { e with rxBuffer := bufferAppend e.rxBuffer data }) fun _ => rfl :=
    openModify_withoutFin c id fun _ => rfl
  unfold recvStreamDataCb
  simp only
  rw [← hdata]
  generalize (c.openStreamEntry id).modifyEntry id
    (fun e => { e with rxBuffer := bufferAppend e.rxBuffer data }) (fun _ => rfl) = c'
  rw [any_withoutFin c' id (p := fun e => !e.readable && decide (e.rxBuffer.length > 0))
    fun _ => rfl, if_neg Bool.false_ne_true]
  have hread : (if (c'.getStreamEntry id).any
      fun e => !e.readable && decide (e.rxBuffer.length > 0) then
      (c'.modifyEntry id (fun e => { e with readable := true }) fun _ => rfl).pushEvent
        .streamReadable id 0 true none else c').withoutFin =
      if (c'.getStreamEntry id).any fun e => !e.readable && decide (e.rxBuffer.length > 0) then
        (c'.withoutFin.modifyEntry id (fun e => { e with readable := true }) fun _ => rfl).pushEvent
          .streamReadable id 0 true none else c'.withoutFin := by
    split
    · rw [pushEvent_withoutFin]
      exact congrArg (fun c => pushEvent c _ _ _ _ _) (modifyEntry_withoutFin c' id fun _ => rfl)
    · rfl
  rw [← hread]
  split
  · exact finRecv_withoutFin _ id fun _ => rfl
  · rfl

theorem callback_withoutFin (cb : Callback) :
    (c.callback cb).withoutFin = c.withoutFin.callback cb.withoutFin := by
  have hpush {c₁ c₂ : Connection} (h : c₁.withoutFin = c₂) (t : EventType) (i : Int) (code : UInt64)
      (p : Bool) (r : Option Bytes) :
      (c₁.pushEvent t i code p r).withoutFin = c₂.pushEvent t i code p r := by
    rw [← h, pushEvent_withoutFin]
  cases cb with
  | handshakeCompleted =>
    show c.handshakeCompletedCb.withoutFin = c.withoutFin.handshakeCompletedCb
    unfold handshakeCompletedCb
    split
    · rename_i h
      exact (if_pos (show c.withoutFin.established = true from h)).symm
    · rename_i h
      exact (if_neg (show ¬ c.withoutFin.established = true from h)).symm
  | streamOpen i =>
    refine hpush ?_ ..
    exact openModify_withoutFin c i fun _ => rfl
  | recvStreamData fin i off data => exact recvStreamDataCb_withoutFin c i fin data
  | streamClose set i code =>
    refine hpush ?_ ..
    exact openModify_withoutFin c i fun _ => rfl
  | streamReset i size code =>
    refine hpush ?_ ..
    exact openModify_withoutFin c i fun _ => rfl
  | ackedStreamDataOffset i off len =>
    show (c.ackedStreamDataOffsetCb i).withoutFin = c.withoutFin.ackedStreamDataOffsetCb i
    unfold ackedStreamDataOffsetCb
    rw [get_withoutFin]
    cases c.getStreamEntry i with
    | none => rfl
    | some e =>
      show (if e.closed || e.reset || e.finSent then c else _).withoutFin =
        if e.closed || e.reset || e.finSent then c.withoutFin else _
      split
      · rfl
      · show (if !e.writable then _ else c).withoutFin = if !e.writable then _ else c.withoutFin
        split
        · refine hpush ?_ ..
          exact modifyEntry_withoutFin c i fun _ => rfl
        · rfl

theorem updateTx_withoutFin (e : StreamEntry) (w : Int) (f p : Bool) :
    (e.updateTx w f p).withoutFin = e.withoutFin.updateTx w f p := by
  rw [StreamEntry.updateTx_eq, StreamEntry.updateTx_eq]
  rfl

theorem updateTxEntry_withoutFin (entry : Option Int) (w : Int) (f p : Bool) :
    (c.updateTxEntry entry w f p).withoutFin = c.withoutFin.updateTxEntry entry w f p := by
  cases entry with
  | none => rfl
  | some i =>
    have hup : (c.modifyEntry i (·.updateTx w f p) fun e => e.updateTx_streamId w f p).withoutFin =
        c.withoutFin.modifyEntry i (·.updateTx w f p) fun e => e.updateTx_streamId w f p :=
      modifyEntry_withoutFin c i fun e => updateTx_withoutFin e w f p
    unfold updateTxEntry
    simp only
    rw [← hup]
    generalize c.modifyEntry i (·.updateTx w f p) (fun e => e.updateTx_streamId w f p) = c'
    rw [any_withoutFin c' i (p := StreamEntry.becomesWritable) fun _ => rfl]
    split
    · rw [pushEvent_withoutFin]
      exact congrArg (fun c => pushEvent c _ _ _ _ _) (modifyEntry_withoutFin c' i fun _ => rfl)
    · rfl

theorem discardTxEntry_withoutFin (entry : Option Int) :
    (c.discardTxEntry entry).withoutFin = c.withoutFin.discardTxEntry entry := by
  cases entry with
  | none => rfl
  | some i => exact modifyEntry_withoutFin c i fun _ => rfl

theorem clampTxOffset_withoutFin (e : StreamEntry) :
    e.clampTxOffset.withoutFin = e.withoutFin.clampTxOffset := by
  rw [StreamEntry.clampTxOffset_eq, StreamEntry.clampTxOffset_eq]
  rfl

theorem pickTxStream_withoutFin :
    c.pickTxStream.1.withoutFin = c.withoutFin.pickTxStream.1 ∧
      c.withoutFin.pickTxStream.2 = c.pickTxStream.2 := by
  have hfind : c.withoutFin.streams.vals.find? StreamEntry.eligible =
      (c.streams.vals.find? StreamEntry.eligible).map StreamEntry.withoutFin :=
    List.find?_map ..
  unfold pickTxStream
  rw [hfind]
  cases c.streams.vals.find? StreamEntry.eligible with
  | none => exact ⟨rfl, rfl⟩
  | some e =>
    refine ⟨modifyEntry_withoutFin c e.streamId clampTxOffset_withoutFin, ?_⟩
    show some e.withoutFin.clampTxOffset.offer = some e.clampTxOffset.offer
    rw [← clampTxOffset_withoutFin]
    rfl

theorem syncState_withoutFin (p : Periods) :
    (c.syncState p).withoutFin = c.withoutFin.syncState p := by
  have hdraining (c : Connection) : c.noteDraining.withoutFin = c.withoutFin.noteDraining := by
    unfold noteDraining
    simp only
    cases h : c.drainingEventEmitted with
    | true => rw [show c.withoutFin.drainingEventEmitted = true from h]; rfl
    | false => rw [show c.withoutFin.drainingEventEmitted = false from h]; rfl
  have hclosed (c : Connection) :
      (c.noteClosed p.ccerr).withoutFin = c.withoutFin.noteClosed p.ccerr := by
    unfold noteClosed
    simp only
    cases h : c.closeEventEmitted with
    | true => rw [show c.withoutFin.closeEventEmitted = true from h]; rfl
    | false => rw [show c.withoutFin.closeEventEmitted = false from h]; rfl
  unfold syncState
  cases h : c.conn.isNone with
  | true => rw [show c.withoutFin.conn.isNone = true from h]; rfl
  | false =>
    rw [show c.withoutFin.conn.isNone = false from h]
    cases p.inDraining with
    | true => simp [hdraining, hclosed]
    | false => cases p.inClosing <;> simp [hclosed]

theorem assignStreamId_withoutFin (bidi : Bool) (rv : Except Err Int) :
    (c.withoutFin.assignStreamId bidi rv) =
      ((c.assignStreamId bidi rv).1.withoutFin, (c.assignStreamId bidi rv).2) := by
  have hset (c : Connection) (i : Int) :
      (c.setNextStreamId bidi i).withoutFin = c.withoutFin.setNextStreamId bidi i := by
    cases bidi <;> rfl
  have hensure : (c.ensureNextStreamId bidi).withoutFin = c.withoutFin.ensureNextStreamId bidi := by
    unfold ensureNextStreamId
    split
    · rename_i h
      rw [hset]
      exact (if_pos (show c.withoutFin.nextStreamId bidi < c.withoutFin.minimumStreamId bidi ∨
        c.withoutFin.nextStreamId bidi % 4 ≠ c.withoutFin.minimumStreamId bidi % 4 from h)).symm
    · rename_i h
      exact (if_neg (show ¬ (c.withoutFin.nextStreamId bidi < c.withoutFin.minimumStreamId bidi ∨
        c.withoutFin.nextStreamId bidi % 4 ≠ c.withoutFin.minimumStreamId bidi % 4) from h)).symm
  have hnext (c : Connection) : c.withoutFin.nextStreamId bidi = c.nextStreamId bidi := rfl
  unfold assignStreamId
  simp only
  rw [← hensure, hnext]
  cases rv with
  | error e => simp only [hset]
  | ok i =>
    simp only
    split
    · rw [hset]
    · rfl

theorem enterStream_withoutFin (i : Int) (pending : Bool) :
    (c.enterStream i pending).withoutFin = c.withoutFin.enterStream i pending := by
  unfold enterStream
  simp only
  rw [pushEvent_withoutFin, pushEvent_withoutFin]
  exact congrArg (fun c => (pushEvent c _ _ _ _ _).pushEvent _ _ _ _ _)
    (openModify_withoutFin c i fun _ => rfl)

end Connection

/-! ## The methods -/

/-- `s'` is `s` without the flag, whatever their histories. -/
def State.Forgets (s s' : State) : Prop := s'.conn = s.conn.withoutFin

/-- The same answer, in a state without the flag. -/
structure Agree {α : Type} (r r' : State × α) : Prop where
  state : r.1.Forgets r'.1
  answer : r'.2 = r.2

namespace State.Forgets

variable {s s' : State}

theorem log (h : s.Forgets s') (a a' : Act) : (s.log a).Forgets (s'.log a') := h

theorem withConn {c c' : Connection} (h : c' = c.withoutFin) (s s' : State) :
    (s.withConn c).Forgets (s'.withConn c') := h

theorem throw (h : s.Forgets s') {α : Type} (e : Exn) :
    Agree (s.throw e : State × Result α) (s'.throw e) := ⟨h, rfl⟩

theorem runCallbacks (h : s.Forgets s') (cbs : List Callback) :
    (s.runCallbacks cbs).Forgets (s'.runCallbacks (cbs.map Callback.withoutFin)) := by
  induction cbs generalizing s s' with
  | nil => exact h
  | cons cb cbs ih =>
    refine ih (?_ : (s.runCallback cb).Forgets (s'.runCallback cb.withoutFin))
    show s'.conn.callback cb.withoutFin = (s.conn.callback cb).withoutFin
    rw [h, Connection.callback_withoutFin]

theorem syncState (h : s.Forgets s') (p : Periods) : (s.syncState p).Forgets (s'.syncState p) := by
  unfold State.Forgets
  rw [State.syncState_conn, State.syncState_conn, h, Connection.syncState_withoutFin]

theorem setLastError (h : s.Forgets s') (e : CcErr) :
    (s.setLastError e).Forgets (s'.setLastError e) := by
  unfold State.Forgets
  show { s'.conn with lastError := e } = _
  rw [h]
  rfl

/-- An error that is kept if there is none yet. -/
theorem firstError (h : s.Forgets s') (e : CcErr) :
    (if s.conn.lastError.errorCode = 0 then s.setLastError e else s).Forgets
      (if s'.conn.lastError.errorCode = 0 then s'.setLastError e else s') := by
  rw [show s'.conn.lastError = s.conn.lastError by rw [h]; rfl]
  split
  · exact h.setLastError e
  · exact h

theorem modifyEntry (h : s.Forgets s') (id : Int) {f g : StreamEntry → StreamEntry}
    {hf : ∀ e, (f e).streamId = e.streamId} {hg : ∀ e, (g e).streamId = e.streamId}
    (hfg : ∀ e : StreamEntry, (f e).withoutFin = g e.withoutFin) :
    (s.modifyEntry id f hf).Forgets (s'.modifyEntry id g hg) := by
  unfold State.Forgets
  show s'.conn.modifyEntry id g hg = (s.conn.modifyEntry id f hf).withoutFin
  rw [h, Connection.modifyEntry_withoutFin _ id hfg]

theorem get (h : s.Forgets s') (id : Int) :
    s'.conn.getStreamEntry id = (s.conn.getStreamEntry id).map StreamEntry.withoutFin := by
  rw [h, Connection.get_withoutFin]

theorem events (h : s.Forgets s') : s'.conn.events = s.conn.events := by
  rw [h]
  rfl

theorem datagram (h : s.Forgets s') (pkt : Bytes) :
    s'.conn.datagram pkt = s.conn.datagram pkt := by
  rw [h]
  rfl

theorem isRemoteUnidirectional (h : s.Forgets s') (id : Int) :
    s'.conn.isRemoteUnidirectional id = s.conn.isRemoteUnidirectional id := by
  rw [h]
  rfl

end State.Forgets

namespace Stream

variable {s s' : State}

theorem read_agree (h : s.Forgets s') (id : Int) (length : Int) :
    Agree (read s id length) (read s' id length) := by
  unfold read
  rw [h.get]
  by_cases hlen : length ≤ 0
  · rw [if_pos hlen, if_pos hlen]
    exact h.throw _
  · rw [if_neg hlen, if_neg hlen]
    cases s.conn.getStreamEntry id with
    | none => exact ⟨h, rfl⟩
    | some e =>
      show Agree (if e.rxBuffer.length = 0 then _ else _) (if e.rxBuffer.length = 0 then _ else _)
      split
      · exact ⟨h, rfl⟩
      · exact ⟨h.modifyEntry id fun _ => rfl, rfl⟩

theorem write_agree (h : s.Forgets s') (id : Int) (data : Bytes) :
    Agree (write s id data) (write s' id data) := by
  unfold write
  rw [h.get, h.isRemoteUnidirectional]
  cases s.conn.getStreamEntry id with
  | none => exact h.throw _
  | some e =>
    show Agree (if s.conn.isRemoteUnidirectional id then _ else if e.closed || e.finSent || e.finPending
      then _ else _) (if s.conn.isRemoteUnidirectional id then _ else
        if e.closed || e.finSent || e.finPending then _ else _)
    split
    · exact h.throw _
    · split
      · exact h.throw _
      · exact ⟨h.modifyEntry id fun _ => rfl, rfl⟩

theorem end_agree (h : s.Forgets s') (id : Int) (data : Option Bytes) :
    Agree (end_ s id data) (end_ s' id data) := by
  unfold end_
  rw [h.get, h.isRemoteUnidirectional]
  cases s.conn.getStreamEntry id with
  | none => exact h.throw _
  | some e =>
    show Agree (if s.conn.isRemoteUnidirectional id then _ else _)
      (if s.conn.isRemoteUnidirectional id then _ else _)
    split
    · exact h.throw _
    · exact ⟨h.modifyEntry id fun _ => rfl, rfl⟩

theorem shutdownStream_agree (h : s.Forgets s') (id : Int) (code : UInt64) (a : ShutdownAnswer) :
    Agree (shutdownStream s id code a) (shutdownStream s' id code a.withoutFin) := by
  unfold shutdownStream
  rw [h]
  show Agree (if s.conn.conn.isSome && !s.conn.closed then _ else _)
    (if s.conn.conn.isSome && !s.conn.closed then _ else _)
  split
  · exact ⟨h.runCallbacks a.callbacks, rfl⟩
  · exact ⟨h, rfl⟩

theorem reset_agree (h : s.Forgets s') (id : Int) (code : Int64) (a : ShutdownAnswer) :
    Agree (reset s id code a) (reset s' id code a.withoutFin) := by
  obtain ⟨hstate, hanswer⟩ := shutdownStream_agree h id code.toUInt64 a
  unfold reset
  rw [h.get]
  cases s.conn.getStreamEntry id with
  | none => exact h.throw _
  | some e =>
    simp only [Option.map_some]
    generalize shutdownStream s id code.toUInt64 a = r at hstate hanswer ⊢
    generalize shutdownStream s' id code.toUInt64 a.withoutFin = r' at hstate hanswer ⊢
    obtain ⟨s₁, rv⟩ := r
    obtain ⟨s₂, rv'⟩ := r'
    cases hanswer
    cases rv with
    | some rv => exact State.Forgets.throw hstate _
    | none =>
      refine ⟨?_, rfl⟩
      have hreset : (s₁.modifyEntry id StreamEntry.resetLocal fun _ => rfl).Forgets
          (s₂.modifyEntry id StreamEntry.resetLocal fun _ => rfl) :=
        State.Forgets.modifyEntry hstate id fun _ => rfl
      exact congrArg (fun c => Connection.pushEvent c _ _ _ _ _) hreset

end Stream

namespace Connection

variable {s s' : State}

theorem openLocalStream_agree (bidi : Bool) (context : String) (h : s.Forgets s')
    (rv : Except Err Int) :
    Agree (openLocalStream bidi context s rv) (openLocalStream bidi context s' rv) := by
  have hret (rv : Except Err Int) (pending : Bool) :
      Agree (returnStream (s.log (.openLocal bidi rv)) bidi rv pending)
        (returnStream (s'.log (.openLocal bidi rv)) bidi rv pending) := by
    unfold returnStream
    rw [State.log_conn, State.log_conn, h, assignStreamId_withoutFin]
    exact ⟨(enterStream_withoutFin ..).symm, rfl⟩
  unfold openLocalStream
  rw [h]
  show Agree (if s.conn.conn.isNone || s.conn.closed then _ else _)
    (if s.conn.conn.isNone || s.conn.closed then _ else _)
  split
  · exact State.Forgets.throw h _
  · cases rv with
    | ok i => exact hret (.ok i) false
    | error e =>
      cases e with
      | streamIdBlocked => exact hret (.error .streamIdBlocked) true
      | _ => exact State.Forgets.throw (h.log _ _) _

theorem recv_agree (h : s.Forgets s') (g : Getaddrinfo) (d : Datagram) (a : ReadPktAnswer)
    {cbs : List Callback} (hcbs : (s.runCallbacks a.callbacks).Forgets (s'.runCallbacks cbs)) :
    Agree (recv s g d a) (recv s' g d { a with callbacks := cbs }) := by
  have hread (path : Path) :
      ((s.runCallbacks a.callbacks).log (.readPkt path d.payload a.rv)).Forgets
        ((s'.runCallbacks cbs).log (.readPkt path d.payload a.rv)) :=
    hcbs.log _ _
  unfold recv
  rw [h]
  simp only
  rw [show s.conn.withoutFin.localAddr = s.conn.localAddr from rfl,
    show s.conn.withoutFin.conn = s.conn.conn from rfl]
  split
  · exact State.Forgets.throw h _
  · split
    · exact State.Forgets.throw h _
    · split
      · exact State.Forgets.throw h _
      · rename_i remoteAddr _ _ localAddr _
        have hpath := hread { localAddr, remoteAddr }
        split
        · exact ⟨hpath.syncState _, rfl⟩
        · split
          · exact ⟨hpath.syncState _, rfl⟩
          · exact (hpath.firstError _).throw _

theorem onTimeout_agree (h : s.Forgets s') (a : ExpiryAnswer) :
    Agree (onTimeout s a) (onTimeout s' a.withoutFin) := by
  have hexpiry : ((s.runCallbacks a.callbacks).log (.handleExpiry a.rv)).Forgets
      ((s'.runCallbacks (a.callbacks.map Callback.withoutFin)).log (.handleExpiry a.rv)) :=
    (h.runCallbacks a.callbacks).log _ _
  unfold onTimeout
  rw [h]
  simp only [ExpiryAnswer.withoutFin]
  rw [show s.conn.withoutFin.closed = s.conn.closed from rfl,
    show s.conn.withoutFin.conn = s.conn.conn from rfl]
  split
  · exact ⟨h, rfl⟩
  · split
    · exact ⟨hexpiry.syncState _, rfl⟩
    · split
      · exact ⟨hexpiry.syncState _, rfl⟩
      · exact (hexpiry.setLastError _).throw _

theorem drainEvents_agree (h : s.Forgets s') : Agree (drainEvents s) (drainEvents s') := by
  unfold drainEvents
  rw [h]
  exact ⟨rfl, rfl⟩

theorem close_agree (h : s.Forgets s') (code : Int64) (reason : Option Bytes) :
    Agree (close s code reason) (close s' code reason) := by
  unfold close
  rw [h]
  show Agree (if s.conn.closeRequested then _ else _) (if s.conn.closeRequested then _ else _)
  split
  · exact ⟨h, rfl⟩
  · refine ⟨?_, rfl⟩
    show (if s.conn.closeEventEmitted then _ else _) = (if s.conn.closeEventEmitted then _ else _ :
      Connection).withoutFin
    split
    · rfl
    · rfl

/-! ### The send loop -/

theorem drainClose_agree (h : s.Forgets s') (a : CloseAnswer) :
    Agree (drainClose s a) (drainClose s' a.withoutFin) := by
  have hcbs := h.runCallbacks a.callbacks
  have hsent {s s' : State} (h : s.Forgets s') :
      (s.withConn { s.conn with closePacketSent := true }).Forgets
        (s'.withConn { s'.conn with closePacketSent := true }) := by
    unfold State.Forgets
    show { s'.conn with closePacketSent := true } = _
    rw [h]
    rfl
  unfold drainClose
  simp only [CloseAnswer.withoutFin]
  split
  · split
    · exact ⟨(hsent (hcbs.log _ _)).syncState _, rfl⟩
    · exact (hcbs.log _ _).throw _
  · rename_i pkt _
    exact ⟨hsent (hcbs.log _ _), congrArg
      (fun d => Result.returned (if pkt.length > 0 then [d] else [])) (hcbs.datagram pkt)⟩

theorem openIfPending_agree (h : s.Forgets s') (offer : Option Offer) (rv : Except Err Int) :
    Agree (openIfPending s offer rv) (openIfPending s' offer rv) := by
  unfold openIfPending
  cases offer with
  | none => exact ⟨h, rfl⟩
  | some o =>
    simp only
    rw [h, any_withoutFin s.conn o.streamId (p := StreamEntry.pendingOpen) fun _ => rfl]
    split
    · exact ⟨h, rfl⟩
    · cases rv with
      | ok opened =>
        simp only
        split
        · exact ⟨h.log _ _, rfl⟩
        · exact ⟨(h.log _ _).modifyEntry o.streamId fun _ => rfl, rfl⟩
      | error e =>
        cases e with
        | streamIdBlocked => exact ⟨h.log _ _, rfl⟩
        | _ => exact ⟨h.log _ _, rfl⟩

theorem writevStream_agree (h : s.Forgets s') (offer : Option Offer) (a : IterAnswer) :
    Agree (writevStream s offer a) (writevStream s' offer a.withoutFin) := by
  have hcbs := h.runCallbacks a.writev.callbacks
  have hupdate (p : Bool) :
      (s'.runCallbacks (a.writev.callbacks.map Callback.withoutFin)).conn.updateTxEntry
          (offer.map Offer.streamId) a.writev.wdatalen (offer.any Offer.fin) p =
      ((s.runCallbacks a.writev.callbacks).conn.updateTxEntry (offer.map Offer.streamId)
        a.writev.wdatalen (offer.any Offer.fin) p).withoutFin := by
    rw [hcbs, updateTxEntry_withoutFin]
  unfold writevStream
  simp only [IterAnswer.withoutFin]
  cases a.writev.result with
  | ok pkt =>
    simp only
    have hpkt := hupdate (decide (pkt.length > 0))
    split
    · exact ⟨hpkt, rfl⟩
    · exact ⟨hpkt, congrArg Verdict.emit ((State.Forgets.withConn hpkt s s').datagram pkt)⟩
  | error e =>
    cases e with
    | writeMore => exact ⟨hupdate false, rfl⟩
    | streamDataBlocked => exact ⟨hupdate false, rfl⟩
    | streamShutWr =>
      refine ⟨?_, rfl⟩
      show discardTxEntry _ _ = (discardTxEntry _ _).withoutFin
      rw [discardTxEntry_withoutFin]
      exact congrArg (fun c => discardTxEntry c _) hcbs
    | closing | draining | idleClose => exact ⟨(hcbs.log _ _).syncState _, rfl⟩
    | _ => exact ⟨(hcbs.log _ _).setLastError _, rfl⟩

theorem drainIteration_agree (h : s.Forgets s') (force : Bool) (a : IterAnswer) :
    Agree (drainIteration s force a) (drainIteration s' force a.withoutFin) := by
  have hpick : Agree (pickOrNone s force) (pickOrNone s' force) := by
    unfold pickOrNone
    cases force with
    | true => exact ⟨h, rfl⟩
    | false =>
      obtain ⟨hstate, hoffer⟩ := pickTxStream_withoutFin s.conn
      rw [h]
      exact ⟨hstate.symm, hoffer⟩
  have hopen := openIfPending_agree hpick.state (pickOrNone s force).2 a.openStream
  unfold drainIteration
  simp only
  rw [hpick.answer, show a.withoutFin.openStream = a.openStream from rfl]
  generalize openIfPending (pickOrNone s force).1 (pickOrNone s force).2 a.openStream = r at hopen ⊢
  generalize openIfPending (pickOrNone s' force).1 (pickOrNone s force).2 a.openStream = r'
    at hopen ⊢
  obtain ⟨s₁, v⟩ := r
  obtain ⟨s₂, v'⟩ := r'
  obtain ⟨hstate, hanswer⟩ := hopen
  cases hanswer
  cases v with
  | error e => exact ⟨hstate, rfl⟩
  | ok offer => exact writevStream_agree hstate offer a

theorem drainLoop_agree (h : s.Forgets s') (force : Bool) (out : List Datagram)
    (as : List IterAnswer) :
    Agree (drainLoop s force out as) (drainLoop s' force out (as.map IterAnswer.withoutFin)) := by
  induction as generalizing s s' force out with
  | nil => exact ⟨h, rfl⟩
  | cons a as ih =>
    have hiter := drainIteration_agree h force a
    rw [List.map_cons]
    unfold drainLoop
    generalize drainIteration s force a = r at hiter ⊢
    generalize drainIteration s' force a.withoutFin = r' at hiter ⊢
    obtain ⟨s₁, v⟩ := r
    obtain ⟨s₂, v'⟩ := r'
    obtain ⟨hstate, hanswer⟩ := hiter
    cases hanswer
    cases v with
    | again force => exact ih hstate force out
    | stop => exact ⟨hstate, rfl⟩
    | threw e => exact ⟨hstate, rfl⟩
    | emit d =>
      simp only
      split
      · exact ⟨hstate, rfl⟩
      · exact ih hstate false _

theorem drainOutgoingDatagrams_agree (h : s.Forgets s') (a : DrainAnswers) :
    Agree (drainOutgoingDatagrams s a) (drainOutgoingDatagrams s' a.withoutFin) := by
  have hloop := drainLoop_agree h false [] a.loop
  unfold drainOutgoingDatagrams
  rw [h]
  simp only [DrainAnswers.withoutFin]
  rw [show s.conn.withoutFin.conn = s.conn.conn from rfl,
    show s.conn.withoutFin.closeRequested = s.conn.closeRequested from rfl,
    show s.conn.withoutFin.closePacketSent = s.conn.closePacketSent from rfl]
  split
  · exact ⟨h, rfl⟩
  · split
    · exact drainClose_agree h a.close
    · generalize drainLoop s false [] a.loop = r at hloop ⊢
      generalize drainLoop s' false [] (a.loop.map IterAnswer.withoutFin) = r' at hloop ⊢
      obtain ⟨s₁, v⟩ := r
      obtain ⟨s₂, v'⟩ := r'
      obtain ⟨hstate, hanswer⟩ := hloop
      cases hanswer
      cases v with
      | stopped out => exact ⟨State.Forgets.syncState hstate _, rfl⟩
      | threw e => exact State.Forgets.throw hstate e
      | running out => exact ⟨hstate, rfl⟩

theorem construct_withoutFin (c : Connection) (r : Address) (l : Option Address)
    (a : ConstructAnswers) :
    c.withoutFin.construct r l a = ((c.construct r l a).1.withoutFin, (c.construct r l a).2) := by
  unfold construct
  simp only
  split
  · rfl
  · split
    · rfl
    · split
      · rfl
      · split
        · rfl
        · split <;> rfl

end Connection

/-! ## What the application sees -/

/-- What a public method gives the application. -/
inductive Answer where
  | string (r : Result Bytes)
  | length (r : Result Nat)
  | void (r : Result Unit)
  | stream (r : Result Int)
  | datagrams (r : Result (List Datagram))
  | events (r : Result (List Event))
  | constructed (e : Option Exn)
  | bool (b : Bool)
  | nullableInt (i : Option Int)
  deriving DecidableEq

/-- How the call ends. -/
def Call.answer (s : State) : Call → Answer
  | .op (.read id length) => .string (Stream.read s id length).2
  | .op (.write id data) => .length (Stream.write s id data).2
  | .op (.end_ id finalData) => .void (Stream.end_ s id finalData).2
  | .op (.reset id errorCode a) => .void (Stream.reset s id errorCode a).2
  | .op (.openStream rv) => .stream (Connection.openStream s rv).2
  | .op (.openUniStream rv) => .stream (Connection.openUniStream s rv).2
  | .op (.recv getaddrinfo datagram a) => .void (Connection.recv s getaddrinfo datagram a).2
  | .op (.onTimeout a) => .void (Connection.onTimeout s a).2
  | .op (.drainOutgoingDatagrams a) => .datagrams (Connection.drainOutgoingDatagrams s a).2
  | .op .drainEvents => .events (Connection.drainEvents s).2
  | .op (.close errorCode reason) => .void (Connection.close s errorCode reason).2
  | .construct remoteAddress localAddress a =>
    .constructed (s.conn.construct remoteAddress localAddress a).2

/-- A public method that changes nothing, with the readings of the clocks that it takes. -/
inductive Getter where
  | isReadable (streamId : Int)
  | isWritable (streamId : Int)
  | isStreamClosed (streamId : Int)
  | getStream (streamId : Int)
  | getNextTimeout (now expiry : Nat)
  | getNextExpiry (now expiry : Nat) (epochMs : Int)
  | isEstablished
  | isClosed
  | isDraining

def Getter.answer (s : State) : Getter → Answer
  | .isReadable id => .bool (Stream.isReadable s id)
  | .isWritable id => .bool (Stream.isWritable s id)
  | .isStreamClosed id => .bool (Stream.isClosed s id)
  | .getStream id => .nullableInt (s.conn.getStream id)
  | .getNextTimeout now expiry => .nullableInt (s.conn.getNextTimeout now expiry)
  | .getNextExpiry now expiry epochMs => .nullableInt (s.conn.getNextExpiry now expiry epochMs)
  | .isEstablished => .bool s.conn.isEstablished
  | .isClosed => .bool s.conn.isClosed
  | .isDraining => .bool s.conn.isDraining

/-- The answers of the calls, in their order. -/
def Call.answers (s : State) : List Call → List Answer
  | [] => []
  | call :: calls => call.answer s :: answers (call.step s) calls

/-- What tells two runs apart: an answer of a call, an event in the queue, or a getter. -/
structure SeenAlike (s₁ : State) (calls₁ : List Call) (s₂ : State) (calls₂ : List Call) : Prop where
  answers : Call.answers s₁ calls₁ = Call.answers s₂ calls₂
  events : (Runs.run (fun s call => Call.step s call) s₁ calls₁).conn.events =
    (Runs.run (fun s call => Call.step s call) s₂ calls₂).conn.events
  getters : ∀ getter : Getter,
    getter.answer (Runs.run (fun s call => Call.step s call) s₁ calls₁) =
      getter.answer (Runs.run (fun s call => Call.step s call) s₂ calls₂)

namespace State.Forgets

variable {s s' : State}

/-- A call keeps the run and the run without the flag together, and answers the same in both. -/
theorem call (h : s.Forgets s') (call : Call) :
    (call.step s).Forgets (call.withoutFin.step s') ∧
      call.withoutFin.answer s' = call.answer s := by
  have hboth {α : Type} {r r' : State × α} (hr : Agree r r') (f : α → Answer) :
      r.1.Forgets r'.1 ∧ f r'.2 = f r.2 := ⟨hr.state, congrArg f hr.answer⟩
  cases call with
  | op o =>
    cases o with
    | read id length => exact hboth (Stream.read_agree h id length) .string
    | write id data => exact hboth (Stream.write_agree h id data) .length
    | end_ id data => exact hboth (Stream.end_agree h id data) .void
    | reset id code a => exact hboth (Stream.reset_agree h id code a) .void
    | openStream rv => exact hboth (Connection.openLocalStream_agree true _ h rv) .stream
    | openUniStream rv => exact hboth (Connection.openLocalStream_agree false _ h rv) .stream
    | recv g d a => exact hboth (Connection.recv_agree h g d a (h.runCallbacks a.callbacks)) .void
    | onTimeout a => exact hboth (Connection.onTimeout_agree h a) .void
    | drainOutgoingDatagrams a =>
      exact hboth (Connection.drainOutgoingDatagrams_agree h a) .datagrams
    | drainEvents => exact hboth (Connection.drainEvents_agree h) .events
    | close code reason => exact hboth (Connection.close_agree h code reason) .void
  | construct r l a =>
    show (Call.step s (.construct r l a)).Forgets (Call.step s' (.construct r l a)) ∧ _
    unfold Call.step Call.answer
    simp only [Call.withoutFin]
    rw [h, Connection.construct_withoutFin]
    generalize s.conn.construct r l a = x
    obtain ⟨c, e⟩ := x
    cases e with
    | none => exact ⟨rfl, rfl⟩
    | some e => exact ⟨rfl, rfl⟩

theorem getter (h : s.Forgets s') (getter : Getter) : getter.answer s' = getter.answer s := by
  have hany (p : StreamEntry → Bool) (hp : ∀ e : StreamEntry, p e.withoutFin = p e) (id : Int) :
      (s'.conn.getStreamEntry id).any p = (s.conn.getStreamEntry id).any p := by
    rw [h, Connection.any_withoutFin _ id hp]
  cases getter with
  | isReadable id => exact congrArg Answer.bool (hany _ (fun _ => rfl) id)
  | isWritable id => exact congrArg Answer.bool (hany _ (fun _ => rfl) id)
  | isStreamClosed id =>
    show Answer.bool ((s'.conn.getStreamEntry id).all StreamEntry.closed) = _
    rw [h.get]
    cases hget : s.conn.getStreamEntry id with
    | none => simp [Getter.answer, Stream.isClosed, hget]
    | some e => simp [Getter.answer, Stream.isClosed, hget, StreamEntry.withoutFin]
  | getStream id =>
    show Answer.nullableInt (s'.conn.getStream id) = Answer.nullableInt (s.conn.getStream id)
    unfold Connection.getStream
    rw [h.get, Option.isNone_map]
  | _ =>
    unfold Getter.answer
    rw [h]
    rfl

theorem runCalls (h : s.Forgets s') (calls : List Call) :
    (Runs.run (fun s call => Call.step s call) s calls).Forgets
      (Runs.run (fun s call => Call.step s call) s' (calls.map Call.withoutFin)) :=
  Runs.run_simulated (R := State.Forgets) (fun _ _ call h => (h.call call).1) h calls

theorem answers (h : s.Forgets s') (calls : List Call) :
    Call.answers s' (calls.map Call.withoutFin) = Call.answers s calls := by
  induction calls generalizing s s' with
  | nil => rfl
  | cons call calls ih =>
    obtain ⟨hstate, hanswer⟩ := h.call call
    show call.withoutFin.answer s' :: Call.answers (call.withoutFin.step s') _ = _
    rw [hanswer, ih hstate]
    rfl

/-- Two runs that are the same without the FINs of the peer are seen alike. -/
theorem seenAlike {s₁ s₂ : State} (h : s₁.conn.withoutFin = s₂.conn.withoutFin)
    {calls₁ calls₂ : List Call} (hcalls : calls₁.map Call.withoutFin = calls₂.map Call.withoutFin) :
    SeenAlike s₁ calls₁ s₂ calls₂ := by
  have h₁ : s₁.Forgets ⟨s₁.conn.withoutFin, []⟩ := rfl
  have h₂ : s₂.Forgets ⟨s₁.conn.withoutFin, []⟩ := h
  have hrun₁ := h₁.runCalls calls₁
  have hrun₂ := h₂.runCalls calls₂
  rw [hcalls] at hrun₁
  refine ⟨?_, ?_, fun getter => ?_⟩
  · rw [← h₁.answers, ← h₂.answers, hcalls]
  · exact hrun₁.events.symm.trans hrun₂.events
  · exact (hrun₁.getter getter).symm.trans (hrun₂.getter getter)

end State.Forgets

/-! ## Two runs -/

theorem Start.state_withoutFin (start : Start) :
    start.state.Forgets start.withoutFin.state := by
  cases start with
  | uninitialised => rfl
  | client path r l => rfl
  | server path r l payload cbs =>
    have hbase : (Start.server path r l payload cbs).base.Forgets
        (Start.server path r l payload cbs).base := rfl
    exact (hbase.runCallbacks cbs).log _ _

/-- A FIN that comes without data, for a stream that has been read. -/
theorem Connection.finAlone_withoutFin {c : Connection} {id : Int} {e : StreamEntry}
    (hget : c.getStreamEntry id = some e) (hread : e.rxBuffer = []) (offset : Nat) :
    (c.callback (.recvStreamData true id offset [])).withoutFin = c.withoutFin := by
  have hopen : c.openStreamEntry id = c :=
    congrArg (fun streams => { c with streams })
      (OrdTable.addNew_of_find? (v := StreamEntry.alloc id) hget)
  have hdata : c.modifyEntry id (fun e => { e with rxBuffer := bufferAppend e.rxBuffer [] })
      (fun _ => rfl) = c :=
    congrArg (fun streams => { c with streams }) (OrdTable.modify_eq_self fun _ _ => rfl)
  show (c.recvStreamDataCb true id []).withoutFin = c.withoutFin
  unfold recvStreamDataCb
  simp only
  rw [hopen, hdata, hget, Option.any_some, hread]
  simp only [List.length_nil, gt_iff_lt, Nat.lt_irrefl, decide_false, Bool.and_false,
    Bool.false_eq_true, if_false, if_true]
  exact finRecv_withoutFin c id fun _ => rfl

/-- Callbacks that deliver such a FIN, and the others alone. -/
theorem State.Forgets.finAlone {s s' : State} (h : s.Forgets s') {pre : List Callback} {id : Int}
    {e : StreamEntry} (hget : (s.runCallbacks pre).conn.getStreamEntry id = some e)
    (hread : e.rxBuffer = []) (offset : Nat) (post : List Callback) :
    (s.runCallbacks (pre ++ .recvStreamData true id offset [] :: post)).Forgets
      (s'.runCallbacks ((pre ++ post).map Callback.withoutFin)) := by
  have hpre := h.runCallbacks pre
  have hfin : ((s.runCallbacks pre).runCallback (.recvStreamData true id offset [])).Forgets
      (s'.runCallbacks (pre.map Callback.withoutFin)) :=
    hpre.trans (Connection.finAlone_withoutFin hget hread offset).symm
  have hpost := hfin.runCallbacks post
  unfold State.runCallbacks at hpost ⊢
  rw [List.foldl_append, List.map_append, List.foldl_append]
  exact hpost

namespace SeenAlike

variable {s₁ s₂ : State} {call₁ call₂ : Call} {calls₁ calls₂ : List Call}

theorem cons (hanswer : call₁.answer s₁ = call₂.answer s₂)
    (h : SeenAlike (call₁.step s₁) calls₁ (call₂.step s₂) calls₂) :
    SeenAlike s₁ (call₁ :: calls₁) s₂ (call₂ :: calls₂) where
  answers := by
    show call₁.answer s₁ :: Call.answers (call₁.step s₁) calls₁ = _
    rw [hanswer, h.answers]
    rfl
  events := h.events
  getters := h.getters

/-- The same calls first. -/
theorem append {s : State} (calls : List Call)
    (h : SeenAlike (Runs.run (fun s call => Call.step s call) s calls) calls₁
      (Runs.run (fun s call => Call.step s call) s calls) calls₂) :
    SeenAlike s (calls ++ calls₁) s (calls ++ calls₂) := by
  induction calls generalizing s with
  | nil => exact h
  | cons call calls ih => exact cons rfl (ih h)

/-- The datagram brings such a FIN, or does not. -/
theorem finAlone {s : State} {a : ReadPktAnswer} {pre post : List Callback} {id : Int} {offset : Nat}
    {e : StreamEntry} (ha : a.callbacks = pre ++ .recvStreamData true id offset [] :: post)
    (hget : (s.runCallbacks pre).conn.getStreamEntry id = some e) (hread : e.rxBuffer = [])
    (g : Getaddrinfo) (d : Datagram) (rest : List Call) :
    SeenAlike s (.op (.recv g d a) :: rest)
      s (.op (.recv g d { a with callbacks := pre ++ post }) :: rest) := by
  have h : s.Forgets ⟨s.conn.withoutFin, []⟩ := rfl
  have hwith := Connection.recv_agree h g d a (ha ▸ h.finAlone hget hread offset post)
  have hwithout := Connection.recv_agree h g d { a with callbacks := pre ++ post }
    (h.runCallbacks (pre ++ post))
  refine cons (congrArg Answer.void (hwith.answer.symm.trans hwithout.answer)) ?_
  exact State.Forgets.seenAlike (hwith.state.symm.trans hwithout.state) rfl

end SeenAlike

/-- Two runs that differ only in whether the data of the peer carries its FIN are seen alike; and so
are a run in which a FIN comes without data, on a stream that has been read, and the one in which it
does not come. -/
theorem peerFin_hidden (start start' : Start) (calls calls' : List Call)
    (hstart : start.withoutFin = start'.withoutFin)
    (hcalls : calls.map Call.withoutFin = calls'.map Call.withoutFin) :
    SeenAlike start.state calls start'.state calls' ∧
    ∀ (g : Getaddrinfo) (d : Datagram) (a : ReadPktAnswer) (pre post : List Callback) (id : Int)
      (offset : Nat) (e : StreamEntry),
      a.callbacks = pre ++ .recvStreamData true id offset [] :: post →
      ((start.runCalls calls).runCallbacks pre).conn.getStreamEntry id = some e →
      e.rxBuffer = [] → ∀ rest : List Call,
      SeenAlike start.state (calls ++ .op (.recv g d a) :: rest)
        start.state (calls ++ .op (.recv g d { a with callbacks := pre ++ post }) :: rest) := by
  constructor
  · refine State.Forgets.seenAlike ?_ hcalls
    have h := start.state_withoutFin
    have h' := start'.state_withoutFin
    rw [hstart] at h
    exact h.symm.trans h'
  · intro g d a pre post id offset e ha hget hread rest
    exact SeenAlike.append calls (SeenAlike.finAlone ha hget hread g d rest)

/-- A datagram of the server, with the callbacks that ngtcp2 makes when it reads it. -/
def serverDatagram (callbacks : List Callback) : Call :=
  .op (.recv (fun _ _ => some [{ family := .inet }])
    { payload := [1], peerAddress := some { host := [49], port := 4433 }, localAddress := none }
    { callbacks })

/-- A client reads the byte that it gets, which has the FIN of the peer or not. -/
def readAnswer (fin : Bool) : List Call :=
  [.op (.openStream (.ok 0)), serverDatagram [.recvStreamData fin 0 0 [5]], .op (.read 0 1)]

/-- The FIN comes with the byte, or after it, in a datagram of its own, or not at all. -/
theorem peerFin_hidden_afterRead :
    SeenAlike (Start.client {} none none).state (readAnswer false)
      (Start.client {} none none).state (readAnswer true) ∧
    SeenAlike (Start.client {} none none).state
      (readAnswer false ++ [serverDatagram [.recvStreamData true 0 1 []]])
      (Start.client {} none none).state (readAnswer false ++ [serverDatagram []]) := by
  obtain ⟨hfin, halone⟩ :=
    peerFin_hidden (.client {} none none) (.client {} none none) (readAnswer false) (readAnswer true)
      rfl rfl
  exact ⟨hfin, halone _ _ { callbacks := [.recvStreamData true 0 1 []] } [] [] 0 1 _ rfl rfl rfl []⟩

/-- The client cannot tell whether the answer is complete. -/
theorem peerFin_unseen :
    ¬ ∀ (start : Start) (calls calls' : List Call) (id : Int), isBidiStream id = true →
      calls.map Call.withoutFin = calls'.map Call.withoutFin →
      ((start.runCalls calls).conn.entry id).finRecv = true →
      ((start.runCalls calls').conn.entry id).finRecv = false →
      ((start.runCalls calls).conn.entry id).rxBuffer = [] →
      ((start.runCalls calls).conn.entry id).finPending = false →
      ((start.runCalls calls).conn.entry id).reset = false →
      ¬ SeenAlike start.state calls start.state calls' := by
  intro h
  exact h (.client {} none none) (readAnswer true) (readAnswer false) 0 (by decide) rfl (by decide)
    (by decide) (by decide) (by decide) (by decide) (State.Forgets.seenAlike rfl rfl)

end PhpQuic
