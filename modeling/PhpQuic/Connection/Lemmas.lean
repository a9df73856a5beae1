import PhpQuic.Connection.Drain

/-!
# What each function does to the entries

Proof-only. `Connection.entry c id` is the entry of the stream `id`, or the fresh one that it would
get: opening an entry does not change it (`entry_openStreamEntry`), so a callback that opens an
entry and writes to it is one write (`entry_openModify`).

* `entry_modifyEntry`, `updateTxEntry_streams`, `discardTxEntry_streams`: the writes.
* `callback_streams`, `callback_events`: a callback writes to the entry of its stream alone
  (`StreamEntry.react`) and pushes events about it alone (`StreamEntry.tells`).
* `StreamEntry.TxFrame`: the outgoing half is unchanged, and an entry that was closed or reset
  stays so. Every callback keeps it (`callback_frame`).
* `pickTxStream_some`, `pickTxStream_none`: what the choice of a stream says of the entries.
-/

namespace PhpQuic

namespace Connection

/-- The entry of `id`, or the one that it would get. -/
def entry (c : Connection) (id : Int) : StreamEntry := (c.getStreamEntry id).getD (.alloc id)

/-- The stream `id` has an entry. -/
def hasEntry (c : Connection) (id : Int) : Prop := (c.getStreamEntry id).isSome = true

variable {c : Connection} {id id' : Int} {e : StreamEntry}

theorem entry_of_get (h : c.getStreamEntry id = some e) : c.entry id = e := by simp [entry, h]

theorem hasEntry_of_get (h : c.getStreamEntry id = some e) : c.hasEntry id := by simp [hasEntry, h]

theorem get_of_hasEntry (h : c.hasEntry id) : c.getStreamEntry id = some (c.entry id) := by
  unfold hasEntry at h
  obtain ⟨e, he⟩ := Option.isSome_iff_exists.mp h
  rw [he, entry_of_get he]

theorem entry_of_not_hasEntry (h : ¬ c.hasEntry id) : c.entry id = .alloc id := by
  unfold hasEntry at h
  unfold entry
  rw [Option.not_isSome_iff_eq_none.mp h, Option.getD_none]

@[simp] theorem entry_streamId (c : Connection) (id : Int) : (c.entry id).streamId = id := by
  unfold entry getStreamEntry
  cases h : c.streams.find? id with
  | none => rfl
  | some e => exact OrdTable.key_of_find? h

theorem get_of_mem (h : e ∈ c.streams.vals) : c.getStreamEntry e.streamId = some e :=
  OrdTable.find?_of_mem h

/-- Two connections with the same table have the same entries. -/
theorem entry_congr {c' : Connection} (h : c'.streams = c.streams) (id : Int) :
    c'.entry id = c.entry id := by
  unfold entry getStreamEntry; rw [h]

/-! ## The writes -/

end Connection

namespace StreamEntry

/-- The entry behind the last test of `php_quic_connection_update_tx_entry`. -/
def woken (e : StreamEntry) : StreamEntry :=
  if e.becomesWritable then { e with writable := true } else e

/-- The event of that test. -/
def wakes (e : StreamEntry) : List Event :=
  if e.becomesWritable then
    [{ type := .streamWritable, streamId := e.streamId, errorCode := 0, byPeer := false, reason := none }]
  else []

/-- The test writes to `writable` alone. -/
theorem woken_eq (e : StreamEntry) :
    e.woken = { e with writable := e.writable || e.becomesWritable } := by
  unfold woken
  cases h : e.becomesWritable with
  | true => rw [if_pos rfl, Bool.or_true]
  | false => rw [if_neg Bool.false_ne_true, Bool.or_false]

@[simp] theorem woken_streamId (e : StreamEntry) : e.woken.streamId = e.streamId := by
  rw [woken_eq]

end StreamEntry

namespace Connection

variable {c : Connection} {id id' : Int} {e : StreamEntry}

theorem get_modifyEntry (f : StreamEntry → StreamEntry) (hf : ∀ e, (f e).streamId = e.streamId) :
    (c.modifyEntry id f hf).getStreamEntry id' =
      if id' = id then (c.getStreamEntry id').map f else c.getStreamEntry id' :=
  OrdTable.find?_modify c.streams id f hf id'

theorem entry_modifyEntry (f : StreamEntry → StreamEntry) (hf : ∀ e, (f e).streamId = e.streamId)
    (h : c.hasEntry id) :
    (c.modifyEntry id f hf).entry id' = if id' = id then f (c.entry id) else c.entry id' := by
  unfold entry
  rw [get_modifyEntry]
  split
  · rename_i e; subst e
    rw [get_of_hasEntry h]; rfl
  · rfl

theorem entry_modifyEntry_self (f : StreamEntry → StreamEntry)
    (hf : ∀ e, (f e).streamId = e.streamId) (h : c.hasEntry id) :
    (c.modifyEntry id f hf).entry id = f (c.entry id) := by
  rw [entry_modifyEntry f hf h, if_pos rfl]

@[simp] theorem hasEntry_modifyEntry (f : StreamEntry → StreamEntry)
    (hf : ∀ e, (f e).streamId = e.streamId) :
    (c.modifyEntry id f hf).hasEntry id' ↔ c.hasEntry id' := by
  unfold hasEntry
  rw [get_modifyEntry]
  split <;> simp

@[simp] theorem entry_openStreamEntry : (c.openStreamEntry id).entry id' = c.entry id' := by
  unfold entry getStreamEntry openStreamEntry
  rw [OrdTable.find?_addNew]
  by_cases h : id' = id
  · subst h; simp
  · simp [h]

theorem hasEntry_openStreamEntry :
    (c.openStreamEntry id).hasEntry id' ↔ id' = id ∨ c.hasEntry id' := by
  unfold hasEntry getStreamEntry openStreamEntry
  rw [OrdTable.find?_addNew]
  by_cases h : id' = id <;> simp [h]

theorem entry_openModify (f : StreamEntry → StreamEntry)
    (hf : ∀ e, (f e).streamId = e.streamId) :
    ((c.openStreamEntry id).modifyEntry id f hf).entry id' =
      if id' = id then f (c.entry id) else c.entry id' := by
  rw [entry_modifyEntry f hf (hasEntry_openStreamEntry.mpr (.inl rfl)), entry_openStreamEntry,
    entry_openStreamEntry]

@[simp] theorem entry_pushEvent (t : EventType) (i : Int) (code : UInt64) (p : Bool)
    (r : Option Bytes) : (c.pushEvent t i code p r).entry id = c.entry id := rfl

@[simp] theorem hasEntry_pushEvent (t : EventType) (i : Int) (code : UInt64) (p : Bool)
    (r : Option Bytes) : (c.pushEvent t i code p r).hasEntry id ↔ c.hasEntry id := Iff.rfl

/-- `update_tx_entry` writes to its entry, and its last test wakes the writer. -/
theorem updateTxEntry_streams (c : Connection) (id : Int) (w : Int) (f p : Bool) :
    (c.updateTxEntry (some id) w f p).streams =
      c.streams.modify id (fun e => (e.updateTx w f p).woken) fun e => by simp := by
  have hite (p : Bool) (c₁ c₂ : Connection) :
      (if p then c₁ else c₂).streams = if p then c₁.streams else c₂.streams := apply_ite ..
  unfold updateTxEntry
  simp only
  rw [hite]
  refine (OrdTable.ite_modify _ id StreamEntry.becomesWritable (fun e => { e with writable := true })
    (fun _ => rfl) StreamEntry.woken_streamId).trans ?_
  exact OrdTable.modify_modify c.streams id (·.updateTx w f p) StreamEntry.woken
    (fun e => e.updateTx_streamId w f p) _

theorem updateTxEntry_events (c : Connection) (id : Int) (w : Int) (f p : Bool) :
    (c.updateTxEntry (some id) w f p).events = c.events ++ ((c.entry id).updateTx w f p).wakes := by
  have hany : ((c.modifyEntry id (·.updateTx w f p) (by simp)).getStreamEntry id).any
      StreamEntry.becomesWritable = ((c.entry id).updateTx w f p).becomesWritable := by
    rw [get_modifyEntry, if_pos rfl]
    unfold entry
    cases c.getStreamEntry id with
    | none =>
      -- a fresh entry is writable
      rw [StreamEntry.updateTx_eq]
      simp [StreamEntry.becomesWritable, StreamEntry.alloc]
    | some e => rfl
  unfold updateTxEntry StreamEntry.wakes
  simp only
  rw [hany, StreamEntry.updateTx_streamId, entry_streamId]
  split
  · rfl
  · exact (List.append_nil _).symm

theorem discardTxEntry_streams (c : Connection) (id : Int) :
    (c.discardTxEntry (some id)).streams =
      c.streams.modify id StreamEntry.discardTx fun _ => rfl := rfl

end Connection

/-! ## What the callbacks write -/

/-- The stream that a callback is about. -/
def Callback.streamId? : Callback → Option Int
  | .handshakeCompleted => none
  | .streamOpen id | .recvStreamData _ id _ _ | .streamClose _ id _ | .streamReset id _ _
  | .ackedStreamDataOffset id _ _ => some id

/-- The callback makes an entry for its stream if there is none. -/
def Callback.enters : Callback → Bool
  | .handshakeCompleted | .ackedStreamDataOffset .. => false
  | _ => true

namespace StreamEntry

/-- What a callback writes to the entry of its stream. -/
def react (conn : Option Role) (cb : Callback) (e : StreamEntry) : StreamEntry :=
  match cb with
  | .handshakeCompleted => e
  | .streamOpen id => { e with writable := isLocalStream (conn.getD .client) id || isBidiStream id }
  | .recvStreamData fin _ _ data =>
    { e with
      rxBuffer := e.rxBuffer ++ data
      readable := e.readable || decide ((e.rxBuffer ++ data).length > 0)
      finRecv := e.finRecv || fin }
  | .streamClose .. => { e with closed := true, writable := false }
  | .streamReset .. => { e with reset := true, closed := true, writable := false }
  | .ackedStreamDataOffset .. =>
    if e.closed || e.reset || e.finSent then e else { e with writable := true }

/-- The events that a callback pushes about its stream, by the entry that it finds or makes. -/
def tells (cb : Callback) (e : StreamEntry) : List Event :=
  match cb with
  | .handshakeCompleted => []
  | .streamOpen id =>
    [{ type := .streamOpened, streamId := id, errorCode := 0, byPeer := true, reason := none }]
  | .recvStreamData _ id _ data =>
    if !e.readable && decide ((e.rxBuffer ++ data).length > 0) then
      [{ type := .streamReadable, streamId := id, errorCode := 0, byPeer := true, reason := none }]
    else []
  | .streamClose set id code =>
    [{ type := .streamClosed, streamId := id, errorCode := if set then code else 0, byPeer := true,
       reason := none }]
  | .streamReset id _ code =>
    [{ type := .streamReset, streamId := id, errorCode := code, byPeer := true, reason := none }]
  | .ackedStreamDataOffset id _ _ =>
    if e.closed || e.reset || e.finSent || e.writable then []
    else [{ type := .streamWritable, streamId := id, errorCode := 0, byPeer := true, reason := none }]

/-- An acknowledgement writes to `writable` alone. -/
theorem react_acked (conn : Option Role) (id : Int) (offset datalen : Nat) (e : StreamEntry) :
    e.react conn (.ackedStreamDataOffset id offset datalen) =
      { e with writable := e.writable || !(e.closed || e.reset || e.finSent) } := by
  unfold react
  cases h : e.closed || e.reset || e.finSent with
  | true => rw [if_pos rfl, Bool.not_true, Bool.or_false]
  | false => rw [if_neg Bool.false_ne_true, Bool.not_false, Bool.or_true]

@[simp] theorem react_streamId (conn : Option Role) (cb : Callback) (e : StreamEntry) :
    (e.react conn cb).streamId = e.streamId := by
  cases cb with
  | ackedStreamDataOffset => rw [react_acked]
  | _ => rfl

end StreamEntry

namespace Connection

variable {c : Connection} {cb : Callback} {id id' : Int}

/-- The three writes of `php_quic_recv_stream_data_cb` are one. -/
theorem recvStreamDataCb_streams (c : Connection) (fin : Bool) (id : Int) (off : Nat) (data : Bytes) :
    (c.recvStreamDataCb fin id data).streams = (c.streams.addNew (.alloc id)).modify id
      (·.react c.conn (.recvStreamData fin id off data)) (StreamEntry.react_streamId _ _) := by
  have hfin (t : StreamTable) : (if fin then t.modify id (fun e => { e with finRecv := true })
      fun _ => rfl else t) = t.modify id (fun e => { e with finRecv := e.finRecv || fin })
        fun _ => rfl := by
    cases fin with
    | true =>
      refine (if_pos rfl).trans (OrdTable.modify_congr fun e _ => ?_)
      rw [Bool.or_true]
    | false =>
      refine (if_neg Bool.false_ne_true).trans (OrdTable.modify_eq_self fun e _ => ?_).symm
      rw [Bool.or_false]
  have hread (t : StreamTable) : (if (t.find? id).any fun e =>
      !e.readable && decide (e.rxBuffer.length > 0) then
        t.modify id (fun e => { e with readable := true }) fun _ => rfl else t) =
      t.modify id (fun e => { e with readable := e.readable || decide (e.rxBuffer.length > 0) })
        fun _ => rfl := by
    refine (OrdTable.ite_modify t id (fun e => !e.readable && decide (e.rxBuffer.length > 0))
      (fun e => { e with readable := true }) (fun _ => rfl) fun e => ?_).trans
      (OrdTable.modify_congr fun e _ => ?_)
    · split <;> rfl
    · obtain ⟨_, rx, _, _, readable, _, _, _, _, _, _, _⟩ := e
      cases readable with
      | true => rfl
      | false =>
        by_cases h : rx.length > 0
        · rw [decide_eq_true h]; rfl
        · rw [decide_eq_false h]; rfl
  have hite (p : Bool) (c₁ c₂ : Connection) :
      (if p then c₁ else c₂).streams = if p then c₁.streams else c₂.streams := apply_ite ..
  unfold recvStreamDataCb
  simp only
  rw [hite]
  refine (hfin _).trans ?_
  rw [hite]
  refine (congrArg (fun t : StreamTable => t.modify id _ _) (hread _)).trans ?_
  unfold modifyEntry openStreamEntry
  simp only
  rw [OrdTable.modify_modify, OrdTable.modify_modify]
  refine OrdTable.modify_congr fun e _ => ?_
  simp only [bufferAppend_eq, StreamEntry.react]

/-- A callback writes to the entry of its stream, which some callbacks make. -/
theorem callback_streams (c : Connection) (h : cb.streamId? = some id) :
    (c.callback cb).streams =
      (if cb.enters then c.streams.addNew (.alloc id) else c.streams).modify id (·.react c.conn cb)
        (StreamEntry.react_streamId _ _) := by
  cases cb with
  | handshakeCompleted => cases h
  | streamOpen i => cases h; rfl
  | recvStreamData fin i off data => cases h; exact recvStreamDataCb_streams c fin id off data
  | streamClose set i code => cases h; rfl
  | streamReset i size code => cases h; rfl
  | ackedStreamDataOffset i off len =>
    cases h
    unfold callback ackedStreamDataOffsetCb
    simp only
    cases hget : c.getStreamEntry id with
    | none =>
      refine (OrdTable.modify_eq_self fun e he => ?_).symm
      rw [show c.streams.find? id = none from hget] at he
      cases he
    | some entry =>
      have hreact (f : StreamEntry → StreamEntry) (hf : ∀ e, (f e).streamId = e.streamId)
          (h : f entry = entry.react c.conn (.ackedStreamDataOffset id off len)) :
          c.streams.modify id f hf = c.streams.modify id (·.react c.conn (.ackedStreamDataOffset id off
            len)) (StreamEntry.react_streamId _ _) := by
        refine OrdTable.modify_congr fun e he => ?_
        obtain rfl : entry = e := Option.some.inj (hget.symm.trans he)
        exact h
      have hself (h : entry.react c.conn (.ackedStreamDataOffset id off len) = entry) :
          c.streams = c.streams.modify id (·.react c.conn (.ackedStreamDataOffset id off
            len)) (StreamEntry.react_streamId _ _) := by
        refine (OrdTable.modify_eq_self fun e he => ?_).symm
        obtain rfl : entry = e := Option.some.inj (hget.symm.trans he)
        exact h
      simp only
      split
      · rename_i hstop
        exact hself (if_pos hstop)
      · rename_i hgo
        split
        · exact hreact (fun e => { e with writable := true }) (fun _ => rfl) (if_neg hgo).symm
        · rename_i hw
          refine hself ((if_neg hgo).trans ?_)
          rw [Bool.not_eq_true, Bool.not_eq_false'] at hw
          rw [← hw]

/-- The events of a callback about a stream. -/
theorem callback_events (c : Connection) (h : cb.streamId? = some id) :
    (c.callback cb).events = c.events ++
      if cb.enters || (c.getStreamEntry id).isSome then (c.entry id).tells cb else [] := by
  cases cb with
  | handshakeCompleted => cases h
  | streamOpen i => cases h; rfl
  | recvStreamData fin i off data =>
    cases h
    have hany : (((c.openStreamEntry id).modifyEntry id (fun e =>
        { e with rxBuffer := bufferAppend e.rxBuffer data }) fun _ => rfl).getStreamEntry id).any
          (fun e => !e.readable && decide (e.rxBuffer.length > 0)) =
        (!(c.entry id).readable && decide (((c.entry id).rxBuffer ++ data).length > 0)) := by
      have hentry : ((c.openStreamEntry id).modifyEntry id (fun e =>
          { e with rxBuffer := bufferAppend e.rxBuffer data }) fun _ => rfl).hasEntry id :=
        (hasEntry_modifyEntry _ _).mpr (hasEntry_openStreamEntry.mpr (.inl rfl))
      rw [get_of_hasEntry hentry, Option.any_some, entry_openModify, if_pos rfl]
      simp only [bufferAppend_eq]
    have hfin (c' : Connection) : (if fin then c'.modifyEntry id (fun e => { e with finRecv := true })
        fun _ => rfl else c').events = c'.events := by
      split <;> rfl
    unfold callback recvStreamDataCb
    simp only [hany, hfin]
    unfold StreamEntry.tells
    simp only [Callback.enters, Bool.true_or, if_true]
    split
    · rfl
    · exact (List.append_nil _).symm
  | streamClose set i code => cases h; rfl
  | streamReset i size code => cases h; rfl
  | ackedStreamDataOffset i off len =>
    cases h
    unfold callback ackedStreamDataOffsetCb
    simp only
    cases hget : c.getStreamEntry id with
    | none => exact (List.append_nil _).symm
    | some entry =>
      rw [entry_of_get hget]
      unfold StreamEntry.tells
      simp only [Callback.enters, Option.isSome_some, Bool.or_true, if_true]
      cases hstop : entry.closed || entry.reset || entry.finSent with
      | true => exact (List.append_nil _).symm
      | false =>
        cases hw : entry.writable with
        | true => exact (List.append_nil _).symm
        | false => rfl

/-- A callback about no stream leaves the table. -/
theorem callback_streams_none (c : Connection) (h : cb.streamId? = none) :
    (c.callback cb).streams = c.streams := by
  cases cb with
  | handshakeCompleted =>
    unfold callback handshakeCompletedCb
    simp only
    split <;> rfl
  | _ => cases h

/-- What a callback does to the entries. -/
theorem get_callback (c : Connection) (cb : Callback) (id : Int) :
    (c.callback cb).getStreamEntry id =
      if cb.streamId? = some id then
        (if cb.enters then some (c.entry id) else c.getStreamEntry id).map (·.react c.conn cb)
      else c.getStreamEntry id := by
  unfold getStreamEntry
  cases hcb : cb.streamId? with
  | none => rw [callback_streams_none c hcb, if_neg nofun]
  | some i =>
    have hget : (if cb.enters then c.streams.addNew (.alloc i) else c.streams).find? id =
        if i = id ∧ cb.enters = true then some (c.entry id) else c.getStreamEntry id := by
      split
      · refine (OrdTable.find?_addNew ..).trans ?_
        by_cases hid : id = i
        · subst hid
          exact (if_pos rfl).trans (if_pos ⟨rfl, ‹_›⟩).symm
        · exact (if_neg hid).trans (if_neg fun h => hid h.1.symm).symm
      · rw [if_neg fun h => ‹¬ _› h.2]
        rfl
    rw [callback_streams c hcb, OrdTable.find?_modify, hget]
    by_cases hid : id = i
    · subst hid
      rw [if_pos rfl, if_pos rfl]
      by_cases he : cb.enters = true
      · rw [if_pos ⟨rfl, he⟩, if_pos he]
      · rw [if_neg fun h => he h.2, if_neg he]
        rfl
    · rw [if_neg hid, if_neg fun h => hid (Option.some.inj h).symm, if_neg fun h => hid h.1.symm]
      rfl

theorem callback_hasEntry (cb : Callback) (h : c.hasEntry id) : (c.callback cb).hasEntry id := by
  unfold hasEntry
  rw [get_callback]
  repeat' split
  · rfl
  · rw [Option.isSome_map]; exact h
  · exact h

/-- An entry that an acknowledgement would make is a fresh one, which it leaves as it is. -/
theorem entry_callback (c : Connection) (cb : Callback) (id : Int) :
    (c.callback cb).entry id =
      if cb.streamId? = some id then (c.entry id).react c.conn cb else c.entry id := by
  have hacked (h : cb.enters = false) (hid : cb.streamId? = some id) :
      (StreamEntry.alloc id).react c.conn cb = .alloc id := by
    cases cb with
    | ackedStreamDataOffset i off len => rfl
    | handshakeCompleted => cases hid
    | _ => cases h
  unfold entry
  rw [get_callback]
  split
  · rename_i hid
    cases he : cb.enters with
    | true => rfl
    | false =>
      rw [if_neg Bool.false_ne_true]
      cases c.getStreamEntry id with
      | none => exact (hacked he hid).symm
      | some e => rfl
  · rfl

end Connection

/-! ## What the callbacks keep -/

/-- The outgoing half of `e'` is that of `e`; closed and reset only get set. -/
structure StreamEntry.TxFrame (e e' : StreamEntry) : Prop where
  txBuffer : e'.txBuffer = e.txBuffer
  txOffset : e'.txOffset = e.txOffset
  finPending : e'.finPending = e.finPending
  finSent : e'.finSent = e.finSent
  pendingOpen : e'.pendingOpen = e.pendingOpen
  closed : e.closed = true → e'.closed = true
  reset : e.reset = true → e'.reset = true

namespace StreamEntry.TxFrame

theorem refl (e : StreamEntry) : TxFrame e e := ⟨rfl, rfl, rfl, rfl, rfl, id, id⟩

theorem trans {e₁ e₂ e₃ : StreamEntry} (h : TxFrame e₁ e₂) (h' : TxFrame e₂ e₃) : TxFrame e₁ e₃ :=
  ⟨h'.txBuffer.trans h.txBuffer, h'.txOffset.trans h.txOffset, h'.finPending.trans h.finPending,
    h'.finSent.trans h.finSent, h'.pendingOpen.trans h.pendingOpen, h'.closed ∘ h.closed,
    h'.reset ∘ h.reset⟩

theorem unsent {e e' : StreamEntry} (h : TxFrame e e') : e'.unsent = e.unsent := by
  unfold StreamEntry.unsent; rw [h.txBuffer, h.txOffset]

end StreamEntry.TxFrame

namespace Connection

open StreamEntry (TxFrame)

variable {c : Connection} {id : Int}

/-- What a write does to its entry, it does to every entry, if nothing is also something. -/
theorem modifyEntry_rel {R : StreamEntry → StreamEntry → Prop} (hrefl : ∀ e, R e e)
    {f : StreamEntry → StreamEntry} (hf : ∀ e, (f e).streamId = e.streamId) (h : ∀ e, R e (f e))
    (i : Int) : R (c.entry id) ((c.modifyEntry i f hf).entry id) := by
  unfold entry
  rw [get_modifyEntry]
  split
  · cases c.getStreamEntry id with
    | none => exact hrefl _
    | some e => exact h e
  · exact hrefl _

theorem openModify_rel {R : StreamEntry → StreamEntry → Prop} (hrefl : ∀ e, R e e)
    {f : StreamEntry → StreamEntry} (hf : ∀ e, (f e).streamId = e.streamId) (h : ∀ e, R e (f e))
    (i : Int) : R (c.entry id) (((c.openStreamEntry i).modifyEntry i f hf).entry id) := by
  have hm : R ((c.openStreamEntry i).entry id) _ := modifyEntry_rel hrefl hf h i
  rwa [entry_openStreamEntry] at hm

/-- No callback touches the outgoing half of a stream. -/
theorem callback_frame (c : Connection) (cb : Callback) (id : Int) :
    TxFrame (c.entry id) ((c.callback cb).entry id) := by
  rw [entry_callback]
  split
  · cases cb with
    | streamClose => exact ⟨rfl, rfl, rfl, rfl, rfl, fun _ => rfl, fun h => h⟩
    | streamReset => exact ⟨rfl, rfl, rfl, rfl, rfl, fun _ => rfl, fun _ => rfl⟩
    | ackedStreamDataOffset =>
      rw [StreamEntry.react_acked]
      exact ⟨rfl, rfl, rfl, rfl, rfl, fun h => h, fun h => h⟩
    | _ => exact ⟨rfl, rfl, rfl, rfl, rfl, fun h => h, fun h => h⟩
  · exact .refl _

end Connection

/-! ## What changes the entries alone -/

/-- An event about a stream. -/
def EventType.ofStream : EventType → Bool
  | .handshakeCompleted | .connectionClosed | .connectionDraining => false
  | _ => true

namespace Connection

/-- `c'` is `c` with other entries and further events about streams. -/
def EntriesOnly (c c' : Connection) : Prop :=
  ∃ streams events, c' = { c with streams, events := c.events ++ events } ∧
    ∀ e ∈ events, e.type.ofStream = true

namespace EntriesOnly

theorem refl (c : Connection) : EntriesOnly c c :=
  ⟨c.streams, [], by rw [List.append_nil], by simp⟩

theorem trans {c₁ c₂ c₃ : Connection} (h : EntriesOnly c₁ c₂) (h' : EntriesOnly c₂ c₃) :
    EntriesOnly c₁ c₃ := by
  obtain ⟨_, es, rfl, hs⟩ := h
  obtain ⟨_, es', rfl, hs'⟩ := h'
  refine ⟨_, es ++ es', by rw [← List.append_assoc], ?_⟩
  intro e he
  rcases List.mem_append.mp he with he | he
  · exact hs e he
  · exact hs' e he

theorem of_streams (c : Connection) (streams : StreamTable) :
    EntriesOnly c { c with streams } :=
  ⟨streams, [], by rw [List.append_nil], by simp⟩

theorem modifyEntry (c : Connection) (i : Int) (f : StreamEntry → StreamEntry)
    (hf : ∀ e, (f e).streamId = e.streamId) : EntriesOnly c (c.modifyEntry i f hf) :=
  of_streams c _

theorem openModify (c : Connection) (i : Int) (f : StreamEntry → StreamEntry)
    (hf : ∀ e, (f e).streamId = e.streamId) :
    EntriesOnly c ((c.openStreamEntry i).modifyEntry i f hf) :=
  of_streams c _

theorem pushEvent {c c' : Connection} (h : EntriesOnly c c') {t : EventType}
    (ht : t.ofStream = true) (i : Int) (code : UInt64) (p : Bool) (r : Option Bytes) :
    EntriesOnly c (c'.pushEvent t i code p r) := by
  refine h.trans ⟨c'.streams, _, rfl, ?_⟩
  intro e he
  rw [List.mem_singleton.mp he]
  exact ht

theorem ite {c c₁ c₂ : Connection} {p : Prop} [Decidable p] (h₁ : EntriesOnly c c₁)
    (h₂ : EntriesOnly c c₂) : EntriesOnly c (if p then c₁ else c₂) := by
  split
  · exact h₁
  · exact h₂

end EntriesOnly

theorem callback_entriesOnly (c : Connection) {cb : Callback} (hcb : cb ≠ .handshakeCompleted) :
    EntriesOnly c (c.callback cb) := by
  cases cb with
  | handshakeCompleted => exact absurd rfl hcb
  | streamOpen i => exact .pushEvent (.openModify ..) rfl ..
  | recvStreamData fin i off data =>
    have h₁ : EntriesOnly c ((c.openStreamEntry i).modifyEntry i
        (fun e => { e with rxBuffer := bufferAppend e.rxBuffer data }) fun _ => rfl) :=
      .openModify ..
    have h₂ := EntriesOnly.ite (p := ((((c.openStreamEntry i).modifyEntry i
        (fun e => { e with rxBuffer := bufferAppend e.rxBuffer data }) fun _ => rfl).getStreamEntry
          i).any fun e => !e.readable && decide (e.rxBuffer.length > 0)) = true)
      ((h₁.trans (.modifyEntry _ i (fun e => { e with readable := true }) fun _ => rfl)).pushEvent
        (t := .streamReadable) rfl i 0 true none) h₁
    exact .ite (h₂.trans (.modifyEntry ..)) h₂
  | streamClose set i code => exact .pushEvent (.openModify ..) rfl ..
  | streamReset i size code => exact .pushEvent (.openModify ..) rfl ..
  | ackedStreamDataOffset i off len =>
    simp only [callback, ackedStreamDataOffsetCb]
    split
    · exact .refl c
    · exact .ite (.refl c) (.ite (.pushEvent (.modifyEntry ..) rfl ..) (.refl c))

theorem updateTxEntry_entriesOnly (c : Connection) (entry : Option Int) (w : Int) (f p : Bool) :
    EntriesOnly c (c.updateTxEntry entry w f p) := by
  cases entry with
  | none => exact .refl c
  | some i =>
    exact .ite (.pushEvent (.trans (.modifyEntry ..) (.modifyEntry ..)) rfl ..) (.modifyEntry ..)

theorem discardTxEntry_entriesOnly (c : Connection) (entry : Option Int) :
    EntriesOnly c (c.discardTxEntry entry) := by
  cases entry with
  | none => exact .refl c
  | some i => exact .modifyEntry ..

theorem enterStream_entriesOnly (c : Connection) (i : Int) (pending : Bool) :
    EntriesOnly c (c.enterStream i pending) :=
  .pushEvent (.pushEvent (.openModify ..) rfl ..) rfl ..

/-- A callback leaves all but the entries, the events and `established`. -/
theorem callback_rest (c : Connection) (cb : Callback) :
    ∃ streams events established,
      c.callback cb = { c with streams, events, established } := by
  by_cases hcb : cb = .handshakeCompleted
  · subst hcb
    simp only [callback, handshakeCompletedCb]
    split
    · exact ⟨_, _, _, rfl⟩
    · exact ⟨_, _, _, rfl⟩
  · obtain ⟨_, _, h, -⟩ := c.callback_entriesOnly hcb
    exact ⟨_, _, _, h⟩

theorem callback_closeRequested (c : Connection) (cb : Callback) :
    (c.callback cb).closeRequested = c.closeRequested := by
  obtain ⟨_, _, _, h⟩ := c.callback_rest cb
  rw [h]

theorem callback_conn (c : Connection) (cb : Callback) : (c.callback cb).conn = c.conn := by
  obtain ⟨_, _, _, h⟩ := c.callback_rest cb
  rw [h]

/-! ## The lifecycle and the counters -/

/-- `syncState` writes to the events and to four of the flags. -/
theorem syncState_rest (c : Connection) (p : Periods) :
    ∃ events draining closed closeEventEmitted drainingEventEmitted,
      c.syncState p = { c with
        events, draining, closed, closeEventEmitted, drainingEventEmitted } := by
  unfold syncState noteDraining noteClosed
  simp only
  repeat' split
  all_goals exact ⟨_, _, _, _, _, rfl⟩

/-- The counters are all that the choice of an id changes. -/
theorem assignStreamId_rest (c : Connection) (bidi : Bool) (rv : Except Err Int) :
    ∃ nextBidiStreamId nextUniStreamId,
      (c.assignStreamId bidi rv).1 = { c with nextBidiStreamId, nextUniStreamId } := by
  unfold assignStreamId ensureNextStreamId setNextStreamId
  cases rv <;> simp only <;> repeat' split
  all_goals exact ⟨_, _, rfl⟩

/-! ## The choice of a stream -/

variable {c : Connection}

/-- The picked entry is an eligible one, and all of its unsent bytes are offered. -/
theorem pickTxStream_some {o : Offer} (h : c.pickTxStream.2 = some o) :
    c.hasEntry o.streamId ∧ (c.entry o.streamId).eligible = true ∧
      o = (c.entry o.streamId).clampTxOffset.offer ∧
      c.pickTxStream.1 = c.modifyEntry o.streamId StreamEntry.clampTxOffset
        StreamEntry.clampTxOffset_streamId := by
  unfold pickTxStream at h ⊢
  cases hf : c.streams.vals.find? StreamEntry.eligible with
  | none => rw [hf] at h; cases h
  | some e =>
    rw [hf] at h
    simp only [Option.some.injEq] at h
    have hid : o.streamId = e.streamId := by rw [← h]; exact e.clampTxOffset_streamId
    have hg : c.getStreamEntry o.streamId = some e := by
      rw [hid]; exact get_of_mem (List.mem_of_find?_eq_some hf)
    have he := entry_of_get hg
    refine ⟨hasEntry_of_get hg, ?_, ?_, ?_⟩
    · rw [he]; exact List.find?_some hf
    · rw [he]; exact h.symm
    · simp only [hid]

theorem pickTxStream_none (h : c.pickTxStream.2 = none) :
    c.pickTxStream.1 = c ∧ ∀ e ∈ c.streams.vals, e.eligible = false := by
  unfold pickTxStream at h ⊢
  cases hf : c.streams.vals.find? StreamEntry.eligible with
  | none =>
    refine ⟨rfl, fun e he => ?_⟩
    have := List.find?_eq_none.mp hf e he
    simpa using this
  | some e => rw [hf] at h; cases h

end Connection

end PhpQuic
