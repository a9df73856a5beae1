import PhpQuic.Connection.Lemmas
import PhpQuic.Lib.History
import PhpQuic.System

/-!
# The moves of a connection

Proof-only. `Move s s'` lists the changes that the methods make to a connection and its history,
each with what the code has checked before it. Every method is a sequence of moves (`step_moves`),
so an invariant of the runs is a fact about one move.

* `Act.quiet`: the acts behind which nothing but the history changes.
* `Offered c o`: `o` offers all that the entry of its stream has left to send. The pick of an
  iteration establishes it (`pickOrNone_spec`), and no callback breaks it (`Offered.callback`).
* `Connection.settle`: what an answer of `ngtcp2_conn_writev_stream` does to the offered entry.
-/

namespace PhpQuic

open Runs (Moves)

/-- Nothing but the history changes. -/
def Act.quiet : Act → Bool
  | .datagrams _ | .readPkt .. | .handleExpiry _ | .shutdownStream .. | .writeClose .. => true
  | .chunk _ data => data.length = 0
  | .openLocal _ (.error _) | .openPending _ (.error _) | .writev none _ => true
  | _ => false

/-- What the extension does with the offered entry behind an answer. -/
inductive Effect where
  | update (packetEmitted : Bool)
  | discard
  | ignore

def WritevAnswer.effect (a : WritevAnswer) : Effect :=
  match a.result with
  | .error .writeMore | .error .streamDataBlocked => .update false
  | .error .streamShutWr => .discard
  | .error _ => .ignore
  | .ok pkt => .update (decide (pkt.length > 0))

/-- A call of `drainOutgoingDatagrams` comes to its send loop. -/
def State.entersLoop (s : State) : Bool :=
  s.conn.conn.isSome && !(s.conn.closeRequested && !s.conn.closePacketSent)

/-- The exception about a mismatch is thrown behind one. -/
def State.Throws (s : State) (e : Exn) : Prop :=
  ∀ id opened, e = .streamIdMismatch id opened →
    opened ≠ id ∧ .openPending id (.ok opened) ∈ s.trace

namespace Connection

/-- `o` is what the entry of its stream has to send, and that is not nothing. -/
structure Offered (c : Connection) (o : Offer) : Prop where
  hasEntry : c.hasEntry o.streamId
  offset_le : (c.entry o.streamId).txOffset ≤ (c.entry o.streamId).txBuffer.length
  data_eq : o.data = (c.entry o.streamId).unsent
  fin_eq : o.fin = (c.entry o.streamId).finPending
  due : o.data ≠ [] ∨ o.fin = true

/-! ### The ways through `drainOutgoingDatagrams` -/

theorem drainOutgoingDatagrams_none {s : State} (a : DrainAnswers)
    (h : s.conn.conn.isSome = false) : drainOutgoingDatagrams s a = returnDatagrams s [] := by
  unfold drainOutgoingDatagrams
  rw [Option.isSome_eq_false_iff.mp h, if_pos rfl]

/-- The close branch. -/
theorem drainOutgoingDatagrams_close {s : State} (a : DrainAnswers)
    (hsome : s.conn.conn.isSome = true)
    (hdue : (s.conn.closeRequested && !s.conn.closePacketSent) = true) :
    drainOutgoingDatagrams s a = drainClose s a.close := by
  unfold drainOutgoingDatagrams
  rw [Option.isNone_eq_false_iff.mpr hsome, if_neg Bool.false_ne_true, if_pos hdue]

/-- The send loop. -/
theorem drainOutgoingDatagrams_loop {s : State} (a : DrainAnswers) (h : s.entersLoop = true) :
    drainOutgoingDatagrams s a = match drainLoop s false [] a.loop with
      | (s', .stopped out) => returnDatagrams (s'.syncState a.periods) out
      | (s', .threw e) => s'.throw e
      | (s', .running _) => (s', .running) := by
  obtain ⟨hsome, hdue⟩ := Bool.and_eq_true_iff.mp h
  rw [Bool.not_eq_true'] at hdue
  unfold drainOutgoingDatagrams
  exact (if_neg (ne_true_of_eq_false (Option.isNone_eq_false_iff.mpr hsome))).trans
    (if_neg (ne_true_of_eq_false hdue))

/-- What the answer of `ngtcp2_conn_writev_stream` does to the offered entry. -/
def settle (c : Connection) (o : Offer) (a : WritevAnswer) : Connection :=
  match a.effect with
  | .update packetEmitted => c.updateTxEntry (some o.streamId) a.wdatalen o.fin packetEmitted
  | .discard => c.discardTxEntry (some o.streamId)
  | .ignore => c

end Connection

/-- An atomic change. -/
inductive Move : State → State → Prop
  | quiet {s : State} (a : Act) (ha : a.quiet = true) : Move s (s.log a)
  | threw {s : State} (e : Exn) (he : s.Throws e) : Move s (s.log (.threw e))
  | callback {s : State} (cb : Callback) : Move s (s.runCallback cb)
  | clamp {s : State} (id : Int) (h : s.conn.hasEntry id) :
    Move s (s.modifyEntry id StreamEntry.clampTxOffset StreamEntry.clampTxOffset_streamId)
  | wrote {s : State} (id : Int) (data : Bytes) (h : s.conn.hasEntry id)
    (hclosed : (s.conn.entry id).closed = false) (hsent : (s.conn.entry id).finSent = false)
    (hfin : (s.conn.entry id).finPending = false)
    (hlocal : s.conn.isRemoteUnidirectional id = false) :
    Move s ((s.modifyEntry id (·.write data) fun _ => rfl).log (.wrote id data))
  | ended {s : State} (id : Int) (data : Bytes) (h : s.conn.hasEntry id)
    (hlocal : s.conn.isRemoteUnidirectional id = false) :
    Move s ((s.modifyEntry id (·.end_ data) fun _ => rfl).log (.ended id data))
  | reset {s : State} (id : Int) (code : UInt64) (h : s.conn.hasEntry id) :
    Move s (((s.modifyEntry id StreamEntry.resetLocal fun _ => rfl).withConn
      ((s.modifyEntry id StreamEntry.resetLocal fun _ => rfl).conn.pushEvent .streamReset id code
        false none)).log (.wasReset id code))
  | read {s : State} (id : Int) (chunk rest : Bytes) (h : s.conn.hasEntry id)
    (hrx : (s.conn.entry id).rxBuffer = chunk ++ rest) (hchunk : chunk ≠ []) :
    Move s ((s.modifyEntry id (·.readRest rest) fun _ => rfl).log (.chunk id chunk))
  | opened {s : State} (bidi : Bool) (id : Int) (hconn : s.conn.conn.isSome = true) :
    Move s (Connection.returnStream (s.log (.openLocal bidi (.ok id))) bidi (.ok id) false).1
  | blocked {s : State} (bidi : Bool) (hconn : s.conn.conn.isSome = true) :
    Move s (Connection.returnStream (s.log (.openLocal bidi (.error .streamIdBlocked))) bidi
      (.error .streamIdBlocked) true).1
  | openMatched {s : State} (id : Int) (hconn : s.conn.conn.isSome = true)
    (h : s.conn.hasEntry id) (hpending : (s.conn.entry id).pendingOpen = true) :
    Move s ((s.log (.openPending id (.ok id))).modifyEntry id
      (fun e => { e with pendingOpen := false }) fun _ => rfl)
  | openMismatched {s : State} (id opened : Int) (hconn : s.conn.conn.isSome = true)
    (h : s.conn.hasEntry id) (hpending : (s.conn.entry id).pendingOpen = true)
    (hne : opened ≠ id) :
    Move s (s.log (.openPending id (.ok opened)))
  | settle {s : State} (o : Offer) (a : WritevAnswer) (h : s.conn.Offered o)
    (hopened : (s.conn.entry o.streamId).pendingOpen = false) :
    Move s ((s.withConn (s.conn.settle o a)).log (.writev (some o) a))
  | sync {s : State} (p : Periods) : Move s (s.syncState p)
  | lastError {s : State} (e : CcErr) : Move s (s.setLastError e)
  | close {s : State} (code : Int64) (reason : Option Bytes)
    (hopen : s.conn.closeRequested = false) : Move s (Connection.close s code reason).1
  | closeSent {s : State} (hreq : s.conn.closeRequested = true) :
    Move s (s.withConn { s.conn with closePacketSent := true })
  | drainEvents {s : State} : Move s (Connection.drainEvents s).1

namespace Connection

variable {c : Connection} {o : Offer}

theorem settle_entriesOnly (c : Connection) (o : Offer) (a : WritevAnswer) :
    EntriesOnly c (c.settle o a) := by
  unfold settle
  cases a.effect with
  | update p => exact updateTxEntry_entriesOnly ..
  | discard => exact discardTxEntry_entriesOnly ..
  | ignore => exact .refl c

end Connection

namespace StreamEntry

/-- What the answer of `ngtcp2_conn_writev_stream` does to the offered entry. -/
def answer (o : Offer) (a : WritevAnswer) (e : StreamEntry) : StreamEntry :=
  match a.effect with
  | .update packetEmitted => (e.updateTx a.wdatalen o.fin packetEmitted).woken
  | .discard => e.discardTx
  | .ignore => e

/-- The event behind the answer. -/
def answerTells (o : Offer) (a : WritevAnswer) (e : StreamEntry) : List Event :=
  match a.effect with
  | .update packetEmitted => (e.updateTx a.wdatalen o.fin packetEmitted).wakes
  | .discard | .ignore => []

/-- It writes to the outgoing half. -/
theorem answer_rest (o : Offer) (a : WritevAnswer) (e : StreamEntry) :
    ∃ txBuffer txOffset finPending finSent writable,
      e.answer o a = { e with txBuffer, txOffset, finPending, finSent, writable } := by
  unfold answer
  cases a.effect with
  | update p =>
    simp only
    rw [woken_eq, updateTx_eq]
    exact ⟨_, _, _, _, _, rfl⟩
  | discard => exact ⟨_, _, _, _, _, rfl⟩
  | ignore => exact ⟨_, _, _, _, _, rfl⟩

@[simp] theorem answer_streamId (o : Offer) (a : WritevAnswer) (e : StreamEntry) :
    (e.answer o a).streamId = e.streamId := by
  obtain ⟨_, _, _, _, _, h⟩ := e.answer_rest o a
  rw [h]

end StreamEntry

namespace Connection

variable {c : Connection} {o : Offer}

theorem settle_streams (c : Connection) (o : Offer) (a : WritevAnswer) :
    (c.settle o a).streams =
      c.streams.modify o.streamId (·.answer o a) (StreamEntry.answer_streamId o a) := by
  unfold settle
  cases heff : a.effect with
  | update p =>
    refine (updateTxEntry_streams ..).trans (OrdTable.modify_congr fun e _ => ?_)
    unfold StreamEntry.answer
    rw [heff]
  | discard =>
    refine (discardTxEntry_streams c o.streamId).trans (OrdTable.modify_congr fun e _ => ?_)
    unfold StreamEntry.answer
    rw [heff]
  | ignore =>
    refine (OrdTable.modify_eq_self fun e _ => ?_).symm
    unfold StreamEntry.answer
    rw [heff]

/-- The offered entry is answered, and no other. -/
theorem entry_settle (h : c.hasEntry o.streamId) (a : WritevAnswer) (id : Int) :
    (c.settle o a).entry id =
      if id = o.streamId then (c.entry o.streamId).answer o a else c.entry id := by
  rw [← entry_modifyEntry (·.answer o a) (StreamEntry.answer_streamId o a) h]
  exact entry_congr (c.settle_streams o a) id

theorem settle_events (c : Connection) (o : Offer) (a : WritevAnswer) :
    (c.settle o a).events = c.events ++ (c.entry o.streamId).answerTells o a := by
  unfold settle StreamEntry.answerTells
  cases a.effect with
  | update p => exact updateTxEntry_events ..
  | discard => exact (List.append_nil _).symm
  | ignore => exact (List.append_nil _).symm

theorem unsent_clamp (e : StreamEntry) : e.clampTxOffset.unsent = e.unsent := by
  by_cases h : e.txOffset ≤ e.txBuffer.length
  · rw [StreamEntry.clampTxOffset_self h]
  · have hall : e.txBuffer.length ≤ e.txOffset := Nat.le_of_not_le h
    unfold StreamEntry.unsent
    rw [StreamEntry.clampTxOffset_eq, List.drop_eq_nil_of_le hall]
    exact List.drop_eq_nil_of_le (Nat.le_min.mpr ⟨hall, Nat.le_refl _⟩)

theorem clamp_le (e : StreamEntry) : e.clampTxOffset.txOffset ≤ e.clampTxOffset.txBuffer.length := by
  rw [StreamEntry.clampTxOffset_eq]
  exact Nat.min_le_right ..

/-- An eligible entry has something to offer. -/
theorem offer_due {e : StreamEntry} (h : e.eligible = true) :
    e.clampTxOffset.offer.data ≠ [] ∨ e.clampTxOffset.offer.fin = true := by
  unfold StreamEntry.eligible at h
  simp only [Bool.and_eq_true, Bool.or_eq_true, decide_eq_true_eq] at h
  rcases h.2 with hlt | hfin
  · left
    show e.clampTxOffset.unsent ≠ []
    rw [unsent_clamp]
    intro hnil
    exact absurd (List.drop_eq_nil_iff.mp hnil) (Nat.not_le_of_lt hlt)
  · right
    show e.clampTxOffset.finPending = true
    rw [StreamEntry.clampTxOffset_eq]
    exact hfin

/-- A callback leaves the offer as it is. -/
theorem Offered.callback (h : c.Offered o) (cb : Callback) : (c.callback cb).Offered o := by
  have hf := callback_frame c cb o.streamId
  refine ⟨callback_hasEntry cb h.hasEntry, ?_, ?_, ?_, h.due⟩
  · rw [hf.txOffset, hf.txBuffer]; exact h.offset_le
  · rw [hf.unsent]; exact h.data_eq
  · rw [hf.finPending]; exact h.fin_eq

end Connection

namespace State

variable {s : State}

theorem runCallbacks_moves (s : State) (cbs : List Callback) : Moves Move s (s.runCallbacks cbs) := by
  induction cbs generalizing s with
  | nil => exact .refl s
  | cons cb cbs ih => exact (Moves.one (.callback cb)).trans (ih (s.runCallback cb))

theorem runCallbacks_offered {o : Offer} (h : s.conn.Offered o) (cbs : List Callback) :
    (s.runCallbacks cbs).conn.Offered o := by
  induction cbs generalizing s with
  | nil => exact h
  | cons cb cbs ih => exact ih (h.callback cb)

theorem runCallbacks_frame (s : State) (cbs : List Callback) (id : Int) :
    (s.conn.entry id).TxFrame ((s.runCallbacks cbs).conn.entry id) := by
  induction cbs generalizing s with
  | nil => exact .refl _
  | cons cb cbs ih => exact (s.conn.callback_frame cb id).trans (ih (s.runCallback cb))

theorem runCallbacks_hasEntry {id : Int} (h : s.conn.hasEntry id) (cbs : List Callback) :
    (s.runCallbacks cbs).conn.hasEntry id := by
  induction cbs generalizing s with
  | nil => exact h
  | cons cb cbs ih => exact ih (Connection.callback_hasEntry cb h)

/-- Callbacks leave all but the entries, the events and `established`. -/
theorem runCallbacks_rest (s : State) (cbs : List Callback) :
    ∃ streams events established,
      (s.runCallbacks cbs).conn = { s.conn with streams, events, established } := by
  induction cbs generalizing s with
  | nil => exact ⟨_, _, _, rfl⟩
  | cons cb cbs ih =>
    obtain ⟨_, _, _, hc⟩ := s.conn.callback_rest cb
    obtain ⟨streams, events, established, h⟩ := ih (s.runCallback cb)
    refine ⟨streams, events, established, h.trans ?_⟩
    show { s.conn.callback cb with streams, events, established } = _
    rw [hc]

theorem runCallbacks_closeRequested (s : State) (cbs : List Callback) :
    (s.runCallbacks cbs).conn.closeRequested = s.conn.closeRequested := by
  obtain ⟨_, _, _, h⟩ := s.runCallbacks_rest cbs
  rw [h]

theorem quiet_moves (s : State) (a : Act) (ha : a.quiet = true) : Moves Move s (s.log a) :=
  .one (.quiet a ha)

theorem throw_moves {α : Type} (s : State) {e : Exn} (he : s.Throws e) :
    Moves Move s (s.throw e : State × Result α).1 :=
  .one (.threw e he)

theorem sync_moves (s : State) (p : Periods) : Moves Move s (s.syncState p) := .one (.sync p)

end State

/-! ## The methods of a stream -/

namespace Stream

variable {s : State} {id : Int}

theorem read_moves (s : State) (id length : Int) : Moves Move s (read s id length).1 := by
  unfold read
  split
  · exact s.throw_moves nofun
  · split
    · exact s.quiet_moves (.chunk id []) rfl
    · rename_i e he
      split
      · exact s.quiet_moves (.chunk id []) rfl
      · rename_i hrx
        have hread : bufferRead e.rxBuffer length.toNat =
            (e.rxBuffer.take (min length.toNat e.rxBuffer.length),
              e.rxBuffer.drop (min length.toNat e.rxBuffer.length)) := by
          unfold bufferRead
          rw [if_neg (by omega)]
          split
          · rw [Nat.min_eq_left (by omega)]
          · rw [Nat.min_eq_right (by omega)]
        rw [hread]
        refine .one (.read id _ _ (Connection.hasEntry_of_get he) ?_ ?_)
        · rw [Connection.entry_of_get he]
          exact (List.take_append_drop _ _).symm
        · intro hnil
          have hzero := congrArg List.length hnil
          rw [List.length_take, List.length_nil] at hzero
          omega

theorem write_moves (s : State) (id : Int) (data : Bytes) : Moves Move s (write s id data).1 := by
  unfold write
  split
  · exact s.throw_moves nofun
  · rename_i e he
    have hentry := Connection.entry_of_get he
    split
    · exact s.throw_moves nofun
    · rename_i hlocal
      split
      · exact s.throw_moves nofun
      · rename_i hw
        simp only [Bool.or_eq_true, not_or, Bool.not_eq_true] at hw
        refine .one (.wrote id data (Connection.hasEntry_of_get he) ?_ ?_ ?_
          (eq_false_of_ne_true hlocal))
        · rw [hentry]; exact hw.1.1
        · rw [hentry]; exact hw.1.2
        · rw [hentry]; exact hw.2

theorem end_moves (s : State) (id : Int) (data : Option Bytes) :
    Moves Move s (end_ s id data).1 := by
  unfold end_
  split
  · exact s.throw_moves nofun
  · rename_i e he
    split
    · exact s.throw_moves nofun
    · rename_i hlocal
      exact .one (.ended id _ (Connection.hasEntry_of_get he) (eq_false_of_ne_true hlocal))

theorem shutdownStream_moves (s : State) (id : Int) (code : UInt64) (a : ShutdownAnswer) :
    Moves Move s (shutdownStream s id code a).1 := by
  unfold shutdownStream
  split
  · exact (s.runCallbacks_moves _).trans (State.quiet_moves _ _ rfl)
  · exact .refl s

theorem shutdownStream_hasEntry (h : s.conn.hasEntry id) (i : Int) (code : UInt64)
    (a : ShutdownAnswer) : (shutdownStream s i code a).1.conn.hasEntry id := by
  unfold shutdownStream
  split
  · exact State.runCallbacks_hasEntry h _
  · exact h

theorem reset_moves (s : State) (id : Int) (code : Int64) (a : ShutdownAnswer) :
    Moves Move s (reset s id code a).1 := by
  unfold reset
  split
  · exact s.throw_moves nofun
  · rename_i e he
    have hm := shutdownStream_moves s id code.toUInt64 a
    have hh := shutdownStream_hasEntry (Connection.hasEntry_of_get he) id code.toUInt64 a
    split
    · rename_i s' rv hs
      rw [hs] at hm
      exact hm.trans (s'.throw_moves nofun)
    · rename_i s' hs
      rw [hs] at hm hh
      exact hm.tail (.reset id _ hh)

end Stream

/-! ## The methods of a connection -/

namespace Connection

theorem recv_moves (s : State) (g : Getaddrinfo) (d : Datagram) (a : ReadPktAnswer) :
    Moves Move s (recv s g d a).1 := by
  have hread (path : Path) : Moves Move s
      ((s.runCallbacks a.callbacks).log (.readPkt path d.payload a.rv)) :=
    (s.runCallbacks_moves _).trans (State.quiet_moves _ _ rfl)
  unfold recv
  split
  · exact s.throw_moves nofun
  · split
    · exact s.throw_moves nofun
    · simp only
      split
      · exact s.throw_moves nofun
      · split
        · exact (hread _).trans (State.sync_moves _ _)
        · split
          · exact (hread _).trans (State.sync_moves _ _)
          · refine Relation.ReflTransGen.trans ?_ (State.throw_moves _ nofun)
            split
            · exact (hread _).tail (.lastError _)
            · exact hread _

theorem onTimeout_moves (s : State) (a : ExpiryAnswer) : Moves Move s (onTimeout s a).1 := by
  have hexp : Moves Move s ((s.runCallbacks a.callbacks).log (.handleExpiry a.rv)) :=
    (s.runCallbacks_moves _).trans (State.quiet_moves _ _ rfl)
  unfold onTimeout
  split
  · exact .refl s
  · simp only
    split
    · exact hexp.trans (State.sync_moves _ _)
    · split
      · exact hexp.trans (State.sync_moves _ _)
      · exact (hexp.tail (.lastError _)).trans (State.throw_moves _ nofun)

theorem openLocalStream_moves (bidi : Bool) (context : String) (s : State) (rv : Except Err Int) :
    Moves Move s (openLocalStream bidi context s rv).1 := by
  unfold openLocalStream
  split
  · exact s.throw_moves nofun
  · rename_i hopen
    have hconn : s.conn.conn.isSome = true := by
      cases h : s.conn.conn with
      | none => simp [h] at hopen
      | some _ => rfl
    cases rv with
    | ok id => exact .one (.opened bidi id hconn)
    | error e =>
      by_cases he : e = .streamIdBlocked
      · subst he; exact .one (.blocked bidi hconn)
      · simp only
        exact (s.quiet_moves (.openLocal bidi (.error e)) rfl).trans (State.throw_moves _ nofun)

theorem close_moves (s : State) (code : Int64) (reason : Option Bytes) :
    Moves Move s (close s code reason).1 := by
  cases h : s.conn.closeRequested with
  | true => unfold close; rw [if_pos h]
  | false => exact .one (.close code reason h)

/-! ## The send loop -/

theorem drainClose_moves (s : State) (a : CloseAnswer) (hreq : s.conn.closeRequested = true) :
    Moves Move s (drainClose s a).1 := by
  have hw : Moves Move s ((s.runCallbacks a.callbacks).log
      (.writeClose s.conn.lastError a.result a.path)) :=
    (s.runCallbacks_moves _).trans (State.quiet_moves _ _ rfl)
  have hreq' : (s.runCallbacks a.callbacks).conn.closeRequested = true :=
    (s.runCallbacks_closeRequested _).trans hreq
  have hsent := hw.tail (.closeSent hreq')
  unfold drainClose
  simp only
  split
  · split
    · exact (hsent.trans (State.sync_moves _ _)).trans (State.quiet_moves _ _ rfl)
    · exact hw.trans (State.throw_moves _ nofun)
  · exact hsent.trans (State.quiet_moves _ _ rfl)

/-- The pick of an iteration: a clamped entry, offered whole. -/
theorem pickOrNone_spec (s : State) (force : Bool) :
    Moves Move s (pickOrNone s force).1 ∧ (pickOrNone s force).1.trace = s.trace ∧
      (pickOrNone s force).1.conn.conn = s.conn.conn ∧
      ∀ o, (pickOrNone s force).2 = some o → (pickOrNone s force).1.conn.Offered o := by
  unfold pickOrNone
  split
  · refine ⟨.refl s, rfl, rfl, ?_⟩
    intro o h; cases h
  · cases hp : s.conn.pickTxStream.2 with
    | none =>
      rw [(pickTxStream_none hp).1]
      refine ⟨.refl s, rfl, rfl, ?_⟩
      intro o h; cases h
    | some o =>
      obtain ⟨hh, helig, ho, hc⟩ := pickTxStream_some hp
      rw [hc]
      refine ⟨.one (.clamp _ hh), rfl, rfl, ?_⟩
      rintro _ ⟨⟩
      have he := entry_modifyEntry_self StreamEntry.clampTxOffset
        StreamEntry.clampTxOffset_streamId hh
      refine ⟨(hasEntry_modifyEntry _ _).mpr hh, ?_, ?_, ?_, ?_⟩
      · rw [State.withConn_conn, he]; exact clamp_le _
      · rw [State.withConn_conn, he]; exact congrArg Offer.data ho
      · rw [State.withConn_conn, he]; exact congrArg Offer.fin ho
      · rw [ho]; exact offer_due helig

/-- Behind `openIfPending` a stream that is still offered is open. -/
theorem openIfPending_spec {s : State} {offer : Option Offer} (hconn : s.conn.conn.isSome = true)
    (h : ∀ o, offer = some o → s.conn.Offered o) (rv : Except Err Int) :
    Moves Move s (openIfPending s offer rv).1 ∧
      (openIfPending s offer rv).1.conn.conn = s.conn.conn ∧
      ∀ o, (openIfPending s offer rv).2 = .ok (some o) →
        (openIfPending s offer rv).1.conn.Offered o ∧
          ((openIfPending s offer rv).1.conn.entry o.streamId).pendingOpen = false := by
  cases offer with
  | none =>
    refine ⟨.refl s, rfl, ?_⟩
    intro o ho; cases ho
  | some o =>
    have ho := h o rfl
    have hget := get_of_hasEntry ho.hasEntry
    unfold openIfPending
    simp only [hget, Option.any_some]
    cases hp : (s.conn.entry o.streamId).pendingOpen with
    | false =>
      refine ⟨.refl s, rfl, ?_⟩
      rintro _ ⟨⟩
      exact ⟨ho, hp⟩
    | true =>
      simp only [Bool.not_true, Bool.false_eq_true, ↓reduceIte]
      cases rv with
      | ok opened =>
        by_cases hne : opened = o.streamId
        · subst hne
          simp only [ne_eq, not_true_eq_false, ↓reduceIte]
          refine ⟨.one (.openMatched _ hconn ho.hasEntry hp), rfl, ?_⟩
          rintro _ ⟨⟩
          have he := entry_modifyEntry_self (fun e => { e with pendingOpen := false })
            (fun _ => rfl) ho.hasEntry
          refine ⟨⟨(hasEntry_modifyEntry _ _).mpr ho.hasEntry, ?_, ?_, ?_, ho.due⟩, ?_⟩
          · rw [State.modifyEntry_conn, State.log_conn, he]; exact ho.offset_le
          · rw [State.modifyEntry_conn, State.log_conn, he]; exact ho.data_eq
          · rw [State.modifyEntry_conn, State.log_conn, he]; exact ho.fin_eq
          · rw [State.modifyEntry_conn, State.log_conn, he]
        · simp only [ne_eq, hne, not_false_eq_true, ↓reduceIte]
          refine ⟨.one (.openMismatched _ _ hconn ho.hasEntry hp hne), rfl, ?_⟩
          rintro _ ⟨⟩
      | error e =>
        have hq := s.quiet_moves (.openPending o.streamId (.error e)) rfl
        by_cases he : e = .streamIdBlocked
        · subst he
          refine ⟨hq, rfl, ?_⟩
          rintro _ ⟨⟩
        · simp only
          refine ⟨hq, rfl, ?_⟩
          rintro _ ⟨⟩

/-- What the answer of `ngtcp2_conn_writev_stream` does to the offered entry, if there is one. -/
def settle? (c : Connection) (offer : Option Offer) (a : WritevAnswer) : Connection :=
  match offer with
  | none => c
  | some o => c.settle o a

/-- The state behind the call and what its answer does to the offered entry. -/
def settled (s : State) (offer : Option Offer) (a : WritevAnswer) : State :=
  ((s.runCallbacks a.callbacks).withConn
    ((s.runCallbacks a.callbacks).conn.settle? offer a)).log (.writev offer a)

theorem settled_moves {s : State} {offer : Option Offer}
    (h : ∀ o, offer = some o → s.conn.Offered o ∧ (s.conn.entry o.streamId).pendingOpen = false)
    (a : WritevAnswer) : Moves Move s (settled s offer a) := by
  have hcb := s.runCallbacks_moves a.callbacks
  cases offer with
  | none => exact hcb.tail (.quiet (.writev none a) rfl)
  | some o =>
    obtain ⟨ho, hp⟩ := h o rfl
    refine hcb.tail (.settle o a (State.runCallbacks_offered ho _) ?_)
    rw [(s.runCallbacks_frame _ _).pendingOpen]; exact hp

/-- What follows the settled state, by the answer. -/
theorem writevStream_eq (s : State) (offer : Option Offer) (a : IterAnswer) :
    writevStream s offer a = match a.writev.result with
      | .error .writeMore => (settled s offer a.writev, .again false)
      | .error .streamDataBlocked =>
        (settled s offer a.writev, if offer.isSome then .again true else .stop)
      | .error .streamShutWr => (settled s offer a.writev, .again false)
      | .error rv =>
        if rv.isNonfatalClosing then ((settled s offer a.writev).syncState a.periods, .stop)
        else ((settled s offer a.writev).setLastError (.liberr a.liberrCode),
          .threw (.ngtcp2 "ngtcp2_conn_writev_stream" rv))
      | .ok pkt =>
        if pkt.length = 0 then (settled s offer a.writev, .stop)
        else (settled s offer a.writev, .emit ((settled s offer a.writev).conn.datagram pkt)) := by
  unfold writevStream settled settle? settle WritevAnswer.effect
  cases hr : a.writev.result with
  | ok pkt => cases offer <;> rfl
  | error e => cases e <;> cases offer <;> rfl

theorem writevStream_moves {s : State} {offer : Option Offer}
    (h : ∀ o, offer = some o → s.conn.Offered o ∧ (s.conn.entry o.streamId).pendingOpen = false)
    (a : IterAnswer) : Moves Move s (writevStream s offer a).1 := by
  have hs := settled_moves h a.writev
  rw [writevStream_eq]
  split
  · exact hs
  · exact hs
  · exact hs
  · split
    · exact hs.trans (State.sync_moves _ _)
    · exact hs.tail (.lastError _)
  · split
    · exact hs
    · exact hs

theorem drainIteration_moves {s : State} (hconn : s.conn.conn.isSome = true) (force : Bool)
    (a : IterAnswer) : Moves Move s (drainIteration s force a).1 := by
  obtain ⟨hm, -, hc, ho⟩ := pickOrNone_spec s force
  obtain ⟨hm', -, ho'⟩ := openIfPending_spec (by rw [hc]; exact hconn) ho a.openStream
  unfold drainIteration
  simp only
  split
  · rename_i s' e heq
    rw [heq] at hm'
    exact hm.trans hm'
  · rename_i s' offer heq
    rw [heq] at hm' ho'
    refine (hm.trans hm').trans (writevStream_moves ?_ a)
    rintro o rfl
    exact ho' o rfl

end Connection

/-- What is written when the object is made, and by no method behind that. -/
def Connection.made (c : Connection) : Option Role × Path × Option Address × Option Address :=
  (c.conn, { localAddr := c.localAddr, remoteAddr := c.remoteAddr }, c.remoteAddress,
    c.localAddress)

theorem Connection.returnStream_made (s : State) (bidi : Bool) (rv : Except Err Int)
    (pending : Bool) :
    (Connection.returnStream s bidi rv pending).1.conn.made = s.conn.made := by
  obtain ⟨_, _, hc⟩ := s.conn.assignStreamId_rest bidi rv
  obtain ⟨_, _, hc', -⟩ := (s.conn.assignStreamId bidi rv).1.enterStream_entriesOnly
    (s.conn.assignStreamId bidi rv).2 pending
  unfold returnStream
  rw [State.log_conn, State.withConn_conn, hc', hc]
  rfl

/-- `close` writes to the error, the events and the flags. -/
theorem Connection.close_rest (s : State) (code : Int64) (reason : Option Bytes) :
    ∃ closeReason lastError closeRequested closed events closeEventEmitted,
      (Connection.close s code reason).1.conn = { s.conn with
        closeReason, lastError, closeRequested, closed, events, closeEventEmitted } := by
  unfold close
  simp only
  repeat' split
  all_goals exact ⟨_, _, _, _, _, _, rfl⟩

theorem Connection.close_trace (s : State) (code : Int64) (reason : Option Bytes) :
    (Connection.close s code reason).1.trace = s.trace := by
  unfold close
  simp only
  split <;> rfl

theorem State.syncState_trace (s : State) (p : Periods) :
    (s.syncState p).trace = s.trace ∨ (s.syncState p).trace = .periods p :: s.trace := by
  unfold State.syncState
  split
  · exact .inl rfl
  · exact .inr rfl

/-- No move writes to the connection of ngtcp2 or to an address. -/
theorem Move.made_eq {s s' : State} (h : Move s s') : s'.conn.made = s.conn.made := by
  cases h with
  | callback cb =>
    obtain ⟨_, _, _, hc⟩ := s.conn.callback_rest cb
    show (s.conn.callback cb).made = _
    rw [hc]
    rfl
  | opened bidi id hconn => exact Connection.returnStream_made ..
  | blocked bidi hconn => exact Connection.returnStream_made ..
  | settle o a h hp =>
    obtain ⟨_, _, hc, -⟩ := s.conn.settle_entriesOnly o a
    rw [State.log_conn, State.withConn_conn, hc]
    rfl
  | sync p =>
    obtain ⟨_, _, _, _, _, hc⟩ := s.conn.syncState_rest p
    rw [State.syncState_conn, hc]
    rfl
  | close code reason hopen =>
    obtain ⟨_, _, _, _, _, _, hc⟩ := Connection.close_rest s code reason
    rw [hc]
    rfl
  -- the other moves change entries, events, flags or the history
  | quiet | threw | clamp | wrote | ended | reset | read | openMatched | openMismatched | lastError
  | closeSent | drainEvents => rfl

/-- No move makes or takes away the connection of ngtcp2. -/
theorem Move.conn_eq {s s' : State} (h : Move s s') : s'.conn.conn = s.conn.conn :=
  congrArg Prod.fst h.made_eq

namespace Connection

theorem drainLoop_moves {s : State} (hconn : s.conn.conn.isSome = true) (force : Bool)
    (out : List Datagram) (as : List IterAnswer) : Moves Move s (drainLoop s force out as).1 := by
  induction as generalizing s force out with
  | nil => exact .refl s
  | cons a as ih =>
    have hm := drainIteration_moves hconn force a
    have hconn' : (drainIteration s force a).1.conn.conn.isSome = true := by
      rw [Moves.keeps (fun _ _ h => Move.conn_eq h) hm]; exact hconn
    unfold drainLoop
    split
    · rename_i s' force' heq
      rw [heq] at hm hconn'
      exact hm.trans (ih hconn' force' out)
    · rename_i s' heq
      rw [heq] at hm; exact hm
    · rename_i s' e heq
      rw [heq] at hm; exact hm
    · rename_i s' d heq
      rw [heq] at hm hconn'
      split
      · exact hm
      · exact hm.trans (ih hconn' false _)

/-- What the send loop throws fits what it has done. -/
theorem openIfPending_throws (s : State) (offer : Option Offer) (rv : Except Err Int) (e : Exn)
    (h : (openIfPending s offer rv).2 = .error e) : (openIfPending s offer rv).1.Throws e := by
  unfold openIfPending at h ⊢
  cases offer with
  | none => cases h
  | some o =>
    simp only at h ⊢
    split at h
    · cases h
    · rename_i hp
      rw [if_neg hp]
      cases rv with
      | ok opened =>
        simp only at h ⊢
        split at h
        · rename_i hne
          cases h
          rw [if_pos hne]
          rintro _ _ ⟨⟩
          exact ⟨hne, List.mem_cons_self⟩
        · cases h
      | error err =>
        by_cases he : err = .streamIdBlocked
        · subst he; cases h
        · simp only at h
          cases h
          exact nofun

theorem drainIteration_throws (s : State) (force : Bool) (a : IterAnswer) (e : Exn)
    (h : (drainIteration s force a).2 = .threw e) : (drainIteration s force a).1.Throws e := by
  unfold drainIteration at h ⊢
  simp only at h ⊢
  have ho := openIfPending_throws (pickOrNone s force).1 (pickOrNone s force).2 a.openStream
  generalize openIfPending (pickOrNone s force).1 (pickOrNone s force).2 a.openStream = r at h ho ⊢
  obtain ⟨s', _ | offer⟩ := r
  · cases h
    exact ho _ rfl
  · simp only at h ⊢
    rw [writevStream_eq] at h
    split at h
    · cases h
    · split at h <;> cases h
    · cases h
    · split at h
      · cases h
      · cases h
        exact nofun
    · split at h <;> cases h

theorem drainLoop_throws (s : State) (force : Bool) (out : List Datagram) (as : List IterAnswer)
    (e : Exn) (h : (drainLoop s force out as).2 = .threw e) :
    (drainLoop s force out as).1.Throws e := by
  induction as generalizing s force out with
  | nil => cases h
  | cons a as ih =>
    have hi := drainIteration_throws s force a e
    unfold drainLoop at h ⊢
    split at h
    · rename_i heq; exact ih _ _ _ h
    · cases h
    · rename_i heq
      cases h
      rw [heq] at hi
      exact hi rfl
    · split at h
      · cases h
      · rename_i hlt
        rw [if_neg hlt]
        exact ih _ _ _ h

theorem drainOutgoingDatagrams_moves (s : State) (a : DrainAnswers) :
    Moves Move s (drainOutgoingDatagrams s a).1 := by
  unfold drainOutgoingDatagrams
  split
  · exact s.quiet_moves _ rfl
  · rename_i hnone
    split
    · rename_i hreq
      exact drainClose_moves s a.close (by simp at hreq; exact hreq.1)
    · have hconn : s.conn.conn.isSome = true := by simpa [Option.isSome_iff_ne_none] using hnone
      have hm := drainLoop_moves hconn false [] a.loop
      have ht := drainLoop_throws s false [] a.loop
      split
      · rename_i s' out heq
        rw [heq] at hm
        exact (hm.trans (State.sync_moves _ _)).trans (State.quiet_moves _ _ rfl)
      · rename_i s' e heq
        rw [heq] at hm ht
        exact hm.trans (State.throw_moves _ (ht e rfl))
      · rename_i s' out heq
        rw [heq] at hm
        exact hm

end Connection

/-- The history only grows. -/
theorem Move.trace_suffix {s s' : State} (h : Move s s') : s.trace <:+ s'.trace := by
  cases h with
  | quiet a ha => exact List.suffix_cons _ _
  | threw e he => exact List.suffix_cons _ _
  | callback cb => exact List.suffix_cons _ _
  | clamp id h => exact List.suffix_rfl
  | wrote id data h => exact List.suffix_cons _ _
  | ended id data h => exact List.suffix_cons _ _
  | reset id code h => exact List.suffix_cons _ _
  | read id chunk rest h hrx => exact List.suffix_cons _ _
  | opened bidi id hconn => exact (List.suffix_cons _ _).trans (List.suffix_cons _ _)
  | blocked bidi hconn => exact (List.suffix_cons _ _).trans (List.suffix_cons _ _)
  | openMatched id hconn h hp => exact List.suffix_cons _ _
  | openMismatched id opened hconn h hp hne => exact List.suffix_cons _ _
  | settle o a h hp => exact List.suffix_cons _ _
  | sync p =>
    unfold State.syncState
    split
    · exact List.suffix_rfl
    · exact List.suffix_cons _ _
  | lastError e => exact List.suffix_rfl
  | close code reason hopen => rw [Connection.close_trace]
  | closeSent hreq => exact List.suffix_rfl
  | drainEvents => exact List.suffix_cons _ _

theorem State.moves_suffix {s s' : State} (h : Moves Move s s') : s.trace <:+ s'.trace :=
  Moves.inv' (I := fun s' => s.trace <:+ s'.trace) (fun _ _ hm h => h.trans hm.trace_suffix) h
    List.suffix_rfl

/-- Every method is a sequence of moves. -/
theorem step_moves (s : State) (o : Op) : Moves Move s (step s o) := by
  cases o with
  | read id length => exact Stream.read_moves s id length
  | write id data => exact Stream.write_moves s id data
  | end_ id data => exact Stream.end_moves s id data
  | reset id code a => exact Stream.reset_moves s id code a
  | openStream rv => exact Connection.openLocalStream_moves true _ s rv
  | openUniStream rv => exact Connection.openLocalStream_moves false _ s rv
  | recv g d a => exact Connection.recv_moves s g d a
  | onTimeout a => exact Connection.onTimeout_moves s a
  | drainOutgoingDatagrams a => exact Connection.drainOutgoingDatagrams_moves s a
  | drainEvents => exact .one .drainEvents
  | close code reason => exact Connection.close_moves s code reason

/-- A run is a sequence of moves from the state before the first callback. -/
theorem Start.run_moves (start : Start) (ops : List Op) : Moves Move start.base (start.run ops) := by
  refine Relation.ReflTransGen.trans ?_ (Moves.of_run step_moves start.state ops)
  cases start with
  | uninitialised => exact .refl
  | client path r l => exact .refl
  | server path r l payload cbs =>
    exact (State.runCallbacks_moves _ cbs).trans (State.quiet_moves _ _ rfl)

/-- An invariant of the moves, under an assumption on each act of the history. -/
theorem Start.run_inv {P : Act → Trace → Prop} {I : State → Prop}
    (hI : ∀ s s', Move s s' → History.Each P s'.trace → I s → I s') (start : Start) (ops : List Op)
    (hP : History.Each P (start.run ops).trace) (h0 : I start.base) : I (start.run ops) :=
  Moves.inv (C := fun s => History.Each P s.trace) (fun _ _ hm hc => hc.of_suffix hm.trace_suffix)
    hI (start.run_moves ops) hP h0

end PhpQuic
