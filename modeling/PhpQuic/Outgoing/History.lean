import PhpQuic.Connection.Moves

/-!
# What the history says of a stream's outgoing bytes

The history (`Trace`) is newest first, so each of these reads the newest act on what the rest says.

* `accepted id t`: the data of every `write` and `end` that returned.
* `WritevAnswer.taken`: the bytes of an offer that ngtcp2 took. It reports them with a length, with
  `WRITE_MORE` and with `STREAM_DATA_BLOCKED`; a call that fails in another way takes nothing.
* `taken id t`: all that ngtcp2 took of the offers of a stream.
* `shutWr id t`: ngtcp2 answered `STREAM_SHUT_WR` for the stream.
* `unsent id t`: what is left to send. It is empty behind `STREAM_SHUT_WR`.
* `released id t`: how many of the bytes taken the stream held no more when its unsent bytes last
  ran out.
* `acked id t`: the end of what ngtcp2 has acknowledged.

`TxStep` is what one move means for the outgoing half of one stream; every move is one
(`Move.txStep`), so an invariant of a stream's outgoing half has six cases.
-/

namespace PhpQuic

/-- The bytes of the offer that the answer reports as taken. -/
def WritevAnswer.taken (a : WritevAnswer) (o : Offer) : Bytes :=
  match a.result with
  | .ok _ | .error .writeMore | .error .streamDataBlocked => o.data.take a.wdatalen.toNat
  | .error _ => []

/-- The answer is `STREAM_SHUT_WR`. -/
def WritevAnswer.isShutWr (a : WritevAnswer) : Bool :=
  match a.result with
  | .error .streamShutWr => true
  | _ => false

theorem WritevAnswer.taken_eq (a : WritevAnswer) (o : Offer) : a.taken o = match a.effect with
    | .update _ => o.data.take a.wdatalen.toNat
    | .discard | .ignore => [] := by
  unfold taken effect
  cases a.result with
  | ok pkt => rfl
  | error e => cases e <;> rfl

theorem WritevAnswer.isShutWr_eq (a : WritevAnswer) : a.isShutWr = match a.effect with
    | .discard => true
    | .update _ | .ignore => false := by
  unfold isShutWr effect
  cases a.result with
  | ok pkt => rfl
  | error e => cases e <;> rfl

namespace Trace

def accepted (id : Int) : Trace → Bytes
  | [] => []
  | .wrote i data :: t => if i = id then accepted id t ++ data else accepted id t
  | .ended i data :: t => if i = id then accepted id t ++ data else accepted id t
  | _ :: t => accepted id t

def taken (id : Int) : Trace → Bytes
  | [] => []
  | .writev (some o) a :: t => if o.streamId = id then taken id t ++ a.taken o else taken id t
  | _ :: t => taken id t

def shutWr (id : Int) : Trace → Bool
  | [] => false
  | .writev (some o) a :: t => (o.streamId = id && a.isShutWr) || shutWr id t
  | _ :: t => shutWr id t

def unsent (id : Int) : Trace → Bytes
  | [] => []
  | .wrote i data :: t => if i = id then unsent id t ++ data else unsent id t
  | .ended i data :: t => if i = id then unsent id t ++ data else unsent id t
  | .writev (some o) a :: t =>
    if o.streamId = id then
      if a.isShutWr then [] else (unsent id t).drop (a.taken o).length
    else unsent id t
  | _ :: t => unsent id t

def released (id : Int) : Trace → Nat
  | [] => 0
  | .writev (some o) a :: t =>
    if o.streamId = id ∧ unsent id (.writev (some o) a :: t) = [] then
      (taken id (.writev (some o) a :: t)).length
    else released id t
  | _ :: t => released id t

def acked (id : Int) : Trace → Nat
  | [] => 0
  | .callback (.ackedStreamDataOffset i offset datalen) :: t =>
    if i = id then max (acked id t) (offset + datalen) else acked id t
  | _ :: t => acked id t

end Trace

/-- An answer to an offer of the stream, with the offer. -/
def Act.answered (id : Int) : Act → Option (Offer × WritevAnswer)
  | .writev (some o) a => if o.streamId = id then some (o, a) else none
  | _ => none

/-- The act is about the outgoing half of the stream. -/
def Act.outgoing (id : Int) : Act → Bool
  | .wrote i _ | .ended i _ | .wasReset i _ => i = id
  | .writev (some o) _ => o.streamId = id
  | _ => false

namespace Trace

variable {id : Int} {a : Act} {t : Trace}

theorem accepted_cons (h : a.outgoing id = false) : accepted id (a :: t) = accepted id t := by
  cases a <;> simp_all [accepted, Act.outgoing]

theorem taken_cons (h : a.outgoing id = false) : taken id (a :: t) = taken id t := by
  cases a with
  | writev o w => cases o <;> simp_all [taken, Act.outgoing]
  | _ => rfl

theorem shutWr_cons (h : a.outgoing id = false) : shutWr id (a :: t) = shutWr id t := by
  cases a with
  | writev o w => cases o <;> simp_all [shutWr, Act.outgoing]
  | _ => rfl

theorem unsent_cons (h : a.outgoing id = false) : unsent id (a :: t) = unsent id t := by
  cases a with
  | writev o w => cases o <;> simp_all [unsent, Act.outgoing]
  | wrote i d => simp_all [unsent, Act.outgoing]
  | ended i d => simp_all [unsent, Act.outgoing]
  | _ => rfl

theorem released_cons (h : a.outgoing id = false) : released id (a :: t) = released id t := by
  cases a with
  | writev o w => cases o <;> simp_all [released, Act.outgoing]
  | _ => rfl

theorem answered_eq_none (h : a.outgoing id = false) : a.answered id = none := by
  cases a with
  | writev o w => cases o <;> simp_all [Act.answered, Act.outgoing]
  | _ => rfl

/-- What an act about something else does not change, a list of them does not. -/
theorem other_append {α : Type} {f : Trace → α}
    (hf : ∀ a t, a.outgoing id = false → f (a :: t) = f t) {as : List Act}
    (has : ∀ a ∈ as, a.outgoing id = false) (t : Trace) : f (as ++ t) = f t := by
  induction as with
  | nil => rfl
  | cons a as ih =>
    rw [List.cons_append, hf a _ (has a List.mem_cons_self)]
    exact ih fun b hb => has b (List.mem_cons_of_mem a hb)

end Trace

/-! ## One move, as one stream's outgoing half sees it -/

namespace StreamEntry

/-- The outgoing halves are the same. -/
structure TxSame (e e' : StreamEntry) : Prop where
  txBuffer : e'.txBuffer = e.txBuffer
  txOffset : e'.txOffset = e.txOffset
  finPending : e'.finPending = e.finPending
  finSent : e'.finSent = e.finSent

theorem TxSame.refl (e : StreamEntry) : TxSame e e := ⟨rfl, rfl, rfl, rfl⟩

theorem TxSame.unsent {e e' : StreamEntry} (h : TxSame e e') : e'.unsent = e.unsent := by
  unfold StreamEntry.unsent; rw [h.txBuffer, h.txOffset]

theorem TxFrame.same {e e' : StreamEntry} (h : TxFrame e e') : TxSame e e' :=
  ⟨h.txBuffer, h.txOffset, h.finPending, h.finSent⟩

/-- What an answer of `ngtcp2_conn_writev_stream` does to the offered entry, `writable` aside. -/
def settle (e : StreamEntry) (o : Offer) (a : WritevAnswer) : StreamEntry :=
  match a.effect with
  | .update packetEmitted => e.updateTx a.wdatalen o.fin packetEmitted
  | .discard => e.discardTx
  | .ignore => e

variable {a : WritevAnswer}

theorem settle_same (e : StreamEntry) (o : Offer) (a : WritevAnswer) :
    TxSame (e.settle o a) (e.answer o a) := by
  unfold settle answer
  cases a.effect with
  | update p =>
    simp only
    rw [woken_eq]
    exact ⟨rfl, rfl, rfl, rfl⟩
  | discard => exact .refl _
  | ignore => exact .refl _

theorem settle_update {p : Bool} (h : a.effect = .update p) (e : StreamEntry) (o : Offer) :
    e.settle o a = e.updateTx a.wdatalen o.fin p := by
  unfold settle; rw [h]

theorem settle_discard (h : a.effect = .discard) (e : StreamEntry) (o : Offer) :
    e.settle o a = e.discardTx := by
  unfold settle; rw [h]

theorem settle_ignore (h : a.effect = .ignore) (e : StreamEntry) (o : Offer) :
    e.settle o a = e := by
  unfold settle; rw [h]

end StreamEntry

open StreamEntry (TxSame)

/-- What a move means for the outgoing half of the stream `id`. -/
inductive TxStep (id : Int) : StreamEntry → Trace → StreamEntry → Trace → Prop
  | other {e e' : StreamEntry} {t : Trace} (as : List Act)
    (has : ∀ a ∈ as, a.outgoing id = false) (h : TxSame e e') : TxStep id e t e' (as ++ t)
  | clamp {e : StreamEntry} {t : Trace} : TxStep id e t e.clampTxOffset t
  | wrote {e : StreamEntry} {t : Trace} (data : Bytes) (hsent : e.finSent = false)
    (hfin : e.finPending = false) : TxStep id e t (e.write data) (.wrote id data :: t)
  | ended {e : StreamEntry} {t : Trace} (data : Bytes) :
    TxStep id e t (e.end_ data) (.ended id data :: t)
  | reset {e : StreamEntry} {t : Trace} (code : UInt64) :
    TxStep id e t e.resetLocal (.wasReset id code :: t)
  | answered {e e' : StreamEntry} {t : Trace} (o : Offer) (a : WritevAnswer)
    (hid : o.streamId = id) (hle : e.txOffset ≤ e.txBuffer.length) (hdata : o.data = e.unsent)
    (hfin : o.fin = e.finPending) (h : TxSame (e.settle o a) e') :
    TxStep id e t e' (.writev (some o) a :: t)

namespace TxStep

variable {id : Int} {e e' : StreamEntry} {t : Trace}

theorem silent (h : TxSame e e') : TxStep id e t e' t := .other [] (by simp) h

theorem act (a : Act) (ha : a.outgoing id = false) (h : TxSame e e') :
    TxStep id e t e' (a :: t) := .other [a] (by simpa using ha) h

end TxStep

namespace Connection

variable {c : Connection}

/-- A write to the entry of one stream, behind an act about that stream. -/
theorem txStep_modify {f : StreamEntry → StreamEntry} (hf : ∀ e, (f e).streamId = e.streamId)
    {i : Int} (h : c.hasEntry i) {a : Act} (ha : ∀ id, a.outgoing id = true → id = i) {t : Trace}
    (hstep : TxStep i (c.entry i) t (f (c.entry i)) (a :: t)) (id : Int) :
    TxStep id (c.entry id) t ((c.modifyEntry i f hf).entry id) (a :: t) := by
  rw [entry_modifyEntry f hf h]
  by_cases hid : id = i
  · subst hid; rw [if_pos rfl]; exact hstep
  · rw [if_neg hid]
    refine .act a ?_ (.refl _)
    rw [← Bool.not_eq_true]
    exact fun ho => hid (ha id ho)

theorem enterStream_same (c : Connection) (i : Int) (pending : Bool) (id : Int) :
    TxSame (c.entry id) ((c.enterStream i pending).entry id) := by
  unfold enterStream
  simp only [entry_pushEvent]
  refine openModify_rel TxSame.refl _ ?_ i
  intro e; exact ⟨rfl, rfl, rfl, rfl⟩

theorem returnStream_txStep (s : State) (bidi : Bool) (rv : Except Err Int) (pending : Bool)
    (id : Int) : TxStep id (s.conn.entry id) s.trace
      ((returnStream (s.log (.openLocal bidi rv)) bidi rv pending).1.conn.entry id)
      (returnStream (s.log (.openLocal bidi rv)) bidi rv pending).1.trace := by
  obtain ⟨_, _, hc⟩ := s.conn.assignStreamId_rest bidi rv
  have hsame := enterStream_same (s.conn.assignStreamId bidi rv).1
    (s.conn.assignStreamId bidi rv).2 pending id
  have he : (s.conn.assignStreamId bidi rv).1.entry id = s.conn.entry id :=
    entry_congr (by rw [hc]) id
  rw [he] at hsame
  exact .other [_, _] (by simp [Act.outgoing]) hsame

theorem syncState_txStep (s : State) (p : Periods) (id : Int) :
    TxStep id (s.conn.entry id) s.trace ((s.syncState p).conn.entry id) (s.syncState p).trace := by
  have hsame : TxSame (s.conn.entry id) ((s.syncState p).conn.entry id) := by
    obtain ⟨_, _, _, _, _, hc⟩ := s.conn.syncState_rest p
    have hstreams : (s.conn.syncState p).streams = s.conn.streams := by rw [hc]
    rw [State.syncState_conn, entry_congr hstreams id]
    exact .refl _
  rcases s.syncState_trace p with ht | ht
  · rw [ht]; exact .silent hsame
  · rw [ht]; exact .act _ rfl hsame

end Connection

theorem Act.outgoing_of_quiet {a : Act} (h : a.quiet = true) (id : Int) : a.outgoing id = false := by
  cases a with
  | writev o w => cases o <;> simp_all [Act.quiet, Act.outgoing]
  | wrote | ended | wasReset => simp [Act.quiet] at h
  | _ => rfl

open Connection in
/-- Every move is a `TxStep` of every stream. -/
theorem Move.txStep {s s' : State} (h : Move s s') (id : Int) :
    TxStep id (s.conn.entry id) s.trace (s'.conn.entry id) s'.trace := by
  cases h with
  | quiet a ha => exact .act a (Act.outgoing_of_quiet ha id) (.refl _)
  | threw e he => exact .act _ rfl (.refl _)
  | callback cb => exact .act (.callback cb) rfl (callback_frame s.conn cb id).same
  | clamp i hi =>
    rw [State.modifyEntry_conn, entry_modifyEntry _ _ hi]
    split
    · rename_i e; subst e; exact .clamp
    · exact .silent (.refl _)
  | wrote i data hi hclosed hsent hfin =>
    exact txStep_modify _ hi (fun id h => by simpa [Act.outgoing, eq_comm] using h)
      (.wrote data hsent hfin) id
  | ended i data hi =>
    exact txStep_modify _ hi (fun id h => by simpa [Act.outgoing, eq_comm] using h)
      (.ended data) id
  | reset i code hi =>
    exact txStep_modify (f := StreamEntry.resetLocal) (fun _ => rfl) hi
      (fun id h => by simpa [Act.outgoing, eq_comm] using h) (.reset code) id
  | read i chunk rest hi hrx =>
    exact .act _ rfl (modifyEntry_rel (f := fun e => e.readRest rest) TxSame.refl (fun _ => rfl)
      (fun e => ⟨rfl, rfl, rfl, rfl⟩) i)
  | opened bidi i hconn => exact returnStream_txStep s bidi (.ok i) false id
  | blocked bidi hconn => exact returnStream_txStep s bidi (.error .streamIdBlocked) true id
  | openMatched i hconn hi hp =>
    exact .act _ rfl (modifyEntry_rel (f := fun e => { e with pendingOpen := false }) TxSame.refl
      (fun _ => rfl) (fun e => ⟨rfl, rfl, rfl, rfl⟩) i)
  | openMismatched i opened hconn hi hp hne => exact .act _ rfl (.refl _)
  | settle o a ho hp =>
    have hs : ((s.conn.settle o a).entry id) = _ := entry_settle ho.hasEntry a id
    by_cases hid : id = o.streamId
    · subst hid
      rw [if_pos rfl] at hs
      refine .answered o a rfl ho.offset_le ho.data_eq ho.fin_eq ?_
      exact hs ▸ StreamEntry.settle_same ..
    · rw [if_neg hid] at hs
      refine .act _ (by simpa [Act.outgoing, eq_comm] using hid) ?_
      exact hs ▸ .refl _
  | sync p => exact syncState_txStep s p id
  | lastError e => exact .silent (.refl _)
  | close code reason hopen =>
    obtain ⟨_, _, _, _, _, _, hc⟩ := close_rest s code reason
    have hstreams : (Connection.close s code reason).1.conn.streams = s.conn.streams := by rw [hc]
    rw [close_trace, entry_congr hstreams id]
    exact .silent (.refl _)
  | closeSent hreq => exact .silent (.refl _)
  | drainEvents => exact .act _ rfl (.refl _)

end PhpQuic
