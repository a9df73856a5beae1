import PhpQuic.Connection.Calls
import PhpQuic.Incoming.Integrity

/-!
# When a stream is readable

`readable` of an entry says that its receive buffer is not empty. The data callback and `read()` keep
both in step; `reset()` clears the flag and leaves the buffer. So `isReadable()` is exact, and
`StreamReadable` is pushed exactly when the buffer fills, as long as a stream that is reset has been
read (`readable_exact_iff`; `reset_unread`: a reset that finds a byte).

* `StreamEntry.Exact`: the flag says what the buffer holds.
* `EntryStep.exact`: a change keeps it, and tells of a buffer that fills.
-/

namespace PhpQuic

open Runs (Moves)

/-- The flag says what the buffer holds. -/
def StreamEntry.Exact (e : StreamEntry) : Prop := e.readable = true ↔ e.rxBuffer ≠ []

/-- What has been received of the stream and not been read. -/
def received (id : Int) (e : Option StreamEntry) : Bytes := (e.getD (.alloc id)).rxBuffer

/-- `reset()` finds the stream read. -/
def Act.resetsRead (id : Int) (a : Act) (e : Option StreamEntry) : Bool :=
  match a with
  | .wasReset i _ => decide (i ≠ id) || decide (received id e = [])
  | _ => true

/-- `Act.resetsRead` of every act, for the entry that it finds. -/
def Trace.ResetsRead (conn : Option Role) (id : Int) : Trace → Prop :=
  History.Each fun a t => a.resetsRead id (Trace.entry conn id t) = true

instance (conn : Option Role) (id : Int) (t : Trace) : Decidable (t.ResetsRead conn id) :=
  inferInstanceAs (Decidable (History.Each _ t))

/-! ## What `read` returns -/

/-- A read returns something if there is something. -/
theorem Stream.read_returns_iff (s : State) (id : Int) {length : Int} (h : 0 < length) :
    (∃ bs, bs ≠ [] ∧ (Stream.read s id length).2 = .returned bs) ↔
      received id (s.conn.getStreamEntry id) ≠ [] := by
  obtain ⟨chunk, rest, hret, hrx, hlen, -, -⟩ := Stream.read_spec s id h
  rw [show received id (s.conn.getStreamEntry id) = (s.conn.entry id).rxBuffer from rfl]
  constructor
  · rintro ⟨bs, hbs, heq⟩
    obtain rfl : chunk = bs := by rw [hret] at heq; cases heq; rfl
    rw [hrx]
    exact List.append_ne_nil_of_left_ne_nil hbs rest
  · intro hne
    refine ⟨chunk, fun hnil => ?_, hret⟩
    have := List.length_pos_iff.mpr hne
    rw [hnil, List.length_nil] at hlen
    omega

/-! ## The changes of an entry -/

/-- The stream has been told of as readable if its buffer was filled, and not otherwise. -/
def Tells (id : Int) (e e' : Option StreamEntry) (es : List EventType) : Prop :=
  es.count .streamReadable = if received id e = [] ∧ received id e' ≠ [] then 1 else 0

/-- A change that leaves the buffer tells of nothing. -/
theorem Tells.same {id : Int} {e e' : Option StreamEntry} {es : List EventType}
    (h : received id e' = received id e) (hes : EventType.streamReadable ∉ es) : Tells id e e' es := by
  unfold Tells
  rw [List.count_eq_zero_of_not_mem hes, h, if_neg fun hne => hne.2 hne.1]

namespace StreamEntry

theorem answer_received (o : Offer) (a : WritevAnswer) (e : StreamEntry) :
    (e.answer o a).rxBuffer = e.rxBuffer ∧ (e.answer o a).readable = e.readable := by
  obtain ⟨_, _, _, _, _, h⟩ := e.answer_rest o a
  rw [h]
  exact ⟨rfl, rfl⟩

theorem answerTells_writable (o : Offer) (a : WritevAnswer) (e : StreamEntry) :
    EventType.streamReadable ∉ (e.answerTells o a).map Event.type := by
  unfold answerTells
  cases a.effect with
  | update p =>
    simp only [wakes]
    split
    · simp
    · simp
  | discard => simp
  | ignore => simp

theorem exact_alloc (id : Int) : (alloc id).Exact := by simp [Exact, alloc]

theorem Exact.react (conn : Option Role) (cb : Callback) {e : StreamEntry} (h : e.Exact) :
    (e.react conn cb).Exact := by
  cases cb with
  | recvStreamData fin i off data =>
    unfold Exact at h ⊢
    simp only [StreamEntry.react, Bool.or_eq_true, decide_eq_true_eq, h, ne_eq,
      List.length_append, ← List.length_eq_zero_iff]
    omega
  | ackedStreamDataOffset =>
    rw [StreamEntry.react_acked]
    exact h
  | _ => exact h

end StreamEntry

section

variable {conn : Option Role} {id : Int} {e e' : Option StreamEntry} {t t' : Trace}
  {es : List Event}

/-- Data that fills the buffer is told of. -/
theorem StreamEntry.Exact.tells_data {x : StreamEntry} (h : x.Exact) (fin : Bool) (i : Int) (off : Nat)
    (data : Bytes) : ((x.tells (.recvStreamData fin i off data)).map Event.type).count .streamReadable =
      if x.rxBuffer = [] ∧ x.rxBuffer ++ data ≠ [] then 1 else 0 := by
  unfold StreamEntry.tells
  simp only
  by_cases hnil : x.rxBuffer = []
  · have hread : x.readable = false := by
      rw [← Bool.not_eq_true]
      exact fun hset => h.mp hset hnil
    rw [hnil, hread, List.nil_append]
    cases data with
    | nil => rfl
    | cons b data => simp
  · have hread : x.readable = true := h.mpr hnil
    simp [hread, hnil]

/-- A callback tells of data that fills the buffer. -/
theorem Tells.callback {cb : Callback} (hid : cb.streamId? = some id) (h : ∀ x ∈ e, x.Exact) :
    Tells id e ((if cb.enters then some (e.getD (.alloc id)) else e).map (·.react conn cb))
      (if cb.enters || e.isSome then ((e.getD (.alloc id)).tells cb).map Event.type else []) := by
  cases cb with
  | handshakeCompleted => cases hid
  | recvStreamData fin i off data =>
    exact (StreamEntry.found h (StreamEntry.exact_alloc id)).tells_data fin i off data
  | ackedStreamDataOffset i off len =>
    cases e with
    | none => exact .same rfl (by simp [Callback.enters])
    | some x =>
      refine .same ?_ ?_
      · show (x.react conn (.ackedStreamDataOffset i off len)).rxBuffer = x.rxBuffer
        rw [StreamEntry.react_acked]
      · simp only [Callback.enters, Option.isSome_some, Bool.or_true, if_true, Option.getD_some]
        unfold StreamEntry.tells
        simp only
        split
        · simp
        · simp
  | streamOpen | streamClose | streamReset =>
    exact .same rfl (by simp [Callback.enters, StreamEntry.tells])

/-- Every change keeps the flag exact and tells of a buffer that fills, if no stream is reset that has
not been read. -/
theorem EntryStep.exact (hstep : EntryStep conn id e t e' t' es) (hr : Replayed conn id e t)
    (hc : t'.ResetsRead conn id) (h : ∀ x ∈ e, x.Exact) :
    (∀ x ∈ e', x.Exact) ∧ Tells id e e' (es.map Event.type) := by
  cases hstep with
  | other as has => exact ⟨h, .same rfl (List.not_mem_nil)⟩
  | clamp =>
    rename_i e
    rw [StreamEntry.clampTxOffset_self (hr.offset_le e rfl)]
    exact ⟨h, .same rfl (List.not_mem_nil)⟩
  | wrote data hclosed hsent hfin hlocal =>
    rename_i e
    refine ⟨?_, .same rfl (List.not_mem_nil)⟩
    rintro x ⟨⟩
    exact h e rfl
  | ended data hlocal =>
    rename_i e
    refine ⟨?_, .same rfl (List.not_mem_nil)⟩
    rintro x ⟨⟩
    exact h e rfl
  | reset code =>
    rename_i e
    refine ⟨?_, .same rfl (by simp)⟩
    rintro x ⟨⟩
    have hread : (Act.wasReset id code).resetsRead id (Trace.entry conn id t) = true :=
      hc _ t List.suffix_rfl
    rw [← hr.entry] at hread
    have hnil : e.rxBuffer = [] :=
      of_decide_eq_true ((Bool.or_eq_true _ _ ▸ hread).resolve_left (by simp))
    simp [StreamEntry.Exact, StreamEntry.resetLocal, hnil]
  | read chunk rest hrx hchunk =>
    rename_i e
    refine ⟨?_, ?_⟩
    · rintro x ⟨⟩
      simp [StreamEntry.Exact, StreamEntry.readRest, List.length_pos_iff]
    · have hne : e.rxBuffer ≠ [] := by
        rw [hrx]
        exact List.append_ne_nil_of_left_ne_nil hchunk rest
      exact (if_neg fun hand => hne hand.1).symm
  | returned bidi pending rv =>
    refine ⟨?_, .same rfl (by simp)⟩
    rintro x ⟨⟩
    exact StreamEntry.found (P := StreamEntry.Exact) h (StreamEntry.exact_alloc id)
  | openMatched =>
    rename_i e
    refine ⟨?_, .same rfl (List.not_mem_nil)⟩
    rintro x ⟨⟩
    exact h e rfl
  | answered o a hid hdata hfin hdue =>
    rename_i e
    refine ⟨?_, .same (e.answer_received o a).1 (e.answerTells_writable o a)⟩
    rintro x ⟨⟩
    unfold StreamEntry.Exact
    rw [(e.answer_received o a).1, (e.answer_received o a).2]
    exact h e rfl
  | callback cb hid =>
    refine ⟨?_, ?_⟩
    · intro x hx
      obtain ⟨y, hy, rfl⟩ := Option.map_eq_some_iff.mp hx
      exact (Callback.found h (StreamEntry.exact_alloc id) y hy).react conn cb
    · rw [apply_ite (List.map Event.type)]
      exact .callback hid h

end

/-! ## Every run -/

theorem Start.Passes.exact {start : Start} {ops : List Op} {id : Int} {s : State}
    (h : start.Passes ops s) (hc : (start.run ops).trace.ResetsRead start.conn id) :
    ∀ x ∈ s.conn.getStreamEntry id, x.Exact := by
  refine (h.inv (I := fun e t => Replayed start.conn id e t ∧ ∀ x ∈ e, x.Exact) ?_
    ⟨.nil _ _, fun _ h => by cases h⟩ hc).2
  rintro e t e' t' es hstep hc ⟨hr, he⟩
  exact ⟨hstep.replayed hr, (hstep.exact hr hc he).1⟩

/-- `isReadable()` says whether a read returns something, in every state of the run, and each change
that the run goes through tells of a buffer that fills and of nothing else: if and only if every
stream that is reset has been read. -/
theorem readable_exact_iff (start : Start) (ops : List Op) :
    ((∀ pre, pre <+: ops → ∀ id length, 0 < length →
        (Stream.isReadable (start.run pre) id = true ↔
          ∃ bs, bs ≠ [] ∧ (Stream.read (start.run pre) id length).2 = .returned bs)) ∧
      ∀ s s', start.Passes ops s → Move s s' → Moves Move s' (start.run ops) →
        ∀ id es, s'.told id = s.told id ++ es →
          Tells id (s.conn.getStreamEntry id) (s'.conn.getStreamEntry id) es) ↔
      ∀ id, (start.run ops).trace.ResetsRead start.conn id := by
  constructor
  · rintro ⟨h, -⟩ id a t hs
    cases a with
    | wasReset i code =>
      by_cases hid : i = id
      · subst hid
        -- the state behind the call has the flag cleared
        obtain ⟨pre, o, hpre, -, ht⟩ := start.run_behind rfl hs
        have hget := ((Start.Passes.last start (pre ++ [o])).replayed i).entry
        rw [ht] at hget
        have hread := (h _ hpre i 1 Int.one_pos).trans (Stream.read_returns_iff _ i Int.one_pos)
        unfold Stream.isReadable at hread
        rw [hget] at hread
        unfold Act.resetsRead
        cases hentry : Trace.entry start.conn i t with
        | none => simp [received, StreamEntry.alloc]
        | some x =>
          simp [Trace.entry, Act.entry, Act.concerns, hentry, StreamEntry.resetLocal, received] at hread
          simp [received, hread]
      · simp [Act.resetsRead, hid]
    | _ => rfl
  · intro hc
    refine ⟨fun pre hpre id length hlength => ?_, fun s s' hs hm hafter id es htold => ?_⟩
    · have hpass : start.Passes ops (start.run pre) := Start.Passes.of_prefix hpre
      have hexact := hpass.exact (hc id)
      rw [Stream.read_returns_iff _ id hlength]
      unfold Stream.isReadable
      cases hget : (start.run pre).conn.getStreamEntry id with
      | none => simp [received, StreamEntry.alloc]
      | some e => exact hexact e hget
    · obtain ⟨es', hstep, habout⟩ := hm.entryMove id
      obtain rfl : es'.map Event.type = es :=
        List.append_cancel_left ((State.told_of_about habout).symm.trans htold)
      rw [hs.conn_eq] at hstep
      have hclater := (hc id).of_suffix (State.moves_suffix hafter)
      exact (EntryStep.exact hstep (hs.replayed id) hclater (hs.exact (hc id))).2

/-- A byte has not been read when the stream is reset. -/
theorem reset_unread :
    ¬ ∀ (start : Start) (ops : List Op) (id length : Int), 0 < length →
      (Stream.isReadable (start.run ops) id = true ↔
        ∃ bs, bs ≠ [] ∧ (Stream.read (start.run ops) id length).2 = .returned bs) := by
  intro h
  have hbad := (h (.client {} none none)
    [.openStream (.ok 0),
      .recv (fun _ _ => some [{ family := .inet }])
        { payload := [1], peerAddress := some { host := [49], port := 4433 }, localAddress := none }
        { callbacks := [.recvStreamData false 0 0 [5]] },
      .reset 0 0 {}] 0 1 Int.one_pos).mpr ⟨[5], by decide, by decide⟩
  revert hbad
  decide

end PhpQuic
