import PhpQuic.Connection.Moves

/-!
# The streams that can send

The send loop always works on the first eligible entry of the table, so the eligible entries form a
line. Nothing joins it while the loop runs: a callback, a pick, an open and an answer can only take a
stream out.

* `Connection.eligibleIds`: the line. `mem_eligibleIds_runCallbacks`: of the callbacks only the ends of
  a stream take it out.
* `Act.tries`: the stream that an act of the loop was about.
* `Tries now s s'`: from `s` to `s'` nothing joins the line, and the streams `now` were tried. One
  lemma for each part of an iteration: `pickOrNone_tries`, `openIfPending_tries`,
  `writevStream_tries`.
-/

namespace PhpQuic

/-- The streams with something to send, in the order of the table. -/
def Connection.eligibleIds (c : Connection) : List Int := c.streams.keysWhere StreamEntry.eligible

/-- The first entry with something to send. -/
def Connection.firstEligible (c : Connection) : Option StreamEntry :=
  c.streams.vals.find? StreamEntry.eligible

/-- The stream that was offered, or whose open was blocked. -/
def Act.tries : Act → Option Int
  | .writev (some o) _ => some o.streamId
  | .openPending id (.error .streamIdBlocked) => some id
  | _ => none

/-- The streams that were tried, the last one first. -/
def Trace.tried (t : Trace) : List Int := t.filterMap Act.tries

/-- ngtcp2 reports the end of the stream: its close, or its reset. -/
def Callback.ends (cb : Callback) (id : Int) : Bool :=
  match cb with
  | .streamClose _ i _ | .streamReset i _ _ => decide (i = id)
  | _ => false

/-! ## Nothing becomes eligible in the loop -/

namespace StreamEntry

theorem eligible_iff {e : StreamEntry} : e.eligible = true ↔
    e.closed = false ∧ e.reset = false ∧ (e.txOffset < e.txBuffer.length ∨ e.finPending = true) := by
  unfold eligible
  simp only [Bool.and_eq_true, Bool.not_eq_true', Bool.or_eq_false_iff, Bool.or_eq_true,
    decide_eq_true_eq, and_assoc]

theorem eligible_of_updateTx {e : StreamEntry} {w : Int} {f p : Bool}
    (h : (e.updateTx w f p).eligible = true) : e.eligible = true := by
  rw [e.updateTx_eq] at h
  obtain ⟨hc, hr, hsend⟩ := eligible_iff.mp h
  refine eligible_iff.mpr ⟨hc, hr, ?_⟩
  simp only at hsend
  rcases hsend with hlt | hfin
  · split at hlt
    · cases hlt
    · rename_i hout
      left
      simp only [decide_eq_true_eq] at hout
      omega
  · exact .inr (Bool.and_eq_true_iff.mp hfin).1

/-- An offset beyond the buffer leaves as little to send as one at its end. -/
theorem eligible_clamp (e : StreamEntry) : e.clampTxOffset.eligible = e.eligible := by
  have hlt : min e.txOffset e.txBuffer.length < e.txBuffer.length ↔
      e.txOffset < e.txBuffer.length := by omega
  rw [clampTxOffset_eq]
  unfold eligible
  simp only [decide_eq_decide.mpr hlt]

/-- Of the callbacks about a stream only an end takes what it has to send. -/
theorem eligible_react (conn : Option Role) {cb : Callback} {id : Int}
    (h : cb.streamId? = some id) (e : StreamEntry) :
    (e.react conn cb).eligible = (e.eligible && !cb.ends id) := by
  cases cb with
  | handshakeCompleted => cases h
  | streamClose set i code =>
    obtain rfl := Option.some.inj h
    simp [Callback.ends, react, eligible]
  | streamReset i size code =>
    obtain rfl := Option.some.inj h
    simp [Callback.ends, react, eligible]
  | ackedStreamDataOffset =>
    rw [react_acked]
    exact (Bool.and_true _).symm
  | _ => exact (Bool.and_true _).symm

end StreamEntry

namespace Connection

variable {c c' c'' : Connection}

/-- Streams may stop being eligible; none starts. -/
def Wanes (c c' : Connection) : Prop := c'.eligibleIds.Sublist c.eligibleIds

namespace Wanes

theorem of_streams_eq (h : c'.streams = c.streams) : Wanes c c' := by
  unfold Wanes eligibleIds
  rw [h]

theorem trans (h : Wanes c c') (h' : Wanes c' c'') : Wanes c c'' := List.Sublist.trans h' h

theorem pushEvent (h : Wanes c c') (type : EventType) (id : Int) (code : UInt64) (byPeer : Bool)
    (reason : Option Bytes) : Wanes c (c'.pushEvent type id code byPeer reason) := h

theorem modifyEntry (h : Wanes c c') (id : Int) {f : StreamEntry → StreamEntry}
    (hf : ∀ e, (f e).streamId = e.streamId) (he : ∀ e, (f e).eligible = true → e.eligible = true) :
    Wanes c (c'.modifyEntry id f hf) :=
  h.trans (OrdTable.keysWhere_modify_sublist _ id hf he)

/-- A new entry has nothing to send. -/
theorem openStreamEntry (c : Connection) (id : Int) : Wanes c (c.openStreamEntry id) := by
  have heq : (c.openStreamEntry id).eligibleIds = c.eligibleIds :=
    OrdTable.keysWhere_addNew c.streams rfl
  unfold Wanes
  rw [heq]

end Wanes

theorem callback_wanes (c : Connection) (cb : Callback) : Wanes c (c.callback cb) := by
  cases hcb : cb.streamId? with
  | none => exact .of_streams_eq (callback_streams_none c hcb)
  | some id =>
    have henter : Wanes c { c with
        streams := if cb.enters then c.streams.addNew (.alloc id) else c.streams } := by
      split
      · exact Wanes.openStreamEntry c id
      · exact .of_streams_eq rfl
    have hwrite := henter.modifyEntry id (StreamEntry.react_streamId c.conn cb)
      (f := (·.react c.conn cb)) fun e he => by
        rw [StreamEntry.eligible_react c.conn hcb] at he
        exact (Bool.and_eq_true_iff.mp he).1
    exact hwrite.trans (.of_streams_eq (callback_streams c hcb))

theorem updateTxEntry_wanes (c : Connection) (id : Int) (w : Int) (f p : Bool) :
    Wanes c (c.updateTxEntry (some id) w f p) := by
  have hup : Wanes c (c.modifyEntry id (·.updateTx w f p) (by simp)) :=
    Wanes.modifyEntry (.of_streams_eq rfl) id _ fun e he => StreamEntry.eligible_of_updateTx he
  unfold updateTxEntry
  simp only
  split
  · refine (hup.modifyEntry id _ ?_).pushEvent ..
    exact fun e he => he
  · exact hup

theorem discardTxEntry_wanes (c : Connection) (id : Int) : Wanes c (c.discardTxEntry (some id)) := by
  refine Wanes.modifyEntry (.of_streams_eq rfl) id _ fun e he => ?_
  obtain ⟨-, -, hsend⟩ := StreamEntry.eligible_iff.mp he
  rcases hsend with hlt | hfin
  · cases hlt
  · cases hfin

theorem settle?_wanes (c : Connection) (offer : Option Offer) (a : WritevAnswer) :
    Wanes c (c.settle? offer a) := by
  cases offer with
  | none => exact .of_streams_eq rfl
  | some o =>
    unfold settle? settle
    cases a.effect with
    | update packetEmitted => exact c.updateTxEntry_wanes ..
    | discard => exact c.discardTxEntry_wanes _
    | ignore => exact .of_streams_eq rfl

theorem mem_eligibleIds_iff {id : Int} : id ∈ c.eligibleIds ↔ (c.entry id).eligible = true := by
  have hfind : c.streams.find? id = c.getStreamEntry id := rfl
  unfold eligibleIds entry
  rw [OrdTable.mem_keysWhere, hfind]
  cases c.getStreamEntry id with
  | none => simp [StreamEntry.eligible, StreamEntry.alloc]
  | some e => simp

/-- Of the callbacks only the ends of a stream stop it from being eligible. -/
theorem mem_eligibleIds_callback (c : Connection) (cb : Callback) (id : Int) :
    id ∈ (c.callback cb).eligibleIds ↔ id ∈ c.eligibleIds ∧ cb.ends id = false := by
  rw [mem_eligibleIds_iff, mem_eligibleIds_iff, entry_callback]
  split
  · rename_i hid
    rw [StreamEntry.eligible_react c.conn hid, Bool.and_eq_true, Bool.not_eq_true']
  · rename_i hid
    have hends : cb.ends id = false := by
      cases cb with
      | streamClose | streamReset => exact decide_eq_false fun h => hid (congrArg some h)
      | _ => rfl
    rw [hends]
    exact (and_iff_left rfl).symm

theorem mem_eligibleIds_runCallbacks (s : State) (cbs : List Callback) {id : Int} :
    id ∈ (s.runCallbacks cbs).conn.eligibleIds ↔
      id ∈ s.conn.eligibleIds ∧ ∀ cb ∈ cbs, cb.ends id = false := by
  induction cbs generalizing s with
  | nil => exact (and_iff_left (List.forall_mem_nil _)).symm
  | cons cb cbs ih =>
    have hconn : (s.runCallback cb).conn = s.conn.callback cb := rfl
    refine (ih (s.runCallback cb)).trans ?_
    rw [hconn, mem_eligibleIds_callback, List.forall_mem_cons, and_assoc]

theorem mem_eligibleIds_modifyEntry {id i : Int} (f : StreamEntry → StreamEntry)
    (hf : ∀ e, (f e).streamId = e.streamId) (hne : id ≠ i) :
    id ∈ (c.modifyEntry i f hf).eligibleIds ↔ id ∈ c.eligibleIds :=
  OrdTable.mem_keysWhere_modify_ne hf hne

/-- A write that leaves what there is to send leaves the line as it is. -/
theorem mem_eligibleIds_modifyEntry_same {id : Int} (i : Int) (f : StreamEntry → StreamEntry)
    (hf : ∀ e, (f e).streamId = e.streamId) (h : ∀ e, (f e).eligible = e.eligible) :
    id ∈ (c.modifyEntry i f hf).eligibleIds ↔ id ∈ c.eligibleIds := by
  have hsame : ((c.modifyEntry i f hf).entry id).eligible = (c.entry id).eligible :=
    modifyEntry_rel (R := fun e e' => e'.eligible = e.eligible) (fun _ => rfl) hf h i
  rw [mem_eligibleIds_iff, mem_eligibleIds_iff, hsame]

/-- An answer touches the offered stream only. -/
theorem mem_eligibleIds_settle? (c : Connection) {offer : Option Offer} (a : WritevAnswer) {id : Int}
    (h : offer.map Offer.streamId ≠ some id) :
    id ∈ (c.settle? offer a).eligibleIds ↔ id ∈ c.eligibleIds := by
  cases offer with
  | none => exact Iff.rfl
  | some o =>
    have hne : id ≠ o.streamId := fun heq => h (by rw [heq]; rfl)
    unfold settle? settle
    cases a.effect with
    | update packetEmitted =>
      have hup := mem_eligibleIds_modifyEntry (c := c)
        (·.updateTx a.wdatalen o.fin packetEmitted) (by simp) hne
      simp only
      unfold updateTxEntry
      simp only
      split
      · exact (mem_eligibleIds_modifyEntry (fun e => { e with writable := true }) (fun _ => rfl)
          hne).trans hup
      · exact hup
    | discard => exact mem_eligibleIds_modifyEntry StreamEntry.discardTx (fun _ => rfl) hne
    | ignore => exact Iff.rfl

end Connection

/-! ## The parts of an iteration -/

theorem Trace.tried_append (new t : Trace) : Trace.tried (new ++ t) = new.tried ++ t.tried :=
  List.filterMap_append

/-- From `s` to `s'` nothing becomes eligible, and `now` are the streams that were tried. -/
structure Tries (now : List Int) (s s' : State) : Prop where
  wanes : s.conn.Wanes s'.conn
  acts : ∃ new, s'.trace = new ++ s.trace ∧ new.tried = now

namespace Tries

variable {now now' : List Int} {s s' s'' : State}

theorem refl (s : State) : Tries [] s s := ⟨.of_streams_eq rfl, [], rfl, rfl⟩

theorem trans (h : Tries now s s') (h' : Tries now' s' s'') : Tries (now' ++ now) s s'' := by
  obtain ⟨new, ht, hnow⟩ := h.acts
  obtain ⟨new', ht', hnow'⟩ := h'.acts
  refine ⟨h.wanes.trans h'.wanes, new' ++ new, ?_, ?_⟩
  · rw [ht', ht, List.append_assoc]
  · rw [Trace.tried_append, hnow, hnow']

theorem withConn {c : Connection} (h : s.conn.Wanes c) : Tries [] s (s.withConn c) :=
  ⟨h, [], rfl, rfl⟩

theorem log (s : State) (a : Act) : Tries a.tries.toList s (s.log a) := by
  refine ⟨.of_streams_eq rfl, [a], rfl, ?_⟩
  unfold Trace.tried
  rw [List.filterMap_cons]
  cases a.tries <;> rfl

theorem runCallbacks (s : State) (cbs : List Callback) : Tries [] s (s.runCallbacks cbs) := by
  induction cbs generalizing s with
  | nil => exact .refl s
  | cons cb cbs ih =>
    have hcb : Tries [] s (s.runCallback cb) := ⟨s.conn.callback_wanes cb, [.callback cb], rfl, rfl⟩
    exact hcb.trans (ih (s.runCallback cb))

theorem syncState (s : State) (p : Periods) : Tries [] s (s.syncState p) := by
  obtain ⟨_, _, _, _, _, hc⟩ := s.conn.syncState_rest p
  refine ⟨.of_streams_eq (by rw [State.syncState_conn, hc]), ?_⟩
  rcases s.syncState_trace p with ht | ht
  · exact ⟨[], ht, rfl⟩
  · exact ⟨[.periods p], ht, rfl⟩

end Tries

namespace Connection

/-- The pick is the head of the line. -/
theorem pickOrNone_tries (s : State) (force : Bool) :
    Tries [] s (pickOrNone s force).1 ∧
      (pickOrNone s force).2 =
        (if force then none else s.conn.firstEligible).map fun e => e.clampTxOffset.offer := by
  unfold pickOrNone
  split
  · exact ⟨.refl s, rfl⟩
  · unfold pickTxStream firstEligible
    cases s.conn.streams.vals.find? StreamEntry.eligible with
    | none => exact ⟨.withConn (.of_streams_eq rfl), rfl⟩
    | some e =>
      refine ⟨.withConn (.modifyEntry (.of_streams_eq rfl) _ _ fun e he => ?_), rfl⟩
      rwa [StreamEntry.eligible_clamp] at he

/-- The clamp of the picked entry changes neither what can send nor whose open is pending. -/
theorem pickOrNone_entries (s : State) (force : Bool) (id : Int) :
    (id ∈ (pickOrNone s force).1.conn.eligibleIds ↔ id ∈ s.conn.eligibleIds) ∧
      ((pickOrNone s force).1.conn.entry id).pendingOpen = (s.conn.entry id).pendingOpen := by
  unfold pickOrNone
  split
  · exact ⟨Iff.rfl, rfl⟩
  · unfold pickTxStream
    split
    · exact ⟨Iff.rfl, rfl⟩
    · refine ⟨mem_eligibleIds_modifyEntry_same _ _ _ StreamEntry.eligible_clamp, ?_⟩
      refine modifyEntry_rel (R := fun e e' => e'.pendingOpen = e.pendingOpen) (fun _ => rfl) _
        (fun e => ?_) _
      rw [StreamEntry.clampTxOffset_eq]

/-- A blocked open takes the stream out of the iteration. -/
theorem openIfPending_tries (s : State) (offer : Option Offer) (rv : Except Err Int)
    {offer' : Option Offer} (h : (openIfPending s offer rv).2 = .ok offer') :
    let blocked (o : Offer) : Bool :=
      (s.conn.entry o.streamId).pendingOpen && decide (rv = .error .streamIdBlocked)
    offer' = offer.filter (fun o => !blocked o) ∧
      Tries ((offer.filter blocked).map Offer.streamId).toList s (openIfPending s offer rv).1 ∧
      ∀ id, id ∈ (openIfPending s offer rv).1.conn.eligibleIds ↔ id ∈ s.conn.eligibleIds := by
  have hany (o : Offer) : (s.conn.getStreamEntry o.streamId).any StreamEntry.pendingOpen =
      (s.conn.entry o.streamId).pendingOpen := by
    unfold entry
    cases s.conn.getStreamEntry o.streamId <;> rfl
  unfold openIfPending at h ⊢
  cases offer with
  | none => cases h; exact ⟨rfl, .refl s, fun _ => Iff.rfl⟩
  | some o =>
    simp only [hany] at h ⊢
    cases hp : (s.conn.entry o.streamId).pendingOpen with
    | false =>
      rw [hp] at h
      cases h
      simp only [Bool.false_and, Bool.not_false, if_true, Option.filter_some, hp]
      exact ⟨trivial, .refl s, fun _ => trivial⟩
    | true =>
      rw [hp] at h
      have hlog := Tries.log s (.openPending o.streamId rv)
      cases rv with
      | ok opened =>
        simp only [Bool.not_true, Bool.false_eq_true, if_false] at h ⊢
        split at h
        · cases h
        · rename_i heq
          cases h
          rw [if_neg heq]
          have hopen : Tries [] s (s.log (.openPending o.streamId (.ok opened))) := hlog
          have hflag : Tries [] (s.log (.openPending o.streamId (.ok opened)))
              ((s.log (.openPending o.streamId (.ok opened))).modifyEntry o.streamId
                (fun e => { e with pendingOpen := false }) fun _ => rfl) := by
            refine .withConn (.modifyEntry (.of_streams_eq rfl) _ _ ?_)
            exact fun e he => he
          simp only [reduceCtorEq, decide_false, Bool.and_false, Bool.not_false, Option.filter_some,
            if_true]
          refine ⟨trivial, hopen.trans hflag, fun id => ?_⟩
          exact mem_eligibleIds_modifyEntry_same o.streamId _ _ fun _ => rfl
      | error e =>
        by_cases he : e = .streamIdBlocked
        · subst he
          cases h
          simp only [Bool.true_and, Option.filter_some, hp]
          exact ⟨rfl, hlog, fun _ => Iff.rfl⟩
        · simp only [Bool.not_true, Bool.false_eq_true, if_false] at h
          cases h

theorem opened_wanes {s t : State} {force : Bool} {rv : Except Err Int} {offer : Option Offer}
    (h : openIfPending (pickOrNone s force).1 (pickOrNone s force).2 rv = (t, .ok offer)) :
    s.conn.Wanes t.conn := by
  have hok : (openIfPending (pickOrNone s force).1 (pickOrNone s force).2 rv).2 = .ok offer := by
    rw [h]
  obtain ⟨-, hopen, -⟩ := openIfPending_tries _ _ rv hok
  rw [h] at hopen
  exact (pickOrNone_tries s force).1.wanes.trans hopen.wanes

theorem settled_tries (s : State) (offer : Option Offer) (a : WritevAnswer) :
    Tries (offer.map Offer.streamId).toList s (settled s offer a) := by
  have hcb := Tries.runCallbacks s a.callbacks
  have hset := hcb.trans (.withConn (settle?_wanes (s.runCallbacks a.callbacks).conn offer a))
  have hlog := hset.trans (.log _ (.writev offer a))
  cases offer with
  | none => exact hlog
  | some o => exact hlog

theorem writevStream_tries (s : State) (offer : Option Offer) (a : IterAnswer) :
    Tries (offer.map Offer.streamId).toList s (writevStream s offer a).1 ∧
      (writevStream s offer a).1.conn.eligibleIds = (settled s offer a.writev).conn.eligibleIds := by
  have hs := settled_tries s offer a.writev
  have hlast (e : CcErr) : Tries [] (settled s offer a.writev)
      ((settled s offer a.writev).setLastError e) := .withConn (.of_streams_eq rfl)
  have hsync : ((settled s offer a.writev).syncState a.periods).conn.streams =
      (settled s offer a.writev).conn.streams := by
    obtain ⟨_, _, _, _, _, hc⟩ := (settled s offer a.writev).conn.syncState_rest a.periods
    rw [State.syncState_conn, hc]
  rw [writevStream_eq]
  split
  · exact ⟨hs, rfl⟩
  · exact ⟨hs, rfl⟩
  · exact ⟨hs, rfl⟩
  · split
    · refine ⟨hs.trans (.syncState _ _), ?_⟩
      unfold eligibleIds
      rw [hsync]
    · exact ⟨hs.trans (hlast _), rfl⟩
  · split
    · exact ⟨hs, rfl⟩
    · exact ⟨hs, rfl⟩

end Connection

end PhpQuic
