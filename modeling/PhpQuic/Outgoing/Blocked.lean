import PhpQuic.Closing
import PhpQuic.Connection.Pieces
import PhpQuic.Lib.Line
import PhpQuic.Outgoing.Eligible

/-!
# A blocked stream and the others

Of the line of the eligible streams only the head is served (`Line.HeadOnly`), and a stream that
ngtcp2 refuses stays at its head: the loop calls ngtcp2 without a stream then, and stops when the
answer to that is 0.

* `StopsFairly`: the call stops for a good reason, or has offered every eligible stream that is not
  blocked itself.
* `Iteration.hides`: in the state before an iteration, ngtcp2's answer ends the loop with no byte
  offered while another stream than the one at its turn could send.
* `InCall.iteration`: what one iteration keeps. `drainLoop_stopsFairly`: by induction, what a loop
  keeps. `drain_stopsFairly_iff`: a call stops fairly if and only if no iteration hides a stream.
-/

namespace PhpQuic

/-! ## Why a call stops -/

/-- The stream was offered. -/
def Act.offers (a : Act) (id : Int) : Bool :=
  match a with
  | .writev (some o) _ => o.streamId = id
  | _ => false

/-- The stream was blocked: its open, or its offer. -/
def Act.blocks (a : Act) (id : Int) : Bool :=
  match a with
  | .openPending id' (.error .streamIdBlocked) => id' = id
  | .writev (some o) a => o.streamId = id && decide (a.result = .error .streamDataBlocked)
  | _ => false

/-- ngtcp2 answered 0 to a call that offered data of a stream. -/
def Act.answersZero : Act → Bool
  | .writev (some o) a => decide (o.data ≠ []) && decide (a.result = .ok [])
  | _ => false

theorem Act.tries_iff (a : Act) (id : Int) :
    a.tries = some id ↔ a.offers id = true ∨ a.blocks id = true := by
  unfold tries offers blocks
  split
  · simp only [Option.some.injEq, decide_eq_true_eq, Bool.and_eq_true]
    constructor
    · exact .inl
    · rintro (h | ⟨h, -⟩)
      · exact h
      · exact h
  · simp
  · simp only [reduceCtorEq, false_iff, not_or]
    exact ⟨not_false, not_false⟩

/-- Every eligible stream that was not blocked itself was offered. -/
def EachOffered (acts : Trace) (c : Connection) : Prop :=
  ∀ id ∈ c.eligibleIds, (∀ a ∈ acts, a.blocks id = false) → ∃ a ∈ acts, a.offers id = true

theorem eachOffered_iff (acts : Trace) (c : Connection) :
    EachOffered acts c ↔ ∀ id ∈ c.eligibleIds, id ∈ acts.tried := by
  refine forall₂_congr fun id _ => ?_
  unfold Trace.tried
  rw [List.mem_filterMap]
  constructor
  · intro h
    by_cases hb : ∃ a ∈ acts, a.blocks id = true
    · obtain ⟨a, ha, hblocks⟩ := hb
      exact ⟨a, ha, (a.tries_iff id).mpr (.inr hblocks)⟩
    · obtain ⟨a, ha, hoffers⟩ := h fun a ha => by
        rw [← Bool.not_eq_true]
        exact fun hblocks => hb ⟨a, ha, hblocks⟩
      exact ⟨a, ha, (a.tries_iff id).mpr (.inl hoffers)⟩
  · rintro ⟨a, ha, htries⟩ hnone
    refine ⟨a, ha, ((a.tries_iff id).mp htries).resolve_right ?_⟩
    rw [hnone a ha]
    exact Bool.false_ne_true

/-- The call from `s` to `s'` that returned `out` has a good reason to stop, or has offered all. -/
def StopsFairly (s s' : State) (out : List Datagram) : Prop :=
  out.length = 256 ∨ (∃ a ∈ s.actsSince s', a.terminal = true) ∨
    (∃ a ∈ s.actsSince s', a.answersZero = true) ∨ EachOffered (s.actsSince s') s'.conn

/-- An answer that is a good reason to stop. -/
def Act.settles (a : Act) : Bool := a.terminal || a.answersZero

/-- No answer between the states is a good reason to stop. -/
def Unsettled (s s' : State) : Prop :=
  ∃ new, s'.trace = new ++ s.trace ∧ ∀ a ∈ new, a.settles = false

namespace Unsettled

variable {s s' s'' : State}

theorem of_trace_eq (h : s'.trace = s.trace) : Unsettled s s' := ⟨[], h, List.forall_mem_nil _⟩

theorem trans (h : Unsettled s s') (h' : Unsettled s' s'') : Unsettled s s'' := by
  obtain ⟨new, ht, hnew⟩ := h
  obtain ⟨new', ht', hnew'⟩ := h'
  exact ⟨new' ++ new, by rw [ht', ht, List.append_assoc], List.forall_mem_append.mpr ⟨hnew', hnew⟩⟩

theorem log (s : State) {a : Act} (h : a.settles = false) : Unsettled s (s.log a) :=
  ⟨[a], rfl, List.forall_mem_singleton.mpr h⟩

theorem pieces : Pieces (fun a => !a.settles) Unsettled where
  refl _ := of_trace_eq rfl
  trans := trans
  log s _ ha := log s (Bool.not_eq_true' _ ▸ ha)
  callback s _ := log s rfl
  entries _ _ _ := of_trace_eq rfl
  sync s p := by
    rcases s.syncState_trace p with ht | ht
    · exact of_trace_eq ht
    · exact ⟨[.periods p], ht, List.forall_mem_singleton.mpr rfl⟩
  lastError _ _ := of_trace_eq rfl

theorem suffix (h : Unsettled s s') : s.trace <:+ s'.trace := by
  obtain ⟨new, ht, -⟩ := h
  exact ⟨new, ht.symm⟩

theorem actsSince (h : Unsettled s s') : ∀ a ∈ s.actsSince s', a.settles = false := by
  obtain ⟨new, ht, hnew⟩ := h
  rw [State.actsSince_eq ht]
  exact hnew

end Unsettled

theorem Tries.actsSince {now : List Int} {s s' : State} (h : Tries now s s') :
    (s.actsSince s').tried = now := by
  obtain ⟨new, ht, hnow⟩ := h.acts
  rw [State.actsSince_eq ht, hnow]

theorem StopsFairly.of_settles {s s' : State} {out : List Datagram} {a : Act}
    (ha : a ∈ s.actsSince s') (h : a.settles = true) : StopsFairly s s' out :=
  match Bool.or_eq_true_iff.mp h with
  | .inl hterm => .inr (.inl ⟨a, ha, hterm⟩)
  | .inr hzero => .inr (.inr (.inl ⟨a, ha, hzero⟩))

/-- Where nothing else is a reason to stop, the streams that were tried decide. -/
theorem stopsFairly_iff_tried {s s' : State} {out : List Datagram} (hlen : out.length < 256)
    (h : Unsettled s s') :
    StopsFairly s s' out ↔ ∀ id ∈ s'.conn.eligibleIds, id ∈ (s.actsSince s').tried := by
  have hacts (a : Act) (ha : a ∈ s.actsSince s') := Bool.or_eq_false_iff.mp (h.actsSince a ha)
  rw [← eachOffered_iff]
  constructor
  · rintro (hfull | ⟨a, ha, hterm⟩ | ⟨a, ha, hzero⟩ | hall)
    · omega
    · rw [(hacts a ha).1] at hterm; cases hterm
    · rw [(hacts a ha).2] at hzero; cases hzero
    · exact hall
  · exact fun hall => .inr (.inr (.inr hall))

/-- What follows the loop decides nothing. -/
theorem stopsFairly_return (s s' : State) (p : Periods) (out : List Datagram)
    (ht : s.trace <:+ s'.trace) :
    StopsFairly s (Connection.returnDatagrams (s'.syncState p) out).1 out ↔ StopsFairly s s' out := by
  have hids : (s'.syncState p).conn.eligibleIds = s'.conn.eligibleIds := by
    obtain ⟨_, _, _, _, _, hc⟩ := s'.conn.syncState_rest p
    rw [State.syncState_conn, hc]
    rfl
  obtain ⟨acts, hacts⟩ := ht
  have hthen : ∃ new, (Connection.returnDatagrams (s'.syncState p) out).1.trace =
      (new ++ acts) ++ s.trace ∧ (∀ a ∈ new, a.terminal = false ∧ a.answersZero = false) ∧
        Trace.tried new = [] := by
    unfold Connection.returnDatagrams
    rw [State.log_trace]
    rcases s'.syncState_trace p with h | h
    · exact ⟨[.datagrams out], by rw [h, ← hacts]; rfl, by simp [Act.terminal, Act.answer,
        Act.answersZero], rfl⟩
    · exact ⟨[.datagrams out, .periods p], by rw [h, ← hacts]; rfl, by simp [Act.terminal,
        Act.answer, Act.answersZero], rfl⟩
  obtain ⟨new, hnew, hquiet, htried⟩ := hthen
  have hkeep {q : Act → Bool} (hq : ∀ a ∈ new, q a = false) :
      (∃ a ∈ new ++ acts, q a = true) ↔ ∃ a ∈ acts, q a = true := by
    simp only [List.mem_append, or_and_right, exists_or]
    refine or_iff_right ?_
    rintro ⟨a, ha, hqa⟩
    rw [hq a ha] at hqa
    cases hqa
  unfold StopsFairly
  rw [State.actsSince_eq hnew, State.actsSince_eq hacts.symm, eachOffered_iff, eachOffered_iff,
    hkeep fun a ha => (hquiet a ha).1, hkeep fun a ha => (hquiet a ha).2, Trace.tried_append, htried]
  unfold Connection.returnDatagrams
  rw [State.log_conn, hids]
  rfl

/-! ## The iterations of a call -/

/-- An iteration of the send loop: the state before it, the flag, and ngtcp2's answers in it. -/
structure Iteration where
  state : State
  forceConnOnly : Bool
  answer : IterAnswer

/-- The answer ends the loop and no byte was offered: 0 to a FIN alone, or 0 or `STREAM_DATA_BLOCKED`
to a call without a stream. -/
def WritevAnswer.endsIdle (a : WritevAnswer) : Option Bytes → Bool
  | some data => decide (data = []) && decide (a.result = .ok [])
  | none => decide (a.result = .ok []) || decide (a.result = .error .streamDataBlocked)

namespace Iteration

/-- The stream at which the loop stands: the first that can send, or the one just blocked. -/
def turn (i : Iteration) : Option Int :=
  if i.forceConnOnly then i.state.trace.head?.bind Act.tries
  else i.state.conn.firstEligible.map StreamEntry.streamId

/-- The open of the entry is still pending, and ngtcp2 blocks it. -/
def blocksOpen (i : Iteration) (e : StreamEntry) : Bool :=
  e.pendingOpen && decide (i.answer.openStream = .error .streamIdBlocked)

/-- The bytes that ngtcp2 is offered; none in a call without a stream. -/
def offered (i : Iteration) : Option Bytes :=
  if i.forceConnOnly then none
  else (i.state.conn.firstEligible.filter fun e => !i.blocksOpen e).map StreamEntry.unsent

/-- A stream other than the one at which the loop stands can send, and no callback ends it. -/
def leavesBehind (i : Iteration) : Bool :=
  i.state.conn.eligibleIds.any fun id =>
    decide (i.turn ≠ some id) && i.answer.writev.callbacks.all fun cb => !cb.ends id

/-- The answer ends the loop with nothing offered while another stream could send. -/
def hides (i : Iteration) : Bool := i.answer.writev.endsIdle i.offered && i.leavesBehind

end Iteration

namespace Connection

/-- The iterations of a send loop. -/
def iterations : State → Bool → List Datagram → List IterAnswer → List Iteration
  | _, _, _, [] => []
  | s, forceConnOnly, out, a :: as =>
    ⟨s, forceConnOnly, a⟩ ::
      match drainIteration s forceConnOnly a with
      | (s, .again forceConnOnly) => iterations s forceConnOnly out as
      | (s, .emit d) =>
        if out.length + 1 ≥ 256 then [] else iterations s false (out ++ [d]) as
      | _ => []

end Connection

/-- What the pick and the pending open of an iteration come to. -/
structure Iteration.Opens (i : Iteration) (t : State) (offer : Option Offer) : Prop where
  tries : ∃ now, Tries now i.state t ∧ (offer.map Offer.streamId).toList ++ now =
    if i.forceConnOnly then [] else i.turn.toList
  offered : offer.map Offer.data = i.offered
  line : ∀ id, id ∈ t.conn.eligibleIds ↔ id ∈ i.state.conn.eligibleIds
  unsettled : Unsettled i.state t

theorem Connection.entry_of_firstEligible {c : Connection} {e : StreamEntry}
    (h : c.firstEligible = some e) : c.entry e.streamId = e := by
  have hget : c.getStreamEntry e.streamId = some e :=
    OrdTable.find?_of_mem (List.mem_of_find?_eq_some h)
  unfold entry
  rw [hget]
  rfl

open Connection in
theorem Iteration.opens {s t : State} {force : Bool} {a : IterAnswer} {offer : Option Offer}
    (h : openIfPending (pickOrNone s force).1 (pickOrNone s force).2 a.openStream = (t, .ok offer)) :
    Iteration.Opens ⟨s, force, a⟩ t offer := by
  obtain ⟨hpick, hoffer⟩ := pickOrNone_tries s force
  have hentries := pickOrNone_entries s force
  have hun := Unsettled.pieces.openIfPending (pickOrNone s force).1 (pickOrNone s force).2
    a.openStream fun _ => rfl
  have hok : (openIfPending (pickOrNone s force).1 (pickOrNone s force).2 a.openStream).2 =
      .ok offer := by rw [h]
  obtain ⟨heq, htries, hline⟩ := openIfPending_tries _ _ a.openStream hok
  rw [h] at htries hline hun
  rw [hoffer] at heq htries
  have hline' (id : Int) := (hline id).trans (hentries id).1
  have hun' := (Unsettled.pieces.pickOrNone s force).trans hun
  have hid (e : StreamEntry) : e.clampTxOffset.offer.streamId = e.streamId :=
    e.clampTxOffset_streamId
  -- the pick finds the flag of the first entry as it was
  have hpending {e : StreamEntry} (he : s.conn.firstEligible = some e) :
      ((pickOrNone s force).1.conn.entry e.clampTxOffset.offer.streamId).pendingOpen =
        e.pendingOpen := by
    rw [hid, (hentries _).2, entry_of_firstEligible he]
  refine ⟨⟨_, hpick.trans htries, ?_⟩, ?_, hline', hun'⟩
  · rw [heq]
    unfold turn
    cases force with
    | true => rfl
    | false =>
      cases he : s.conn.firstEligible with
      | none => rfl
      | some e =>
        simp only [Bool.false_eq_true, if_false, Option.map_some, Option.filter_some, hpending he]
        generalize (e.pendingOpen && decide (a.openStream = .error .streamIdBlocked)) = blocked
        cases blocked with
        | true => exact congrArg (fun id => [id]) (hid e)
        | false => exact congrArg (fun id => [id]) (hid e)
  · rw [heq]
    unfold offered blocksOpen
    cases force with
    | true => rfl
    | false =>
      cases he : s.conn.firstEligible with
      | none => rfl
      | some e =>
        simp only [Bool.false_eq_true, if_false, Option.map_some, Option.filter_some, hpending he]
        split
        · exact congrArg some (unsent_clamp e)
        · rfl

/-! ## What an answer decides -/

namespace Connection

/-- The loop stops for an answer that is a good reason, or for one that ends it with no byte offered;
it goes on behind no such answer. -/
theorem writevStream_verdict (t : State) (offer : Option Offer) (a : IterAnswer) :
    match (writevStream t offer a).2 with
    | .stop => (Act.writev offer a.writev).settles = !a.writev.endsIdle (offer.map Offer.data)
    | .again force => (Act.writev offer a.writev).settles = false ∧
        a.writev.endsIdle (offer.map Offer.data) = false ∧ (force = true → offer.isSome = true)
    | .emit _ => (Act.writev offer a.writev).settles = false ∧
        a.writev.endsIdle (offer.map Offer.data) = false
    | .threw _ => True := by
  have hok {pkt : Bytes} (hr : a.writev.result = .ok pkt) : (Act.writev offer a.writev).settles =
      (offer.any (fun o => decide (o.data ≠ [])) && decide (pkt = [])) := by
    cases offer <;> simp [Act.settles, Act.terminal, Act.answer, Act.answer.errorOf,
      Act.answersZero, hr]
  have herror {e : Err} (hr : a.writev.result = .error e) :
      (Act.writev offer a.writev).settles = e.isNonfatalClosing := by
    cases offer <;> simp [Act.settles, Act.terminal, Act.answer, Act.answer.errorOf,
      Act.answersZero, hr]
  rw [writevStream_eq]
  unfold WritevAnswer.endsIdle
  cases hr : a.writev.result with
  | ok pkt =>
    rw [hok hr]
    cases offer with
    | none => cases pkt <;> simp
    | some o =>
      cases pkt with
      | cons => simp
      | nil => by_cases hdata : o.data = [] <;> simp [hdata]
  | error e =>
    rw [herror hr]
    cases offer with
    | none => cases e <;> simp [Err.isNonfatalClosing]
    | some o => cases e <;> simp [Err.isNonfatalClosing]

/-- Behind an answer that goes on, the answer is the last act. -/
theorem writevStream_again {t : State} {offer : Option Offer} {a : IterAnswer} {force : Bool}
    (h : (writevStream t offer a).2 = .again force) :
    (writevStream t offer a).1 = settled t offer a.writev := by
  rw [writevStream_eq] at h ⊢
  split
  · rfl
  · rfl
  · rfl
  · rename_i hmore hblocked hshut hr
    rw [hr] at h
    simp only at h
    split at h <;> cases h
  · split <;> rfl

/-- The answer is among the acts of the call. -/
theorem writevStream_mem {s₀ t : State} (h : s₀.trace <:+ t.trace) (offer : Option Offer)
    (a : IterAnswer) :
    .writev offer a.writev ∈ s₀.actsSince (writevStream t offer a).1 := by
  have hlast : (settled t offer a.writev).trace <:+ (writevStream t offer a).1.trace := by
    rw [writevStream_eq]
    split
    · exact List.suffix_rfl
    · exact List.suffix_rfl
    · exact List.suffix_rfl
    · split
      · rcases (settled t offer a.writev).syncState_trace a.periods with ht | ht
        · rw [ht]
        · rw [ht]; exact List.suffix_cons _ _
      · exact List.suffix_rfl
    · split
      · exact List.suffix_rfl
      · exact List.suffix_rfl
  obtain ⟨behind, hbehind⟩ := hlast
  obtain ⟨before, hbefore⟩ := h.trans (Polling.runCallbacks t a.writev.callbacks).suffix
  have ht : (writevStream t offer a).1.trace =
      (behind ++ .writev offer a.writev :: before) ++ s₀.trace := by
    rw [← hbehind, List.append_assoc, List.cons_append, hbefore]
    rfl
  rw [State.actsSince_eq ht]
  exact List.mem_append_right _ List.mem_cons_self

end Connection

/-! ## The line in the loop -/

/-- Before an iteration of the call that began in `s₀`: only the head of the line has been tried, and
no answer was a good reason to stop. -/
structure InCall (s₀ s : State) (forceConnOnly : Bool) : Prop where
  served : ∃ now, Tries now s₀ s ∧ Line.HeadOnly now s.conn.eligibleIds ∧
    (forceConnOnly = true → s.trace.head?.bind Act.tries = now.head?)
  unsettled : Unsettled s₀ s

theorem InCall.begin (s : State) : InCall s s false :=
  ⟨⟨[], .refl s, .nil _, nofun⟩, .of_trace_eq rfl⟩

open Connection in
/-- An iteration serves the stream at its turn, if any, and the answer ends no other. -/
theorem InCall.iteration {s₀ s t : State} {force : Bool} {a : IterAnswer} {offer : Option Offer}
    (h : InCall s₀ s force) (ho : Iteration.Opens ⟨s, force, a⟩ t offer) :
    ∃ now, Tries now s₀ (writevStream t offer a).1 ∧
      Line.HeadOnly now (writevStream t offer a).1.conn.eligibleIds ∧
      (offer.isSome = true → now.head? = offer.map Offer.streamId) ∧
      ((∀ id ∈ (writevStream t offer a).1.conn.eligibleIds, now.head? = some id) ↔
        Iteration.leavesBehind ⟨s, force, a⟩ = false) := by
  obtain ⟨tried, htried, hhead, hforced⟩ := h.served
  obtain ⟨opened, hopened, hturn⟩ := ho.tries
  obtain ⟨hwritev, hids⟩ := writevStream_tries t offer a
  have hline : s.conn.firstEligible.map StreamEntry.streamId = s.conn.eligibleIds.head? :=
    (OrdTable.head?_keysWhere _ _).symm
  have hnow : (offer.map Offer.streamId).toList ++ opened =
      if force then [] else s.conn.eligibleIds.head?.toList := by
    rw [hturn]
    unfold Iteration.turn
    simp only
    split
    · rfl
    · rw [hline]
  refine ⟨_, htried.trans (hopened.trans hwritev), ?_, ?_, ?_⟩
  · refine hhead.serve (OrdTable.keysWhere_nodup _ _) (hopened.trans hwritev).wanes fun id hid => ?_
    rw [hnow] at hid
    split at hid
    · cases hid
    · exact Option.mem_toList.mp hid
  · intro hsome
    obtain ⟨o, rfl⟩ := Option.isSome_iff_exists.mp hsome
    rfl
  · -- where a stream can send, the stream tried last is the one at its turn
    have hlast (id : Int) (hid : id ∈ s.conn.eligibleIds) :
        ((offer.map Offer.streamId).toList ++ opened ++ tried).head? =
          Iteration.turn ⟨s, force, a⟩ := by
      rw [hnow]
      unfold Iteration.turn
      cases force with
      | true => exact (hforced rfl).symm
      | false =>
        simp only [Bool.false_eq_true, if_false, hline]
        cases hhead? : s.conn.eligibleIds.head? with
        | none => rw [List.head?_eq_none_iff.mp hhead?] at hid; cases hid
        | some i => rfl
    have hmem {id : Int} (hne : offer.map Offer.streamId ≠ some id) :
        id ∈ (writevStream t offer a).1.conn.eligibleIds ↔
          id ∈ s.conn.eligibleIds ∧ ∀ cb ∈ a.writev.callbacks, cb.ends id = false := by
      have hset := mem_eligibleIds_settle? (t.runCallbacks a.writev.callbacks).conn a.writev hne
      rw [hids]
      exact hset.trans ((mem_eligibleIds_runCallbacks t _).trans (and_congr_left' (ho.line id)))
    have hoffered {id : Int} (heq : offer.map Offer.streamId = some id) :
        ((offer.map Offer.streamId).toList ++ opened ++ tried).head? = some id := by
      rw [heq]
      rfl
    simp only [Iteration.leavesBehind, List.any_eq_false, Bool.and_eq_true, decide_eq_true_eq,
      List.all_eq_true, Bool.not_eq_true', not_and]
    constructor
    · intro hall id hid hne hends
      have hne' : offer.map Offer.streamId ≠ some id := fun heq =>
        hne ((hlast id hid).symm.trans (hoffered heq))
      exact hne ((hlast id hid).symm.trans (hall id ((hmem hne').mpr ⟨hid, hends⟩)))
    · intro hnone id hid
      by_cases heq : offer.map Offer.streamId = some id
      · exact hoffered heq
      · obtain ⟨hs, hends⟩ := (hmem heq).mp hid
        rw [hlast id hs]
        exact not_not.mp fun hne => hnone id hs hne hends

open Connection in
/-- A loop with room for a datagram stops fairly if and only if no iteration hides a stream. -/
theorem drainLoop_stopsFairly {s₀ s s' : State} {force : Bool} (h : InCall s₀ s force)
    {out out' : List Datagram} {as : List IterAnswer} (hlen : out.length < 256)
    (hstop : drainLoop s force out as = (s', .stopped out')) :
    s₀.trace <:+ s'.trace ∧
      (StopsFairly s₀ s' out' ↔ ∀ i ∈ iterations s force out as, i.hides = false) := by
  induction as generalizing s force out with
  | nil => cases hstop
  | cons a as ih =>
    unfold drainLoop drainIteration at hstop
    unfold iterations drainIteration
    simp only [List.forall_mem_cons] at hstop ⊢
    generalize hopen : openIfPending (pickOrNone s force).1 (pickOrNone s force).2 a.openStream = r
      at hstop ⊢
    obtain ⟨t, _ | offer⟩ := r
    · cases hstop
    · have ho := Iteration.opens hopen
      obtain ⟨now, hnow, hhead, hoffer, hbehind⟩ := h.iteration ho
      have hverdict := writevStream_verdict t offer a
      have hmem := writevStream_mem (h.unsettled.trans ho.unsettled).suffix offer a
      have hunsettled (hs : (Act.writev offer a.writev).settles = false) :
          Unsettled s₀ (writevStream t offer a).1 :=
        (h.unsettled.trans ho.unsettled).trans (Unsettled.pieces.writevStream t offer a (by simp [hs]))
      have hgoes (hend : a.writev.endsIdle (offer.map Offer.data) = false) :
          Iteration.hides ⟨s, force, a⟩ = false := by
        unfold Iteration.hides
        rw [← ho.offered, hend, Bool.false_and]
      have hsuffix : s₀.trace <:+ (writevStream t offer a).1.trace := by
        obtain ⟨new, ht, -⟩ := hnow.acts
        exact ⟨new, ht.symm⟩
      simp only at hstop ⊢
      generalize hw : writevStream t offer a = w
        at hstop hnow hhead hbehind hverdict hmem hunsettled hsuffix ⊢
      obtain ⟨u, v⟩ := w
      cases v with
      | again force' =>
        obtain ⟨hs, hend, hforce⟩ := hverdict
        have hcall : InCall s₀ u force' := by
          refine ⟨⟨now, hnow, hhead, fun hf => ?_⟩, hunsettled hs⟩
          have hlast : u = settled t offer a.writev := by
            have hsettled := writevStream_again (congrArg Prod.snd hw)
            rwa [hw] at hsettled
          rw [hoffer (hforce hf), hlast]
          cases offer <;> rfl
        have hrest := ih hcall hlen hstop
        exact ⟨hrest.1, hrest.2.trans (and_iff_right (hgoes hend)).symm⟩
      | stop =>
        cases hstop
        refine ⟨hsuffix, ?_⟩
        cases hend : a.writev.endsIdle (offer.map Offer.data) with
        | false =>
          rw [hend] at hverdict
          exact iff_of_true (.of_settles hmem hverdict) ⟨hgoes hend, List.forall_mem_nil _⟩
        | true =>
          rw [hend] at hverdict
          rw [stopsFairly_iff_tried hlen (hunsettled hverdict), hnow.actsSince, hhead.all_served_iff,
            hbehind]
          unfold Iteration.hides
          rw [← ho.offered, hend, Bool.true_and]
          exact (and_iff_left (List.forall_mem_nil _)).symm
      | threw e => cases hstop
      | emit d =>
        obtain ⟨hs, hend⟩ := hverdict
        simp only at hstop ⊢
        split at hstop
        · rename_i hfull
          cases hstop
          refine ⟨hsuffix, iff_of_true (.inl ?_) ?_⟩
          · rw [List.length_append, List.length_singleton]
            omega
          · rw [if_pos hfull]
            exact ⟨hgoes hend, List.forall_mem_nil _⟩
        · rename_i hroom
          rw [if_neg hroom]
          have hcall : InCall s₀ u false := ⟨⟨now, hnow, hhead, nofun⟩, hunsettled hs⟩
          have hrest := ih hcall (by rw [List.length_append, List.length_singleton]; omega) hstop
          exact ⟨hrest.1, hrest.2.trans (and_iff_right (hgoes hend)).symm⟩

/-- A call stops fairly if and only if in none of its iterations the answer ends the loop with no byte
offered while a stream other than the one at its turn could send. -/
theorem drain_stopsFairly_iff (s : State) (a : DrainAnswers) (out : List Datagram)
    (henter : s.entersLoop = true)
    (hout : (Connection.drainOutgoingDatagrams s a).2 = .returned out) :
    StopsFairly s (Connection.drainOutgoingDatagrams s a).1 out ↔
      ∀ i ∈ Connection.iterations s false [] a.loop, i.hides = false := by
  rw [Connection.drainOutgoingDatagrams_loop a henter] at hout ⊢
  have hloop := @drainLoop_stopsFairly s s
  generalize hl : Connection.drainLoop s false [] a.loop = l at hout ⊢
  obtain ⟨s', out' | e | out'⟩ := l
  · cases hout
    obtain ⟨ht, hfair⟩ := hloop (.begin s) (by decide) hl
    exact (stopsFairly_return s s' a.periods out ht).trans hfair
  · cases hout
  · cases hout

/-- A client with a byte to send on each of two streams. -/
def twoSenders : State :=
  (Start.client {} none none).run
    [.openStream (.ok 0), .openStream (.ok 4), .write 0 [1], .write 4 [2]]

/-- The second stream is blocked when the first is done. -/
def secondBlocked : DrainAnswers where
  loop := [{ writev := { result := .ok [7], wdatalen := 1 } },
    { writev := { result := .error .streamDataBlocked } }, { writev := { result := .ok [] } }]

theorem drain_stopsFairly_iff_secondBlocked :
    let d : Datagram := { payload := [7], peerAddress := none, localAddress := none }
    twoSenders.entersLoop = true ∧
      (Connection.drainOutgoingDatagrams twoSenders secondBlocked).2 = .returned [d] ∧
      (StopsFairly twoSenders (Connection.drainOutgoingDatagrams twoSenders secondBlocked).1 [d] ↔
        ∀ i ∈ Connection.iterations twoSenders false [] secondBlocked.loop, i.hides = false) :=
  ⟨by decide, by decide, drain_stopsFairly_iff twoSenders secondBlocked _ (by decide) (by decide)⟩

/-- A blocked stream at the head of the table hides the next one. -/
theorem drain_hides_second :
    ¬ ∀ (s : State) (a : DrainAnswers) (out : List Datagram), s.entersLoop = true →
      (Connection.drainOutgoingDatagrams s a).2 = .returned out →
      StopsFairly s (Connection.drainOutgoingDatagrams s a).1 out := by
  intro h
  have hbad := h twoSenders
    { loop := [{ writev := { result := .error .streamDataBlocked } },
      { writev := { result := .ok [] } }] } [] (by decide) (by decide)
  unfold StopsFairly EachOffered at hbad
  revert hbad
  decide

end PhpQuic
