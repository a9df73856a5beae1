import PhpQuic.Outgoing.Writable

/-!
# Nothing behind the end of a stream

`write()` refuses a stream that is closed or has a FIN pending or sent; `end()` tests none of it. So
a second `end()` with data appends behind a FIN that may be sent already, and any `end()` behind the
FIN that was sent makes a FIN pending again.

* `StreamEntry.FinLast`: behind the FIN that was sent there is nothing to send.
* `Op.RefusedAtEnd`: a call that brings data to a stream that is over throws, and leaves its entry.
* `nothing_behind_end_iff`: both hold all along a run if and only if each `end()` of it comes in time
  (`Op.endsInTime`). `write` never breaks them. `end_twice`: a stream that is ended twice.
-/

namespace PhpQuic

open Runs (Along)

/-- `end()` has been called on the stream. -/
def Trace.wasEnded (id : Int) (t : Trace) : Bool :=
  t.any fun
    | .ended i _ => decide (i = id)
    | _ => false

/-- The stream of the entry was ended, is closed or reset, or has sent its FIN. -/
def State.isOver (s : State) (id : Int) (e : StreamEntry) : Bool :=
  s.trace.wasEnded id || e.closed || e.reset || e.finSent

/-- Behind the FIN that was sent there is nothing to send. -/
def StreamEntry.FinLast (e : StreamEntry) : Prop :=
  e.finSent = true → e.finPending = false ∧ e.unsent = []

/-- The call does not bring data to a stream that is over, or it throws and leaves the entry. -/
def Op.RefusedAtEnd (s : State) : Op → Prop
  | .write id data => ∀ e, s.conn.getStreamEntry id = some e → data ≠ [] → s.isOver id e = true →
      (∃ x, (Stream.write s id data).2 = .threw x) ∧
        (Stream.write s id data).1.conn.getStreamEntry id = some e
  | .end_ id data => ∀ e, s.conn.getStreamEntry id = some e → data.getD [] ≠ [] →
      s.isOver id e = true →
      (∃ x, (Stream.end_ s id data).2 = .threw x) ∧
        (Stream.end_ s id data).1.conn.getStreamEntry id = some e
  | _ => True

/-- An `end()` that is not refused comes before the FIN is sent, and if it brings data, to a stream
that is not over. -/
def Op.endsInTime (s : State) : Op → Bool
  | .end_ id data => (s.conn.getStreamEntry id).all fun e =>
      s.conn.isRemoteUnidirectional id ||
        !e.finSent && (decide (data.getD [] = []) || !s.isOver id e)
  | _ => true

/-! ## What `end` does -/

namespace Stream

variable {s : State} {id : Int} {e : StreamEntry}

/-- `end` takes any data of a stream that the local side may write to. -/
theorem end_taken (hget : s.conn.getStreamEntry id = some e)
    (hlocal : s.conn.isRemoteUnidirectional id = false) (data : Option Bytes) :
    Stream.end_ s id data = ((s.modifyEntry id (·.end_ (data.getD [])) fun _ => rfl).log
      (.ended id (data.getD [])), .returned ()) := by
  unfold Stream.end_
  rw [hget]
  simp only
  rw [hlocal, if_neg Bool.false_ne_true]

theorem end_refused (hget : s.conn.getStreamEntry id = some e)
    (hremote : s.conn.isRemoteUnidirectional id = true) (data : Option Bytes) :
    ∃ x, Stream.end_ s id data = s.throw x := by
  unfold Stream.end_
  rw [hget]
  simp only
  rw [hremote, if_pos rfl]
  exact ⟨_, rfl⟩

/-- The entry behind an `end` that is not refused. -/
theorem get_end_taken (hget : s.conn.getStreamEntry id = some e)
    (hlocal : s.conn.isRemoteUnidirectional id = false) (data : Option Bytes) :
    (Stream.end_ s id data).1.conn.getStreamEntry id = some (e.end_ (data.getD [])) := by
  rw [end_taken hget hlocal]
  refine (Connection.get_modifyEntry _ _).trans ?_
  rw [if_pos rfl, hget]
  rfl

end Stream

/-! ## The end is remembered -/

theorem Trace.wasEnded_append {id : Int} {as : List Act} (has : ∀ a ∈ as, a.concerns id = false)
    (t : Trace) : Trace.wasEnded id (as ++ t) = Trace.wasEnded id t := by
  unfold wasEnded
  rw [List.any_append, Bool.or_eq_right_iff_imp]
  intro h
  obtain ⟨a, ha, hended⟩ := List.any_eq_true.mp h
  have hquiet := has a ha
  cases a with
  | ended i data => exact absurd (of_decide_eq_true hended) (of_decide_eq_false hquiet)
  | _ => cases hended

/-- The entry refuses data as one that was ended does. -/
def StreamEntry.shut (e : StreamEntry) : Bool := e.closed || e.finSent || e.finPending

theorem StreamEntry.shut_answer (o : Offer) (a : WritevAnswer) {e : StreamEntry}
    (h : e.shut = true) : (e.answer o a).shut = true := by
  unfold StreamEntry.answer
  cases a.effect with
  | update p =>
    have hup : (e.updateTx a.wdatalen o.fin p).shut = true := by
      -- the FIN is pending until it is sent
      have hfin (closed sent pending fin : Bool) (h : (closed || sent || pending) = true) :
          (closed || (sent || fin) || (pending && !fin)) = true := by
        revert closed sent pending fin
        decide
      rw [updateTx_eq]
      exact hfin _ _ _ _ h
    simp only
    rw [woken_eq]
    exact hup
  | discard => simp [shut, discardTx]
  | ignore => exact h

theorem StreamEntry.shut_react (conn : Option Role) (cb : Callback) {e : StreamEntry}
    (h : e.shut = true) : (e.react conn cb).shut = true := by
  cases cb with
  | streamClose | streamReset => rfl
  | ackedStreamDataOffset =>
    rw [react_acked]
    exact h
  | _ => exact h

section

variable {conn : Option Role} {id : Int} {e e' : Option StreamEntry} {t t' : Trace}
  {es : List Event}

/-- A stream that was ended stays shut. -/
theorem EntryStep.shut (hstep : EntryStep conn id e t e' t' es) (hr : Replayed conn id e t)
    (h : t.wasEnded id = true → ∃ x, e = some x ∧ x.shut = true) :
    t'.wasEnded id = true → ∃ x, e' = some x ∧ x.shut = true := by
  cases hstep with
  | other as has =>
    rw [Trace.wasEnded_append has]
    exact h
  | clamp =>
    rename_i e
    rw [StreamEntry.clampTxOffset_self (hr.offset_le e rfl)]
    exact h
  | wrote data hclosed hsent hfin hlocal =>
    intro hended
    obtain ⟨_, ⟨⟩, hx⟩ := h hended
    exact ⟨_, rfl, hx⟩
  | ended data hlocal => exact fun _ => ⟨_, rfl, Bool.or_true _⟩
  | reset => exact fun _ => ⟨_, rfl, rfl⟩
  | read chunk rest hrx hchunk =>
    intro hended
    obtain ⟨_, ⟨⟩, hx⟩ := h hended
    exact ⟨_, rfl, hx⟩
  | returned bidi pending rv =>
    intro hended
    obtain ⟨_, rfl, hx⟩ := h hended
    exact ⟨_, rfl, hx⟩
  | openMatched =>
    intro hended
    obtain ⟨_, ⟨⟩, hx⟩ := h hended
    exact ⟨_, rfl, hx⟩
  | answered o a hid hdata hfin hdue =>
    intro hended
    obtain ⟨_, ⟨⟩, hx⟩ := h hended
    exact ⟨_, rfl, StreamEntry.shut_answer o a hx⟩
  | callback cb hid =>
    intro hended
    obtain ⟨x, rfl, hx⟩ := h hended
    refine ⟨x.react conn cb, ?_, StreamEntry.shut_react conn cb hx⟩
    rw [Option.getD_some, ite_self]
    rfl

/-! ## Nothing to send behind the FIN -/

/-- An `end()` finds a stream that has not sent its FIN. -/
def Act.endsUnsent (id : Int) (a : Act) (e : Option StreamEntry) : Bool :=
  match a with
  | .ended i _ => decide (i ≠ id) || e.all fun e => !e.finSent
  | _ => true

/-- `Act.endsUnsent` of every act, for the entry that it finds. -/
def Trace.EndsUnsent (conn : Option Role) (id : Int) : Trace → Prop :=
  History.Each fun a t => a.endsUnsent id (Trace.entry conn id t) = true

theorem StreamEntry.FinLast.answer {e : StreamEntry} (h : e.FinLast) {o : Offer}
    (hdata : o.data = e.unsent) (hfin : o.fin = e.finPending) (hdue : o.data ≠ [] ∨ o.fin = true)
    (a : WritevAnswer) : (e.answer o a).FinLast := by
  have hsent : e.finSent = false := by
    rw [← Bool.not_eq_true]
    intro hsent
    obtain ⟨hpending, hnil⟩ := h hsent
    rcases hdue with hne | hset
    · exact hne (hdata.trans hnil)
    · rw [hfin, hpending] at hset
      cases hset
  have hwoken {e : StreamEntry} (h : e.FinLast) : e.woken.FinLast := by
    rw [woken_eq]
    exact h
  unfold StreamEntry.answer
  cases a.effect with
  | update p =>
    refine hwoken ?_
    rw [updateTx_eq]
    intro hfin
    simp only [hsent, Bool.false_or, Bool.and_eq_true] at hfin
    obtain ⟨⟨⟨hf, hp⟩, hpending⟩, hout⟩ := hfin
    refine ⟨?_, ?_⟩
    · simp [hf, hp, hpending, hout]
    · simp [unsent, hout]
  | discard => exact fun _ => ⟨rfl, rfl⟩
  | ignore => exact h

theorem StreamEntry.FinLast.react (conn : Option Role) (cb : Callback) {e : StreamEntry}
    (h : e.FinLast) : (e.react conn cb).FinLast := by
  cases cb with
  | ackedStreamDataOffset =>
    rw [react_acked]
    exact h
  | _ => exact h

theorem StreamEntry.finLast_alloc (id : Int) : (alloc id).FinLast := fun _ => ⟨rfl, rfl⟩

theorem EntryStep.finLast (hstep : EntryStep conn id e t e' t' es) (hr : Replayed conn id e t)
    (hc : t'.EndsUnsent conn id) (h : ∀ x ∈ e, x.FinLast) : ∀ x ∈ e', x.FinLast := by
  have hopen {x : StreamEntry} (hsent : x.finSent = false) : x.FinLast :=
    fun h => absurd (hsent.symm.trans h) Bool.false_ne_true
  cases hstep with
  | other as has => exact h
  | clamp =>
    rintro x ⟨⟩
    rename_i e
    rw [StreamEntry.clampTxOffset_self (hr.offset_le e rfl)]
    exact h e rfl
  | wrote data hclosed hsent hfin hlocal =>
    rintro x ⟨⟩
    exact hopen hsent
  | ended data hlocal =>
    rintro x ⟨⟩
    have hended : (Act.ended id data).endsUnsent id (Trace.entry conn id t) = true :=
      hc _ t List.suffix_rfl
    rw [← hr.entry] at hended
    simp only [Act.endsUnsent, ne_eq, not_true_eq_false, decide_false, Option.all_some,
      Bool.false_or, Bool.not_eq_true'] at hended
    exact hopen hended
  | reset code =>
    rintro x ⟨⟩
    rename_i e
    exact fun hsent => ⟨rfl, (h e rfl hsent).2⟩
  | read chunk rest hrx hchunk =>
    rintro x ⟨⟩
    rename_i e
    exact h e rfl
  | returned bidi pending rv =>
    rintro x ⟨⟩
    exact StreamEntry.found (P := StreamEntry.FinLast) h (StreamEntry.finLast_alloc id)
  | openMatched =>
    rintro x ⟨⟩
    rename_i e
    exact h e rfl
  | answered o a hid hdata hfin hdue =>
    rintro x ⟨⟩
    rename_i e
    exact (h e rfl).answer hdata hfin hdue a
  | callback cb hid =>
    intro x hx
    obtain ⟨y, hy, rfl⟩ := Option.map_eq_some_iff.mp hx
    exact (Callback.found h (StreamEntry.finLast_alloc id) y hy).react conn cb

end

/-! ## Every run -/

namespace Start

variable {start : Start} {ops : List Op} {id : Int} {s : State}

/-- A stream that was ended is shut, in every state. -/
theorem Passes.shut (h : start.Passes ops s) (hended : s.trace.wasEnded id = true) :
    ∃ x, s.conn.getStreamEntry id = some x ∧ x.shut = true := by
  refine (h.inv (P := fun _ _ => True)
    (I := fun e t => Replayed start.conn id e t ∧
      (t.wasEnded id = true → ∃ x, e = some x ∧ x.shut = true)) ?_ ⟨.nil _ _, fun h => by cases h⟩
    fun _ _ _ => trivial).2 hended
  rintro e t e' t' es hstep - ⟨hr, he⟩
  exact ⟨hstep.replayed hr, hstep.shut hr he⟩

theorem Passes.finLast (h : start.Passes ops s) (hc : (start.run ops).trace.EndsUnsent start.conn id) :
    ∀ x ∈ s.conn.getStreamEntry id, x.FinLast := by
  refine (h.inv (I := fun e t => Replayed start.conn id e t ∧ ∀ x ∈ e, x.FinLast) ?_
    ⟨.nil _ _, fun _ h => by cases h⟩ hc).2
  rintro e t e' t' es hstep hc ⟨hr, he⟩
  exact ⟨hstep.replayed hr, hstep.finLast hr hc he⟩

/-- What the calls of `end` find, their acts do. -/
theorem run_endsUnsent (h : Along step (fun s o => o.endsInTime s = true) start.state ops)
    (id : Int) : (start.run ops).trace.EndsUnsent start.conn id := by
  refine each_of_along h (fun a t ha => ?_) (fun _ _ _ => rfl) fun pre o a hfound ho hstep => ?_
  · cases a with
    | ended => cases ha
    | _ => rfl
  · have hentry := ((Passes.last start pre).replayed id).entry
    cases a with
    | ended i data =>
      by_cases hid : i = id
      · subst hid
        unfold Act.endsUnsent
        rw [← hentry]
        cases o with
        | end_ j data' =>
          obtain ⟨rfl, rfl⟩ : j = i ∧ data'.getD [] = data := by simpa [Op.returns] using ho
          cases hget : (start.run pre).conn.getStreamEntry j with
          | none => simp
          | some e =>
            simp only [Op.endsInTime, hget, Option.all_some, Bool.or_eq_true,
              Bool.and_eq_true] at hfound
            rcases hfound with hremote | ⟨hsent, -⟩
            · -- then the call has thrown
              obtain ⟨x, hx⟩ := Stream.end_refused hget hremote data'
              have hthrew : (step (start.run pre) (.end_ j data')).trace =
                  .threw x :: (start.run pre).trace := congrArg (fun r => r.1.trace) hx
              cases (List.cons.inj (hthrew.symm.trans hstep)).1
            · simp only [Option.all_some, hsent, Bool.or_true]
        | _ => cases ho
      · simp [Act.endsUnsent, hid]
    | _ => rfl

end Start

/-- `write` refuses what is over. -/
theorem Start.Passes.refuses {start : Start} {ops : List Op} {id : Int} {s : State}
    (h : start.Passes ops s) {e : StreamEntry} (hget : s.conn.getStreamEntry id = some e)
    (hover : s.isOver id e = true) : e.refuses s.conn.conn id = true := by
  have hshut : e.shut = true := by
    simp only [State.isOver, Bool.or_eq_true] at hover
    rcases hover with ((hended | hclosed) | hreset) | hsent
    · obtain ⟨x, hx, hshut⟩ := h.shut hended
      rw [hget] at hx
      cases hx
      exact hshut
    · simp [StreamEntry.shut, hclosed]
    · simp [StreamEntry.shut, (h.replayed id).reset_closed e hget hreset]
    · simp [StreamEntry.shut, hsent]
  unfold StreamEntry.shut at hshut
  unfold StreamEntry.refuses
  rw [Bool.or_assoc, Bool.or_assoc, ← Bool.or_assoc e.closed, hshut, Bool.or_true]

/-- An `end` that keeps to the claim has come in time. -/
theorem Stream.endsInTime_of {s : State} {id : Int} {data : Option Bytes}
    (hfin : ∀ e, (Stream.end_ s id data).1.conn.getStreamEntry id = some e → e.FinLast)
    (hcall : (Op.end_ id data).RefusedAtEnd s) : (Op.end_ id data).endsInTime s = true := by
  unfold Op.endsInTime
  simp only
  cases hget : s.conn.getStreamEntry id with
  | none => rfl
  | some e =>
    rw [Option.all_some]
    cases hlocal : s.conn.isRemoteUnidirectional id with
    | true => rfl
    | false =>
      -- the call is taken, so it has found the FIN unsent, and no data behind an end
      have hsent : e.finSent = false := by
        rw [← Bool.not_eq_true]
        intro hsent
        obtain ⟨hpending, -⟩ := hfin _ (Stream.get_end_taken hget hlocal data) hsent
        exact absurd hpending.symm Bool.false_ne_true
      have hdata : data.getD [] = [] ∨ s.isOver id e = false := by
        by_cases hnil : data.getD [] = []
        · exact .inl hnil
        · right
          rw [← Bool.not_eq_true]
          intro hover
          obtain ⟨⟨x, hx⟩, -⟩ := hcall e hget hnil hover
          rw [Stream.end_taken hget hlocal] at hx
          cases hx
      rcases hdata with hdata | hdata
      · simp [hsent, hdata]
      · simp [hsent, hdata]

/-- Where `write` refuses what is over, a call that comes in time keeps to the claim. -/
theorem Op.refusedAtEnd_of {s : State} {o : Op}
    (hrefuses : ∀ id e, s.conn.getStreamEntry id = some e → s.isOver id e = true →
      e.refuses s.conn.conn id = true)
    (htime : o.endsInTime s = true) : o.RefusedAtEnd s := by
  cases o with
  | write id data =>
    intro e hget _ hover
    obtain ⟨x, hx⟩ := Stream.write_refused hget (hrefuses id e hget hover) data
    rw [hx]
    exact ⟨⟨x, rfl⟩, hget⟩
  | end_ id data =>
    intro e hget hdata hover
    have hremote : s.conn.isRemoteUnidirectional id = true := by
      simpa [Op.endsInTime, hget, hover, hdata] using htime
    obtain ⟨x, hx⟩ := Stream.end_refused hget hremote data
    rw [hx]
    exact ⟨⟨x, rfl⟩, hget⟩
  | _ => trivial

/-- Behind the FIN that is sent nothing is to be sent, and no data is taken by a stream that is over,
if and only if each `end()` comes in time. -/
theorem nothing_behind_end_iff (start : Start) (ops : List Op) :
    ((∀ pre, pre <+: ops → ∀ id e, (start.run pre).conn.getStreamEntry id = some e → e.FinLast) ∧
        Along step (fun s o => o.RefusedAtEnd s) start.state ops) ↔
      Along step (fun s o => o.endsInTime s = true) start.state ops := by
  constructor
  · rintro ⟨hfin, hrefused⟩
    refine Runs.along_iff.mpr fun pre o hpre => ?_
    have hcall := Runs.along_iff.mp hrefused pre o hpre
    cases o with
    | end_ id data =>
      have hrun : start.run (pre ++ [.end_ id data]) = (Stream.end_ (start.run pre) id data).1 :=
        start.run_append pre [.end_ id data]
      exact Stream.endsInTime_of (hrun ▸ hfin _ hpre id) hcall
    | _ => rfl
  · intro hc
    refine ⟨fun pre hpre id e hget => ?_, Runs.along_iff.mpr fun pre o hpre => ?_⟩
    · have hpass : start.Passes ops (start.run pre) := Start.Passes.of_prefix hpre
      exact hpass.finLast (Start.run_endsUnsent hc id) e hget
    · refine Op.refusedAtEnd_of (fun id e hget hover => ?_) (Runs.along_iff.mp hc pre o hpre)
      exact (Start.Passes.last start pre).refuses hget hover

/-- A second `end` with data is taken. -/
theorem end_twice :
    ¬ ∀ (start : Start) (ops : List Op),
      Along step (fun s o => o.RefusedAtEnd s) start.state ops := by
  intro h
  have hbad := (h (.client {} none none) [.openStream (.ok 0), .end_ 0 (some [1]),
    .end_ 0 (some [2])]).2.2.1
  obtain ⟨⟨x, hx⟩, -⟩ := hbad { StreamEntry.alloc 0 with
    txBuffer := [1], finPending := true, writable := false } (by decide) (by decide) (by decide)
  cases hx

end PhpQuic
