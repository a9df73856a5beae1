import PhpQuic.Outgoing.Ended

/-!
# A reset by the peer

RESET_STREAM ends the peer's direction of a stream alone. The callback for it sets `reset` and
`closed`, which the send loop and `write()` read as the end of both: what was accepted before is never
offered again, and nothing more is taken. Only a stream that the local side has finished is left as it
was (`peerReset_keeps_iff`; `peerReset_drops`: a byte and a FIN that are not sent).

* `State.KeepsSending`: what the local side may still send, and what it has still to send.
* `State.moves_callback`: a run passes through the state that a callback finds.
-/

namespace PhpQuic

open Runs (Moves)

/-- The local side ends or resets the stream, or ngtcp2 reports that it is closed. -/
def Act.finishes (id : Int) : Act → Bool
  | .ended i _ | .wasReset i _ | .callback (.streamClose _ i _) => decide (i = id)
  | _ => false

/-- The local side may still send on the stream in `s'` what it might in `s`. -/
structure State.KeepsSending (s s' : State) (id : Int) : Prop where
  pending : ∀ e ∈ s.conn.getStreamEntry id, e.eligible = true → ∀ e' ∈ s'.conn.getStreamEntry id,
    e'.unsent ≠ [] ∨ e'.finPending = true → e'.eligible = true
  writes : ∀ e ∈ s.conn.getStreamEntry id, e.refuses s.conn.conn id = false →
    ∀ e' ∈ s'.conn.getStreamEntry id, e'.finSent = false →
    ∀ data, (Stream.write s' id data).2 = .returned data.length
  ends : ∀ data, (Stream.end_ s id data).2 = .returned () → (Stream.end_ s' id data).2 = .returned ()

/-- A reset by the peer finds a bidirectional stream that has nothing to send and takes no data. -/
def Act.resetsIdle (conn : Option Role) (a : Act) (t : Trace) : Bool :=
  match a with
  | .callback (.streamReset id _ _) => !isBidiStream id ||
      (Trace.entry conn id t).all fun e => !e.eligible && e.refuses conn id
  | _ => true

/-- `Act.resetsIdle` of every act. -/
def Trace.ResetsIdle (conn : Option Role) : Trace → Prop :=
  History.Each fun a t => a.resetsIdle conn t = true

instance (conn : Option Role) (t : Trace) : Decidable (t.ResetsIdle conn) :=
  inferInstanceAs (Decidable (History.Each _ t))

/-! ## The state that a callback finds -/

/-- A callback has run. -/
def Act.isCallback : Act → Bool
  | .callback _ => true
  | _ => false

theorem Act.isCallback_of_quiet {a : Act} (h : a.quiet = true) : a.isCallback = false := by
  cases a with
  | callback => cases h
  | _ => rfl

theorem Move.callback_or {s s' : State} (h : Move s s') :
    (∃ cb, s' = s.runCallback cb) ∨
      ∃ as, s'.trace = as ++ s.trace ∧ ∀ a ∈ as, a.isCallback = false := by
  have hnone (ht : s'.trace = s.trace) :
      ∃ as, s'.trace = as ++ s.trace ∧ ∀ a ∈ as, a.isCallback = false :=
    ⟨[], ht, List.forall_mem_nil _⟩
  have hone {a : Act} (ht : s'.trace = a :: s.trace) (ha : a.isCallback = false) :
      ∃ as, s'.trace = as ++ s.trace ∧ ∀ a ∈ as, a.isCallback = false :=
    ⟨[a], ht, by simpa using ha⟩
  cases h with
  | callback cb => exact .inl ⟨cb, rfl⟩
  | quiet a ha => exact .inr (hone rfl (Act.isCallback_of_quiet ha))
  | opened bidi id hconn =>
    exact .inr ⟨[.returned bidi _ false, .openLocal bidi (.ok id)], rfl, by simp [Act.isCallback]⟩
  | blocked bidi hconn =>
    exact .inr ⟨[.returned bidi _ true, .openLocal bidi (.error .streamIdBlocked)], rfl,
      by simp [Act.isCallback]⟩
  | sync p =>
    rcases s.syncState_trace p with ht | ht
    · exact .inr (hnone ht)
    · exact .inr (hone ht rfl)
  | close code reason hopen => exact .inr (hnone (Connection.close_trace ..))
  | clamp | lastError | closeSent => exact .inr (hnone rfl)
  | _ => exact .inr (hone rfl rfl)

/-- The moves to a state whose history has a callback go through the state that it finds. -/
theorem State.moves_callback {s₀ s : State} (h : Moves Move s₀ s) {cb : Callback} {t : Trace}
    (hs : .callback cb :: t <:+ s.trace) :
    .callback cb :: t <:+ s₀.trace ∨
      ∃ s', Moves Move s₀ s' ∧ s'.trace = t ∧ Moves Move (s'.runCallback cb) s := by
  induction h with
  | refl => exact .inl hs
  | tail hfirst hm ih =>
    rename_i s₁ s₂
    have hearlier (hs : .callback cb :: t <:+ s₁.trace) : .callback cb :: t <:+ s₀.trace ∨
        ∃ s', Moves Move s₀ s' ∧ s'.trace = t ∧ Moves Move (s'.runCallback cb) s₂ := by
      rcases ih hs with hs | ⟨s', hbefore, ht, hafter⟩
      · exact .inl hs
      · exact .inr ⟨s', hbefore, ht, hafter.tail hm⟩
    rcases hm.callback_or with ⟨cb', rfl⟩ | ⟨as, ht, has⟩
    · rcases List.suffix_cons_iff.mp hs with heq | hs
      · obtain ⟨hcb, rfl⟩ := List.cons.inj heq
        cases hcb
        exact .inr ⟨s₁, hfirst, rfl, .refl _⟩
      · exact hearlier hs
    · rw [ht] at hs
      rcases Trace.mem_or_suffix hs with hmem | hs
      · exact absurd (has _ hmem) (by simp [Act.isCallback])
      · exact hearlier hs

/-! ## Entries stay -/

theorem EntryStep.isSome {conn : Option Role} {id : Int} {e e' : Option StreamEntry} {t t' : Trace}
    {es : List Event} (hstep : EntryStep conn id e t e' t' es) (h : e.isSome = true) :
    e'.isSome = true := by
  cases hstep with
  | other as has => exact h
  | callback cb hid =>
    rw [Option.isSome_map]
    split
    · rfl
    · exact h
  | _ => rfl

theorem State.moves_isSome {s s' : State} (h : Moves Move s s') {id : Int}
    (hget : (s.conn.getStreamEntry id).isSome = true) :
    (s'.conn.getStreamEntry id).isSome = true := by
  refine Moves.inv' (I := fun s => (s.conn.getStreamEntry id).isSome = true) ?_ h hget
  intro s s' hm hget
  obtain ⟨es, hstep, -⟩ := hm.entryMove id
  exact hstep.isSome hget

theorem Stream.end_returns_iff {s : State} {id : Int} {data : Option Bytes} :
    (Stream.end_ s id data).2 = .returned () ↔
      (s.conn.getStreamEntry id).isSome = true ∧ s.conn.isRemoteUnidirectional id = false := by
  cases hget : s.conn.getStreamEntry id with
  | none =>
    unfold Stream.end_
    rw [hget]
    simp [State.throw]
  | some e =>
    cases hlocal : s.conn.isRemoteUnidirectional id with
    | true =>
      obtain ⟨x, hx⟩ := Stream.end_refused hget hlocal data
      rw [hx]
      simp [State.throw]
    | false =>
      rw [Stream.end_taken hget hlocal]
      simp

/-- `end()` stays permitted in all that follows. -/
theorem State.moves_ends {s s' : State} (h : Moves Move s s') {id : Int} {data : Option Bytes}
    (hend : (Stream.end_ s id data).2 = .returned ()) :
    (Stream.end_ s' id data).2 = .returned () := by
  obtain ⟨hget, hlocal⟩ := Stream.end_returns_iff.mp hend
  refine Stream.end_returns_iff.mpr ⟨State.moves_isSome h hget, ?_⟩
  rw [Connection.isRemoteUnidirectional_eq,
    Moves.keeps (f := fun s => s.conn.conn) (fun _ _ hm => Move.conn_eq hm) h,
    ← Connection.isRemoteUnidirectional_eq]
  exact hlocal

/-! ## The reset -/

/-- The entry behind a reset by the peer. -/
theorem Connection.get_streamReset {c : Connection} {id : Int} {e : StreamEntry}
    (h : c.getStreamEntry id = some e) (size : Nat) (code : UInt64) :
    (c.callback (.streamReset id size code)).getStreamEntry id =
      some { e with reset := true, closed := true, writable := false } := by
  refine (c.get_callback _ id).trans ?_
  refine (if_pos rfl).trans ?_
  show some ((c.entry id).react c.conn (.streamReset id size code)) = _
  rw [Connection.entry_of_get h]
  rfl

/-- If the local side may still send what it might, the reset has found nothing to send. -/
theorem State.KeepsSending.idle {s : State} {id : Int} {size : Nat} {code : UInt64}
    (h : s.KeepsSending (s.runCallback (.streamReset id size code)) id) :
    ∀ e ∈ s.conn.getStreamEntry id, e.eligible = false ∧ e.refuses s.conn.conn id = true := by
  intro e hget
  have hafter : (s.runCallback (.streamReset id size code)).conn.getStreamEntry id =
      some { e with reset := true, closed := true, writable := false } :=
    Connection.get_streamReset hget size code
  refine ⟨?_, ?_⟩
  · rw [← Bool.not_eq_true]
    intro helig
    have hdue : e.unsent ≠ [] ∨ e.finPending = true := by
      simp only [StreamEntry.eligible, Bool.and_eq_true, Bool.or_eq_true, decide_eq_true_eq] at helig
      refine helig.2.imp_left fun hlt => ?_
      unfold StreamEntry.unsent
      rw [ne_eq, List.drop_eq_nil_iff]
      omega
    have := h.pending e hget helig _ hafter hdue
    simp [StreamEntry.eligible] at this
  · rw [← Bool.not_eq_false]
    intro htakes
    have hwrites := h.writes e hget htakes _ hafter (StreamEntry.refuses_eq_false.mp htakes).2.2.1 []
    obtain ⟨x, hx⟩ := Stream.write_refused hafter (by simp [StreamEntry.refuses]) []
    rw [hx] at hwrites
    cases hwrites

/-- In all that follows a reset by the peer, up to an end, a reset or a close, the local side may
still send what it might: if and only if every such reset finds a stream with nothing to send that
takes no data. -/
theorem peerReset_keeps_iff (start : Start) (ops : List Op) :
    (∀ s s' id size code, isBidiStream id = true → start.Passes ops s →
        Moves Move (s.runCallback (.streamReset id size code)) s' → Moves Move s' (start.run ops) →
        (∀ new, s'.trace = new ++ (s.runCallback (.streamReset id size code)).trace →
          ∀ a ∈ new, a.finishes id = false) →
        s.KeepsSending s' id) ↔
      (start.run ops).trace.ResetsIdle start.conn := by
  constructor
  · intro h a t hs
    cases a with
    | callback cb =>
      cases cb with
      | streamReset id size code =>
        show (!isBidiStream id || _) = true
        cases hbidi : isBidiStream id with
        | false => rfl
        | true =>
          rcases State.moves_callback (start.run_moves ops) hs with hs | ⟨s, hbefore, rfl, hafter⟩
          · rw [show start.base.trace = [] by cases start <;> rfl] at hs
            exact absurd (List.suffix_nil.mp hs) (List.cons_ne_nil _ _)
          · have hpass : start.Passes ops s := ⟨hbefore, .head (.callback _) hafter⟩
            have hidle := (h s _ id size code hbidi hpass (.refl _) hafter fun new hnew => by
              rw [List.self_eq_append_left.mp hnew]
              exact List.forall_mem_nil _).idle
            rw [← (hpass.replayed id).entry]
            cases hget : s.conn.getStreamEntry id with
            | none => rfl
            | some e =>
              obtain ⟨helig, hrefuses⟩ := hidle e hget
              rw [hpass.conn_eq] at hrefuses
              rw [Option.all_some, helig, hrefuses]
              rfl
      | _ => rfl
    | _ => rfl
  · intro hc s s' id size code hbidi hs hafter hrest hfinishes
    have hidle : ∀ e ∈ s.conn.getStreamEntry id, e.eligible = false ∧
        e.refuses s.conn.conn id = true := by
      intro e hget
      have hact : (Act.callback (.streamReset id size code)).resetsIdle start.conn s.trace = true :=
        hc _ _ (State.moves_suffix (hafter.trans hrest))
      unfold Act.resetsIdle at hact
      simp only at hact
      rw [← (hs.replayed id).entry, hget, hbidi, Option.all_some] at hact
      rw [hs.conn_eq]
      simpa using hact
    refine ⟨fun e hget helig => ?_, fun e hget htakes => ?_, fun data hend => ?_⟩
    · rw [(hidle e hget).1] at helig
      cases helig
    · rw [(hidle e hget).2] at htakes
      cases htakes
    · exact State.moves_ends (.head (.callback _) hafter) hend

/-- A request with its FIN, and then a datagram with a reset by the peer: both stay in the entry, and
the send loop finds nothing to offer. -/
theorem peerReset_drops :
    let s := (Start.client {} none none).run [.openStream (.ok 0), .write 0 [1], .end_ 0 none]
    let s' := step s (.recv (fun _ _ => some [{ family := .inet }])
      { payload := [1], peerAddress := some { host := [49], port := 4433 }, localAddress := none }
      { callbacks := [.streamReset 0 0 7] })
    (s'.conn.entry 0).unsent = [1] ∧ (s'.conn.entry 0).finPending = true ∧
      s'.conn.pickTxStream.2 = none ∧ ¬ s.KeepsSending s' 0 := by
  refine ⟨by decide, by decide, by decide, fun h => ?_⟩
  have hpending := h.pending
    { StreamEntry.alloc 0 with txBuffer := [1], finPending := true, writable := false } (by decide)
    (by decide)
    { StreamEntry.alloc 0 with
      txBuffer := [1], finPending := true, writable := false, closed := true, reset := true }
    (by decide) (by decide)
  revert hpending
  decide

end PhpQuic
