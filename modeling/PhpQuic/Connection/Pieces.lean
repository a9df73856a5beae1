import PhpQuic.Connection.Moves

/-!
# What the calls that poll ngtcp2 are made of

Proof-only. `recv`, `onTimeout` and `drainOutgoingDatagrams` are made of callbacks, writes to the
entries, `sync_state`, writes of the last error and acts at the border. `Pieces acts R` says that the
relation `R` composes and holds of each of these, with the acts `acts`; then it holds of the calls.
So there is one walk through each method for all relations of this kind.
-/

namespace PhpQuic

/-- `R` composes and holds of what the polling calls are made of, where the acts are among `acts`. -/
structure Pieces (acts : Act → Bool) (R : State → State → Prop) : Prop where
  refl : ∀ s, R s s
  trans : ∀ {s s' s''}, R s s' → R s' s'' → R s s''
  log : ∀ s {a}, acts a = true → R s (s.log a)
  callback : ∀ s cb, R s (s.runCallback cb)
  entries : ∀ s {c}, s.conn.EntriesOnly c → R s (s.withConn c)
  sync : ∀ s p, R s (s.syncState p)
  lastError : ∀ s e, R s (s.setLastError e)

namespace Pieces

variable {acts : Act → Bool} {R : State → State → Prop} (h : Pieces acts R)

include h

theorem runCallbacks (s : State) (cbs : List Callback) : R s (s.runCallbacks cbs) := by
  induction cbs generalizing s with
  | nil => exact h.refl s
  | cons cb cbs ih => exact h.trans (h.callback s cb) (ih (s.runCallback cb))

/-! ## Receiving and timers -/

theorem recv (s : State) (g : Getaddrinfo) (d : Datagram) (a : ReadPktAnswer)
    (hread : ∀ path, acts (.readPkt path d.payload a.rv) = true)
    (hthrow : ∀ e, acts (.threw e) = true) : R s (Connection.recv s g d a).1 := by
  have hpkt (path : Path) :
      R s ((s.runCallbacks a.callbacks).log (.readPkt path d.payload a.rv)) :=
    h.trans (h.runCallbacks s _) (h.log _ (hread path))
  unfold Connection.recv
  split
  · exact h.log s (hthrow _)
  · split
    · exact h.log s (hthrow _)
    · simp only
      split
      · exact h.log s (hthrow _)
      · split
        · exact h.trans (hpkt _) (h.sync _ _)
        · split
          · exact h.trans (hpkt _) (h.sync _ _)
          · refine h.trans ?_ (h.log _ (hthrow _))
            split
            · exact h.trans (hpkt _) (h.lastError _ _)
            · exact hpkt _

theorem onTimeout (s : State) (a : ExpiryAnswer) (hexpiry : acts (.handleExpiry a.rv) = true)
    (hthrow : ∀ e, acts (.threw e) = true) : R s (Connection.onTimeout s a).1 := by
  have hexp : R s ((s.runCallbacks a.callbacks).log (.handleExpiry a.rv)) :=
    h.trans (h.runCallbacks s _) (h.log _ hexpiry)
  unfold Connection.onTimeout
  split
  · exact h.refl s
  · simp only
    split
    · exact h.trans hexp (h.sync _ _)
    · split
      · exact h.trans hexp (h.sync _ _)
      · exact h.trans (h.trans hexp (h.lastError _ _)) (h.log _ (hthrow _))

/-! ## Sending -/

/-- If `R` holds of the write to the flag, too. -/
theorem drainClose (s : State) (a : CloseAnswer)
    (hsent : ∀ s : State, R s (s.withConn { s.conn with closePacketSent := true }))
    (hwrite : ∀ ccerr, acts (.writeClose ccerr a.result a.path) = true)
    (hthrow : ∀ e, acts (.threw e) = true) (hreturn : ∀ ds, acts (.datagrams ds) = true) :
    R s (Connection.drainClose s a).1 := by
  have hwrote : R s ((s.runCallbacks a.callbacks).log
      (.writeClose s.conn.lastError a.result a.path)) :=
    h.trans (h.runCallbacks s _) (h.log _ (hwrite _))
  have hflag := h.trans hwrote (hsent _)
  unfold Connection.drainClose
  simp only
  split
  · split
    · exact h.trans (h.trans hflag (h.sync _ _)) (h.log _ (hreturn _))
    · exact h.trans hwrote (h.log _ (hthrow _))
  · exact h.trans hflag (h.log _ (hreturn _))

theorem pickOrNone (s : State) (force : Bool) : R s (Connection.pickOrNone s force).1 := by
  unfold Connection.pickOrNone
  split
  · exact h.refl s
  · refine h.entries s ?_
    unfold Connection.pickTxStream
    split
    · exact .refl _
    · exact .modifyEntry ..

theorem openIfPending (s : State) (offer : Option Offer) (rv : Except Err Int)
    (hopen : ∀ id, acts (.openPending id rv) = true) : R s (Connection.openIfPending s offer rv).1 := by
  unfold Connection.openIfPending
  cases offer with
  | none => exact h.refl s
  | some o =>
    have hlog : R s (s.log (.openPending o.streamId rv)) := h.log s (hopen o.streamId)
    simp only
    split
    · exact h.refl s
    · cases rv with
      | ok opened =>
        simp only
        split
        · exact hlog
        · exact h.trans hlog (h.entries _ (.modifyEntry ..))
      | error e =>
        by_cases he : e = .streamIdBlocked
        · subst he; exact hlog
        · simp only; exact hlog

theorem settled (s : State) (offer : Option Offer) (a : WritevAnswer)
    (hwritev : acts (.writev offer a) = true) : R s (Connection.settled s offer a) := by
  have hset : (s.runCallbacks a.callbacks).conn.EntriesOnly
      ((s.runCallbacks a.callbacks).conn.settle? offer a) := by
    cases offer with
    | none => exact .refl _
    | some o => exact Connection.settle_entriesOnly ..
  exact h.trans (h.trans (h.runCallbacks s _) (h.entries _ hset)) (h.log _ hwritev)

theorem writevStream (s : State) (offer : Option Offer) (a : IterAnswer)
    (hwritev : acts (.writev offer a.writev) = true) :
    R s (Connection.writevStream s offer a).1 := by
  have hset := h.settled s offer a.writev hwritev
  rw [Connection.writevStream_eq]
  split
  · exact hset
  · exact hset
  · exact hset
  · split
    · exact h.trans hset (h.sync _ _)
    · exact h.trans hset (h.lastError _ _)
  · split
    · exact hset
    · exact hset

variable (hopen : ∀ id rv, acts (.openPending id rv) = true)
  (hwritev : ∀ offer a, acts (.writev offer a) = true)

include hopen hwritev

theorem drainIteration (s : State) (force : Bool) (a : IterAnswer) :
    R s (Connection.drainIteration s force a).1 := by
  have hpick := h.trans (h.pickOrNone s force)
    (h.openIfPending _ (Connection.pickOrNone s force).2 a.openStream fun _ => hopen _ _)
  unfold Connection.drainIteration
  simp only
  split
  · rename_i s' e heq
    rw [heq] at hpick
    exact hpick
  · rename_i s' offer heq
    rw [heq] at hpick
    exact h.trans hpick (h.writevStream s' offer a (hwritev _ _))

theorem drainLoop (s : State) (force : Bool) (out : List Datagram) (as : List IterAnswer) :
    R s (Connection.drainLoop s force out as).1 := by
  induction as generalizing s force out with
  | nil => exact h.refl s
  | cons a as ih =>
    have hiter := h.drainIteration hopen hwritev s force a
    unfold Connection.drainLoop
    split
    · rename_i s' force' heq
      rw [heq] at hiter
      exact h.trans hiter (ih s' force' out)
    · rename_i s' heq
      rw [heq] at hiter
      exact hiter
    · rename_i s' e heq
      rw [heq] at hiter
      exact hiter
    · rename_i s' d heq
      rw [heq] at hiter
      split
      · exact hiter
      · exact h.trans hiter (ih s' false _)

/-- The packet of a close apart, which may do more. -/
theorem drainOutgoingDatagrams (s : State) (a : DrainAnswers)
    (hclose : R s (Connection.drainClose s a.close).1) (hthrow : ∀ e, acts (.threw e) = true)
    (hreturn : ∀ ds, acts (.datagrams ds) = true) :
    R s (Connection.drainOutgoingDatagrams s a).1 := by
  have hloop := h.drainLoop hopen hwritev s false [] a.loop
  unfold Connection.drainOutgoingDatagrams
  split
  · exact h.log s (hreturn _)
  · split
    · exact hclose
    · split
      · rename_i heq
        rw [heq] at hloop
        exact h.trans (h.trans hloop (h.sync _ _)) (h.log _ (hreturn _))
      · rename_i heq
        rw [heq] at hloop
        exact h.trans hloop (h.log _ (hthrow _))
      · rename_i heq
        rw [heq] at hloop
        exact hloop

end Pieces

end PhpQuic
