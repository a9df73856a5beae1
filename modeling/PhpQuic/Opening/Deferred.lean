import PhpQuic.Opening.Ids

/-!
# Whether a deferred open gets the promised id

The send loop opens a pending stream when the stream has something to send. The id that ngtcp2 then
assigns is the promised one exactly when ngtcp2 has already assigned every smaller id of the kind
that was promised (`deferred_opens_iff`). Two blocked opens of which only the second one sends get the
first one's id (`mismatch_reachable`).

* `PendingInv`: in a run without a mismatch the pending streams wait for ids that their desk has
  promised and not reached, and the desk only redeems promises.
-/

namespace PhpQuic

open Runs (Moves)

/-- The promised id and the assigned one of a pending stream that ngtcp2 opened. -/
def Act.redeems : Act → Option (Int × Int)
  | .openPending id (.ok opened) => some (id, opened)
  | _ => none

theorem Act.redeems_eq_none {a : Act} (h : a.aboutIds = false) : a.redeems = none := by
  cases a with
  | openPending id rv => cases rv <;> simp_all [Act.aboutIds, Act.redeems]
  | _ => rfl

namespace Trace

/-- Every pending stream was opened with the id that it was promised. -/
def NoMismatch : Trace → Prop :=
  History.Each fun a _ => ∀ p ∈ a.redeems, p.2 = p.1

/-- A pending stream is opened only when ngtcp2 has assigned the smaller ids of the kind that were
promised. -/
def RedeemedInOrder : Trace → Prop :=
  History.Each fun a t => ∀ p ∈ a.redeems, ∀ i ∈ Trace.promised (isBidiStream p.1) t, i < p.1 →
    i ∈ Trace.assigned (isBidiStream p.1) t

instance (t : Trace) : Decidable (NoMismatch t) := inferInstanceAs (Decidable (History.Each _ t))

instance (t : Trace) : Decidable (RedeemedInOrder t) :=
  inferInstanceAs (Decidable (History.Each _ t))

variable {a : Act} {t : Trace} {id opened : Int}

theorem noMismatch_cons (h : a.redeems = none) : NoMismatch (a :: t) ↔ NoMismatch t := by
  refine History.each_cons.trans (and_iff_right ?_)
  rw [h]
  rintro p ⟨⟩

theorem noMismatch_opened :
    NoMismatch (.openPending id (.ok opened) :: t) ↔ opened = id ∧ NoMismatch t := by
  refine History.each_cons.trans (and_congr_left' ⟨fun hall => hall _ rfl, ?_⟩)
  rintro heq _ ⟨⟩
  exact heq

theorem redeemedInOrder_cons (h : a.redeems = none) :
    RedeemedInOrder (a :: t) ↔ RedeemedInOrder t := by
  refine History.each_cons.trans (and_iff_right ?_)
  rw [h]
  rintro p ⟨⟩

theorem redeemedInOrder_opened : RedeemedInOrder (.openPending id (.ok opened) :: t) ↔
    (∀ i ∈ t.promised (isBidiStream id), i < id → i ∈ t.assigned (isBidiStream id)) ∧
      RedeemedInOrder t := by
  refine History.each_cons.trans (and_congr_left' ⟨fun hall => hall _ rfl, ?_⟩)
  rintro hall _ ⟨⟩
  exact hall

theorem redeems_append {as : List Act} (h : ∀ a ∈ as, a.aboutIds = false) :
    (NoMismatch (as ++ t) ↔ NoMismatch t) ∧ (RedeemedInOrder (as ++ t) ↔ RedeemedInOrder t) := by
  induction as with
  | nil => exact ⟨Iff.rfl, Iff.rfl⟩
  | cons a as ih =>
    have ha := Act.redeems_eq_none (h a List.mem_cons_self)
    obtain ⟨hm, ho⟩ := ih fun b hb => h b (List.mem_cons_of_mem a hb)
    exact ⟨(noMismatch_cons ha).trans hm, (redeemedInOrder_cons ha).trans ho⟩

end Trace

/-- The stream `id` waits for a ticket that its desk has promised and not reached. -/
def Waits (role : Role) (t : Trace) (id : Int) : Prop :=
  ∃ b k, id = ticketId role b k ∧ k ∈ Tickets.promised (t.tickets b) ∧
    Tickets.granted (t.tickets b) ≤ k

/-- The pending streams wait, and no desk has redeemed but promises. -/
structure PendingInv (role : Role) (c : Connection) (t : Trace) : Prop where
  waits : ∀ id, (c.entry id).pendingOpen = true → Waits role t id
  redeems : ∀ b, History.Each
    (fun a h => a = Tickets.Act.redeem → Tickets.granted h ∈ Tickets.promised h) (t.tickets b)

namespace PendingInv

variable {role : Role} {c c' : Connection} {t t' : Trace}

/-- A wait goes on when the promises stay and the desk of its kind has not reached its ticket. -/
theorem waits_step {id : Int} (h : Waits role t id)
    (hprom : ∀ b k, k ∈ Tickets.promised (t.tickets b) → k ∈ Tickets.promised (t'.tickets b))
    (hgrant : ∀ b, Tickets.granted (t'.tickets b) = Tickets.granted (t.tickets b) ∨
      id ≠ ticketId role b (Tickets.granted (t.tickets b)) ∧
        Tickets.granted (t'.tickets b) = Tickets.granted (t.tickets b) + 1) : Waits role t' id := by
  obtain ⟨b, k, rfl, hk, hg⟩ := h
  refine ⟨b, k, rfl, hprom b k hk, ?_⟩
  rcases hgrant b with heq | ⟨hne, heq⟩
  · omega
  · have : k ≠ Tickets.granted (t.tickets b) := fun hkg => hne (by rw [hkg])
    omega

theorem step (hstep : IdStep c t c' t') (hcons : t'.Consecutive role)
    (hid : IdInv role c t) (hm : t'.NoMismatch) (h : PendingInv role c t) :
    PendingInv role c' t' := by
  cases hstep with
  | other as has hid hpending =>
    have ht : ∀ b, Trace.tickets b (as ++ t) = t.tickets b := fun b => (Trace.ids_append b has t).2.2.2
    refine ⟨fun id hp => ?_, fun b => ?_⟩
    · obtain ⟨b, k, rfl, hk, hg⟩ := h.waits id (hpending id hp)
      exact ⟨b, k, rfl, by rw [ht]; exact hk, by rw [ht]; exact hg⟩
    · rw [ht]; exact h.redeems b
  | opened b id hid' hpending =>
    have hgranted : id = ticketId role b (Tickets.granted (t.tickets b)) := by
      rw [← (hid b).length_assigned]
      exact (History.each_cons.mp (History.each_cons.mp hcons).2).1 (b, id) rfl
    refine ⟨fun i hp => ?_, fun b' => ?_⟩
    · obtain ⟨hne, hp⟩ := hpending i hp
      refine waits_step (h.waits i hp) (fun b' k hk => ?_) fun b' => ?_
      all_goals simp only [Trace.tickets]
      · split
        · exact hk
        · exact hk
      · split
        · rename_i heq; subst heq
          exact .inr ⟨by rw [← hgranted]; exact hne, rfl⟩
        · exact .inl rfl
    · simp only [Trace.tickets]
      split
      · exact History.each_cons.mpr ⟨nofun, h.redeems b'⟩
      · exact h.redeems b'
  | blocked b e hid' hpending =>
    refine ⟨fun i hp => ?_, fun b' => ?_⟩
    · rcases hpending i hp with rfl | hp
      · -- the new promise: no desk is ahead of its promises
        refine ⟨b, Tickets.next (t.tickets b), (hid b).counter, ?_, ?_⟩
        all_goals simp only [Trace.tickets, ↓reduceIte]
        · exact List.mem_cons_self
        · exact Tickets.granted_le_next (h.redeems b)
      · refine waits_step (h.waits i hp) (fun b' k hk => ?_) fun b' => .inl ?_
        all_goals simp only [Trace.tickets]
        · split
          · exact List.mem_cons_of_mem _ hk
          · exact hk
        · split <;> rfl
    · simp only [Trace.tickets]
      split
      · exact History.each_cons.mpr ⟨nofun, h.redeems b'⟩
      · exact h.redeems b'
  | matched id hid' hp hpending =>
    have hgranted : ∀ b, isBidiStream id = b →
        id = ticketId role b (Tickets.granted (t.tickets b)) := by
      rintro b rfl
      rw [← (hid _).length_assigned]
      exact (History.each_cons.mp hcons).1 (isBidiStream id, id) rfl
    refine ⟨fun i hp => ?_, fun b => ?_⟩
    · obtain ⟨hne, hp⟩ := hpending i hp
      refine waits_step (h.waits i hp) (fun b' k hk => ?_) fun b' => ?_
      all_goals simp only [Trace.tickets]
      · split
        · exact hk
        · exact hk
      · split
        · rename_i heq
          exact .inr ⟨by rw [← hgranted b' heq]; exact hne, rfl⟩
        · exact .inl rfl
    · simp only [Trace.tickets]
      split
      · rename_i heq
        refine History.each_cons.mpr ⟨fun _ => ?_, h.redeems b⟩
        obtain ⟨b', k, hid'', hk, -⟩ := h.waits id hp
        have hb : b' = b := by rw [← heq, hid'', isBidiStream_ticketId]
        subst hb
        have hkg : k = Tickets.granted (t.tickets b') :=
          ticketId_inj.mp (hid''.symm.trans (hgranted b' heq))
        rw [← hkg]; exact hk
      · exact h.redeems b
  | mismatched id opened hp hne => exact absurd (Trace.noMismatch_opened.mp hm).1 hne

end PendingInv

/-- A waiting stream gets its id if and only if the smaller promises of its kind are assigned. -/
theorem Waits.matches_iff {role : Role} {c : Connection} {t : Trace} {id opened : Int}
    (h : Waits role t id) (hid : IdInv role c t)
    (hopened : opened = ticketId role (isBidiStream id) (t.assigned (isBidiStream id)).length) :
    opened = id ↔
      ∀ i ∈ t.promised (isBidiStream id), i < id → i ∈ t.assigned (isBidiStream id) := by
  obtain ⟨b, k, rfl, hk, hg⟩ := h
  rw [isBidiStream_ticketId] at hopened ⊢
  rw [(hid b).length_assigned] at hopened
  rw [(hid b).all_assigned_iff fun i => i < ticketId role b k, hopened, ticketId_inj,
    Tickets.granted_eq_iff hk hg]
  have hlt : ∀ j, ticketId role b j < ticketId role b k ↔ j < k := by
    intro j; unfold ticketId; omega
  simp only [hlt]

/-- The order of the deferred opens decides about the next mismatch, as it did about the others. -/
theorem noMismatch_step {role : Role} {c c' : Connection} {t t' : Trace} (hstep : IdStep c t c' t')
    (hcons : t'.Consecutive role) (hid : IdInv role c t) (hiff : t.NoMismatch ↔ t.RedeemedInOrder)
    (hp : t.NoMismatch → PendingInv role c t) : t'.NoMismatch ↔ t'.RedeemedInOrder := by
  have hdeferred : ∀ id opened, (c.entry id).pendingOpen = true →
      Trace.Consecutive role (.openPending id (.ok opened) :: t) →
      (Trace.NoMismatch (.openPending id (.ok opened) :: t) ↔
        Trace.RedeemedInOrder (.openPending id (.ok opened) :: t)) := by
    intro id opened hpend hcons
    rw [Trace.noMismatch_opened, Trace.redeemedInOrder_opened, ← hiff]
    refine and_congr_left fun hm => ?_
    exact ((hp hm).waits id hpend).matches_iff hid
      ((History.each_cons.mp hcons).1 (isBidiStream id, opened) rfl)
  cases hstep with
  | other as has hid' hpending =>
    rw [(Trace.redeems_append has).1, (Trace.redeems_append has).2]
    exact hiff
  | opened b id hid' hpending =>
    rw [Trace.noMismatch_cons rfl, Trace.noMismatch_cons rfl, Trace.redeemedInOrder_cons rfl,
      Trace.redeemedInOrder_cons rfl]
    exact hiff
  | blocked b e hid' hpending =>
    rw [Trace.noMismatch_cons rfl, Trace.noMismatch_cons rfl, Trace.redeemedInOrder_cons rfl,
      Trace.redeemedInOrder_cons rfl]
    exact hiff
  | matched id hid' hpend hpending => exact hdeferred id id hpend hcons
  | mismatched id opened hpend hne => exact hdeferred id opened hpend hcons

/-- The exception about a mismatch comes behind a mismatch only. -/
def Trace.ThrowsMismatched : Trace → Prop :=
  History.Each fun a t => ∀ id opened, a = .threw (.streamIdMismatch id opened) →
    opened ≠ id ∧ .openPending id (.ok opened) ∈ t

theorem Move.throwsMismatched {s s' : State} (h : Move s s') (ht : s.trace.ThrowsMismatched) :
    s'.trace.ThrowsMismatched := by
  cases h with
  | quiet a ha =>
    refine History.each_cons.mpr ⟨?_, ht⟩
    rintro id opened rfl
    cases ha
  | threw e he =>
    refine History.each_cons.mpr ⟨?_, ht⟩
    rintro id opened ⟨⟩
    exact he id opened rfl
  | opened b id hconn => exact History.each_cons.mpr ⟨nofun, History.each_cons.mpr ⟨nofun, ht⟩⟩
  | blocked b hconn => exact History.each_cons.mpr ⟨nofun, History.each_cons.mpr ⟨nofun, ht⟩⟩
  | clamp | lastError | closeSent => exact ht
  | sync p =>
    rcases s.syncState_trace p with heq | heq
    · rw [heq]; exact ht
    · rw [heq]; exact History.each_cons.mpr ⟨nofun, ht⟩
  | close code reason hopen => rw [Connection.close_trace]; exact ht
  | _ => exact History.each_cons.mpr ⟨nofun, ht⟩

/-- Without a mismatch there is no exception about one. -/
theorem Trace.ThrowsMismatched.notMem {t : Trace} (ht : t.ThrowsMismatched) (hm : t.NoMismatch)
    (id opened : Int) : .threw (.streamIdMismatch id opened) ∉ t := by
  intro hmem
  obtain ⟨after, before, rfl⟩ := List.append_of_mem hmem
  obtain ⟨hne, hopen⟩ := ht _ before (List.suffix_append _ _) id opened rfl
  obtain ⟨after', before', rfl⟩ := List.append_of_mem hopen
  have hsuf : Act.openPending id (.ok opened) :: before' <:+
      after ++ .threw (.streamIdMismatch id opened) :: (after' ++ .openPending id (.ok opened) :: before') :=
    (List.suffix_append after' _).trans ((List.suffix_cons _ _).trans (List.suffix_append after _))
  exact hne (hm _ before' hsuf (id, opened) rfl)

/-- Every deferred open of a run gets the promised id, and no drain throws about it, if and only if
each comes behind those of the smaller ids of its kind that were promised. -/
theorem deferred_opens_iff (start : Start) (ops : List Op)
    (hcons : (start.run ops).trace.Consecutive start.role) :
    ((start.run ops).trace.NoMismatch ∧
        ∀ id opened, .threw (.streamIdMismatch id opened) ∉ (start.run ops).trace) ↔
      (start.run ops).trace.RedeemedInOrder := by
  have htrace : start.base.trace = [] := by cases start <;> rfl
  have hbase : (start.base.trace.NoMismatch ↔ start.base.trace.RedeemedInOrder) ∧
      (start.base.trace.NoMismatch → PendingInv start.role start.base.conn start.base.trace) := by
    have hentry : ∀ id, start.base.conn.entry id = .alloc id := by
      intro id; cases start <;> rfl
    rw [htrace]
    refine ⟨iff_of_true History.each_nil History.each_nil, fun _ => ⟨fun id h => ?_, fun b => ?_⟩⟩
    · rw [hentry id] at h; cases h
    · exact History.each_nil
  obtain ⟨-, hiff, -⟩ := start.run_inv_ids (P := fun _ _ => True)
    (I := fun s => (s.trace.NoMismatch ↔ s.trace.RedeemedInOrder) ∧
      (s.trace.NoMismatch → PendingInv start.role s.conn s.trace))
    (fun s s' hm hcons _ hid hi => ⟨noMismatch_step hm.idStep hcons hid hi.1 hi.2, fun hno =>
      (hi.2 (hno.of_suffix hm.trace_suffix)).step hm.idStep hcons hid hno⟩)
    ops hcons (fun _ _ _ => trivial) hbase
  have hthrows : (start.run ops).trace.ThrowsMismatched :=
    Moves.inv' (I := fun s => s.trace.ThrowsMismatched) (fun _ _ hm => hm.throwsMismatched)
      (start.run_moves ops) (by rw [htrace]; exact History.each_nil)
  rw [← hiff]
  exact ⟨fun h => h.1, fun h => ⟨h, hthrows.notMem h⟩⟩

/-- Two blocked opens, of which the streams in `writers` get a byte to send before ngtcp2 opens one
for each answer of `drains`. -/
def twoBlocked (writers : List Int) (drains : List Int) : List Op :=
  [.openStream (.error .streamIdBlocked), .openStream (.error .streamIdBlocked)] ++
    writers.map (fun id => .write id [1]) ++
    [.drainOutgoingDatagrams { loop := drains.map fun id =>
      { openStream := .ok id, writev := { result := .ok [7], wdatalen := 1 } } }]

theorem deferred_opens_iff_twoBlocked :
    let s := (Start.client {} none none).run (twoBlocked [0, 4] [0, 4])
    s.trace.Consecutive .client ∧
      ((s.trace.NoMismatch ∧ ∀ id opened, .threw (.streamIdMismatch id opened) ∉ s.trace) ↔
        s.trace.RedeemedInOrder) ∧ s.trace.assigned true = [4, 0] :=
  have h : ((Start.client {} none none).run (twoBlocked [0, 4] [0, 4])).trace.Consecutive
    (Start.client {} none none).role := by decide
  ⟨h, deferred_opens_iff _ _ h, by decide⟩

/-- The second of two blocked opens is the only one to send, and ngtcp2 gives it the first id: the
drain throws. -/
theorem mismatch_reachable :
    ¬ ∀ (start : Start) (ops : List Op), (start.run ops).trace.Consecutive start.role →
      (start.run ops).trace.NoMismatch ∧
        ∀ id opened, .threw (.streamIdMismatch id opened) ∉ (start.run ops).trace := by
  intro h
  obtain ⟨-, hbad⟩ := h (.client {} none none) (twoBlocked [4] [0]) (by decide)
  exact hbad 4 0 (by decide)

end PhpQuic
