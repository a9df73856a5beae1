import PhpQuic.Server.Dispatch

/-!
# The events of an endpoint

An endpoint is not to lose an event: what a connection queues while it is registered is returned by
`ServerEndpoint::drainEvents`, or still waits in a registered connection (`Server.Accounted`). Each
method ends with a cleanup that drops the finished connections, whatever is in their queues, so this
is a matter of time (`Server.InTime`): the events of a connection have to be taken before it is
finished when a cleanup comes.

* `Ledger`: the books. What was drained from a connection is what the endpoint has returned of it,
  and a connection leaves the registry with nothing in its queue.
* `Stage.ledger`, `Ledger.cleanup`: the steps that keep the books.
* `endpoint_events_accounted`: the runs whose steps are in time lose nothing.
* `Ledger.late`: a step that is not in time loses an event.
-/

namespace PhpQuic

/-- The call takes events, from the endpoint or past it. -/
def ServerOp.drains : ServerOp → Bool
  | .drainEvents => true
  | o => o.drainsAside

theorem ServerOp.drainsAside_of_drains {o : ServerOp} (h : o.drains = false) :
    o.drainsAside = false := by
  cases o with
  | drainEvents => rfl
  | _ => exact h

theorem ServerOp.eq_drainEvents {o : ServerOp} (ho : o.drainsAside = false) (h : o.drains = true) :
    o = .drainEvents := by
  cases o with
  | drainEvents => rfl
  | _ => exact absurd (ho.symm.trans h) nofun

namespace Server

open ServerLog (returned leftWith)

/-- All events that a connection has queued while it was registered. -/
def queuedRegistered (w : Server) (handle : Nat) : List Event :=
  (leftWith handle w.log).getD (w.object handle).queued

/-- The events that are still queued in a registered connection. -/
def stillQueued (w : Server) (handle : Nat) : List Event :=
  if handle ∈ w.registered then (w.object handle).conn.events else []

/-- Each event that was queued in a connection while it was registered has been returned by one
`drainEvents` of the endpoint, or is still queued in the connection, which is registered. -/
def Accounted (w : Server) : Prop :=
  ∀ handle < w.objects.length,
    w.queuedRegistered handle = returned handle w.log ++ w.stillQueued handle

/-- If the call comes to its cleanup, it leaves no events behind: not in a connection that its
method finishes, and not in one that it does not touch. -/
def InTime (php : Php) (w : Server) (o : ServerOp) : Prop :=
  (w.atCleanup php o).isSome = true → ∀ handle ∈ w.registered,
    match w.dispatched o handle with
    | some o' => o'.polls = true → (w.object handle).InTime o'
    | none => (w.object handle).conn.finished = true → (w.object handle).conn.events = []

/-! ## The books -/

/-- Every connection is one that the application can have. -/
def Sound (w : Server) : Prop := ∀ i < w.objects.length, (w.object i).Reachable

/-- No registered connection is finished with events in its queue. -/
def Drained (w : Server) : Prop :=
  ∀ handle ∈ w.registered, (w.object handle).conn.finished = true → (w.object handle).conn.events = []

/-- The books: what has been drained is what was returned, a connection is registered until it
leaves, and it leaves when all that it had queued has been returned. -/
structure Ledger (w : Server) : Prop where
  drained : ∀ h < w.objects.length, (w.object h).trace.drainedEvents = returned h w.log
  fresh : ∀ h, w.objects.length ≤ h → returned h w.log = [] ∧ leftWith h w.log = none
  registered : ∀ h < w.objects.length, h ∈ w.registered ↔ leftWith h w.log = none
  left : ∀ h queued, leftWith h w.log = some queued → queued = returned h w.log

theorem Ledger.accounted {w : Server} (h : Ledger w) : w.Accounted := by
  intro handle hlt
  unfold queuedRegistered stillQueued
  by_cases hr : handle ∈ w.registered
  · rw [if_pos hr, (h.registered handle hlt).mp hr, Option.getD_none]
    unfold State.queued
    rw [h.drained handle hlt]
  · rw [if_neg hr, List.append_nil]
    cases hl : leftWith handle w.log with
    | none => exact absurd ((h.registered handle hlt).mpr hl) hr
    | some queued => exact h.left handle queued hl

/-! ### Cleanup -/

theorem mem_registered_cleanup {w : Server} {handle : Nat} :
    handle ∈ w.cleanupConnections.registered ↔
      handle ∈ w.registered ∧ (w.object handle).conn.finished = false := by
  unfold registered cleanupConnections OrdTable.filter
  simp only [List.mem_map, List.mem_filter, Bool.not_eq_true']
  constructor
  · rintro ⟨r, ⟨hr, hf⟩, rfl⟩
    exact ⟨⟨r, hr, rfl⟩, hf⟩
  · rintro ⟨⟨r, hr, rfl⟩, hf⟩
    exact ⟨r, ⟨hr, hf⟩, rfl⟩

/-- The entries of the log about connections that are removed. -/
theorem removed_log (rs : List Registered) (queued : Nat → List Event) (log : List ServerAct)
    (handle : Nat) :
    returned handle (rs.map (fun r => .removed r.handle (queued r.handle)) ++ log) =
        returned handle log ∧
      leftWith handle (rs.map (fun r => .removed r.handle (queued r.handle)) ++ log) =
        if handle ∈ rs.map Registered.handle then some (queued handle) else leftWith handle log := by
  induction rs with
  | nil => exact ⟨rfl, rfl⟩
  | cons r rs ih =>
    refine ⟨ih.1, ?_⟩
    unfold leftWith
    rw [List.map_cons, List.cons_append, List.findSome?_cons]
    by_cases hr : r.handle = handle
    · subst hr
      simp
    · have hrest := ih.2
      unfold leftWith at hrest
      simp only [if_neg hr]
      rw [hrest]
      simp only [List.map_cons, List.mem_cons, Ne.symm hr, false_or]

/-- What a cleanup adds to the books. -/
theorem cleanup_log (w : Server) (handle : Nat) :
    returned handle w.cleanupConnections.log = returned handle w.log ∧
      leftWith handle w.cleanupConnections.log =
        if handle ∈ w.registered ∧ (w.object handle).conn.finished = true then
          some (w.object handle).queued
        else leftWith handle w.log := by
  have hmem : handle ∈ (w.endpoint.connections.vals.filter fun r =>
      (w.object r.handle).conn.finished).map Registered.handle ↔
      handle ∈ w.registered ∧ (w.object handle).conn.finished = true := by
    unfold registered
    simp only [List.mem_map, List.mem_filter]
    constructor
    · rintro ⟨r, ⟨hr, hf⟩, rfl⟩
      exact ⟨⟨r, hr, rfl⟩, hf⟩
    · rintro ⟨⟨r, hr, rfl⟩, hf⟩
      exact ⟨r, ⟨hr, hf⟩, rfl⟩
  have hlog := removed_log
    (w.endpoint.connections.vals.filter fun r => (w.object r.handle).conn.finished)
    (fun i => (w.object i).queued) w.log handle
  simp only [hmem] at hlog
  exact hlog

/-- Nothing is lost in a cleanup of drained connections. -/
theorem Ledger.cleanup {w : Server} (h : Ledger w) (hd : w.Drained) :
    Ledger w.cleanupConnections := by
  refine ⟨fun i hi => ?_, fun i hi => ?_, fun i hi => ?_, fun i queued hq => ?_⟩
  · exact (h.drained i hi).trans (w.cleanup_log i).1.symm
  · refine ⟨(w.cleanup_log i).1.trans (h.fresh i hi).1, (w.cleanup_log i).2.trans ?_⟩
    rw [if_neg]
    · exact (h.fresh i hi).2
    · exact fun hi' => absurd (registered_lt hi'.1) (Nat.not_lt.mpr hi)
  · rw [mem_registered_cleanup, (w.cleanup_log i).2]
    by_cases hr : i ∈ w.registered
    · cases hf : (w.object i).conn.finished with
      | true => simp [hr]
      | false => simpa [hr] using (h.registered i hi).mp hr
    · simp only [hr, false_and, if_false, false_iff]
      exact fun hl => hr ((h.registered i hi).mpr hl)
  · rw [(w.cleanup_log i).1]
    rw [(w.cleanup_log i).2] at hq
    split at hq
    · rename_i hi
      cases hq
      unfold State.queued
      rw [hd i hi.1 hi.2, List.append_nil]
      exact h.drained i (registered_lt hi.1)
    · exact h.left i queued hq

/-! ### Stages -/

theorem object_of_le {w : Server} {i : Nat} (h : w.objects.length ≤ i) :
    w.object i = ⟨Connection.createObject, []⟩ := by
  unfold object
  rw [List.getD_eq_getElem?_getD, List.getElem?_eq_none h, Option.getD_none]

/-- A call that takes no events has none taken. -/
theorem dispatched_quiet (w : Server) {o : ServerOp} (ho : o.drains = false) (i : Nat) :
    (w.dispatched o i).any Op.drains = false := by
  have hite {p : Prop} [Decidable p] {o' : Op} (h : o'.drains = false) :
      (if p then some o' else none).any Op.drains = false := by
    split
    · exact h
    · rfl
  cases o with
  | drainEvents => cases ho
  | onConnection handle o' => exact hite ho
  | recv g d a accept => exact hite rfl
  | handleTimers a => exact hite rfl
  | drainOutgoingDatagrams a => exact hite rfl
  | drainAcceptedConnections | construct config => rfl

/-- Events are taken from registered connections. -/
theorem dispatched_drains {w : Server} {o : ServerOp} (ho : o.drainsAside = false) {i : Nat}
    (h : (w.dispatched o i).any Op.drains = true) : i ∈ w.registered := by
  cases hd : o.drains with
  | true =>
    obtain rfl := ServerOp.eq_drainEvents ho hd
    by_contra hr
    rw [show w.dispatched .drainEvents i = none from if_neg hr] at h
    cases h
  | false => rw [w.dispatched_quiet hd i] at h; cases h

/-- A call that cleans up polls the connections, or drains them. -/
theorem dispatched_polls {php : Php} {w : Server} {o : ServerOp} {i : Nat} {o' : Op}
    (hat : (w.atCleanup php o).isSome = true) (h : w.dispatched o i = some o') :
    o'.polls = true ∨ o' = .drainEvents := by
  have hite {p : Prop} [Decidable p] {o₁ : Op} (h : (if p then some o₁ else none) = some o') :
      o₁ = o' := by
    split at h
    · exact Option.some.inj h
    · cases h
  cases o with
  | recv g d a accept => exact .inl (hite h ▸ rfl)
  | handleTimers a => exact .inl (hite h ▸ rfl)
  | drainOutgoingDatagrams a => exact .inl (hite h ▸ rfl)
  | drainEvents => exact .inr (hite h).symm
  | drainAcceptedConnections | construct config | onConnection handle o => cases hat

/-- What a call takes out of a queue. -/
theorem drainedEvents_after (s : State) (o : Op) :
    (PhpQuic.step s o).trace.drainedEvents =
      s.trace.drainedEvents ++ if o.drains then s.conn.events else [] := by
  cases ho : o.drains with
  | true => cases o <;> first | rfl | cases ho
  | false => exact (step_drainedEvents s ho).trans (List.append_nil _).symm

namespace Stage

variable {w w' : Server} {o : ServerOp}

/-- An object of the endpoint behind the stage is an old one or a new one. -/
theorem old_or_new (h : Stage w w' o) {i : Nat} (hi : i < w'.objects.length) :
    i < w.objects.length ∨ i = w.objects.length ∧ w'.registered = w.registered ++ [i] ∧
      ∃ start : Start, w'.object i = start.state := by
  rcases h.registered with ⟨-, hlen⟩ | ⟨hreg, hlen, hstart⟩
  · exact .inl (hlen ▸ hi)
  · rcases Nat.lt_succ_iff_lt_or_eq.mp (hlen ▸ hi) with hlt | rfl
    · exact .inl hlt
    · exact .inr ⟨rfl, hreg, hstart⟩

theorem mem_registered (h : Stage w w' o) {i : Nat} (hi : i < w.objects.length) :
    i ∈ w'.registered ↔ i ∈ w.registered := by
  rcases h.registered with ⟨hreg, -⟩ | ⟨hreg, -⟩
  · rw [hreg]
  · rw [hreg, List.mem_append, List.mem_singleton]
    exact or_iff_left (Nat.ne_of_lt hi)

theorem sound (h : Stage w w' o) (hs : w.Sound) : w'.Sound := by
  intro i hi
  rcases h.old_or_new hi with hlt | ⟨-, -, start, hstart⟩
  · rw [h.object i hlt]
    cases w.dispatched o i with
    | none => exact hs i hlt
    | some o' => exact (hs i hlt).step o'
  · rw [hstart]; exact start.state_reachable

theorem ledger (h : Stage w w' o) (ho : o.drainsAside = false) (hl : Ledger w) : Ledger w' := by
  have hle : w.objects.length ≤ w'.objects.length := by
    rcases h.registered with ⟨-, hlen⟩ | ⟨-, hlen, -⟩ <;> omega
  -- nothing is taken from a connection that is not there yet
  have hnew {i : Nat} (hi : w.objects.length ≤ i) : ServerLog.returned i w'.log = [] := by
    rw [h.returned ho, (hl.fresh i hi).1, object_of_le hi]
    split <;> rfl
  refine ⟨fun i hi => ?_, fun i hi => ?_, fun i hi => ?_, fun i queued hq => ?_⟩
  · rcases h.old_or_new hi with hlt | ⟨rfl, -, start, hstart⟩
    · rw [h.object i hlt, h.returned ho, ← hl.drained i hlt]
      cases w.dispatched o i with
      | none => exact (List.append_nil _).symm
      | some o' => exact drainedEvents_after _ o'
    · rw [hstart, start.state_drainedEvents, hnew (Nat.le_refl _)]
  · exact ⟨hnew (hle.trans hi), (h.leftWith i).trans (hl.fresh i (hle.trans hi)).2⟩
  · rw [h.leftWith]
    rcases h.old_or_new hi with hlt | ⟨rfl, hreg, -⟩
    · rw [h.mem_registered hlt]; exact hl.registered i hlt
    · rw [hreg]
      refine iff_of_true ?_ (hl.fresh _ (Nat.le_refl _)).2
      exact List.mem_append_right _ (List.mem_singleton.mpr rfl)
  · rw [h.leftWith] at hq
    have hnot : (w.dispatched o i).any Op.drains = false := by
      refine Bool.eq_false_iff.mpr fun hd => ?_
      have hr := dispatched_drains ho hd
      rw [(hl.registered i (registered_lt hr)).mp hr] at hq
      cases hq
    rw [h.returned ho, hnot, if_neg Bool.false_ne_true, List.append_nil]
    exact hl.left i queued hq

/-- A step is in time if and only if no event is left behind when it comes to its cleanup. -/
theorem inTime_iff {php : Php} (h : Stage w w' o) (hs : w.Sound)
    (hat : w.atCleanup php o = some w') : w.InTime php o ↔ w'.Drained := by
  have hsome : (w.atCleanup php o).isSome = true := by rw [hat]; rfl
  constructor
  · intro hin handle hr hf
    rcases h.old_or_new (registered_lt hr) with hlt | ⟨-, -, start, hstart⟩
    · have hold := hin hsome handle ((h.mem_registered hlt).mp hr)
      rw [h.object handle hlt] at hf ⊢
      cases hd : w.dispatched o handle with
      | none =>
        rw [hd] at hold hf
        exact hold hf
      | some o' =>
        rw [hd] at hold hf
        rcases dispatched_polls hsome hd with hp | rfl
        · exact ((hs handle hlt).inTime_iff hp).mp (hold hp) hf
        · rfl
    · -- a new connection is open
      rw [hstart] at hf
      unfold Connection.finished at hf
      rw [start.state_open, Bool.false_and] at hf
      cases hf
  · intro hd _ handle hr
    have hlt := registered_lt hr
    have hleft := hd handle ((h.mem_registered hlt).mpr hr)
    rw [h.object handle hlt] at hleft
    cases hdis : w.dispatched o handle with
    | none =>
      rw [hdis] at hleft
      exact hleft
    | some o' =>
      rw [hdis] at hleft
      exact fun hp => ((hs handle hlt).inTime_iff hp).mpr hleft

end Stage

/-! ## Runs -/

section

variable {php : Php} {w : Server} {o : ServerOp}

/-- A step in time keeps the books. -/
theorem Ledger.step (hphp : php.accept = some ServerConnection.function) (ho : o.drainsAside = false)
    (ht : w.InTime php o) (hs : w.Sound) (h : Ledger w) :
    (w.step php o).Sound ∧ Ledger (w.step php o) := by
  obtain ⟨w', hstage, ⟨-, hstep⟩ | ⟨hat, hstep⟩⟩ := step_stage hphp w o
  · rw [hstep]
    exact ⟨hstage.sound hs, hstage.ledger ho h⟩
  · rw [hstep]
    refine ⟨hstage.sound hs, (hstage.ledger ho h).cleanup ?_⟩
    exact (hstage.inTime_iff hs hat).mp ht

/-- A step that is not in time loses an event. -/
theorem Ledger.late (hphp : php.accept = some ServerConnection.function) (ho : o.drainsAside = false)
    (ht : ¬ w.InTime php o) (hs : w.Sound) (h : Ledger w) : ¬ (w.step php o).Accounted := by
  obtain ⟨w', hstage, ⟨hat, -⟩ | ⟨hat, hstep⟩⟩ := step_stage hphp w o
  · exact absurd (fun hsome => by rw [hat] at hsome; cases hsome) ht
  · rw [hstage.inTime_iff hs hat] at ht
    have hl := hstage.ledger ho h
    intro hacc
    refine ht fun handle hr hf => ?_
    -- the connection is removed with what it has queued
    have hbooks := hacc handle (hstep ▸ (registered_lt hr : handle < w'.objects.length))
    rw [hstep] at hbooks
    have hleft := (w'.cleanup_log handle).2.trans (if_pos ⟨hr, hf⟩)
    have hgone : handle ∉ w'.cleanupConnections.registered := fun hr' => by
      rw [(mem_registered_cleanup.mp hr').2] at hf; cases hf
    unfold queuedRegistered stillQueued at hbooks
    rw [hleft, if_neg hgone, List.append_nil, (w'.cleanup_log handle).1, Option.getD_some] at hbooks
    unfold State.queued at hbooks
    rw [hl.drained handle (registered_lt hr)] at hbooks
    exact List.append_right_eq_self.mp hbooks

/-- The event waits in a registered connection. -/
def Waits (w : Server) (handle : Nat) (e : Event) : Prop :=
  handle ∈ w.registered ∧ e ∈ (w.object handle).conn.events

/-- Events wait until they are drained. -/
theorem Waits.step {handle : Nat} {e : Event} (hphp : php.accept = some ServerConnection.function)
    (ho : o.drains = false) (ht : w.InTime php o) (hs : w.Sound) (h : w.Waits handle e) :
    (w.step php o).Waits handle e := by
  have hlt := registered_lt h.1
  obtain ⟨w', hstage, hend⟩ := step_stage hphp w o
  have hwaits : w'.Waits handle e := by
    refine ⟨(hstage.mem_registered hlt).mpr h.1, ?_⟩
    rw [hstage.object handle hlt]
    have hquiet := w.dispatched_quiet ho handle
    cases hd : w.dispatched o handle with
    | none => exact h.2
    | some o' =>
      rw [hd] at hquiet
      exact (step_events_grow _ hquiet).subset h.2
  rcases hend with ⟨-, hstep⟩ | ⟨hat, hstep⟩
  · rw [hstep]; exact hwaits
  · rw [hstep]
    refine ⟨mem_registered_cleanup.mpr ⟨hwaits.1, Bool.eq_false_iff.mpr fun hf => ?_⟩, hwaits.2⟩
    have hnil := (hstage.inTime_iff hs hat).mp ht handle hwaits.1 hf
    exact List.not_mem_nil (hnil ▸ hwaits.2)

end

/-- In a run whose steps are in time, every event of a registered connection is accounted for, and
what waits is returned by the next `drainEvents`. -/
theorem endpoint_events_accounted (php : Php) (hphp : php.accept = some ServerConnection.function)
    (config : ServerConfig) (ops : List ServerOp) (haside : ∀ o ∈ ops, o.drainsAside = false)
    (htime : Runs.Along (step php) (InTime php) (new config) ops) :
    (Runs.run (step php) (new config) ops).Accounted ∧
      ∀ handle e, (Runs.run (step php) (new config) ops).Waits handle e →
        ∀ later, (∀ o ∈ later, o.drains = false) →
          Runs.Along (step php) (InTime php) (Runs.run (step php) (new config) ops) later →
          ∃ es, ((Runs.run (step php) (new config) (ops ++ later)).drainEvents php).2 = .returned es ∧
            e ∈ es := by
  have hnew : (new config).Sound ∧ Ledger (new config) := by
    refine ⟨nofun, nofun, fun _ _ => ⟨rfl, rfl⟩, nofun, nofun⟩
  have hrun := htime.run_inv (I := fun w => w.Sound ∧ Ledger w)
    (fun w o ho ht h => h.2.step hphp (haside o ho) ht h.1) hnew
  refine ⟨hrun.2.accounted, fun handle e hwaits later hquiet hlater => ?_⟩
  have hwait := hlater.run_inv (I := fun w => (w.Sound ∧ Ledger w) ∧ w.Waits handle e)
    (fun w o ho ht h => ⟨h.1.2.step hphp (ServerOp.drainsAside_of_drains (hquiet o ho)) ht h.1.1,
      h.2.step hphp (hquiet o ho) ht h.1.1⟩) ⟨hrun, hwaits⟩
  rw [← Runs.run_append] at hwait
  obtain ⟨w', -, -, heq⟩ := Stage.drainEvents php (Runs.run (step php) (new config) (ops ++ later))
  refine ⟨_, congrArg Prod.snd heq, ?_⟩
  exact List.mem_flatMap.mpr ⟨handle, hwait.2.1, hwait.2.2⟩

/-- A datagram of the peer of `firstDatagram`, with the answer of `ngtcp2_conn_read_pkt`. -/
def fromPeer (a : ReadPktAnswer) : ServerOp := .recv accepts.getaddrinfo firstDatagram a accepts

/-- A connection is accepted, its peer opens a stream, and the events are taken. -/
def openedRun : List ServerOp :=
  [fromPeer {}, fromPeer { callbacks := [.streamOpen 0] }, .drainEvents]

theorem endpoint_events_accounted_opened :
    Runs.Along (step ⟨some ServerConnection.function, true⟩)
        (InTime ⟨some ServerConnection.function, true⟩) (new someConfig) openedRun ∧
      (Runs.run (step ⟨some ServerConnection.function, true⟩) (new someConfig) openedRun).Accounted :=
  have h : Runs.Along (step ⟨some ServerConnection.function, true⟩)
      (InTime ⟨some ServerConnection.function, true⟩) (new someConfig) openedRun := by
    refine ⟨fun _ => nofun, fun _ handle hr => ?_, fun _ handle hr => ?_, trivial⟩
    · obtain rfl : handle = 0 := List.mem_singleton.mp hr
      exact fun _ => ⟨fun _ => by decide, nofun⟩
    · obtain rfl : handle = 0 := List.mem_singleton.mp hr
      exact nofun
  ⟨h, (endpoint_events_accounted _ rfl someConfig openedRun (by decide) h).1⟩

/-- A peer that closes: `recv` queues the events and drops the connection. -/
theorem endpoint_loses_close :
    ¬ ∀ (php : Php) (config : ServerConfig) (ops : List ServerOp),
      php.accept = some ServerConnection.function → (∀ o ∈ ops, o.drainsAside = false) →
      (Runs.run (step php) (new config) ops).Accounted := by
  intro h
  have hbad := h ⟨some ServerConnection.function, true⟩ someConfig
    [fromPeer {}, fromPeer { rv := some .draining, periods := { inDraining := true } }] rfl
    (by decide) 0 (by decide)
  revert hbad
  decide

end Server

end PhpQuic
