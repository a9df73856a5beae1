import PhpQuic.Connection.Moves
import PhpQuic.Lib.Tickets

/-!
# The ids of the streams that a connection opens

Two parties choose the ids: ngtcp2, which gives the ids of a kind in their order, and the extension,
which promises an id of its own when ngtcp2's answer is `STREAM_ID_BLOCKED`. Each kind is a desk of
`PhpQuic/Lib/Tickets.lean`: ticket `k` is the id `firstStreamId role bidi + 4 * k`.

* `returned`, `promised`, `assigned`: the ids that the application got, those of them that were
  promised, and those that ngtcp2 assigned, of one kind.
* `Trace.Consecutive`: what ngtcp2 documents of the ids that it assigns.
* `Trace.tickets bidi t`: the history as the desk of the kind sees it. `IdInv` says that the desk
  accounts for the counter and for the three lists; it holds in every run (`Start.run_inv_ids`).
-/

namespace PhpQuic

open Runs (Moves)

/-- The first id of the kind for streams that the side opens. -/
def firstStreamId (role : Role) (bidi : Bool) : Int :=
  (if bidi then 0 else 2) + (if role = .server then 1 else 0)

/-- The id of the ticket `k`. -/
def ticketId (role : Role) (bidi : Bool) (k : Nat) : Int := firstStreamId role bidi + 4 * k

theorem isBidiStream_ticketId (role : Role) (bidi : Bool) (k : Nat) :
    isBidiStream (ticketId role bidi k) = bidi := by
  unfold isBidiStream ticketId firstStreamId
  cases role <;> cases bidi <;> simp

theorem ticketId_inj {role : Role} {bidi : Bool} {j k : Nat} :
    ticketId role bidi j = ticketId role bidi k ↔ j = k := by
  unfold ticketId; omega

/-- The kind and the id of a stream that ngtcp2 opened. -/
def Act.assigns : Act → Option (Bool × Int)
  | .openLocal bidi (.ok id) => some (bidi, id)
  | .openPending promised (.ok id) => some (isBidiStream promised, id)
  | _ => none

namespace Trace

/-- The ids of the streams that the application got, of one kind. -/
def returned (bidi : Bool) : Trace → List Int
  | [] => []
  | .returned b id _ :: t => if b = bidi then id :: returned bidi t else returned bidi t
  | _ :: t => returned bidi t

/-- Those of them whose open was blocked. -/
def promised (bidi : Bool) : Trace → List Int
  | [] => []
  | .returned b id true :: t => if b = bidi then id :: promised bidi t else promised bidi t
  | _ :: t => promised bidi t

/-- The ids that ngtcp2 assigned, of one kind. -/
def assigned (bidi : Bool) : Trace → List Int
  | [] => []
  | a :: t =>
    match a.assigns with
    | some (b, id) => if b = bidi then id :: assigned bidi t else assigned bidi t
    | none => assigned bidi t

/-- ngtcp2 assigns the ids of a kind one after the other. -/
def Consecutive (role : Role) : Trace → Prop :=
  History.Each fun a t => ∀ p ∈ a.assigns, p.2 = ticketId role p.1 (Trace.assigned p.1 t).length

instance (role : Role) (t : Trace) : Decidable (Consecutive role t) :=
  inferInstanceAs (Decidable (History.Each _ t))

/-- The history as the desk of a kind sees it. -/
def tickets (bidi : Bool) : Trace → List Tickets.Act
  | [] => []
  | .openLocal b (.ok _) :: t => if b = bidi then .grant :: tickets bidi t else tickets bidi t
  | .openPending id (.ok _) :: t =>
    if isBidiStream id = bidi then .redeem :: tickets bidi t else tickets bidi t
  | .returned b _ true :: t => if b = bidi then .promise :: tickets bidi t else tickets bidi t
  | _ :: t => tickets bidi t

end Trace

/-- The act is about an id. -/
def Act.aboutIds : Act → Bool
  | .openLocal _ (.ok _) | .openPending _ (.ok _) | .returned .. => true
  | _ => false

namespace Trace

variable {a : Act}

theorem ids_cons (bidi : Bool) (h : a.aboutIds = false) (t : Trace) :
    returned bidi (a :: t) = returned bidi t ∧ promised bidi (a :: t) = promised bidi t ∧
      assigned bidi (a :: t) = assigned bidi t ∧ tickets bidi (a :: t) = tickets bidi t := by
  cases a with
  | openLocal b rv =>
    cases rv with
    | ok id => simp [Act.aboutIds] at h
    | error e => exact ⟨rfl, rfl, rfl, rfl⟩
  | openPending id rv =>
    cases rv with
    | ok id => simp [Act.aboutIds] at h
    | error e => exact ⟨rfl, rfl, rfl, rfl⟩
  | returned b id p => simp [Act.aboutIds] at h
  | _ => exact ⟨rfl, rfl, rfl, rfl⟩

theorem ids_append (bidi : Bool) {as : List Act} (h : ∀ a ∈ as, a.aboutIds = false) (t : Trace) :
    returned bidi (as ++ t) = returned bidi t ∧ promised bidi (as ++ t) = promised bidi t ∧
      assigned bidi (as ++ t) = assigned bidi t ∧ tickets bidi (as ++ t) = tickets bidi t := by
  induction as with
  | nil => exact ⟨rfl, rfl, rfl, rfl⟩
  | cons a as ih =>
    obtain ⟨hr, hp, ha, ht⟩ := ih fun b hb => h b (List.mem_cons_of_mem a hb)
    obtain ⟨hr', hp', ha', ht'⟩ := ids_cons bidi (h a List.mem_cons_self) (as ++ t)
    exact ⟨hr'.trans hr, hp'.trans hp, ha'.trans ha, ht'.trans ht⟩

end Trace

/-! ## The counters -/

namespace Connection

variable {c : Connection} {bidi : Bool}

/-- Whose end the connection is. -/
def role (c : Connection) : Role := c.conn.getD .client

/-- The id that a blocked open would be promised. -/
def promisedId (c : Connection) (bidi : Bool) : Int := (c.ensureNextStreamId bidi).nextStreamId bidi

theorem minimumStreamId_eq (c : Connection) (bidi : Bool) :
    c.minimumStreamId bidi = firstStreamId c.role bidi := by
  unfold minimumStreamId firstStreamId role
  cases c.conn with
  | none => cases bidi <;> rfl
  | some r => cases r <;> cases bidi <;> rfl

theorem nextStreamId_set (c : Connection) (b bidi : Bool) (id : Int) :
    (c.setNextStreamId b id).nextStreamId bidi = if bidi = b then id else c.nextStreamId bidi := by
  cases b <;> cases bidi <;> rfl

theorem role_set (c : Connection) (b : Bool) (id : Int) : (c.setNextStreamId b id).role = c.role := by
  cases b <;> rfl

theorem promisedId_eq (c : Connection) (bidi : Bool) : c.promisedId bidi =
    if c.nextStreamId bidi < firstStreamId c.role bidi ∨
        c.nextStreamId bidi % 4 ≠ firstStreamId c.role bidi % 4 then firstStreamId c.role bidi
    else c.nextStreamId bidi := by
  unfold promisedId ensureNextStreamId
  rw [minimumStreamId_eq]
  split
  · rw [nextStreamId_set, if_pos rfl]
  · rfl

theorem promisedId_keep {c' : Connection} (hconn : c'.conn = c.conn)
    (hbidi : c'.nextBidiStreamId = c.nextBidiStreamId)
    (huni : c'.nextUniStreamId = c.nextUniStreamId) (bidi : Bool) :
    c'.promisedId bidi = c.promisedId bidi := by
  have hrole : c'.role = c.role := by unfold role; rw [hconn]
  have hnext : c'.nextStreamId bidi = c.nextStreamId bidi := by
    cases bidi
    · exact huni
    · exact hbidi
  rw [promisedId_eq, promisedId_eq, hrole, hnext]

/-- A promise is an id of its class. -/
theorem promisedId_class (c : Connection) (bidi : Bool) :
    firstStreamId c.role bidi ≤ c.promisedId bidi ∧
      c.promisedId bidi % 4 = firstStreamId c.role bidi % 4 := by
  rw [promisedId_eq]
  split <;> omega

theorem role_ensure (c : Connection) (b : Bool) : (c.ensureNextStreamId b).role = c.role := by
  unfold ensureNextStreamId
  split
  · exact role_set ..
  · rfl

theorem promisedId_ensure (c : Connection) (b bidi : Bool) :
    (c.ensureNextStreamId b).promisedId bidi = c.promisedId bidi := by
  have hrole := c.role_ensure b
  by_cases hb : bidi = b
  · subst hb
    have h := c.promisedId_class bidi
    rw [promisedId_eq, hrole]
    change (if c.promisedId bidi < _ ∨ c.promisedId bidi % 4 ≠ _ then _ else c.promisedId bidi) = _
    rw [if_neg (by omega)]
  · refine (promisedId_eq _ _).trans ((promisedId_eq c bidi).symm ▸ ?_)
    have hnext : (c.ensureNextStreamId b).nextStreamId bidi = c.nextStreamId bidi := by
      unfold ensureNextStreamId
      split
      · rw [nextStreamId_set, if_neg hb]
      · rfl
    rw [hrole, hnext]

/-- A counter that is set to an id of its class promises it. -/
theorem promisedId_set (c : Connection) (b : Bool) {id : Int} (hle : firstStreamId c.role b ≤ id)
    (hmod : id % 4 = firstStreamId c.role b % 4) (bidi : Bool) :
    (c.setNextStreamId b id).promisedId bidi = if bidi = b then id else c.promisedId bidi := by
  rw [promisedId_eq, role_set, nextStreamId_set]
  by_cases hb : bidi = b
  · subst hb
    rw [if_pos rfl, if_pos rfl, if_neg (by omega)]
  · rw [if_neg hb, if_neg hb, promisedId_eq]

/-- A blocked open promises the next id of the kind. -/
theorem assignStreamId_blocked (c : Connection) (b : Bool) (e : Err) :
    (c.assignStreamId b (.error e)).2 = c.promisedId b ∧
      ∀ bidi, (c.assignStreamId b (.error e)).1.promisedId bidi =
        if bidi = b then c.promisedId b + 4 else c.promisedId bidi := by
  refine ⟨rfl, fun bidi => ?_⟩
  have h := (c.ensureNextStreamId b).promisedId_class b
  rw [promisedId_ensure] at h
  have hset := (c.ensureNextStreamId b).promisedId_set b (show _ ≤ c.promisedId b + 4 by omega)
    (by omega) bidi
  rw [promisedId_ensure] at hset
  exact hset

/-- The counter follows an id that it has not passed. -/
theorem assignStreamId_opened (c : Connection) (b : Bool) {id : Int}
    (hle : firstStreamId c.role b ≤ id) (hmod : id % 4 = firstStreamId c.role b % 4) (bidi : Bool) :
    (c.assignStreamId b (.ok id)).1.promisedId bidi =
      if bidi = b then (if id ≥ c.promisedId b then id + 4 else c.promisedId b)
      else c.promisedId bidi := by
  show (if id ≥ c.promisedId b then (c.ensureNextStreamId b).setNextStreamId b (id + 4)
    else c.ensureNextStreamId b).promisedId bidi = _
  rw [← c.role_ensure b] at hle hmod
  split
  · rw [promisedId_set _ b (by omega) (by omega), promisedId_ensure]
  · rw [promisedId_ensure]
    split
    · rename_i hb; rw [hb]
    · rfl

end Connection

/-! ## One move, as the desks see it -/

/-- What a move means for the ids: nothing, a stream that ngtcp2 opened, a blocked open, or a pending
stream that ngtcp2 opened. -/
inductive IdStep (c : Connection) (t : Trace) : Connection → Trace → Prop
  | other {c' : Connection} (as : List Act) (has : ∀ a ∈ as, a.aboutIds = false)
    (hid : ∀ bidi, c'.promisedId bidi = c.promisedId bidi)
    (hpending : ∀ id, (c'.entry id).pendingOpen = true → (c.entry id).pendingOpen = true) :
    IdStep c t c' (as ++ t)
  | opened {c' : Connection} (b : Bool) (id : Int)
    (hid : ∀ bidi, c'.promisedId bidi = (c.assignStreamId b (.ok id)).1.promisedId bidi)
    (hpending : ∀ i, (c'.entry i).pendingOpen = true → i ≠ id ∧ (c.entry i).pendingOpen = true) :
    IdStep c t c' (.returned b id false :: .openLocal b (.ok id) :: t)
  | blocked {c' : Connection} (b : Bool) (e : Err)
    (hid : ∀ bidi, c'.promisedId bidi = (c.assignStreamId b (.error e)).1.promisedId bidi)
    (hpending : ∀ i, (c'.entry i).pendingOpen = true →
      i = c.promisedId b ∨ (c.entry i).pendingOpen = true) :
    IdStep c t c' (.returned b (c.promisedId b) true :: .openLocal b (.error e) :: t)
  | matched {c' : Connection} (id : Int) (hid : ∀ bidi, c'.promisedId bidi = c.promisedId bidi)
    (hp : (c.entry id).pendingOpen = true)
    (hpending : ∀ i, (c'.entry i).pendingOpen = true → i ≠ id ∧ (c.entry i).pendingOpen = true) :
    IdStep c t c' (.openPending id (.ok id) :: t)
  | mismatched (id opened : Int) (hp : (c.entry id).pendingOpen = true) (hne : opened ≠ id) :
    IdStep c t c (.openPending id (.ok opened) :: t)

namespace Connection

variable {c c' : Connection}

theorem EntriesOnly.promisedId (h : EntriesOnly c c') (bidi : Bool) :
    c'.promisedId bidi = c.promisedId bidi := by
  obtain ⟨_, _, hc, -⟩ := h
  exact promisedId_keep (by rw [hc]) (by rw [hc]) (by rw [hc]) bidi

theorem settle_pendingOpen (c : Connection) {o : Offer} (h : c.hasEntry o.streamId)
    (a : WritevAnswer) (id : Int) :
    ((c.settle o a).entry id).pendingOpen = (c.entry id).pendingOpen := by
  rw [entry_settle h]
  split
  · rename_i hid
    obtain ⟨_, _, _, _, _, hanswer⟩ := StreamEntry.answer_rest o a (c.entry o.streamId)
    rw [hid, hanswer]
  · rfl

/-- The entry of an opened stream is pending or not as the open says; no other changes. -/
theorem enterStream_pendingOpen (c : Connection) (i : Int) (pending : Bool) (id : Int) :
    ((c.enterStream i pending).entry id).pendingOpen =
      if id = i then pending else (c.entry id).pendingOpen := by
  unfold enterStream
  simp only [entry_pushEvent]
  rw [entry_openModify]
  split <;> rfl

theorem returnStream_entry (s : State) (b : Bool) (rv : Except Err Int) (pending : Bool) (id : Int) :
    ((returnStream s b rv pending).1.conn.entry id).pendingOpen =
      if id = (s.conn.assignStreamId b rv).2 then pending else (s.conn.entry id).pendingOpen := by
  obtain ⟨_, _, hc⟩ := s.conn.assignStreamId_rest b rv
  have he : (s.conn.assignStreamId b rv).1.entry id = s.conn.entry id :=
    entry_congr (by rw [hc]) id
  rw [← he]
  exact enterStream_pendingOpen ..

theorem returnStream_promisedId (s : State) (b : Bool) (rv : Except Err Int) (pending : Bool)
    (bidi : Bool) : (returnStream s b rv pending).1.conn.promisedId bidi =
      (s.conn.assignStreamId b rv).1.promisedId bidi :=
  (enterStream_entriesOnly ..).promisedId bidi

end Connection

theorem Act.aboutIds_of_quiet {a : Act} (h : a.quiet = true) : a.aboutIds = false := by
  cases a with
  | openLocal b rv => cases rv <;> simp_all [Act.quiet, Act.aboutIds]
  | openPending id rv => cases rv <;> simp_all [Act.quiet, Act.aboutIds]
  | returned b id p => simp [Act.quiet] at h
  | _ => rfl

open Connection in
/-- Every move is an `IdStep`. -/
theorem Move.idStep {s s' : State} (h : Move s s') : IdStep s.conn s.trace s'.conn s'.trace := by
  -- a write to an entry that does not set `pendingOpen`
  have hmod : ∀ (i : Int) (f : StreamEntry → StreamEntry) (hf : ∀ e, (f e).streamId = e.streamId),
      (∀ e, (f e).pendingOpen = true → e.pendingOpen = true) → ∀ id,
      ((s.conn.modifyEntry i f hf).entry id).pendingOpen = true →
        (s.conn.entry id).pendingOpen = true := by
    intro i f hf hp id
    exact modifyEntry_rel (R := fun e e' => e'.pendingOpen = true → e.pendingOpen = true)
      (fun _ h => h) hf hp i
  cases h with
  | quiet a ha =>
    exact .other [a] (by simpa using Act.aboutIds_of_quiet ha) (fun _ => rfl) fun _ h => h
  | threw e he => exact .other [.threw e] (by simp [Act.aboutIds]) (fun _ => rfl) fun _ h => h
  | callback cb =>
    obtain ⟨_, _, _, hc⟩ := s.conn.callback_rest cb
    have hkeep : ∀ bidi, (s.conn.callback cb).promisedId bidi = s.conn.promisedId bidi := by
      rw [hc]; exact promisedId_keep rfl rfl rfl
    refine .other [.callback cb] (by simp [Act.aboutIds]) hkeep fun id hp => ?_
    exact (callback_frame s.conn cb id).pendingOpen ▸ hp
  | clamp i hi =>
    refine .other [] (by simp) (promisedId_keep rfl rfl rfl) (hmod i _ _ fun e => ?_)
    rw [StreamEntry.clampTxOffset_eq]
    exact id
  | wrote i data hi hclosed hsent hfin =>
    exact .other [_] (by simp [Act.aboutIds]) (promisedId_keep rfl rfl rfl) (hmod i _ _ fun e h => h)
  | ended i data hi =>
    exact .other [_] (by simp [Act.aboutIds]) (promisedId_keep rfl rfl rfl) (hmod i _ _ fun e h => h)
  | reset i code hi =>
    exact .other [_] (by simp [Act.aboutIds]) (promisedId_keep rfl rfl rfl)
      (hmod i StreamEntry.resetLocal (fun _ => rfl) fun e h => absurd h Bool.false_ne_true)
  | read i chunk rest hi hrx =>
    exact .other [_] (by simp [Act.aboutIds]) (promisedId_keep rfl rfl rfl) (hmod i _ _ fun e h => h)
  | opened b i hconn =>
    refine .opened b i (fun bidi => returnStream_promisedId _ b _ _ bidi) fun id hp => ?_
    rw [returnStream_entry] at hp
    split at hp
    · cases hp
    · rename_i hne; exact ⟨hne, hp⟩
  | blocked b hconn =>
    refine .blocked b .streamIdBlocked (fun bidi => returnStream_promisedId _ b _ _ bidi) fun id hp => ?_
    rw [returnStream_entry] at hp
    split at hp
    · rename_i heq; exact .inl heq
    · exact .inr hp
  | openMatched i hconn hi hp =>
    refine .matched i (promisedId_keep rfl rfl rfl) hp fun id h => ?_
    rw [State.modifyEntry_conn, State.log_conn, entry_modifyEntry _ _ hi] at h
    split at h
    · cases h
    · rename_i hne; exact ⟨hne, h⟩
  | openMismatched i opened hconn hi hp hne => exact .mismatched i opened hp hne
  | settle o a ho hp =>
    refine .other [_] (by simp [Act.aboutIds]) (s.conn.settle_entriesOnly o a).promisedId ?_
    intro id h
    exact s.conn.settle_pendingOpen ho.hasEntry a id ▸ h
  | sync p =>
    obtain ⟨_, _, _, _, _, hc⟩ := s.conn.syncState_rest p
    have hkeep : ∀ bidi, (s.syncState p).conn.promisedId bidi = s.conn.promisedId bidi := by
      rw [State.syncState_conn, hc]; exact promisedId_keep rfl rfl rfl
    have hstreams : (s.syncState p).conn.streams = s.conn.streams := by
      rw [State.syncState_conn, hc]
    have hpend : ∀ id, ((s.syncState p).conn.entry id).pendingOpen = true →
        (s.conn.entry id).pendingOpen = true := fun id h => entry_congr hstreams id ▸ h
    rcases s.syncState_trace p with ht | ht
    · rw [ht]; exact .other [] (by simp) hkeep hpend
    · rw [ht]; exact .other [.periods p] (by simp [Act.aboutIds]) hkeep hpend
  | lastError e => exact .other [] (by simp) (promisedId_keep rfl rfl rfl) fun _ h => h
  | close code reason hopen =>
    obtain ⟨_, _, _, _, _, _, hc⟩ := close_rest s code reason
    rw [close_trace, hc]
    exact .other [] (by simp) (promisedId_keep rfl rfl rfl) fun _ h => h
  | closeSent hreq => exact .other [] (by simp) (promisedId_keep rfl rfl rfl) fun _ h => h
  | drainEvents =>
    exact .other [_] (by simp [Act.aboutIds]) (promisedId_keep rfl rfl rfl) fun _ h => h

/-! ## The desks account for the ids -/

/-- The desk of a kind accounts for its counter (`next` is the id that would be promised) and for its
ids. -/
structure DeskInv (role : Role) (b : Bool) (next : Int) (t : Trace) : Prop where
  counter : next = ticketId role b (Tickets.next (t.tickets b))
  returned : t.returned b = (Tickets.handed (t.tickets b)).map (ticketId role b)
  promised : t.promised b = (Tickets.promised (t.tickets b)).map (ticketId role b)
  assigned : t.assigned b =
    (List.range (Tickets.granted (t.tickets b))).reverse.map (ticketId role b)

namespace DeskInv

variable {role : Role} {b : Bool} {next next' : Int} {t t' : Trace} {k : Nat}

theorem length_assigned (h : DeskInv role b next t) :
    (t.assigned b).length = Tickets.granted (t.tickets b) := by
  rw [h.assigned, List.length_map, List.length_reverse, List.length_range]

theorem mem_promised (h : DeskInv role b next t) :
    ticketId role b k ∈ t.promised b ↔ k ∈ Tickets.promised (t.tickets b) := by
  rw [h.promised, List.mem_map]
  constructor
  · rintro ⟨j, hj, heq⟩
    rw [← ticketId_inj.mp heq]; exact hj
  · intro hk; exact ⟨k, hk, rfl⟩

theorem mem_assigned (h : DeskInv role b next t) :
    ticketId role b k ∈ t.assigned b ↔ k < Tickets.granted (t.tickets b) := by
  rw [h.assigned, List.mem_map]
  constructor
  · rintro ⟨j, hj, heq⟩
    rw [← ticketId_inj.mp heq]
    exact List.mem_range.mp (List.mem_reverse.mp hj)
  · intro hk
    exact ⟨k, List.mem_reverse.mpr (List.mem_range.mpr hk), rfl⟩

/-- Promises have been assigned when the desk has redeemed them. -/
theorem all_assigned_iff (h : DeskInv role b next t) (p : Int → Prop) :
    (∀ i ∈ t.promised b, p i → i ∈ t.assigned b) ↔
      ∀ k ∈ Tickets.promised (t.tickets b), p (ticketId role b k) →
        k < Tickets.granted (t.tickets b) := by
  constructor
  · intro hall k hk hp
    exact h.mem_assigned.mp (hall _ (h.mem_promised.mpr hk) hp)
  · intro hall i hi hp
    rw [h.promised] at hi
    obtain ⟨k, hk, rfl⟩ := List.mem_map.mp hi
    exact h.mem_assigned.mpr (hall k hk hp)

theorem fresh (role : Role) (b : Bool) : DeskInv role b (firstStreamId role b) [] :=
  ⟨(Int.add_zero _).symm, rfl, rfl, rfl⟩

theorem same (h : DeskInv role b next t) (hn : next' = next) (hr : t'.returned b = t.returned b)
    (hp : t'.promised b = t.promised b) (ha : t'.assigned b = t.assigned b)
    (ht : t'.tickets b = t.tickets b) : DeskInv role b next' t' := by
  refine ⟨?_, ?_, ?_, ?_⟩
  · rw [hn, ht]; exact h.counter
  · rw [hr, ht]; exact h.returned
  · rw [hp, ht]; exact h.promised
  · rw [ha, ht]; exact h.assigned

/-- One more id of the kind is assigned. -/
theorem assigned_cons (h : DeskInv role b next t) :
    ticketId role b (Tickets.granted (t.tickets b)) :: t.assigned b =
      (List.range (Tickets.granted (t.tickets b) + 1)).reverse.map (ticketId role b) := by
  rw [List.range_succ, List.reverse_append, h.assigned]
  rfl

theorem grant (h : DeskInv role b next t) {id : Int}
    (hid : id = ticketId role b (Tickets.granted (t.tickets b)))
    (hn : next' = if id ≥ next then id + 4 else next) (hr : t'.returned b = id :: t.returned b)
    (hp : t'.promised b = t.promised b) (ha : t'.assigned b = id :: t.assigned b)
    (ht : t'.tickets b = .grant :: t.tickets b) : DeskInv role b next' t' := by
  refine ⟨?_, ?_, ?_, ?_⟩
  · rw [hn, ht, h.counter, hid]
    show _ = ticketId role b (if Tickets.granted (t.tickets b) ≥ Tickets.next (t.tickets b) then
      Tickets.granted (t.tickets b) + 1 else Tickets.next (t.tickets b))
    unfold ticketId
    split <;> split <;> omega
  · rw [hr, ht, hid, h.returned]; rfl
  · rw [hp, ht]; exact h.promised
  · rw [ha, ht, hid, h.assigned_cons]; rfl

theorem promise (h : DeskInv role b next t) (hn : next' = next + 4)
    (hr : t'.returned b = next :: t.returned b) (hp : t'.promised b = next :: t.promised b)
    (ha : t'.assigned b = t.assigned b) (ht : t'.tickets b = .promise :: t.tickets b) :
    DeskInv role b next' t' := by
  refine ⟨?_, ?_, ?_, ?_⟩
  · rw [hn, ht, h.counter]
    show _ = ticketId role b (Tickets.next (t.tickets b) + 1)
    unfold ticketId
    omega
  · rw [hr, ht, h.returned, h.counter]; rfl
  · rw [hp, ht, h.promised, h.counter]; rfl
  · rw [ha, ht]; exact h.assigned

theorem redeem (h : DeskInv role b next t) {id : Int}
    (hid : id = ticketId role b (Tickets.granted (t.tickets b))) (hn : next' = next)
    (hr : t'.returned b = t.returned b) (hp : t'.promised b = t.promised b)
    (ha : t'.assigned b = id :: t.assigned b) (ht : t'.tickets b = .redeem :: t.tickets b) :
    DeskInv role b next' t' := by
  refine ⟨?_, ?_, ?_, ?_⟩
  · rw [hn, ht]; exact h.counter
  · rw [hr, ht]; exact h.returned
  · rw [hp, ht]; exact h.promised
  · rw [ha, ht, hid, h.assigned_cons]; rfl

end DeskInv

/-- Both desks. -/
def IdInv (role : Role) (c : Connection) (t : Trace) : Prop :=
  ∀ b, DeskInv role b (c.promisedId b) t

namespace IdInv

variable {role : Role} {c c' : Connection} {t t' : Trace}

theorem step (hstep : IdStep c t c' t') (hrole : c.role = role) (hcons : t'.Consecutive role)
    (h : IdInv role c t) : IdInv role c' t' := by
  intro bidi
  cases hstep with
  | other as has hid hpending =>
    obtain ⟨hr, hp, ha, ht⟩ := Trace.ids_append bidi has t
    exact (h bidi).same (hid bidi) hr hp ha ht
  | opened b id hid hpending =>
    have hgranted : id = ticketId role b (Tickets.granted (t.tickets b)) := by
      rw [← (h b).length_assigned]
      exact (History.each_cons.mp (History.each_cons.mp hcons).2).1 (b, id) rfl
    have hcounter := c.assignStreamId_opened b
      (show firstStreamId c.role b ≤ id by rw [hrole, hgranted]; unfold ticketId; omega)
      (by rw [hrole, hgranted]; unfold ticketId; omega) bidi
    rw [← hid bidi] at hcounter
    by_cases hb : bidi = b
    · subst hb
      rw [if_pos rfl] at hcounter
      exact (h bidi).grant hgranted hcounter (if_pos rfl) rfl (if_pos rfl) (if_pos rfl)
    · rw [if_neg hb] at hcounter
      have hb' := Ne.symm hb
      exact (h bidi).same hcounter (if_neg hb') rfl (if_neg hb') (if_neg hb')
  | blocked b e hid hpending =>
    have hcounter := (c.assignStreamId_blocked b e).2 bidi
    rw [← hid bidi] at hcounter
    by_cases hb : bidi = b
    · subst hb
      rw [if_pos rfl] at hcounter
      exact (h bidi).promise hcounter (if_pos rfl) (if_pos rfl) rfl (if_pos rfl)
    · rw [if_neg hb] at hcounter
      have hb' := Ne.symm hb
      exact (h bidi).same hcounter (if_neg hb') (if_neg hb') rfl (if_neg hb')
  | matched id hid hp hpending =>
    by_cases hb : isBidiStream id = bidi
    · have hgranted : id = ticketId role bidi (Tickets.granted (t.tickets bidi)) := by
        rw [← (h bidi).length_assigned, ← hb]
        exact (History.each_cons.mp hcons).1 (isBidiStream id, id) rfl
      exact (h bidi).redeem hgranted (hid bidi) rfl rfl (if_pos hb) (if_pos hb)
    · exact (h bidi).same (hid bidi) rfl rfl (if_neg hb) (if_neg hb)
  | mismatched id opened hp hne =>
    by_cases hb : isBidiStream id = bidi
    · have hgranted : opened = ticketId role bidi (Tickets.granted (t.tickets bidi)) := by
        rw [← (h bidi).length_assigned, ← hb]
        exact (History.each_cons.mp hcons).1 (isBidiStream id, opened) rfl
      exact (h bidi).redeem hgranted rfl rfl rfl (if_pos hb) (if_pos hb)
    · exact (h bidi).same rfl rfl rfl (if_neg hb) (if_neg hb)

end IdInv

/-- Whose end the connection is. -/
def Start.role (start : Start) : Role := start.base.conn.role

theorem Start.base_idInv (start : Start) : IdInv start.role start.base.conn start.base.trace := by
  have hfirst : ∀ b, start.base.conn.promisedId b = firstStreamId start.role b := by
    intro b
    rw [Connection.promisedId_eq]
    cases start with
    | uninitialised => cases b <;> rfl
    | client path r l => cases b <;> rfl
    | server path r l payload cbs => cases b <;> rfl
  have htrace : start.base.trace = [] := by cases start <;> rfl
  intro b
  rw [hfirst b, htrace]
  exact .fresh start.role b

/-- An invariant of the moves that may use the ids: ngtcp2 assigns them one after the other. -/
theorem Start.run_inv_ids {P : Act → Trace → Prop} {I : State → Prop} (start : Start)
    (hI : ∀ s s', Move s s' → s'.trace.Consecutive start.role → History.Each P s'.trace →
      IdInv start.role s.conn s.trace → I s → I s') (ops : List Op)
    (hcons : (start.run ops).trace.Consecutive start.role)
    (hP : History.Each P (start.run ops).trace) (h0 : I start.base) :
    IdInv start.role (start.run ops).conn (start.run ops).trace ∧ I (start.run ops) := by
  have hinv := Moves.inv
    (C := fun s => s.trace.Consecutive start.role ∧ History.Each P s.trace)
    (I := fun s => s.conn.role = start.role ∧ IdInv start.role s.conn s.trace ∧ I s) ?_ ?_
    (start.run_moves ops) ⟨hcons, hP⟩ ⟨rfl, start.base_idInv, h0⟩
  · exact hinv.2
  · rintro s s' hm ⟨hc, hp⟩
    exact ⟨hc.of_suffix hm.trace_suffix, hp.of_suffix hm.trace_suffix⟩
  · rintro s s' hm ⟨hc, hp⟩ ⟨hrole, hid, hi⟩
    refine ⟨?_, hid.step hm.idStep hrole hc, hI s s' hm hc hp hid hi⟩
    rw [← hrole]
    unfold Connection.role
    rw [hm.conn_eq]

end PhpQuic
