import PhpQuic.Opening.Returned

/-!
# The counters of the stream ids

`next_bidi_stream_id` and `next_uni_stream_id` start at the values of a client, on a server too, and
an open sets its counter to the first id of its kind if the counter is not of that class. Nothing is
assumed of the ids that ngtcp2 gives but their class; the same id may come twice.

* `CounterInv`: a counter has its first value, and no id of the kind has been returned; or it is of
  its class and ahead of every id of the kind. It holds in every run (`Start.run_counterInv`).
* `nextStreamId_ahead`: the counters stay ahead and in class, blocked opens return rising ids, and
  no counter is ever lowered.
-/

namespace PhpQuic

/-- The id that ngtcp2 gives to an open is of the class of the kind. -/
def Act.inClass (role : Role) : Act → Bool
  | .openLocal bidi (.ok id) => id % 4 == firstStreamId role bidi
  | _ => true

/-- ngtcp2 gives ids of the class of the kind. -/
def Trace.InClass (role : Role) (t : Trace) : Prop := ∀ a ∈ t, a.inClass role = true

instance (role : Role) (t : Trace) : Decidable (t.InClass role) :=
  inferInstanceAs (Decidable (∀ a ∈ t, a.inClass role = true))

theorem firstStreamId_bounds (role : Role) (b : Bool) :
    (if b then (0 : Int) else 2) ≤ firstStreamId role b ∧ firstStreamId role b < 4 := by
  cases role <;> cases b <;> decide

/-! ## What moves a counter -/

/-- A move leaves both counters, or it is an open and sets the counter of its kind. -/
inductive CounterStep (c : Connection) (t : Trace) : Connection → Trace → Prop
  | kept {c' : Connection} {t' : Trace} (hnext : ∀ b, c'.nextStreamId b = c.nextStreamId b)
    (hreturned : ∀ b, t'.returned b = t.returned b) (hpromised : ∀ b, t'.promised b = t.promised b) :
    CounterStep c t c' t'
  | opened {c' : Connection} (b : Bool) (id : Int)
    (hnext : ∀ b', c'.nextStreamId b' = (c.assignStreamId b (.ok id)).1.nextStreamId b') :
    CounterStep c t c' (.returned b id false :: .openLocal b (.ok id) :: t)
  | blocked {c' : Connection} (b : Bool) (e : Err)
    (hnext : ∀ b', c'.nextStreamId b' = (c.assignStreamId b (.error e)).1.nextStreamId b') :
    CounterStep c t c' (.returned b (c.promisedId b) true :: .openLocal b (.error e) :: t)

namespace Connection

variable {c c' : Connection}

theorem nextStreamId_keep (hbidi : c'.nextBidiStreamId = c.nextBidiStreamId)
    (huni : c'.nextUniStreamId = c.nextUniStreamId) (b : Bool) :
    c'.nextStreamId b = c.nextStreamId b := by
  cases b
  · exact huni
  · exact hbidi

theorem EntriesOnly.nextStreamId (h : EntriesOnly c c') (b : Bool) :
    c'.nextStreamId b = c.nextStreamId b := by
  obtain ⟨_, _, hc, -⟩ := h
  exact nextStreamId_keep (by rw [hc]) (by rw [hc]) b

theorem returnStream_nextStreamId (s : State) (b : Bool) (rv : Except Err Int) (pending : Bool)
    (b' : Bool) : (returnStream s b rv pending).1.conn.nextStreamId b' =
      (s.conn.assignStreamId b rv).1.nextStreamId b' :=
  (enterStream_entriesOnly ..).nextStreamId b'

end Connection

/-- Every move is a `CounterStep`. -/
theorem Move.counterStep {s s' : State} (h : Move s s') :
    CounterStep s.conn s.trace s'.conn s'.trace := by
  cases h with
  | quiet a ha =>
    have hids := fun b => Trace.ids_cons b (Act.aboutIds_of_quiet ha) s.trace
    exact .kept (fun _ => rfl) (fun b => (hids b).1) fun b => (hids b).2.1
  | callback cb =>
    obtain ⟨_, _, _, hc⟩ := s.conn.callback_rest cb
    have hkeep : ∀ b, (s.conn.callback cb).nextStreamId b = s.conn.nextStreamId b := by
      rw [hc]; exact Connection.nextStreamId_keep rfl rfl
    exact .kept hkeep (fun _ => rfl) fun _ => rfl
  | opened b id hconn =>
    exact .opened b id fun b' => Connection.returnStream_nextStreamId _ b _ _ b'
  | blocked b hconn =>
    exact .blocked b .streamIdBlocked fun b' => Connection.returnStream_nextStreamId _ b _ _ b'
  | settle o a ho hp =>
    exact .kept (s.conn.settle_entriesOnly o a).nextStreamId (fun _ => rfl) fun _ => rfl
  | sync p =>
    obtain ⟨_, _, _, _, _, hc⟩ := s.conn.syncState_rest p
    have hkeep : ∀ b, (s.syncState p).conn.nextStreamId b = s.conn.nextStreamId b := by
      rw [State.syncState_conn, hc]; exact Connection.nextStreamId_keep rfl rfl
    rcases s.syncState_trace p with ht | ht
    · rw [ht]; exact .kept hkeep (fun _ => rfl) fun _ => rfl
    · rw [ht]; exact .kept hkeep (fun _ => rfl) fun _ => rfl
  | close code reason hopen =>
    obtain ⟨_, _, _, _, _, _, hc⟩ := Connection.close_rest s code reason
    rw [Connection.close_trace, hc]
    exact .kept (Connection.nextStreamId_keep rfl rfl) (fun _ => rfl) fun _ => rfl
  | _ =>
    exact .kept (Connection.nextStreamId_keep rfl rfl) (fun _ => rfl) fun _ => rfl

namespace Connection

variable {c : Connection}

theorem nextStreamId_ensure (c : Connection) {b b' : Bool} (hb : b' ≠ b) :
    (c.ensureNextStreamId b).nextStreamId b' = c.nextStreamId b' := by
  unfold ensureNextStreamId
  split
  · rw [nextStreamId_set, if_neg hb]
  · rfl

theorem nextStreamId_blocked (c : Connection) (b : Bool) (e : Err) (b' : Bool) :
    (c.assignStreamId b (.error e)).1.nextStreamId b' =
      if b' = b then c.promisedId b + 4 else c.nextStreamId b' := by
  show ((c.ensureNextStreamId b).setNextStreamId b (c.promisedId b + 4)).nextStreamId b' = _
  rw [nextStreamId_set]
  split
  · rfl
  · rename_i hb
    exact c.nextStreamId_ensure hb

theorem nextStreamId_opened (c : Connection) (b : Bool) (id : Int) (b' : Bool) :
    (c.assignStreamId b (.ok id)).1.nextStreamId b' =
      if b' = b then (if id ≥ c.promisedId b then id + 4 else c.promisedId b)
      else c.nextStreamId b' := by
  show (if id ≥ c.promisedId b then (c.ensureNextStreamId b).setNextStreamId b (id + 4)
    else c.ensureNextStreamId b).nextStreamId b' = _
  by_cases hb : b' = b
  · subst hb
    rw [if_pos rfl]
    split
    · rw [nextStreamId_set, if_pos rfl]
    · rfl
  · rw [if_neg hb]
    split
    · rw [nextStreamId_set, if_neg hb, c.nextStreamId_ensure hb]
    · exact c.nextStreamId_ensure hb

end Connection

/-! ## The counters in a run -/

theorem Trace.promised_subset (b : Bool) (t : Trace) : t.promised b ⊆ t.returned b := by
  induction t with
  | nil => exact fun _ h => h
  | cons a t ih =>
    cases a with
    | returned b' id p =>
      unfold Trace.promised Trace.returned
      intro i hi
      cases p with
      | false =>
        split
        · exact List.mem_cons_of_mem id (ih hi)
        · exact ih hi
      | true =>
        split
        · rename_i hb
          simp only [if_pos hb] at hi
          exact List.cons_subset_cons id ih hi
        · rename_i hb
          simp only [if_neg hb] at hi
          exact ih hi
    | _ => exact ih

/-- The counter of a kind, against the ids of the kind that were returned. -/
structure CounterInv (role : Role) (b : Bool) (next : Int) (t : Trace) : Prop where
  first : (t.returned b = [] ∧ next = if b then 0 else 2) ∨
    (firstStreamId role b ≤ next ∧ next % 4 = firstStreamId role b)
  inClass : ∀ i ∈ t.returned b, i % 4 = firstStreamId role b
  ahead : ∀ i ∈ t.returned b, i < next
  -- so the counter is no further ahead than it has to be
  follows : next ≤ 3 ∨ ∃ i ∈ t.returned b, next = i + 4
  rising : (t.promised b).Pairwise (· > ·)

namespace CounterInv

variable {role : Role} {b : Bool} {c : Connection} {next next' id : Int} {t t' : Trace}

theorem fresh (role : Role) (b : Bool) : CounterInv role b (if b then 0 else 2) [] where
  first := .inl ⟨rfl, rfl⟩
  inClass := List.forall_mem_nil _
  ahead := List.forall_mem_nil _
  follows := .inl (by cases b <;> decide)
  rising := .nil

theorem same (h : CounterInv role b next t) (hn : next' = next)
    (hr : t'.returned b = t.returned b) (hp : t'.promised b = t.promised b) :
    CounterInv role b next' t' := by
  refine ⟨?_, ?_, ?_, ?_, ?_⟩
  · rw [hr, hn]; exact h.first
  · rw [hr]; exact h.inClass
  · rw [hr, hn]; exact h.ahead
  · rw [hr, hn]; exact h.follows
  · rw [hp]; exact h.rising

/-- What `ensure_next_stream_id` makes of the counter: it is not lowered. -/
theorem promise (h : CounterInv role b (c.nextStreamId b) t) (hrole : c.role = role) :
    c.nextStreamId b ≤ c.promisedId b ∧ firstStreamId role b ≤ c.promisedId b ∧
      c.promisedId b % 4 = firstStreamId role b ∧
      (c.promisedId b ≤ 3 ∨ c.promisedId b = c.nextStreamId b) := by
  have hbounds := firstStreamId_bounds role b
  have hclass := c.promisedId_class b
  rw [hrole] at hclass
  have hfirst : firstStreamId role b % 4 = firstStreamId role b := by
    cases role <;> cases b <;> decide
  rw [hfirst] at hclass
  refine ⟨?_, hclass.1, hclass.2, ?_⟩
  · rw [Connection.promisedId_eq, hrole]
    rcases h.first with ⟨-, hn⟩ | ⟨hle, hmod⟩
    · split <;> omega
    · split <;> omega
  · rw [Connection.promisedId_eq, hrole]
    split
    · exact .inl (by omega)
    · exact .inr rfl

/-- One more id of the kind is returned, and the counter is ahead of it. -/
theorem returned (h : CounterInv role b next t) (hid : id % 4 = firstStreamId role b)
    (hfirst : firstStreamId role b ≤ next' ∧ next' % 4 = firstStreamId role b) (hle : next ≤ next')
    (hlt : id < next') (hfollows : next' ≤ 3 ∨ next' = next ∨ next' = id + 4)
    (hr : t'.returned b = id :: t.returned b) (hp : (t'.promised b).Pairwise (· > ·)) :
    CounterInv role b next' t' where
  first := .inr hfirst
  inClass := by
    rw [hr]
    exact List.forall_mem_cons.mpr ⟨hid, h.inClass⟩
  ahead := by
    rw [hr]
    refine List.forall_mem_cons.mpr ⟨hlt, fun i hi => ?_⟩
    have hi' := h.ahead i hi
    omega
  follows := by
    rw [hr]
    rcases hfollows with hlow | heq | heq
    · exact .inl hlow
    · rw [heq]
      rcases h.follows with hlow | ⟨i, hi, hnext⟩
      · exact .inl hlow
      · exact .inr ⟨i, List.mem_cons_of_mem id hi, hnext⟩
    · exact .inr ⟨id, List.mem_cons_self, heq⟩
  rising := hp

theorem step {c' : Connection} (hstep : CounterStep c t c' t') (hrole : c.role = role)
    (hclass : t'.InClass role) (h : ∀ b, CounterInv role b (c.nextStreamId b) t) (b : Bool) :
    CounterInv role b (c'.nextStreamId b) t' := by
  cases hstep with
  | kept hnext hreturned hpromised => exact (h b).same (hnext b) (hreturned b) (hpromised b)
  | opened k id hnext =>
    have hn := hnext b
    rw [c.nextStreamId_opened] at hn
    by_cases hb : b = k
    · subst hb
      rw [if_pos rfl] at hn
      have hid := eq_of_beq (hclass (.openLocal b (.ok id)) (by simp))
      obtain ⟨hle, hfirst, hmod, hpromise⟩ := (h b).promise hrole
      refine (h b).returned hid ?_ ?_ ?_ ?_ (if_pos rfl) (h b).rising
      all_goals rw [hn]; split <;> omega
    · rw [if_neg hb] at hn
      exact (h b).same hn (if_neg (Ne.symm hb)) rfl
  | blocked k e hnext =>
    have hn := hnext b
    rw [c.nextStreamId_blocked] at hn
    by_cases hb : b = k
    · subst hb
      rw [if_pos rfl] at hn
      obtain ⟨hle, hfirst, hmod, hpromise⟩ := (h b).promise hrole
      have hrising : ((Trace.promised b (.returned b (c.promisedId b) true ::
          .openLocal b (.error e) :: t))).Pairwise (· > ·) := by
        unfold Trace.promised
        rw [if_pos rfl]
        refine List.pairwise_cons.mpr ⟨fun i hi => ?_, (h b).rising⟩
        have hlt := (h b).ahead i (t.promised_subset b hi)
        omega
      refine (h b).returned hmod ?_ ?_ ?_ ?_ (if_pos rfl) hrising
      all_goals rw [hn]; omega
    · rw [if_neg hb] at hn
      exact (h b).same hn (if_neg (Ne.symm hb)) (if_neg (Ne.symm hb))

end CounterInv

/-- Both counters, in every run. -/
theorem Start.run_counterInv (start : Start) (ops : List Op)
    (hclass : (start.run ops).trace.InClass start.role) (b : Bool) :
    CounterInv start.role b ((start.run ops).conn.nextStreamId b) (start.run ops).trace := by
  have hbase : ∀ b, CounterInv start.role b (start.base.conn.nextStreamId b) start.base.trace := by
    intro b
    have hnext : start.base.conn.nextStreamId b = if b then 0 else 2 := by
      cases start <;> cases b <;> rfl
    have htrace : start.base.trace = [] := by cases start <;> rfl
    rw [hnext, htrace]
    exact .fresh start.role b
  have hinv := Runs.Moves.inv (C := fun s => s.trace.InClass start.role)
    (I := fun s => s.conn.role = start.role ∧
      ∀ b, CounterInv start.role b (s.conn.nextStreamId b) s.trace) ?_ ?_
    (start.run_moves ops) hclass ⟨rfl, hbase⟩
  · exact hinv.2 b
  · exact fun s s' hm hc a ha => hc a (hm.trace_suffix.subset ha)
  · rintro s s' hm hc ⟨hrole, hi⟩
    refine ⟨?_, CounterInv.step hm.counterStep hrole hc hi⟩
    rw [← hrole]
    unfold Connection.role
    rw [hm.conn_eq]

/-- Behind every run, for each kind of streams: the ids that its opens have returned are of the class
of the kind; once there is one, the counter is of the class and greater than all of them; the ids that
blocked opens have returned rise; `ensure_next_stream_id` does not lower the counter; and the counter
stays within four of the ids, so that an `int64_t` holds it. -/
theorem nextStreamId_ahead (start : Start) (ops : List Op)
    (hclass : (start.run ops).trace.InClass start.role) (b : Bool) :
    let s := start.run ops
    (∀ i ∈ start.returnedOf ops b, i % 4 = firstStreamId start.role b) ∧
      (start.returnedOf ops b ≠ [] → s.conn.nextStreamId b % 4 = firstStreamId start.role b ∧
        ∀ i ∈ start.returnedOf ops b, i < s.conn.nextStreamId b) ∧
      (start.promisedOf ops b).Pairwise (· < ·) ∧
      s.conn.nextStreamId b ≤ (s.conn.ensureNextStreamId b).nextStreamId b ∧
      ∀ bound : Int, 0 ≤ bound → (∀ i ∈ start.returnedOf ops b, i < bound) →
        0 ≤ s.conn.nextStreamId b ∧ s.conn.nextStreamId b < bound + 4 := by
  intro s
  have h : CounterInv start.role b (s.conn.nextStreamId b) s.trace :=
    start.run_counterInv ops hclass b
  -- the history, newest first, records what the opens have returned
  have hmem (i : Int) : i ∈ start.returnedOf ops b ↔ i ∈ s.trace.returned b := by
    rw [start.run_returned ops b, List.mem_reverse]
  have hrising : (start.promisedOf ops b).Pairwise (· < ·) := by
    have hr := h.rising
    rw [start.run_promised ops b, List.pairwise_reverse] at hr
    exact hr
  have hrole : s.conn.role = start.role := by
    unfold Connection.role Start.role
    rw [Runs.Moves.keeps (fun _ _ hm => hm.conn_eq) (start.run_moves ops)]
    rfl
  refine ⟨fun i hi => h.inClass i ((hmem i).mp hi), ?_, hrising, (h.promise hrole).1, ?_⟩
  · intro hne
    rcases h.first with ⟨hnil, -⟩ | ⟨-, hmod⟩
    · rw [start.run_returned ops b, List.reverse_eq_nil_iff] at hnil
      exact absurd hnil hne
    · exact ⟨hmod, fun i hi => h.ahead i ((hmem i).mp hi)⟩
  · intro bound hbound hall
    have hfirst := firstStreamId_bounds start.role b
    constructor
    · rcases h.first with ⟨-, hn⟩ | ⟨hle, -⟩
      · rw [show s.conn.nextStreamId b = _ from hn]
        split <;> decide
      · have hnonneg : (0 : Int) ≤ if b then 0 else 2 := by split <;> decide
        omega
    · rcases h.follows with hlow | ⟨i, hi, hnext⟩
      · omega
      · have hlt := hall i ((hmem i).mpr hi)
        omega

/-- A server whose first open of each kind is blocked or not. -/
theorem nextStreamId_ahead_server :
    let start := Start.server {} none none [] []
    let ops : List Op := [.openStream (.error .streamIdBlocked), .openUniStream (.ok 3),
      .openStream (.ok 1), .openUniStream (.error .streamIdBlocked)]
    (start.returnedOf ops true = [1, 1] ∧ (start.run ops).conn.nextStreamId true = 5) ∧
      start.returnedOf ops false = [3, 7] ∧ (start.run ops).conn.nextStreamId false = 11 ∧
      ∀ i ∈ start.returnedOf ops false, i < (start.run ops).conn.nextStreamId false :=
  ⟨by decide, by decide, by decide,
    ((nextStreamId_ahead (.server {} none none [] []) _ (by decide) false).2.1 (by decide)).2⟩

end PhpQuic
