import PhpQuic.Opening.Returned

/-!
# Whether an id is handed out twice

The ids that `openStream` and `openUniStream` return are distinct exactly when ngtcp2 opens a stream
at once only after it has assigned every id of the kind that was promised before
(`returnedIds_nodup_iff`). A blocked open with an open behind it that is not blocked returns one id
twice (`returnedIds_collide`).
-/

namespace PhpQuic

/-- ngtcp2 opened a stream of the kind at once. -/
def Act.opensNow : Act → Option Bool
  | .openLocal bidi (.ok _) => some bidi
  | _ => none

theorem Act.opensNow_eq_none {a : Act} (h : a.aboutIds = false) : a.opensNow = none := by
  cases a with
  | openLocal b rv => cases rv <;> simp_all [Act.aboutIds, Act.opensNow]
  | _ => rfl

namespace Trace

/-- The ids that `openStream` and `openUniStream` returned, as the history records them. -/
def returnedIds : Trace → List Int
  | [] => []
  | .returned _ id _ :: t => id :: returnedIds t
  | _ :: t => returnedIds t

/-- ngtcp2 opens a stream at once only when it has assigned all ids of the kind that are promised. -/
def PromisesFirst : Trace → Prop :=
  History.Each fun a t => ∀ b ∈ a.opensNow, ∀ i ∈ Trace.promised b t, i ∈ Trace.assigned b t

instance (t : Trace) : Decidable (PromisesFirst t) :=
  inferInstanceAs (Decidable (History.Each _ t))

variable {a : Act} {t : Trace} {b : Bool} {id : Int}

theorem promisesFirst_cons (h : a.opensNow = none) : PromisesFirst (a :: t) ↔ PromisesFirst t := by
  refine History.each_cons.trans (and_iff_right ?_)
  rw [h]
  rintro b ⟨⟩

theorem promisesFirst_opened : PromisesFirst (.openLocal b (.ok id) :: t) ↔
    (∀ i ∈ t.promised b, i ∈ t.assigned b) ∧ PromisesFirst t := by
  refine History.each_cons.trans (and_congr_left' ⟨fun hall => hall b rfl, ?_⟩)
  rintro hall _ ⟨⟩
  exact hall

theorem promisesFirst_append {as : List Act} (h : ∀ a ∈ as, a.aboutIds = false) :
    PromisesFirst (as ++ t) ↔ PromisesFirst t := by
  induction as with
  | nil => exact Iff.rfl
  | cons a as ih =>
    have ha := Act.opensNow_eq_none (h a List.mem_cons_self)
    exact (promisesFirst_cons ha).trans (ih fun b hb => h b (List.mem_cons_of_mem a hb))

/-- A fact about both kinds, of which one has changed. -/
theorem forall_kind_iff {p p' : Bool → Prop} {q r : Prop} (b : Bool) (hb : p' b ↔ q ∧ p b)
    (hne : ∀ b', b' ≠ b → (p' b' ↔ p b')) (hr : r ↔ ∀ b', p b') : q ∧ r ↔ ∀ b', p' b' := by
  rw [hr]
  constructor
  · rintro ⟨hq, hall⟩ b'
    by_cases h : b' = b
    · subst h; exact hb.mpr ⟨hq, hall b'⟩
    · exact (hne b' h).mpr (hall b')
  · intro hall
    refine ⟨(hb.mp (hall b)).1, fun b' => ?_⟩
    by_cases h : b' = b
    · subst h; exact (hb.mp (hall b')).2
    · exact (hne b' h).mp (hall b')

/-- ngtcp2 does not open a stream ahead of a promise if and only if no desk does. -/
theorem promisesFirst_step {role : Role} {c c' : Connection} {t' : Trace}
    (hstep : IdStep c t c' t') (h : IdInv role c t)
    (hi : t.PromisesFirst ↔ ∀ b, Tickets.PromisesFirst (t.tickets b)) :
    t'.PromisesFirst ↔ ∀ b, Tickets.PromisesFirst (t'.tickets b) := by
  cases hstep with
  | other as has hid hpending =>
    rw [promisesFirst_append has, hi]
    refine forall_congr' fun bidi => ?_
    rw [(ids_append bidi has t).2.2.2]
  | opened b id hid hpending =>
    have hall := (h b).all_assigned_iff fun _ => True
    simp only [forall_const] at hall
    rw [promisesFirst_cons rfl, promisesFirst_opened, hall]
    refine forall_kind_iff b ?_ ?_ hi
    · rw [← Tickets.promisesFirst_grant]
      simp only [Trace.tickets, ↓reduceIte]
    · intro b' hb'
      simp only [Trace.tickets, if_neg (Ne.symm hb')]
  | blocked b e hid hpending =>
    rw [promisesFirst_cons rfl, promisesFirst_cons rfl, hi]
    refine forall_congr' fun bidi => ?_
    simp only [Trace.tickets]
    split
    · exact Tickets.promisesFirst_promise.symm
    · exact Iff.rfl
  | matched id hid hp hpending =>
    rw [promisesFirst_cons rfl, hi]
    refine forall_congr' fun bidi => ?_
    simp only [Trace.tickets]
    split
    · exact Tickets.promisesFirst_redeem.symm
    · exact Iff.rfl
  | mismatched id opened hp hne =>
    rw [promisesFirst_cons rfl, hi]
    refine forall_congr' fun bidi => ?_
    simp only [Trace.tickets]
    split
    · exact Tickets.promisesFirst_redeem.symm
    · exact Iff.rfl

/-- The ids of a kind are those of the class of the kind. -/
theorem returned_eq_filter (h : ∀ b, ∀ id ∈ t.returned b, isBidiStream id = b) (b : Bool) :
    t.returned b = t.returnedIds.filter fun id => isBidiStream id == b := by
  induction t with
  | nil => rfl
  | cons a t ih =>
    cases a with
    | returned b' id p =>
      have hmem : id ∈ Trace.returned b' (.returned b' id p :: t) := by simp [Trace.returned]
      have hclass := h b' id hmem
      have ih' := ih fun b'' i hi => h b'' i (by
        unfold Trace.returned
        split
        · exact List.mem_cons_of_mem _ hi
        · exact hi)
      unfold Trace.returned Trace.returnedIds
      rw [List.filter_cons, hclass, ih']
      simp only [beq_iff_eq]
    | _ => exact ih h

theorem returnedIds_nodup (h : ∀ b, ∀ id ∈ t.returned b, isBidiStream id = b) :
    t.returnedIds.Nodup ↔ ∀ b, (t.returned b).Nodup := by
  constructor
  · intro hn b
    rw [returned_eq_filter h b]
    exact hn.filter _
  · intro hn
    have hperm := List.filter_append_perm (fun id => isBidiStream id == true) t.returnedIds
    rw [← hperm.nodup_iff, List.nodup_append]
    refine ⟨?_, ?_, ?_⟩
    · rw [← returned_eq_filter h true]; exact hn true
    · have hfalse := hn false
      rw [returned_eq_filter h false] at hfalse
      simpa using hfalse
    · rintro i hi _ hj rfl
      simp only [List.mem_filter, beq_iff_eq, Bool.not_eq_true', beq_eq_false_iff_ne, ne_eq] at hi hj
      exact hj.2 hi.2

end Trace

theorem IdInv.returned_class {role : Role} {c : Connection} {t : Trace} (h : IdInv role c t) (b : Bool)
    (id : Int) (hmem : id ∈ t.returned b) : isBidiStream id = b := by
  rw [(h b).returned] at hmem
  obtain ⟨k, -, rfl⟩ := List.mem_map.mp hmem
  exact isBidiStream_ticketId ..

/-- The ids are distinct if and only if no desk grants ahead of a promise. -/
theorem IdInv.handedOnce_iff {role : Role} {c : Connection} {t : Trace}
    (h : IdInv role c t) : t.returnedIds.Nodup ↔ ∀ b, Tickets.PromisesFirst (t.tickets b) := by
  rw [Trace.returnedIds_nodup h.returned_class]
  refine forall_congr' fun b => ?_
  rw [(h b).returned, List.nodup_map_iff fun _ _ h => ticketId_inj.mp h,
    Tickets.handed_nodup_iff]

theorem Start.run_promisesFirst (start : Start) (ops : List Op)
    (hcons : (start.run ops).trace.Consecutive start.role) :
    IdInv start.role (start.run ops).conn (start.run ops).trace ∧
      ((start.run ops).trace.PromisesFirst ↔
        ∀ b, Tickets.PromisesFirst ((start.run ops).trace.tickets b)) := by
  have hbase : start.base.trace.PromisesFirst ↔
      ∀ b, Tickets.PromisesFirst (start.base.trace.tickets b) := by
    rw [show start.base.trace = [] by cases start <;> rfl]
    exact iff_of_true History.each_nil fun _ => History.each_nil
  exact start.run_inv_ids (P := fun _ _ => True)
    (I := fun s => s.trace.PromisesFirst ↔ ∀ b, Tickets.PromisesFirst (s.trace.tickets b))
    (fun s s' hm _ _ hid hi => Trace.promisesFirst_step hm.idStep hid hi) ops hcons
    (fun _ _ _ => trivial) hbase

theorem Trace.returnedIds_eq_opened (t : Trace) :
    t.returnedIds = (t.opened.map Opened.streamId).reverse := by
  induction t with
  | nil => rfl
  | cons a t ih =>
    cases a with
    | returned b id p =>
      unfold Trace.returnedIds Trace.opened
      rw [List.map_append, List.reverse_append, ← ih]
      rfl
    | _ => exact ih

/-- No id is handed out twice by the opens of a run if and only if ngtcp2 opens a stream at once only
when it has assigned all ids of the kind that were promised before. -/
theorem returnedIds_nodup_iff (start : Start) (ops : List Op)
    (hcons : (start.run ops).trace.Consecutive start.role) :
    (start.returnedIds ops).Nodup ↔ (start.run ops).trace.PromisesFirst := by
  obtain ⟨hid, hfirst⟩ := start.run_promisesFirst ops hcons
  have hrecorded : (start.run ops).trace.returnedIds = (start.returnedIds ops).reverse := by
    rw [Trace.returnedIds_eq_opened, start.run_opened]
    rfl
  rw [← List.nodup_reverse, ← hrecorded, hid.handedOnce_iff, hfirst]

/-- A blocked open whose stream is opened while it sends, and one more open. -/
def openedInTurn : List Op :=
  [.openStream (.error .streamIdBlocked), .write 0 [1],
    .drainOutgoingDatagrams { loop := [
      { openStream := .ok 0, writev := { result := .ok [7], wdatalen := 1 } },
      { writev := { result := .ok [] } }] },
    .openStream (.ok 4)]

theorem returnedIds_nodup_iff_openedInTurn :
    let start := Start.client {} none none
    let s := start.run openedInTurn
    s.trace.Consecutive .client ∧ ((start.returnedIds openedInTurn).Nodup ↔ s.trace.PromisesFirst) ∧
      start.returnedIds openedInTurn = [0, 4] :=
  have h : ((Start.client {} none none).run openedInTurn).trace.Consecutive
    (Start.client {} none none).role := by decide
  ⟨h, returnedIds_nodup_iff _ _ h, by decide⟩

/-- A blocked open, then one that ngtcp2 answers with its first id: the id is handed out twice. -/
theorem returnedIds_collide :
    ¬ ∀ (start : Start) (ops : List Op), (start.run ops).trace.Consecutive start.role →
      (start.returnedIds ops).Nodup := by
  intro h
  have hbad := h (.client {} none none)
    [.openStream (.error .streamIdBlocked), .openStream (.ok 0)] (by decide)
  revert hbad
  decide

end PhpQuic
