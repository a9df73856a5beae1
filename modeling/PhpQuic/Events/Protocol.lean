import PhpQuic.Connection.Lemmas

/-!
# The protocol of a stream's events

What an application may rely on when it takes the events of one stream: the stream is opened first,
then it gets readable and writable, then it ends, and nothing else follows.

* `StreamProtocol`: the order. An end is a reset by each side at most once, and then a close.
* `Phase`: the protocol as an automaton, `Phase.next`. `Phase.accepts_fresh_iff`: it accepts the
  lists of the protocol.
-/

namespace PhpQuic

def EventType.isData : EventType → Bool
  | .streamReadable | .streamWritable => true
  | _ => false

def EventType.isTerminal : EventType → Bool
  | .streamReset | .streamClosed => true
  | _ => false

/-- A `StreamReset` of one side. -/
def Event.resetBy (byPeer : Bool) (e : Event) : Bool :=
  decide (e.type = .streamReset) && (e.byPeer == byPeer)

/-- Terminal events, behind resets of the sides that are set. -/
structure StreamEnds (byUs byPeer : Bool) (es : List Event) : Prop where
  terminal : ∀ e ∈ es, e.type.isTerminal = true
  byUs : es.countP (Event.resetBy false) + byUs.toNat ≤ 1
  byPeer : es.countP (Event.resetBy true) + byPeer.toNat ≤ 1
  closedLast : ∀ e ∈ es.dropLast, e.type ≠ .streamClosed

/-- Opened first and never again, then readable and writable, then the terminal events: a reset by
each side at most once, and a close as the last one. -/
def StreamProtocol (es : List Event) : Prop :=
  es = [] ∨ ∃ first data ends, es = first :: (data ++ ends) ∧ first.type = .streamOpened ∧
    (∀ e ∈ data, e.type.isData = true) ∧ StreamEnds false false ends

/-- How far the events of a stream have come. -/
inductive Phase where
  | fresh
  | opened (resetByUs resetByPeer : Bool)
  | closed
  deriving DecidableEq

namespace Phase

/-- The phase behind an event; `none` if the event is out of order. -/
def next (p : Phase) (e : Event) : Option Phase :=
  match p, e.type with
  | .fresh, .streamOpened => some (.opened false false)
  | .opened false false, .streamReadable | .opened false false, .streamWritable =>
    some (.opened false false)
  | .opened byUs byPeer, .streamReset =>
    if e.byPeer then if byPeer then none else some (.opened byUs true)
    else if byUs then none else some (.opened true byPeer)
  | .opened _ _, .streamClosed => some .closed
  | _, _ => none

/-- The phase behind some events. -/
def after (p : Phase) (es : List Event) : Option Phase := es.foldlM next p

@[simp] theorem after_nil (p : Phase) : p.after [] = some p := rfl

theorem after_cons (p : Phase) (e : Event) (es : List Event) :
    p.after (e :: es) = (p.next e).bind (after · es) := rfl

theorem after_append (p : Phase) (es es' : List Event) :
    p.after (es ++ es') = (p.after es).bind (after · es') :=
  List.foldlM_append

theorem after_singleton (p : Phase) (e : Event) : p.after [e] = p.next e := by
  rw [after_cons]
  cases p.next e <;> rfl

/-- The events can follow in the phase. -/
def Accepts (p : Phase) (es : List Event) : Prop := (p.after es).isSome = true

instance (p : Phase) (es : List Event) : Decidable (p.Accepts es) :=
  inferInstanceAs (Decidable (_ = true))

theorem accepts_cons {p : Phase} {e : Event} {es : List Event} :
    p.Accepts (e :: es) ↔ ∃ q, p.next e = some q ∧ q.Accepts es := by
  unfold Accepts
  rw [after_cons]
  cases p.next e <;> simp

theorem accepts_closed {es : List Event} : Accepts .closed es ↔ es = [] := by
  cases es with
  | nil => simp [Accepts]
  | cons e es =>
    rw [accepts_cons]
    simp [next]

end Phase

namespace StreamEnds

variable {byUs byPeer : Bool} {e : Event} {es : List Event}

theorem nil : StreamEnds byUs byPeer [] := by
  refine ⟨by simp, ?_, ?_, by simp⟩
  · cases byUs <;> simp
  · cases byPeer <;> simp

theorem closed_cons (he : e.type = .streamClosed) : StreamEnds byUs byPeer (e :: es) ↔ es = [] := by
  constructor
  · intro h
    by_contra hne
    refine h.closedLast e ?_ he
    rw [List.dropLast_cons_of_ne_nil hne]
    exact List.mem_cons_self
  · rintro rfl
    refine ⟨?_, ?_, ?_, by simp⟩
    · simp [he, EventType.isTerminal]
    · cases byUs <;> simp [Event.resetBy, he]
    · cases byPeer <;> simp [Event.resetBy, he]

/-- Nothing but a reset can stand before another terminal event. -/
theorem closedLast_cons (he : e.type ≠ .streamClosed) :
    (∀ e' ∈ (e :: es).dropLast, e'.type ≠ .streamClosed) ↔
      ∀ e' ∈ es.dropLast, e'.type ≠ .streamClosed := by
  cases es with
  | nil => simp
  | cons e' es => simp [he]

theorem reset_cons (he : e.type = .streamReset) : StreamEnds byUs byPeer (e :: es) ↔
    if e.byPeer then byPeer = false ∧ StreamEnds byUs true es
    else byUs = false ∧ StreamEnds true byPeer es := by
  have hlast : (∀ e' ∈ (e :: es).dropLast, e'.type ≠ .streamClosed) ↔
      ∀ e' ∈ es.dropLast, e'.type ≠ .streamClosed := closedLast_cons (by rw [he]; decide)
  have hterm : e.type.isTerminal = true := by rw [he]; rfl
  cases hp : e.byPeer with
  | true =>
    simp only [if_true]
    constructor
    · intro h
      have hpeer := h.byPeer
      simp only [List.countP_cons, Event.resetBy, he, hp] at hpeer
      have hbyPeer : byPeer = false := by
        cases byPeer with
        | false => rfl
        | true => simp at hpeer
      subst hbyPeer
      refine ⟨rfl, fun e' he' => h.terminal e' (List.mem_cons_of_mem _ he'), ?_, ?_,
        hlast.mp h.closedLast⟩
      · simpa [List.countP_cons, Event.resetBy, hp] using h.byUs
      · simpa [Event.resetBy] using hpeer
    · rintro ⟨rfl, h⟩
      refine ⟨?_, ?_, ?_, hlast.mpr h.closedLast⟩
      · simpa [hterm] using h.terminal
      · simpa [List.countP_cons, Event.resetBy, hp] using h.byUs
      · simpa [List.countP_cons, Event.resetBy, he, hp] using h.byPeer
  | false =>
    simp only [Bool.false_eq_true, if_false]
    constructor
    · intro h
      have hus := h.byUs
      simp only [List.countP_cons, Event.resetBy, he, hp] at hus
      have hbyUs : byUs = false := by
        cases byUs with
        | false => rfl
        | true => simp at hus
      subst hbyUs
      refine ⟨rfl, fun e' he' => h.terminal e' (List.mem_cons_of_mem _ he'), ?_, ?_,
        hlast.mp h.closedLast⟩
      · simpa [Event.resetBy] using hus
      · simpa [List.countP_cons, Event.resetBy, hp] using h.byPeer
    · rintro ⟨rfl, h⟩
      refine ⟨?_, ?_, ?_, hlast.mpr h.closedLast⟩
      · simpa [hterm] using h.terminal
      · simpa [List.countP_cons, Event.resetBy, he, hp] using h.byUs
      · simpa [List.countP_cons, Event.resetBy, hp] using h.byPeer

end StreamEnds

namespace Phase

variable {byUs byPeer : Bool} {e : Event} {es : List Event}

theorem next_reset (he : e.type = .streamReset) : (Phase.opened byUs byPeer).next e =
    if e.byPeer then if byPeer then none else some (.opened byUs true)
    else if byUs then none else some (.opened true byPeer) := by
  unfold next
  cases byUs <;> cases byPeer <;> simp [he]

theorem next_closed (he : e.type = .streamClosed) :
    (Phase.opened byUs byPeer).next e = some .closed := by
  unfold next
  cases byUs <;> cases byPeer <;> simp [he]

/-- A stream is opened first. -/
theorem next_fresh {q : Phase} :
    Phase.fresh.next e = some q ↔ e.type = .streamOpened ∧ q = .opened false false := by
  unfold next
  cases ht : e.type <;> simp [eq_comm]

theorem next_data (he : e.type.isData = true) (h : byUs = false ∧ byPeer = false) :
    (Phase.opened byUs byPeer).next e = some (.opened false false) := by
  obtain ⟨rfl, rfl⟩ := h
  unfold next
  cases ht : e.type <;> simp_all [EventType.isData]

theorem after_data (h : ∀ e ∈ es, e.type.isData = true) :
    (Phase.opened false false).after es = some (.opened false false) := by
  induction es with
  | nil => rfl
  | cons e es ih =>
    rw [after_cons, next_data (h e List.mem_cons_self) ⟨rfl, rfl⟩]
    exact ih fun e' he' => h e' (List.mem_cons_of_mem _ he')

/-- Nothing else can follow behind the opening. -/
theorem next_opened {q : Phase} (h : (Phase.opened byUs byPeer).next e = some q) :
    (e.type.isData = true ∧ byUs = false ∧ byPeer = false) ∨ e.type = .streamReset ∨
      e.type = .streamClosed := by
  unfold next at h
  cases ht : e.type <;> cases byUs <;> cases byPeer <;> simp_all [EventType.isData]

/-- Behind the opening come readable and writable, unless a side has reset the stream, and then
the ends. -/
theorem accepts_opened_iff : Accepts (.opened byUs byPeer) es ↔
    ∃ data ends, es = data ++ ends ∧ (∀ e ∈ data, e.type.isData = true) ∧
      (data ≠ [] → byUs = false ∧ byPeer = false) ∧ StreamEnds byUs byPeer ends := by
  induction es generalizing byUs byPeer with
  | nil =>
    refine iff_of_true rfl ⟨[], [], rfl, List.forall_mem_nil _, fun h => absurd rfl h, .nil⟩
  | cons e es ih =>
    -- behind a reset only ends follow
    have hends {u p : Bool} (hset : (u || p) = true) :
        Accepts (.opened u p) es ↔ StreamEnds u p es := by
      rw [ih]
      constructor
      · rintro ⟨data, ends, rfl, -, hlive, hends⟩
        cases data with
        | nil => exact hends
        | cons d data =>
          obtain ⟨rfl, rfl⟩ := hlive (List.cons_ne_nil _ _)
          cases hset
      · exact fun h => ⟨[], es, rfl, List.forall_mem_nil _, fun h => absurd rfl h, h⟩
    have hreset (he : e.type = .streamReset) :
        (∃ q, (Phase.opened byUs byPeer).next e = some q ∧ q.Accepts es) ↔
          StreamEnds byUs byPeer (e :: es) := by
      rw [next_reset he, StreamEnds.reset_cons he]
      cases e.byPeer with
      | true => cases byPeer <;> simp [hends]
      | false => cases byUs <;> simp [hends]
    rw [accepts_cons]
    constructor
    · rintro ⟨q, hq, hacc⟩
      rcases next_opened hq with ⟨hdata, hlive⟩ | he | hclosed
      · rw [next_data hdata hlive, Option.some.injEq] at hq
        subst hq
        obtain ⟨rfl, rfl⟩ := hlive
        obtain ⟨data, ends, rfl, hall, -, hends⟩ := ih.mp hacc
        refine ⟨e :: data, ends, rfl, ?_, fun _ => ⟨rfl, rfl⟩, hends⟩
        simpa [hdata] using hall
      · refine ⟨[], e :: es, rfl, List.forall_mem_nil _, fun h => absurd rfl h, ?_⟩
        exact (hreset he).mp ⟨q, hq, hacc⟩
      · refine ⟨[], e :: es, rfl, List.forall_mem_nil _, fun h => absurd rfl h, ?_⟩
        rw [next_closed hclosed, Option.some.injEq] at hq
        subst hq
        exact (StreamEnds.closed_cons hclosed).mpr (accepts_closed.mp hacc)
    · rintro ⟨data, ends, heq, hall, hlive, hends⟩
      cases data with
      | nil =>
        obtain rfl : e :: es = ends := heq
        have hterm := hends.terminal e List.mem_cons_self
        cases ht : e.type with
        | streamReset => exact (hreset ht).mpr hends
        | streamClosed =>
          exact ⟨.closed, next_closed ht, accepts_closed.mpr ((StreamEnds.closed_cons ht).mp hends)⟩
        | _ => rw [ht] at hterm; cases hterm
      | cons d data =>
        obtain ⟨rfl, rfl⟩ := List.cons.inj heq
        have hd := hall e List.mem_cons_self
        refine ⟨_, next_data hd (hlive (List.cons_ne_nil _ _)), ?_⟩
        obtain ⟨rfl, rfl⟩ := hlive (List.cons_ne_nil _ _)
        exact ih.mpr ⟨data, ends, rfl, fun e' he' => hall e' (List.mem_cons_of_mem _ he'),
          fun _ => ⟨rfl, rfl⟩, hends⟩

/-- The automaton accepts the lists of the protocol. -/
theorem accepts_fresh_iff : Accepts .fresh es ↔ StreamProtocol es := by
  unfold StreamProtocol
  cases es with
  | nil => exact iff_of_true rfl (.inl rfl)
  | cons e es =>
    rw [accepts_cons, or_iff_right (List.cons_ne_nil e es)]
    constructor
    · rintro ⟨q, hq, hacc⟩
      obtain ⟨hfirst, rfl⟩ := next_fresh.mp hq
      obtain ⟨data, ends, rfl, hall, -, hends⟩ := accepts_opened_iff.mp hacc
      exact ⟨e, data, ends, rfl, hfirst, hall, hends⟩
    · rintro ⟨first, data, ends, heq, hfirst, hall, hends⟩
      obtain ⟨rfl, rfl⟩ := List.cons.inj heq
      exact ⟨_, next_fresh.mpr ⟨hfirst, rfl⟩,
        accepts_opened_iff.mpr ⟨data, ends, rfl, hall, fun _ => ⟨rfl, rfl⟩, hends⟩⟩

end Phase

end PhpQuic
