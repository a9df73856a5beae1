import PhpQuic.Connection.Methods
import PhpQuic.Lib.Chain

/-!
# The event queue

`src/queue.c`: a list of nodes in the heap, with a pointer to its first and to its last node. Where
the functions follow a pointer that is not allocated, the result is `none`. The address of a new node
is what `emalloc` answers, and an input; `fresh` says that it is not in use. Left out are the
references to the text of an event.

* `Represents s nodes`: the queue of `s` is well formed and has these nodes, in their order.
* `push_represents`, `pop_represents`: one call. `run_represents`: any sequence of calls.
* `eventQueue_fifo`: the queue is a FIFO list, and draining it empties it.
* `Holds.pushEvent`, `Holds.drainEvents`: `Connection.events` is the list of the queue.
-/

namespace PhpQuic

open Chain

/-! ## The functions of the source -/

/-- `php_quic_event_queue`. -/
structure EventQueue where
  head : Option Nat
  tail : Option Nat
  size : UInt32
  deriving DecidableEq

/-- A queue and the heap with its nodes (`php_quic_event_node`). -/
structure QueueState where
  queue : EventQueue
  heap : Heap Event

namespace EventQueue

/-- `php_quic_event_queue_init`. -/
def init : EventQueue := { head := none, tail := none, size := 0 }

/-- `php_quic_event_queue_push`; the new node is at `node`. -/
def push (s : QueueState) (event : Event) (node : Nat) : Option QueueState :=
  let q := s.queue
  let heap := Function.update s.heap node (some ⟨event, none⟩)
  match q.tail with
  | some tail =>
    (heap tail).map fun last =>
      ⟨{ q with tail := some node, size := q.size + 1 },
        Function.update heap tail (some ⟨last.val, some node⟩)⟩
  | none => some ⟨{ head := some node, tail := some node, size := q.size + 1 }, heap⟩

/-- `php_quic_event_queue_pop`, with the event if there is one. -/
def pop (s : QueueState) : Option (QueueState × Option Event) :=
  let q := s.queue
  match q.head with
  | none => some (s, none)
  | some node =>
    (s.heap node).map fun first =>
      (⟨{ head := first.next, tail := if first.next.isNone then none else q.tail, size := q.size - 1 },
        Function.update s.heap node none⟩, some first.val)

/-- The loop of `drainEvents`, at most `fuel` calls of `pop`. -/
def drain : Nat → QueueState → Option (QueueState × List Event)
  | 0, _ => none
  | fuel + 1, s =>
    match pop s with
    | none => none
    | some (s, none) => some (s, [])
    | some (s, some event) => (drain fuel s).map fun r => (r.1, event :: r.2)

end EventQueue

/-- A call, with the address of the node that `push` allocates. -/
inductive QueueCall where
  | push (event : Event) (node : Nat)
  | pop

/-- What a call pushes. -/
def QueueCall.pushed : QueueCall → Option Event
  | .push event _ => some event
  | .pop => none

namespace QueueState

/-- One call, and the event that it pops. -/
def step (s : QueueState) : QueueCall → Option (QueueState × Option Event)
  | .push event node => (EventQueue.push s event node).map fun s => (s, none)
  | .pop => EventQueue.pop s

/-- The calls in their order, and the events that they pop. -/
def run (s : QueueState) : List QueueCall → Option (QueueState × List Event)
  | [] => some (s, [])
  | c :: cs =>
    (s.step c).bind fun r => (r.1.run cs).map fun r' => (r'.1, r.2.toList ++ r'.2)

/-- `emalloc` answers with an address that is not in use, in every call. -/
def fresh (s : QueueState) : List QueueCall → Bool
  | [] => true
  | c :: cs =>
    (match c with
      | .push _ node => (s.heap node).isNone
      | .pop => true) &&
    match s.step c with
    | some r => r.1.fresh cs
    | none => true

/-! ## The nodes of a queue -/

/-- The queue is well formed, and `nodes` are its nodes (address and event) in their order. -/
structure Represents (s : QueueState) (nodes : List (Nat × Event)) : Prop where
  links : Links s.heap s.queue.head nodes none
  tail : s.queue.tail = (nodes.map Prod.fst).getLast?
  null : s.queue.head = none ↔ s.queue.tail = none
  size : s.queue.size.toNat = nodes.length % 4294967296

variable {s s' : QueueState} {nodes : List (Nat × Event)} {event : Event} {node : Nat}

theorem represents_init (heap : Heap Event) : Represents ⟨.init, heap⟩ [] :=
  ⟨rfl, rfl, Iff.rfl, rfl⟩

theorem push_represents (h : s.Represents nodes) (hfree : s.heap node = none) (event : Event) :
    ∃ s', EventQueue.push s event node = some s' ∧ s'.Represents (nodes ++ [(node, event)]) := by
  have hsize : (s.queue.size + 1).toNat = (nodes ++ [(node, event)]).length % 4294967296 := by
    have h' := h.size
    rw [UInt32.toNat_add, List.length_append, List.length_singleton]
    simp
    omega
  rcases List.eq_nil_or_concat' nodes with rfl | ⟨front, ⟨last, lastEvent⟩, rfl⟩
  · have htail : s.queue.tail = none := h.tail
    refine ⟨_, by rw [EventQueue.push, htail], ⟨rfl, none, ?_, rfl⟩, rfl, by simp, hsize⟩
    exact Function.update_self ..
  · have htail : s.queue.tail = some last := by rw [h.tail]; simp
    have hlast : s.heap last ≠ none := h.links.allocated (by simp)
    have hne : last ≠ node := by
      rintro rfl
      exact hlast hfree
    obtain ⟨m, -, rfl, next, hcell, hnext⟩ := links_append.mp h.links
    have hpush : EventQueue.push s event node =
        some ⟨⟨s.queue.head, some node, s.queue.size + 1⟩,
          Function.update (Function.update s.heap node (some ⟨event, none⟩)) last
            (some ⟨lastEvent, some node⟩)⟩ := by
      rw [EventQueue.push, htail]
      simp only [Function.update_of_ne hne, hcell, Option.map_some]
    refine ⟨_, hpush, h.links.snoc hfree, ?_, ?_, hsize⟩
    · simp
    · have hhead : s.queue.head ≠ none := fun h0 => by
        rw [h.null.mp h0] at htail
        cases htail
      simpa using hhead

theorem pop_empty (h : s.Represents []) : EventQueue.pop s = some (s, none) ∧ s.queue = .init := by
  have hhead : s.queue.head = none := h.links
  refine ⟨by rw [EventQueue.pop, hhead], ?_⟩
  obtain ⟨⟨head, tail, size⟩, heap⟩ := s
  obtain rfl : tail = none := h.tail
  obtain rfl : head = none := hhead
  obtain rfl : size = 0 := UInt32.toNat_inj.mp h.size
  rfl

theorem pop_represents (h : s.Represents ((node, event) :: nodes)) :
    ∃ s', EventQueue.pop s = some (s', some event) ∧ s'.Represents nodes ∧
      s'.heap = Function.update s.heap node none := by
  have hhead : s.queue.head = some node := h.links.1
  obtain ⟨next, hcell, hlinks⟩ := h.links.tail
  have hpop : EventQueue.pop s =
      some (⟨⟨next, if next.isNone then none else s.queue.tail, s.queue.size - 1⟩,
        Function.update s.heap node none⟩, some event) := by
    rw [EventQueue.pop, hhead]
    simp only [hcell, Option.map_some]
  refine ⟨_, hpop, ?_, rfl⟩
  have hsize : (s.queue.size - 1).toNat = nodes.length % 4294967296 := by
    have h' := h.size
    have hlt := s.queue.size.toNat_lt
    rw [List.length_cons] at h'
    rw [UInt32.toNat_sub]
    simp
    omega
  -- the last node is gone if and only if it was the only one
  cases nodes with
  | nil =>
    obtain rfl : next = none := hlinks
    exact ⟨rfl, rfl, by simp, hsize⟩
  | cons c nodes =>
    obtain rfl : next = some c.1 := hlinks.1
    have htail : s.queue.tail = ((c :: nodes).map Prod.fst).getLast? := by
      rw [h.tail]
      rfl
    refine ⟨hlinks, htail, ?_, hsize⟩
    show some c.1 = none ↔ s.queue.tail = none
    rw [htail]
    simp

/-! ## Any sequence of calls -/

theorem step_represents (h : s.Represents nodes) (c : QueueCall)
    (hfresh : s.fresh [c] = true) :
    ∃ s' event nodes', s.step c = some (s', event) ∧ s'.Represents nodes' ∧
      event.toList ++ nodes'.map Prod.snd = nodes.map Prod.snd ++ c.pushed.toList := by
  cases c with
  | push event node =>
    have hfree : s.heap node = none := by
      simp only [fresh, Bool.and_eq_true] at hfresh
      exact Option.isNone_iff_eq_none.mp hfresh.1
    obtain ⟨s', hpush, h'⟩ := push_represents h hfree event
    refine ⟨s', none, _, by rw [step, hpush]; rfl, h', ?_⟩
    simp [QueueCall.pushed]
  | pop =>
    cases nodes with
    | nil => exact ⟨s, none, [], (pop_empty h).1, h, rfl⟩
    | cons c nodes =>
      obtain ⟨node, event⟩ := c
      obtain ⟨s', hpop, h', -⟩ := pop_represents h
      refine ⟨s', some event, nodes, hpop, h', ?_⟩
      simp [QueueCall.pushed]

theorem fresh_cons {c : QueueCall} {cs : List QueueCall} (hfresh : s.fresh (c :: cs) = true) :
    s.fresh [c] = true ∧ ∀ s' event, s.step c = some (s', event) → s'.fresh cs = true := by
  simp only [fresh, Bool.and_eq_true] at hfresh ⊢
  obtain ⟨hc, hcs⟩ := hfresh
  refine ⟨⟨hc, ?_⟩, ?_⟩
  · cases s.step c with
    | none => rfl
    | some r => rfl
  · intro s' event heq
    rw [heq] at hcs
    exact hcs

/-- What has been popped, and then what is queued, is what has been pushed. -/
theorem run_represents (h : s.Represents nodes) (calls : List QueueCall)
    (hfresh : s.fresh calls = true) :
    ∃ s' popped nodes', s.run calls = some (s', popped) ∧ s'.Represents nodes' ∧
      popped ++ nodes'.map Prod.snd = nodes.map Prod.snd ++ calls.filterMap QueueCall.pushed := by
  induction calls generalizing s nodes with
  | nil => exact ⟨s, [], nodes, rfl, h, by simp⟩
  | cons c cs ih =>
    obtain ⟨hc, hcs⟩ := fresh_cons hfresh
    obtain ⟨s₁, event, nodes₁, hstep, h₁, heq₁⟩ := step_represents h c hc
    obtain ⟨s₂, popped, nodes₂, hrun, h₂, heq₂⟩ := ih h₁ (hcs s₁ event hstep)
    refine ⟨s₂, event.toList ++ popped, nodes₂, ?_, h₂, ?_⟩
    · rw [run, hstep, Option.bind_some, hrun]
      rfl
    · rw [List.append_assoc, heq₂, ← List.append_assoc, heq₁, List.append_assoc]
      cases hp : c.pushed <;> simp [hp]

/-- The loop ends, with any fuel that exceeds the number of nodes. -/
theorem drain_represents (h : s.Represents nodes) :
    ∃ heap, ∀ fuel > nodes.length,
      EventQueue.drain fuel s = some (⟨.init, heap⟩, nodes.map Prod.snd) := by
  induction nodes generalizing s with
  | nil =>
    obtain ⟨hpop, hinit⟩ := pop_empty h
    refine ⟨s.heap, fun fuel hfuel => ?_⟩
    cases fuel with
    | zero => exact absurd hfuel (Nat.not_lt_zero _)
    | succ fuel =>
      rw [EventQueue.drain, hpop, ← hinit]
      rfl
  | cons c nodes ih =>
    obtain ⟨node, event⟩ := c
    obtain ⟨s', hpop, h', -⟩ := pop_represents h
    obtain ⟨heap, hdrain⟩ := ih h'
    refine ⟨heap, fun fuel hfuel => ?_⟩
    cases fuel with
    | zero => exact absurd hfuel (Nat.not_lt_zero _)
    | succ fuel =>
      rw [EventQueue.drain, hpop]
      simp only [hdrain fuel (Nat.lt_of_succ_lt_succ hfuel), Option.map_some]
      rfl

end QueueState

/-- Any sequence of calls on an initialised queue: no call follows a dangling pointer, the queue is
well formed, the events that were popped and those that are queued are the ones that were pushed, in
this order; and `drainEvents` returns the queued ones and leaves an initialised queue, which takes
further events. -/
theorem eventQueue_fifo (heap : Heap Event) (calls : List QueueCall)
    (hfresh : QueueState.fresh ⟨.init, heap⟩ calls = true) :
    ∃ s popped nodes, QueueState.run ⟨.init, heap⟩ calls = some (s, popped) ∧ s.Represents nodes ∧
      popped ++ nodes.map Prod.snd = calls.filterMap QueueCall.pushed ∧
      ∃ heap', (∀ fuel > nodes.length,
          EventQueue.drain fuel s = some (⟨.init, heap'⟩, nodes.map Prod.snd)) ∧
        ∀ event node, heap' node = none → ∃ s', EventQueue.push ⟨.init, heap'⟩ event node = some s' ∧
          s'.Represents [(node, event)] := by
  obtain ⟨s, popped, nodes, hrun, h, heq⟩ :=
    QueueState.run_represents (QueueState.represents_init heap) calls hfresh
  obtain ⟨heap', hdrain⟩ := QueueState.drain_represents h
  refine ⟨s, popped, nodes, hrun, h, heq, heap', hdrain, ?_⟩
  intro event node hfree
  exact QueueState.push_represents (QueueState.represents_init heap') hfree event

/-- The queue is emptied, and an address is used again. -/
theorem eventQueue_fifo_refilled :
    let event (id : Int) : Event := ⟨.streamOpened, id, 0, false, none⟩
    let calls : List QueueCall :=
      [.push (event 0) 16, .push (event 4) 32, .pop, .pop, .pop, .push (event 8) 16]
    ∃ s nodes, QueueState.run ⟨.init, fun _ => none⟩ calls = some (s, [event 0, event 4]) ∧
      s.Represents nodes ∧ [event 0, event 4] ++ nodes.map Prod.snd = [event 0, event 4, event 8] := by
  intro event calls
  obtain ⟨s, popped, nodes, hrun, h, heq, -⟩ := eventQueue_fifo (fun _ => none) calls (by decide)
  have hpopped : popped = [event 0, event 4] := by
    have hout := congrArg (Option.map Prod.snd) hrun
    exact (Option.some.inj hout).symm
  subst hpopped
  exact ⟨s, nodes, hrun, h, heq⟩

/-! ## The list of the model -/

namespace QueueState

variable {s : QueueState} {events : List Event}

/-- The queue of `s` holds these events. -/
def Holds (s : QueueState) (events : List Event) : Prop :=
  ∃ nodes, s.Represents nodes ∧ nodes.map Prod.snd = events

theorem holds_createObject (heap : Heap Event) :
    Holds ⟨.init, heap⟩ Connection.createObject.events :=
  ⟨[], represents_init heap, rfl⟩

/-- `php_quic_connection_push_event`. -/
theorem Holds.pushEvent {c : Connection} (h : s.Holds c.events) {node : Nat}
    (hfree : s.heap node = none) (type : EventType) (streamId : Int) (errorCode : UInt64)
    (byPeer : Bool) (reason : Option Bytes) :
    ∃ s', EventQueue.push s ⟨type, streamId, errorCode, byPeer, reason.map cString⟩ node = some s' ∧
      s'.Holds (c.pushEvent type streamId errorCode byPeer reason).events := by
  obtain ⟨nodes, h, heq⟩ := h
  obtain ⟨s', hpush, h'⟩ := push_represents h hfree
    ⟨type, streamId, errorCode, byPeer, reason.map cString⟩
  refine ⟨s', hpush, _, h', ?_⟩
  rw [List.map_append, heq]
  rfl

/-- `Connection::drainEvents`. -/
theorem Holds.drainEvents {t : State} (h : s.Holds t.conn.events) :
    ∃ heap events, (∀ fuel > events.length,
        EventQueue.drain fuel s = some (⟨.init, heap⟩, events)) ∧
      (Connection.drainEvents t).2 = .returned events ∧
      Holds ⟨.init, heap⟩ (Connection.drainEvents t).1.conn.events := by
  obtain ⟨nodes, h, heq⟩ := h
  obtain ⟨heap, hdrain⟩ := drain_represents h
  refine ⟨heap, nodes.map Prod.snd, ?_, ?_, [], represents_init heap, rfl⟩
  · intro fuel hfuel
    rw [List.length_map] at hfuel
    exact hdrain fuel hfuel
  · rw [heq]
    rfl

end QueueState

end PhpQuic
