import PhpQuic.Events.Objects
import PhpQuic.Lib.Focus
import PhpQuic.Lib.Refs

/-!
# The texts of the events in memory

An event has a text, a string of PHP's engine that the queue, the event objects and PHP share. The
functions of `src/queue.c` and `src/event.c` take and drop references to it by hand. A function that
uses a string, or drops a reference to it, after it was freed is `none`. The strings are counted ones:
an interned string is never freed, and `zend_string_copy` and `zend_string_release` do nothing on it.

* `EventTexts`: the strings, the events of the queue, the event objects, and what PHP has.
* `setReason_spec`, `drain_spec`: the functions that hand references on.
* `Represents`: every string alive is counted as often as it is held, and the events and objects show
  the texts of `EventContents`. `Represents.step`: one call keeps it; `texts_in_memory`: any calls.

The engine calls `free_obj` once, when the last reference to an object is gone; a string is dropped by
PHP as often as PHP has it. The nodes of the queue are in `Events/Queue`.
-/

namespace PhpQuic

/-- `php_quic_event`, with a pointer to its text. -/
structure NativeEvent where
  type : EventType
  streamId : Int
  errorCode : UInt64
  byPeer : Bool
  reason : Option Nat

/-- An event object, with a pointer to its text. -/
abbrev NativeEventObject := EventObject (Option Nat)

/-- The arguments of `Event::__construct`; the reason is one of the strings that PHP has. -/
structure EventArgs where
  type : Int64
  streamId : Int64 := -1
  errorCode : Int64 := 0
  byPeer : Bool := false
  reason : Option Nat := none

/-- What `__construct` writes to the object besides the text. -/
def EventArgs.object {ρ : Type} (args : EventArgs) (ce : EventClass) (reason : ρ) : EventObject ρ where
  ce
  type := args.type.toUInt64.toUInt32
  streamId := args.streamId.toInt
  errorCode := args.errorCode.toUInt64
  byPeer := args.byPeer
  reason

/-- What `php_quic_event_create_object` writes to the object. -/
def EventObject.created {ρ : Type} (ce : EventClass) (reason : ρ) : EventObject ρ where
  ce
  type := EventType.code .streamOpened
  streamId := -1
  errorCode := 0
  byPeer := false
  reason

/-- The counted strings of the events, and who has them. -/
structure EventTexts where
  strings : Refs Bytes := .empty
  queue : List NativeEvent := []
  objects : List NativeEventObject := []
  /-- The references that PHP has. -/
  php : List Nat := []

/-- What is done with events. -/
inductive EventCall where
  | pushEvent (type : EventType) (streamId : Int) (errorCode : UInt64) (byPeer : Bool)
      (reason : Option Bytes)
  | drainEvents
  /-- `php_quic_event_queue_destroy`, when the connection is freed. -/
  | queueDestroy
  /-- `new` of an event class, before its constructor. -/
  | createObject (ce : EventClass)
  /-- `__construct` of the `i`-th object. -/
  | construct (i : Nat) (args : EventArgs)
  | getReason (i : Nat)
  | freeObject (i : Nat)
  /-- PHP makes a string. -/
  | string (data : Bytes)
  /-- PHP drops the `i`-th of its references. -/
  | drop (i : Nat)

namespace EventTexts

/-! ## The functions of the source -/

/-- `zend_string_init`, unless there is no text. -/
def init (s : Refs Bytes) (text : Option Bytes) : Refs Bytes × Option Nat :=
  match text with
  | none => (s, none)
  | some text =>
    let (s, p) := s.new text
    (s, some p)

/-- `zend_string_addref`, unless it is `NULL`. -/
def addref (s : Refs Bytes) (p : Option Nat) : Option (Refs Bytes) := p.elim (some s) s.addref

/-- `zend_string_release`, unless it is `NULL`. -/
def release (s : Refs Bytes) (p : Option Nat) : Option (Refs Bytes) := p.elim (some s) s.release

/-- The end of `php_quic_event_create_from_native` and of `Event::__construct`: the object drops the
text that it has, and takes a reference to another one, or an empty text. -/
def setReason (s : Refs Bytes) (old reason : Option Nat) : Option (Refs Bytes × Option Nat) :=
  (release s old).bind fun s =>
    match reason with
    | some p => (s.addref p).map fun s => (s, some p)
    | none => some (init s (some []))

/-- `php_quic_event_create_object`. -/
def createObject (s : Refs Bytes) (ce : EventClass) : Refs Bytes × NativeEventObject :=
  let (s, reason) := init s (some [])
  (s, .created ce reason)

/-- `php_quic_event_create_from_native`. -/
def createFromNative (s : Refs Bytes) (event : NativeEvent) :
    Option (Refs Bytes × NativeEventObject) :=
  let (s, object) := createObject s event.type.classForType
  (setReason s object.reason event.reason).map fun (s, reason) =>
    (s, { object with
      type := event.type.code
      streamId := event.streamId
      errorCode := event.errorCode
      byPeer := event.byPeer
      reason })

/-- `Event::__construct`. -/
def construct (s : Refs Bytes) (object : NativeEventObject) (args : EventArgs)
    (reason : Option Nat) : Option (Refs Bytes × NativeEventObject) :=
  (setReason s object.reason reason).map fun (s, reason) => (s, args.object object.ce reason)

/-- The loop of `Connection::drainEvents`. -/
def drain : List NativeEvent → Refs Bytes → Option (Refs Bytes × List NativeEventObject)
  | [], s => some (s, [])
  | event :: queue, s => do
    let (s, object) ← createFromNative s event
    -- `php_quic_event_release`
    let s ← release s event.reason
    let (s, objects) ← drain queue s
    return (s, object :: objects)

/-- `php_quic_event_queue_destroy`. -/
def destroy : List NativeEvent → Refs Bytes → Option (Refs Bytes)
  | [], s => some s
  | event :: queue, s => (release s event.reason).bind (destroy queue)

/-- `php_quic_connection_push_event`, with `php_quic_event_queue_push`. -/
def pushEvent (x : EventTexts) (type : EventType) (streamId : Int) (errorCode : UInt64)
    (byPeer : Bool) (reason : Option Bytes) : Option EventTexts := do
  let (strings, reason) := init x.strings (reason.map cString)
  let event : NativeEvent := { type, streamId, errorCode, byPeer, reason }
  let strings ← addref strings event.reason
  -- `php_quic_event_release` of the local variable
  let strings ← release strings event.reason
  return { x with strings, queue := x.queue ++ [event] }

/-- The effect of a call. -/
def step (x : EventTexts) : EventCall → Option EventTexts
  | .pushEvent type streamId errorCode byPeer reason =>
    x.pushEvent type streamId errorCode byPeer reason
  | .drainEvents =>
    (drain x.queue x.strings).map fun (strings, objects) =>
      { x with strings, queue := [], objects := x.objects ++ objects }
  | .queueDestroy =>
    (destroy x.queue x.strings).map fun strings => { x with strings, queue := [] }
  | .createObject ce =>
    let (strings, object) := createObject x.strings ce
    some { x with strings, objects := x.objects ++ [object] }
  | .construct i args =>
    match focus x.objects i, argument x.php args.reason with
    | some (before, object, behind), some reason =>
      (construct x.strings object args reason).map fun (strings, object) =>
        { x with strings, objects := before ++ object :: behind }
    | _, _ => some x
  | .getReason i =>
    match focus x.objects i with
    | none => some x
    | some (_, object, _) => do
      let p ← object.reason
      let strings ← x.strings.addref p
      return { x with strings, php := p :: x.php }
  | .freeObject i =>
    match focus x.objects i with
    | none => some x
    | some (before, object, behind) =>
      (release x.strings object.reason).map fun strings =>
        { x with strings, objects := before ++ behind }
  | .string data =>
    let (strings, p) := x.strings.new data
    some { x with strings, php := p :: x.php }
  | .drop i =>
    match focus x.php i with
    | none => some x
    | some (before, p, behind) =>
      (x.strings.release p).map fun strings => { x with strings, php := before ++ behind }

end EventTexts

/-! ## What the texts are -/

/-- The events and the objects with their texts, and the strings that PHP has. -/
structure EventContents where
  queue : List Event := []
  objects : List (EventObject Bytes) := []
  php : List Bytes := []
  deriving DecidableEq

/-- The effect of a call, on the lists of the model of the methods. -/
def EventContents.step (c : EventContents) : EventCall → EventContents
  | .pushEvent type streamId errorCode byPeer reason =>
    { c with
      queue := c.queue ++ [{ type, streamId, errorCode, byPeer, reason := reason.map cString }] }
  | .drainEvents =>
    { c with queue := [], objects := c.objects ++ c.queue.map Event.createFromNative }
  | .queueDestroy => { c with queue := [] }
  | .createObject ce => { c with objects := c.objects ++ [.created ce []] }
  | .construct i args =>
    match focus c.objects i, argument c.php args.reason with
    | some (before, object, behind), some reason =>
      { c with objects := before ++ args.object object.ce (reason.getD []) :: behind }
    | _, _ => c
  | .getReason i =>
    match focus c.objects i with
    | none => c
    | some (_, object, _) => { c with php := object.reason :: c.php }
  | .freeObject i =>
    match focus c.objects i with
    | none => c
    | some (before, _, behind) => { c with objects := before ++ behind }
  | .string data => { c with php := data :: c.php }
  | .drop i =>
    match focus c.php i with
    | none => c
    | some (before, _, behind) => { c with php := before ++ behind }

namespace EventTexts

variable {s s' : Refs Bytes} {l l' : List Nat}

/-- The event is this one, with its text in memory. -/
structure ShowsEvent (s : Refs Bytes) (n : NativeEvent) (e : Event) : Prop where
  fields : n = { type := e.type, streamId := e.streamId, errorCode := e.errorCode,
                 byPeer := e.byPeer, reason := n.reason }
  reason : Option.Rel (fun p text => s.val p = some text) n.reason e.reason

/-- The object is this one, with its text in memory. -/
structure ShowsObject (s : Refs Bytes) (n : NativeEventObject) (o : EventObject Bytes) : Prop where
  fields : n = { ce := o.ce, type := o.type, streamId := o.streamId, errorCode := o.errorCode,
                 byPeer := o.byPeer, reason := n.reason }
  reason : ∃ p, n.reason = some p ∧ s.val p = some o.reason

theorem rel_imp {α β : Type} {R R' : α → β → Prop} {x : Option α} {y : Option β}
    (h : Option.Rel R x y) (hR : ∀ a b, R a b → R' a b) : Option.Rel R' x y := by
  cases h with
  | none => exact .none
  | some hab => exact .some (hR _ _ hab)

/-- The text is in memory; it is one of those that keep their values. -/
theorem ShowsEvent.text {n : NativeEvent} {e : Event} (h : ShowsEvent s n e) (hk : s.Keeps s' l)
    (hl : ∀ p ∈ n.reason, p ∈ l) :
    Option.Rel (fun p text => p ∈ l ∧ s'.val p = some text) n.reason e.reason := by
  have hr := h.reason
  generalize n.reason = r at hr hl ⊢
  generalize e.reason = t at hr ⊢
  cases hr with
  | none => exact .none
  | some hp => exact .some ⟨hl _ rfl, (hk _ (hl _ rfl)).trans hp⟩

theorem ShowsEvent.keep {n : NativeEvent} {e : Event} (h : ShowsEvent s n e) (hk : s.Keeps s' l)
    (hl : ∀ p ∈ n.reason, p ∈ l) : ShowsEvent s' n e :=
  ⟨h.fields, rel_imp (h.text hk hl) fun _ _ => And.right⟩

theorem ShowsObject.keep {n : NativeEventObject} {o : EventObject Bytes} (h : ShowsObject s n o)
    (hk : s.Keeps s' l) (hl : ∀ p ∈ n.reason, p ∈ l) : ShowsObject s' n o := by
  obtain ⟨p, hp, hval⟩ := h.reason
  exact ⟨h.fields, p, hp, (hk p (hl p hp)).trans hval⟩

/-- A relation that holds between two lists, and follows for their elements. -/
theorem forall₂_of_mem {α β : Type} {R R' : α → β → Prop} {xs : List α} {ys : List β}
    (h : List.Forall₂ R xs ys) (hR : ∀ x ∈ xs, ∀ y, R x y → R' x y) : List.Forall₂ R' xs ys := by
  induction h with
  | nil => exact .nil
  | cons hxy _ ih =>
    exact .cons (hR _ List.mem_cons_self _ hxy) (ih fun x hx => hR x (List.mem_cons_of_mem _ hx))

theorem filterMap_cons_toList {α : Type} (f : α → Option Nat) (x : α) (xs : List α) :
    (x :: xs).filterMap f = (f x).toList ++ xs.filterMap f := by
  rw [List.filterMap_cons]
  cases f x <;> rfl

/-! ## The functions -/

theorem init_spec (h : s.Held l) (text : Bytes) : ∃ p, (init s (some text)).2 = some p ∧
    (init s (some text)).1.Held (p :: l) ∧ (init s (some text)).1.val p = some text ∧
      s.Keeps (init s (some text)).1 l := ⟨_, rfl, h.new text⟩

theorem release_spec {p : Option Nat} (h : s.Held (p.toList ++ l)) :
    Defined (release s p) fun s' => s'.Held l ∧ s.Keeps s' l := by
  cases p with
  | none => exact .pure ⟨h, fun _ _ => rfl⟩
  | some p => exact h.release

/-- The object has a new text, and nobody else's is touched. -/
theorem setReason_spec {old reason : Option Nat} {text : Option Bytes} (h : s.Held (old.toList ++ l))
    (hr : Option.Rel (fun p text => p ∈ l ∧ s.val p = some text) reason text) :
    Defined (setReason s old reason) fun r => ∃ p, r.2 = some p ∧ r.1.Held (p :: l) ∧
      r.1.val p = some (text.getD []) ∧ s.Keeps r.1 l := by
  refine (release_spec h).bind fun s₁ ⟨h₁, hk₁⟩ => ?_
  cases hr with
  | none =>
    obtain ⟨p, hp, h₂, hval, hk₂⟩ := init_spec h₁ []
    exact .pure ⟨p, hp, h₂, hval, hk₁.trans hk₂⟩
  | some hp =>
    rename_i p text
    refine (h₁.addref hp.1).map fun s₂ ⟨h₂, hk₂⟩ => ⟨p, rfl, h₂, ?_, ?_⟩
    · rw [hk₂, hk₁ p hp.1]
      exact hp.2
    · exact hk₁.trans fun q _ => hk₂ q

/-- A new object has the text of an event that the queue holds. -/
theorem createFromNative_spec {n : NativeEvent} {e : Event} (h : s.Held (n.reason.toList ++ l))
    (hn : ShowsEvent s n e) : Defined (createFromNative s n) fun r =>
      r.1.Held (r.2.reason.toList ++ (n.reason.toList ++ l)) ∧
        ShowsObject r.1 r.2 e.createFromNative ∧ s.Keeps r.1 (n.reason.toList ++ l) := by
  obtain ⟨p, hp, h₁, -, hk₁⟩ := init_spec h []
  have htext := hn.text hk₁ (by simp +contextual)
  have hold : (init s (some [])).1.Held
      ((init s (some [])).2.toList ++ (n.reason.toList ++ l)) := by rw [hp]; exact h₁
  refine (setReason_spec hold htext).map fun ⟨s₂, r⟩ ⟨q, hq, h₂, hval, hk₂⟩ => ?_
  obtain rfl : r = some q := hq
  refine ⟨h₂, ⟨?_, q, rfl, hval⟩, hk₁.trans hk₂⟩
  rw [hn.fields]
  rfl

theorem construct_spec {o : NativeEventObject} {reason : Option Nat} {text : Option Bytes}
    (args : EventArgs) (h : s.Held (o.reason.toList ++ l))
    (hr : Option.Rel (fun p text => p ∈ l ∧ s.val p = some text) reason text) :
    Defined (construct s o args reason) fun r => ∃ p, r.2 = args.object o.ce (some p) ∧
      r.1.Held (p :: l) ∧ r.1.val p = some (text.getD []) ∧ s.Keeps r.1 l := by
  refine (setReason_spec h hr).map fun ⟨s₁, r⟩ ⟨p, hp, h₁, hval, hk⟩ => ⟨p, ?_, h₁, hval, hk⟩
  cases hp
  rfl

/-- The queue's references go to the objects. -/
theorem drain_spec {queue : List NativeEvent} {events : List Event}
    (h : s.Held (queue.filterMap NativeEvent.reason ++ l))
    (hq : List.Forall₂ (ShowsEvent s) queue events) : Defined (drain queue s) fun r =>
      r.1.Held (r.2.filterMap EventObject.reason ++ l) ∧
        List.Forall₂ (ShowsObject r.1) r.2 (events.map Event.createFromNative) ∧
          s.Keeps r.1 l := by
  induction queue generalizing s l events with
  | nil =>
    cases hq
    exact .pure ⟨h, .nil, fun _ _ => rfl⟩
  | cons n queue ih =>
    obtain - | @⟨_, e, _, events, hn, hq⟩ := hq
    rw [filterMap_cons_toList, List.append_assoc] at h
    refine (createFromNative_spec h hn).bind fun ⟨s₁, o⟩ ⟨h₁, ho, hk₁⟩ => ?_
    have h₁ : s₁.Held (n.reason.toList ++ (o.reason.toList ++
        (queue.filterMap NativeEvent.reason ++ l))) :=
      h₁.of_count fun p => by simp only [List.count_append]; omega
    refine (release_spec h₁).bind fun s₂ ⟨h₂, hk₂⟩ => ?_
    have hk : s.Keeps s₂ (queue.filterMap NativeEvent.reason ++ l) :=
      (hk₁.subset (List.subset_append_right _ _)).trans
        (hk₂.subset (List.subset_append_right _ _))
    have h₂ : s₂.Held (queue.filterMap NativeEvent.reason ++ (o.reason.toList ++ l)) :=
      h₂.of_count fun p => by simp only [List.count_append]; omega
    have hq₂ : List.Forall₂ (ShowsEvent s₂) queue events :=
      forall₂_of_mem hq fun n' hmem e' hn' => hn'.keep hk fun p hp =>
        List.mem_append_left _ (List.mem_filterMap.mpr ⟨n', hmem, hp⟩)
    refine (ih h₂ hq₂).bind fun ⟨s₃, os⟩ ⟨h₃, hos, hk₃⟩ => .pure ⟨?_, ?_, ?_⟩
    · show s₃.Held ((o :: os).filterMap EventObject.reason ++ l)
      rw [filterMap_cons_toList]
      exact h₃.of_count fun p => by simp only [List.count_append]; omega
    · refine .cons ?_ hos
      have ho₂ := ho.keep hk₂ fun p hp => List.mem_append_left _ (Option.mem_toList.mpr hp)
      exact ho₂.keep hk₃ fun p hp => List.mem_append_left _ (Option.mem_toList.mpr hp)
    · exact (hk.subset (List.subset_append_right _ _)).trans
        (hk₃.subset (List.subset_append_right _ _))

theorem destroy_spec {queue : List NativeEvent}
    (h : s.Held (queue.filterMap NativeEvent.reason ++ l)) :
    Defined (destroy queue s) fun s' => s'.Held l ∧ s.Keeps s' l := by
  induction queue generalizing s with
  | nil => exact .pure ⟨h, fun _ _ => rfl⟩
  | cons n queue ih =>
    rw [filterMap_cons_toList, List.append_assoc] at h
    refine (release_spec h).bind fun s₁ ⟨h₁, hk₁⟩ => (ih h₁).mono fun s₂ ⟨h₂, hk₂⟩ => ⟨h₂, ?_⟩
    exact (hk₁.subset (List.subset_append_right _ _)).trans hk₂

/-! ## A call -/

variable {x : EventTexts} {c : EventContents}

/-- Every string alive is counted as often as the queue, the objects and PHP hold it, and the events,
the objects and PHP's strings are these. -/
structure Represents (x : EventTexts) (c : EventContents) : Prop where
  held : x.strings.Held (x.queue.filterMap NativeEvent.reason ++
    (x.objects.filterMap EventObject.reason ++ x.php))
  queue : List.Forall₂ (ShowsEvent x.strings) x.queue c.queue
  objects : List.Forall₂ (ShowsObject x.strings) x.objects c.objects
  php : List.Forall₂ (fun p text => x.strings.val p = some text) x.php c.php

theorem queue_keep {q : List NativeEvent} {es : List Event} (h : List.Forall₂ (ShowsEvent s) q es)
    (hk : s.Keeps s' (q.filterMap NativeEvent.reason)) : List.Forall₂ (ShowsEvent s') q es :=
  forall₂_of_mem h fun n hn _ hs => hs.keep hk fun _ hp => List.mem_filterMap.mpr ⟨n, hn, hp⟩

theorem objects_keep {os : List NativeEventObject} {os' : List (EventObject Bytes)}
    (h : List.Forall₂ (ShowsObject s) os os') (hk : s.Keeps s' (os.filterMap EventObject.reason)) :
    List.Forall₂ (ShowsObject s') os os' :=
  forall₂_of_mem h fun o ho _ hs => hs.keep hk fun _ hp => List.mem_filterMap.mpr ⟨o, ho, hp⟩

theorem php_keep {ps : List Nat} {texts : List Bytes}
    (h : List.Forall₂ (fun p text => s.val p = some text) ps texts) (hk : s.Keeps s' ps) :
    List.Forall₂ (fun p text => s'.val p = some text) ps texts :=
  forall₂_of_mem h fun p hp _ hv => (hk p hp).trans hv

theorem Represents.pushEvent (h : x.Represents c) (type : EventType) (streamId : Int)
    (errorCode : UInt64) (byPeer : Bool) (reason : Option Bytes) :
    Defined (x.pushEvent type streamId errorCode byPeer reason)
      (Represents · (c.step (.pushEvent type streamId errorCode byPeer reason))) := by
  cases reason with
  | none =>
    refine .pure ⟨h.held.of_count fun p => ?_, List.rel_append h.queue (.cons ⟨rfl, .none⟩ .nil),
      h.objects, h.php⟩
    simp
  | some text =>
    obtain ⟨p, hp, h₁, hval, hk₁⟩ := init_spec h.held (cString text)
    cases hp
    -- the node takes a reference, and the local variable drops its own
    refine (h₁.addref List.mem_cons_self).bind fun s₂ ⟨h₂, hk₂⟩ => ?_
    refine h₂.release.bind fun s₃ ⟨h₃, hk₃⟩ => .pure ?_
    have hk := (hk₁.trans fun q _ => hk₂ q).trans (hk₃.subset (List.subset_cons_self _ _))
    obtain ⟨hkq, hk⟩ := Refs.Keeps.append.mp hk
    obtain ⟨hko, hkp⟩ := Refs.Keeps.append.mp hk
    refine ⟨h₃.of_count fun q => ?_, ?_, objects_keep h.objects hko, php_keep h.php hkp⟩
    · simp only [List.filterMap_append, List.filterMap_cons, List.filterMap_nil, List.count_append,
        List.count_cons, List.count_nil]
      omega
    · refine List.rel_append (queue_keep h.queue hkq) (.cons ⟨rfl, .some ?_⟩ .nil)
      rw [hk₃ _ List.mem_cons_self, hk₂, hval]

theorem Represents.construct (h : x.Represents c) (i : Nat) (args : EventArgs) :
    Defined (x.step (.construct i args)) (Represents · (c.step (.construct i args))) := by
  unfold EventTexts.step EventContents.step
  simp only
  rcases focus_rel h.objects i with ⟨hx, hc⟩ |
    ⟨o, before, behind, o', before', behind', hx, hc, hxs, hbefore, ho, hbehind⟩
  · rw [hx, hc]
    exact .pure h
  rw [hx, hc]
  rcases argument_rel h.php args.reason with ⟨ha, ha'⟩ | ⟨r, r', ha, ha', hr⟩
  · rw [ha, ha']
    exact .pure h
  rw [ha, ha']
  have hheld : x.strings.Held (o.reason.toList ++ (x.queue.filterMap NativeEvent.reason ++
      ((before ++ behind).filterMap EventObject.reason ++ x.php))) := by
    refine h.held.of_count fun p => ?_
    rw [hxs]
    simp only [List.filterMap_append, filterMap_cons_toList, List.count_append]
    omega
  have hr : Option.Rel (fun p text => p ∈ x.queue.filterMap NativeEvent.reason ++
      ((before ++ behind).filterMap EventObject.reason ++ x.php) ∧ x.strings.val p = some text) r r' :=
    rel_imp hr fun p _ hp => ⟨by simp [hp.1], hp.2⟩
  refine (construct_spec args hheld hr).map fun ⟨s, new⟩ ⟨p, hp, hs, hval, hk⟩ => ?_
  obtain rfl : new = args.object o.ce (some p) := hp
  obtain ⟨hkq, hk⟩ := Refs.Keeps.append.mp hk
  obtain ⟨hko, hkp⟩ := Refs.Keeps.append.mp hk
  rw [List.filterMap_append] at hko
  obtain ⟨hkb, hkb'⟩ := Refs.Keeps.append.mp hko
  refine ⟨hs.of_count fun q => ?_, queue_keep h.queue hkq, ?_, php_keep h.php hkp⟩
  · simp only [List.filterMap_append, List.filterMap_cons, List.count_append, List.count_cons,
      EventArgs.object]
    omega
  · have hce : o.ce = o'.ce := by rw [ho.fields]
    refine List.rel_append (objects_keep hbefore hkb) (.cons ⟨?_, p, rfl, hval⟩
      (objects_keep hbehind hkb'))
    rw [hce]
    rfl

theorem Represents.step (h : x.Represents c) (call : EventCall) :
    Defined (x.step call) (Represents · (c.step call)) := by
  cases call with
  | pushEvent type streamId errorCode byPeer reason =>
    exact h.pushEvent type streamId errorCode byPeer reason
  | drainEvents =>
    refine (drain_spec h.held h.queue).map fun ⟨s, os⟩ ⟨hs, hos, hk⟩ => ?_
    obtain ⟨hko, hkp⟩ := Refs.Keeps.append.mp hk
    refine ⟨hs.of_count fun p => ?_, .nil, List.rel_append (objects_keep h.objects hko) hos,
      php_keep h.php hkp⟩
    simp only [List.filterMap_append, List.filterMap_nil, List.count_append, List.count_nil]
    omega
  | queueDestroy =>
    refine (destroy_spec h.held).map fun s ⟨hs, hk⟩ => ?_
    obtain ⟨hko, hkp⟩ := Refs.Keeps.append.mp hk
    exact ⟨hs, .nil, objects_keep h.objects hko, php_keep h.php hkp⟩
  | createObject ce =>
    obtain ⟨p, hp, h₁, hval, hk⟩ := init_spec h.held []
    cases hp
    obtain ⟨hkq, hk⟩ := Refs.Keeps.append.mp hk
    obtain ⟨hko, hkp⟩ := Refs.Keeps.append.mp hk
    refine .pure ⟨h₁.of_count fun q => ?_, queue_keep h.queue hkq, ?_, php_keep h.php hkp⟩
    · simp only [List.filterMap_append, List.filterMap_cons, List.filterMap_nil, List.count_append,
        List.count_cons, List.count_nil, EventObject.created]
      omega
    · exact List.rel_append (objects_keep h.objects hko) (.cons ⟨rfl, _, rfl, hval⟩ .nil)
  | construct i args => exact h.construct i args
  | getReason i =>
    unfold EventTexts.step EventContents.step
    simp only
    rcases focus_rel h.objects i with ⟨hx, hc⟩ |
      ⟨o, before, behind, o', before', behind', hx, hc, hxs, -, ho, -⟩
    · rw [hx, hc]
      exact .pure h
    rw [hx, hc]
    obtain ⟨p, hp, hval⟩ := ho.reason
    have hmem : p ∈ x.objects.filterMap EventObject.reason :=
      List.mem_filterMap.mpr ⟨o, by simp [hxs], hp⟩
    refine .bind_some hp ((h.held.addref (by simp [hmem])).bind fun s ⟨hs, hk⟩ => .pure ?_)
    refine ⟨hs.of_count fun q => ?_, queue_keep h.queue fun q _ => hk q,
      objects_keep h.objects fun q _ => hk q, .cons ((hk p).trans hval) (php_keep h.php fun q _ => hk q)⟩
    simp only [List.count_append, List.count_cons]
    omega
  | freeObject i =>
    unfold EventTexts.step EventContents.step
    simp only
    rcases focus_rel h.objects i with ⟨hx, hc⟩ |
      ⟨o, before, behind, o', before', behind', hx, hc, hxs, hbefore, -, hbehind⟩
    · rw [hx, hc]
      exact .pure h
    rw [hx, hc]
    have hheld : x.strings.Held (o.reason.toList ++ (x.queue.filterMap NativeEvent.reason ++
        ((before ++ behind).filterMap EventObject.reason ++ x.php))) := by
      refine h.held.of_count fun p => ?_
      rw [hxs]
      simp only [List.filterMap_append, filterMap_cons_toList, List.count_append]
      omega
    refine (release_spec hheld).map fun s ⟨hs, hk⟩ => ?_
    obtain ⟨hkq, hk⟩ := Refs.Keeps.append.mp hk
    obtain ⟨hko, hkp⟩ := Refs.Keeps.append.mp hk
    rw [List.filterMap_append] at hko
    obtain ⟨hkb, hkb'⟩ := Refs.Keeps.append.mp hko
    exact ⟨hs, queue_keep h.queue hkq,
      List.rel_append (objects_keep hbefore hkb) (objects_keep hbehind hkb'), php_keep h.php hkp⟩
  | string data =>
    obtain ⟨hs, hval, hk⟩ := h.held.new data
    obtain ⟨hkq, hk⟩ := Refs.Keeps.append.mp hk
    obtain ⟨hko, hkp⟩ := Refs.Keeps.append.mp hk
    have hs : (x.strings.new data).1.Held (x.queue.filterMap NativeEvent.reason ++
        (x.objects.filterMap EventObject.reason ++ (x.strings.new data).2 :: x.php)) := by
      refine hs.of_count fun q => ?_
      simp only [List.count_append, List.count_cons]
      omega
    exact .pure ⟨hs, queue_keep h.queue hkq, objects_keep h.objects hko,
      .cons hval (php_keep h.php hkp)⟩
  | drop i =>
    unfold EventTexts.step EventContents.step
    simp only
    rcases focus_rel h.php i with ⟨hx, hc⟩ |
      ⟨p, before, behind, text, before', behind', hx, hc, hxs, hbefore, -, hbehind⟩
    · rw [hx, hc]
      exact .pure h
    rw [hx, hc]
    have hheld : x.strings.Held (p :: (x.queue.filterMap NativeEvent.reason ++
        (x.objects.filterMap EventObject.reason ++ (before ++ behind)))) := by
      refine h.held.of_count fun q => ?_
      rw [hxs]
      simp only [List.count_append, List.count_cons]
      omega
    refine hheld.release.map fun s ⟨hs, hk⟩ => ?_
    obtain ⟨hkq, hk⟩ := Refs.Keeps.append.mp hk
    obtain ⟨hko, hkp⟩ := Refs.Keeps.append.mp hk
    obtain ⟨hkb, hkb'⟩ := Refs.Keeps.append.mp hkp
    exact ⟨hs, queue_keep h.queue hkq, objects_keep h.objects hko,
      List.rel_append (php_keep hbefore hkb) (php_keep hbehind hkb')⟩

/-- Whatever is done with the events of a connection, in any order: no text is used, or given up,
behind its end; the queue, the objects and PHP's strings have the texts that they should; and each
string alive is counted as often as these hold it, so that it is freed with the last of them. -/
theorem texts_in_memory (calls : List EventCall) :
    Defined (calls.foldlM EventTexts.step {}) fun x =>
      x.Represents (calls.foldl EventContents.step {}) ∧
        ∀ p, (x.strings.get p).isSome ↔ p ∈ x.queue.filterMap NativeEvent.reason ++
          (x.objects.filterMap EventObject.reason ++ x.php) := by
  have hstart : ({} : EventTexts).Represents (([] : List EventCall).foldl EventContents.step {}) :=
    ⟨.empty, .nil, .nil, .nil⟩
  have hrun := Defined.foldlM
    (I := fun (x : EventTexts) calls => x.Represents (calls.foldl EventContents.step {}))
    (fun x calls call hx => by
      rw [List.foldl_append]
      exact hx.step call) calls hstart
  exact hrun.mono fun x hx => ⟨hx, hx.held.alive⟩

end EventTexts

end PhpQuic
