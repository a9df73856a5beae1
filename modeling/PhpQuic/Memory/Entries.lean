import PhpQuic.Connection.EntrySteps
import PhpQuic.Memory.Strings

/-!
# The strings of a stream entry in memory

The two buffers of a `php_quic_stream_entry` as strings of PHP's engine, from
`php_quic_stream_entry_alloc` to `php_quic_stream_entry_ptr_dtor`, with the strings that
`Stream::read` has given to PHP.

* `EntryStrings`: the strings and what is done to them. `Contents`: what they hold.
* `Represents.step`, `Represents.dtor`: a call keeps to `Contents`, and the end frees both buffers.
* `Trace.stringCalls`: what a run of the model of the methods does to the strings of a stream.
* `entry_in_memory`: after every run the strings hold what the entry of the model holds.
-/

namespace PhpQuic

/-! ## The strings of an entry -/

/-- The strings of a `php_quic_stream_entry`, with what has come of them. -/
structure EntryStrings where
  store : Strings
  rxBuffer : Option Nat
  txBuffer : Option Nat
  /-- The strings that `Stream::read` has given to PHP, the last first. -/
  chunks : List Nat := []
  /-- The bytes that ngtcp2 was shown, the last first. -/
  offered : List Bytes := []

/-- What is done to the strings of an entry. -/
inductive EntryCall where
  /-- `php_quic_recv_stream_data_cb`. -/
  | recv (data : Bytes) (fill : Nat → UInt8)
  /-- `Stream::read`. -/
  | read (maxLen : Nat)
  /-- `Stream::write` and `Stream::end`. -/
  | write (data : Bytes) (fill : Nat → UInt8)
  /-- `php_quic_connection_pick_tx_stream`, and ngtcp2 reads what it was shown. -/
  | offer (txOffset : Nat)
  /-- `php_quic_connection_update_tx_entry` when all was taken, and
  `php_quic_connection_discard_tx_entry`. -/
  | clear

namespace EntryStrings

/-- `php_quic_stream_entry_alloc`. -/
def alloc : EntryStrings :=
  let (store, rx) := Strings.init .empty []
  let (store, tx) := Strings.init store []
  { store, rxBuffer := some rx, txBuffer := some tx }

/-- The effect of a call. -/
def step (x : EntryStrings) : EntryCall → Option EntryStrings
  | .recv data fill => do
    let (store, rxBuffer) ← x.store.append x.rxBuffer data fill
    return { x with store, rxBuffer }
  | .read maxLen =>
    match x.rxBuffer with
    | none => some x
    | some p => do
      let z ← x.store.get p
      -- the empty string that PHP has of its own
      if z.len = 0 then return x
      else
      let (store, rxBuffer, chunk) ← x.store.read x.rxBuffer maxLen
      return { x with store, rxBuffer, chunks := chunk :: x.chunks }
  | .write data fill => do
    let (store, txBuffer) ← x.store.append x.txBuffer data fill
    return { x with store, txBuffer }
  | .offer txOffset => do
    let p ← x.txBuffer
    let z ← x.store.get p
    if txOffset < z.len then
      let bytes ← x.store.bytesAt p txOffset (z.len - txOffset)
      return { x with offered := bytes :: x.offered }
    else return x
  | .clear =>
    match x.txBuffer with
    | none => some x
    | some p => do
      let store ← x.store.free p
      let (store, p) := Strings.init store []
      return { x with store, txBuffer := some p }

/-- `php_quic_stream_entry_ptr_dtor`. -/
def dtor (x : EntryStrings) : Option Strings := do
  let s ← Strings.release x.store x.rxBuffer
  Strings.release s x.txBuffer

end EntryStrings

/-- What the strings of an entry hold. -/
structure Contents where
  rxBuffer : Bytes := []
  txBuffer : Bytes := []
  chunks : List Bytes := []
  offered : List Bytes := []
  deriving DecidableEq

namespace Contents

/-- The effect of a call, on the lists of the model of the methods. -/
def step (c : Contents) : EntryCall → Contents
  | .recv data _ => { c with rxBuffer := bufferAppend c.rxBuffer data }
  | .read maxLen =>
    if c.rxBuffer.length = 0 then c
    else
      let (chunk, rest) := bufferRead c.rxBuffer maxLen
      { c with rxBuffer := rest, chunks := chunk :: c.chunks }
  | .write data _ => { c with txBuffer := bufferAppend c.txBuffer data }
  | .offer txOffset =>
    if txOffset < c.txBuffer.length then
      { c with offered := c.txBuffer.drop txOffset :: c.offered }
    else c
  | .clear => { c with txBuffer := [] }

end Contents

namespace EntryStrings

open Strings

variable {x : EntryStrings} {c : Contents}

/-- The strings are these bytes, and nothing else is alive. -/
structure Represents (x : EntryStrings) (c : Contents) : Prop where
  owns : x.store.Owns (x.rxBuffer.toList ++ (x.txBuffer.toList ++ x.chunks))
  rxBuffer : Holds x.store x.rxBuffer c.rxBuffer
  txBuffer : Holds x.store x.txBuffer c.txBuffer
  txBuffer_some : x.txBuffer.isSome
  chunks : List.Forall₂ (Contains x.store) x.chunks c.chunks
  offered : x.offered = c.offered

theorem alloc_represents : alloc.Represents {} := by
  have howns := init_owns (init_owns (.empty : Store.Owns (.empty : Strings) []) []) []
  refine ⟨howns.perm (List.Perm.swap _ _ _), ?_, init_contains _ [], rfl, .nil, rfl⟩
  exact (init_keeps (init_owns .empty []) []).contains List.mem_cons_self (init_contains _ [])

theorem Holds.keeps {s s' : Strings} {l : List Nat} {buffer : Option Nat} {bytes : Bytes}
    (h : Holds s buffer bytes) (hk : Keeps s s' l) (hl : ∀ p ∈ buffer, p ∈ l) :
    Holds s' buffer bytes := by
  cases buffer with
  | none => exact h
  | some p => exact hk.contains (hl p rfl) h

theorem chunks_keep {s s' : Strings} {l ps : List Nat} {bs : List Bytes}
    (h : List.Forall₂ (Contains s) ps bs) (hk : Keeps s s' l) (hl : ∀ p ∈ ps, p ∈ l) :
    List.Forall₂ (Contains s') ps bs := by
  induction h with
  | nil => exact .nil
  | cons hp _ ih =>
    refine .cons (hk.contains (hl _ List.mem_cons_self) hp) (ih fun p hmem => ?_)
    exact hl p (List.mem_cons_of_mem _ hmem)

theorem Represents.owns_tx (h : x.Represents c) :
    x.store.Owns (x.txBuffer.toList ++ (x.rxBuffer.toList ++ x.chunks)) :=
  h.owns.perm (List.perm_append_comm_assoc ..)

theorem Represents.step (h : x.Represents c) (call : EntryCall) :
    Defined (x.step call) (Represents · (c.step call)) := by
  cases call with
  | recv data fill =>
    refine (append_spec h.owns h.rxBuffer data fill).bind
      fun ⟨store, rxBuffer⟩ ⟨howns, hk, hrx, _⟩ => .pure ?_
    exact ⟨howns, hrx, Holds.keeps h.txBuffer hk (by simp +contextual), h.txBuffer_some,
      chunks_keep h.chunks hk (by simp +contextual), h.offered⟩
  | read maxLen =>
    unfold EntryStrings.step Contents.step
    have hrx := h.rxBuffer
    have howns := h.owns
    simp only
    cases hp : x.rxBuffer with
    | none =>
      rw [hp] at hrx
      rw [if_pos (by rw [show c.rxBuffer = [] from hrx]; rfl)]
      exact .pure h
    | some p =>
    rw [hp] at hrx howns
    refine .bind_some hrx ?_
    simp only
    split
    · exact .pure h
    · have howns : x.store.Owns ((some p).toList ++ _) := howns
      refine (read_spec howns hrx maxLen).bind
        fun ⟨store, rxBuffer, chunk⟩ ⟨howns, hk, hrest, hchunk⟩ => .pure ?_
      refine ⟨howns.perm ?_, hrest, Holds.keeps h.txBuffer hk (by simp +contextual),
        h.txBuffer_some, .cons hchunk (chunks_keep h.chunks hk (by simp +contextual)), h.offered⟩
      exact List.Perm.append_left _ (List.perm_middle.symm)
  | write data fill =>
    refine (append_spec h.owns_tx h.txBuffer data fill).bind
      fun ⟨store, txBuffer⟩ ⟨howns, hk, htx, hsome⟩ => .pure ?_
    exact ⟨howns.perm (List.perm_append_comm_assoc ..),
      Holds.keeps h.rxBuffer hk (by simp +contextual), htx, hsome h.txBuffer_some,
      chunks_keep h.chunks hk (by simp +contextual), h.offered⟩
  | offer txOffset =>
    obtain ⟨p, hp⟩ := Option.isSome_iff_exists.mp h.txBuffer_some
    have htx := h.txBuffer
    rw [hp] at htx
    refine .bind_some hp (.bind_some htx ?_)
    show Defined _ (Represents · (Contents.step _ _))
    unfold Contents.step
    simp only
    split
    · rename_i hlt
      refine .bind_some (bytesAt_contains htx (by omega)) (.pure ?_)
      rw [List.take_of_length_le (Nat.le_of_eq List.length_drop)]
      exact ⟨h.owns, h.rxBuffer, h.txBuffer, h.txBuffer_some, h.chunks,
        congrArg _ h.offered⟩
    · exact .pure h
  | clear =>
    obtain ⟨p, hp⟩ := Option.isSome_iff_exists.mp h.txBuffer_some
    have howns := h.owns_tx
    unfold EntryStrings.step Contents.step
    simp only
    rw [hp] at howns ⊢
    refine howns.free.bind fun s ⟨hs, hfree⟩ => .pure ?_
    have hk : Keeps x.store (init s []).1 (x.rxBuffer.toList ++ x.chunks) :=
      Keeps.trans hfree (init_keeps hs [])
    refine ⟨(init_owns hs []).perm (List.perm_append_comm_assoc [_] _ _),
      Holds.keeps h.rxBuffer hk (by simp +contextual), init_contains s [], rfl,
      chunks_keep h.chunks hk (by simp +contextual), h.offered⟩

/-- The strings that PHP was given are all that is left. -/
theorem Represents.dtor (h : x.Represents c) : Defined x.dtor fun s => s.Owns x.chunks ∧
    List.Forall₂ (Contains s) x.chunks c.chunks := by
  refine (release_spec h.owns).bind fun s ⟨hs, hk⟩ => ?_
  refine (release_spec hs).mono fun s' ⟨hs', hk'⟩ => ⟨hs', ?_⟩
  have hk'' : Keeps x.store s x.chunks := fun q hq => hk q (List.mem_append_right _ hq)
  exact chunks_keep h.chunks (hk''.trans hk') fun _ hmem => hmem

/-- Any calls keep to `Contents`. -/
theorem run_represents (calls : List EntryCall) :
    Defined (calls.foldlM EntryStrings.step .alloc)
      (EntryStrings.Represents · (calls.foldl Contents.step {})) := by
  have hstart : EntryStrings.alloc.Represents (([] : List EntryCall).foldl Contents.step {}) :=
    alloc_represents
  refine Defined.foldlM
    (I := fun (x : EntryStrings) calls => x.Represents (calls.foldl Contents.step {}))
    (fun x calls call hx => ?_) calls hstart
  rw [List.foldl_append]
  exact hx.step call

end EntryStrings

/-! ## Runs -/

/-- What a stream has: its buffers, and by the history what was read of it and shown to ngtcp2. -/
def Trace.readChunks (id : Int) : Trace → List Bytes
  | [] => []
  | .chunk i data :: t =>
    if i = id ∧ data ≠ [] then data :: readChunks id t else readChunks id t
  | _ :: t => readChunks id t

/-- The bytes of the stream that ngtcp2 was shown, the last first. -/
def Trace.shown (id : Int) : Trace → List Bytes
  | [] => []
  | .writev (some o) _ :: t =>
    if o.streamId = id ∧ o.data ≠ [] then o.data :: shown id t else shown id t
  | _ :: t => shown id t

/-- What the strings of a stream hold after a history. -/
def Contents.of (id : Int) (e : Option StreamEntry) (t : Trace) : Contents where
  rxBuffer := (e.getD (.alloc id)).rxBuffer
  txBuffer := (e.getD (.alloc id)).txBuffer
  chunks := t.readChunks id
  offered := t.shown id

/-- The answer makes the outgoing buffer a new string: an update when it was not empty and all of it
is taken, a discard in any case. -/
def StreamEntry.clears (e : StreamEntry) (o : Offer) (a : WritevAnswer) : Bool :=
  match a.effect with
  | .update _ => decide (e.txBuffer ≠ [] ∧ (e.answer o a).txBuffer = [])
  | .discard => true
  | .ignore => false

/-- What an act does to the strings of the stream, whose entry is `e`. -/
def Act.stringCalls (id : Int) (fill : Nat → UInt8) (e : StreamEntry) : Act → List EntryCall
  | .wrote i data | .ended i data => if i = id then [.write data fill] else []
  | .chunk i data => if i = id ∧ data ≠ [] then [.read data.length] else []
  | .callback (.recvStreamData _ i _ data) => if i = id then [.recv data fill] else []
  | .writev (some o) a =>
    if o.streamId = id then
      .offer e.txOffset :: if e.clears o a then [.clear] else []
    else []
  | _ => []

/-- What a history does to the strings of the stream; `fill` is what new bytes hold. -/
def Trace.stringCalls (conn : Option Role) (id : Int) (fill : Trace → Nat → UInt8) :
    Trace → List EntryCall
  | [] => []
  | a :: t => stringCalls conn id fill t ++
    a.stringCalls id (fill t) ((Trace.entry conn id t).getD (.alloc id))

theorem Act.stringCalls_of_other {a : Act} {id : Int} (h : a.concerns id = false)
    (fill : Nat → UInt8) (e : StreamEntry) : a.stringCalls id fill e = [] := by
  cases a with
  | wrote i data | ended i data => exact if_neg (of_decide_eq_false h)
  | chunk i data =>
    refine if_neg fun hi => ?_
    simp [concerns, hi.1, hi.2] at h
  | writev offer a =>
    cases offer with
    | none => rfl
    | some o => exact if_neg (of_decide_eq_false h)
  | callback cb =>
    cases cb with
    | recvStreamData fin i offset data =>
      refine if_neg fun hi => ?_
      simp [concerns, Callback.streamId?, hi] at h
    | _ => rfl
  | _ => rfl

theorem Trace.readChunks_cons {a : Act} {id : Int} (h : a.concerns id = false) (t : Trace) :
    Trace.readChunks id (a :: t) = t.readChunks id := by
  cases a with
  | chunk i data => simp_all [Act.concerns, readChunks]
  | _ => rfl

theorem Trace.shown_cons {a : Act} {id : Int} (h : a.concerns id = false) (t : Trace) :
    Trace.shown id (a :: t) = t.shown id := by
  cases a with
  | writev offer a =>
    cases offer with
    | none => rfl
    | some o => simp_all [Act.concerns, shown]
  | _ => rfl

/-- Nothing that does not concern the stream changes what its strings hold. -/
theorem Contents.of_append {as : List Act} {id : Int} (h : ∀ a ∈ as, a.concerns id = false)
    (e : Option StreamEntry) (t : Trace) : Contents.of id e (as ++ t) = Contents.of id e t := by
  induction as with
  | nil => rfl
  | cons a as ih =>
    obtain ⟨ha, has⟩ := List.forall_mem_cons.mp h
    rw [← ih has]
    unfold Contents.of
    rw [List.cons_append, Trace.readChunks_cons ha, Trace.shown_cons ha]

theorem Trace.stringCalls_append {as : List Act} {conn : Option Role} {id : Int}
    (h : ∀ a ∈ as, a.concerns id = false) (fill : Trace → Nat → UInt8) (t : Trace) :
    Trace.stringCalls conn id fill (as ++ t) = t.stringCalls conn id fill := by
  induction as with
  | nil => rfl
  | cons a as ih =>
    obtain ⟨ha, has⟩ := List.forall_mem_cons.mp h
    show stringCalls conn id fill (as ++ t) ++ a.stringCalls id _ _ = _
    rw [a.stringCalls_of_other ha, List.append_nil, ih has]

theorem StreamEntry.answer_txBuffer (o : Offer) (a : WritevAnswer) (e : StreamEntry) :
    (e.answer o a).txBuffer = if e.clears o a then [] else e.txBuffer := by
  unfold clears
  cases heff : a.effect with
  | update packetEmitted =>
    have htx : (e.answer o a).txBuffer =
        if decide (e.txBuffer.length ≤ e.txOffset + a.wdatalen.toNat) then [] else e.txBuffer := by
      unfold answer
      simp only [heff, woken_eq, updateTx_eq]
    rw [htx]
    by_cases hnil : e.txBuffer = []
    · simp [hnil]
    · split <;> simp [*]
  | discard =>
    unfold answer
    simp only [heff]
    rfl
  | ignore =>
    unfold answer
    simp only [heff]
    rfl

theorem StreamEntry.answer_rxBuffer (o : Offer) (a : WritevAnswer) (e : StreamEntry) :
    (e.answer o a).rxBuffer = e.rxBuffer := by
  obtain ⟨_, _, _, _, _, h⟩ := e.answer_rest o a
  rw [h]

/-- A change of the entry is what the calls do to the strings. -/
theorem EntryStep.contents {conn : Option Role} {id : Int} {e e' : Option StreamEntry}
    {t t' : Trace} {es : List Event} (h : EntryStep conn id e t e' t' es)
    (hentry : e = t.entry conn id) (fill : Trace → Nat → UInt8)
    (hc : (t.stringCalls conn id fill).foldl Contents.step {} = .of id e t) :
    (t'.stringCalls conn id fill).foldl Contents.step {} = .of id e' t' := by
  -- what one more act does
  have hcons (a : Act) : (Trace.stringCalls conn id fill (a :: t)).foldl Contents.step {} =
      (a.stringCalls id (fill t) (e.getD (.alloc id))).foldl Contents.step (.of id e t) := by
    show (t.stringCalls conn id fill ++ a.stringCalls id _ _).foldl Contents.step {} = _
    rw [List.foldl_append, hc, ← hentry]
  cases h with
  | other as has => rw [Trace.stringCalls_append has, hc, Contents.of_append has]
  | clamp =>
    rename_i e
    rw [hc]
    unfold StreamEntry.clampTxOffset Contents.of
    simp only [Option.getD_some]
    split <;> rfl
  | wrote data hclosed hsent hfin hlocal =>
    rw [hcons, Act.stringCalls, if_pos rfl]
    rfl
  | ended data hlocal =>
    rw [hcons, Act.stringCalls, if_pos rfl]
    rfl
  | reset => exact hcons _
  | read chunk rest hrx hchunk =>
    rename_i e
    have hpos : 0 < chunk.length := List.length_pos_iff.mpr hchunk
    rw [hcons, Act.stringCalls, if_pos ⟨rfl, hchunk⟩]
    have hlen : e.rxBuffer.length ≠ 0 := by rw [hrx, List.length_append]; omega
    have hread : bufferRead e.rxBuffer chunk.length = (chunk, rest) := by
      unfold bufferRead
      rw [if_neg (by omega), hrx]
      simp only [List.length_append]
      split
      · rw [List.take_left, List.drop_left]
      · have : rest = [] := List.length_eq_zero_iff.mp (by omega)
        subst this
        simp
    have hchunks : Trace.readChunks id (.chunk id chunk :: t) = chunk :: t.readChunks id :=
      if_pos ⟨rfl, hchunk⟩
    show Contents.step (.of id (some e) t) (.read chunk.length) = _
    unfold Contents.step Contents.of
    simp only [Option.getD_some]
    rw [if_neg hlen, hread, hchunks]
    rfl
  | returned bidi pending rv =>
    show ((Trace.stringCalls conn id fill (.openLocal bidi rv :: t)) ++ []).foldl _ _ = _
    rw [List.append_nil, hcons]
    rfl
  | openMatched => exact hcons _
  | answered o a hid hdata hfin hdue =>
    rename_i e
    rw [hcons, Act.stringCalls, if_pos hid]
    have hshown : Contents.step (.of id (some e) t) (.offer e.txOffset) =
        { Contents.of id (some e) t with offered := Trace.shown id (.writev (some o) a :: t) } := by
      have hlt : e.txOffset < e.txBuffer.length ↔ o.data ≠ [] := by
        rw [hdata, ← List.length_pos_iff, StreamEntry.unsent, List.length_drop]
        omega
      unfold Contents.step Contents.of
      simp only [Option.getD_some, hlt, Trace.shown, hid, true_and]
      split
      · rw [hdata]
        rfl
      · rfl
    have htarget : Contents.of id (some (e.answer o a)) (.writev (some o) a :: t) =
        { Contents.of id (some e) t with
          txBuffer := (e.answer o a).txBuffer
          offered := Trace.shown id (.writev (some o) a :: t) } := by
      unfold Contents.of
      rw [Option.getD_some, e.answer_rxBuffer]
      rfl
    rw [List.foldl_cons, Option.getD_some, hshown, htarget]
    rw [e.answer_txBuffer]
    split <;> rfl
  | callback cb hid =>
    rw [hcons]
    cases cb with
    | recvStreamData fin i offset data =>
      have hi : i = id := Option.some.inj hid
      rw [Act.stringCalls, if_pos hi]
      show Contents.step (.of id e t) (.recv data (fill t)) = _
      unfold Contents.step Contents.of
      simp only [bufferAppend_eq]
      rfl
    | handshakeCompleted => cases hid
    | streamOpen i => rfl
    | streamClose set i code => cases e <;> rfl
    | streamReset i size code => cases e <;> rfl
    | ackedStreamDataOffset i offset datalen =>
      cases e with
      | none => rfl
      | some e =>
        show Contents.of id (some e) t =
          .of id (some (e.react conn (.ackedStreamDataOffset i offset datalen))) t
        rw [StreamEntry.react_acked]
        rfl

/-- After every run the strings of a stream hold what its entry holds, whatever new bytes were
filled with; the strings that PHP was given are still what they were when they were read, and they
are all that is alive when the entry is gone. -/
theorem entry_in_memory (start : Start) (ops : List Op) (id : Int) (fill : Trace → Nat → UInt8) :
    Defined (((start.run ops).trace.stringCalls start.conn id fill).foldlM EntryStrings.step .alloc)
      fun x => x.Represents
          (.of id ((start.run ops).conn.getStreamEntry id) (start.run ops).trace) ∧
        Defined x.dtor fun s => s.Owns x.chunks ∧
          List.Forall₂ (Strings.Contains s) x.chunks ((start.run ops).trace.readChunks id) := by
  have hc : ((start.run ops).trace.stringCalls start.conn id fill).foldl Contents.step {} =
      .of id ((start.run ops).conn.getStreamEntry id) (start.run ops).trace := by
    refine ((Start.Passes.last start ops).inv (P := fun _ _ => True) (I := fun e t =>
      Replayed start.conn id e t ∧
        (t.stringCalls start.conn id fill).foldl Contents.step {} = .of id e t)
      (fun e t e' t' es hstep _ h => ?_) ⟨.nil _ _, rfl⟩ (fun _ _ _ => trivial)).2
    exact ⟨hstep.replayed h.1, hstep.contents h.1.entry fill h.2⟩
  refine (EntryStrings.run_represents _).mono fun x hx => ?_
  rw [hc] at hx
  exact ⟨hx, hx.dtor⟩

end PhpQuic
