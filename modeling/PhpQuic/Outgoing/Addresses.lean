import PhpQuic.Outgoing.Packets

/-!
# The addresses of the datagrams

For each packet ngtcp2 reports the path that it is to be sent on. The extension gives every datagram
the addresses that the connection object was made with; migration is not part of it, and no function
reads the reported path.

* `Move.datagram_eq`: no method changes the addresses of a connection.
* `Trace.builtOn`: the packets with their paths.
* `datagrams_addressed`: the datagrams of a call are the packets built in it, all to the one address.
  They are addressed to their paths if and only if ngtcp2 reports no path to another address.
-/

namespace PhpQuic

open Runs (Moves)

/-! ## The packets with their paths -/

/-- The packet that ngtcp2 has built, and the path that it reports for it. -/
def Act.packetOn : Act → Option (Bytes × Path)
  | .writev _ a =>
    match a.result with
    | .ok pkt => if pkt.length > 0 then some (pkt, a.path) else none
    | .error _ => none
  | .writeClose _ (.ok pkt) path => if pkt.length > 0 then some (pkt, path) else none
  | _ => none

/-- The packets that ngtcp2 has built and their paths, in their order. -/
def Trace.builtOn : Trace → List (Bytes × Path)
  | [] => []
  | a :: t => builtOn t ++ a.packetOn.toList

theorem Act.packetOn_fst (a : Act) : a.packetOn.map Prod.fst = a.packet := by
  cases a with
  | writev offer a =>
    simp only [packetOn, packet]
    cases a.result with
    | ok pkt =>
      simp only
      split <;> rfl
    | error e => rfl
  | writeClose ccerr rv path =>
    cases rv with
    | ok pkt =>
      simp only [packetOn, packet]
      split <;> rfl
    | error e => rfl
  | _ => rfl

theorem Trace.builtOn_fst (t : Trace) : (Trace.builtOn t).map Prod.fst = Trace.built t := by
  induction t with
  | nil => rfl
  | cons a t ih =>
    rw [builtOn, built, List.map_append, ih, ← a.packetOn_fst]
    cases a.packetOn <;> rfl

/-! ## The addresses do not change -/

/-- No move changes what a packet of the connection is handed out as. -/
theorem Move.datagram_eq {s s' : State} (h : Move s s') : s'.conn.datagram = s.conn.datagram := by
  have hmade := h.made_eq
  simp only [Connection.made, Prod.mk.injEq] at hmade
  obtain ⟨-, -, hremote, hlocal⟩ := hmade
  unfold Connection.datagram
  rw [hremote, hlocal]

namespace Connection

theorem writevStream_emit {s : State} {offer : Option Offer} {a : IterAnswer} {d : Datagram}
    (h : (writevStream s offer a).2 = .emit d) :
    d = (writevStream s offer a).1.conn.datagram d.payload := by
  rw [writevStream_eq] at h ⊢
  cases hr : a.writev.result with
  | ok pkt =>
    simp only [hr] at h ⊢
    by_cases hlen : pkt.length = 0
    · rw [if_pos hlen] at h
      cases h
    · rw [if_neg hlen] at h ⊢
      rw [← Verdict.emit.inj h]
      rfl
  | error e =>
    simp only [hr] at h
    split at h
    · cases h
    · split at h <;> cases h
    · cases h
    · split at h <;> cases h
    · rename_i heq
      cases heq

theorem drainIteration_emit {s : State} (hconn : s.conn.conn.isSome = true) {force : Bool}
    {a : IterAnswer} {d : Datagram} (h : (drainIteration s force a).2 = .emit d) :
    d = s.conn.datagram d.payload := by
  have hm := drainIteration_moves hconn force a
  have hkeep := Moves.keeps (f := fun s : State => s.conn.datagram) (fun _ _ hm => hm.datagram_eq) hm
  rw [← hkeep]
  unfold drainIteration at h ⊢
  simp only at h ⊢
  split at h
  · cases h
  · exact writevStream_emit h

/-- The datagrams that the loop adds to the array are made of the addresses of the connection. -/
theorem drainLoop_datagrams {s : State} (hconn : s.conn.conn.isSome = true) (force : Bool)
    (out : List Datagram) (as : List IterAnswer) {out' : List Datagram}
    (h : (drainLoop s force out as).2 = .stopped out')
    (hout : ∀ d ∈ out, d = s.conn.datagram d.payload) :
    ∀ d ∈ out', d = s.conn.datagram d.payload := by
  induction as generalizing s force out with
  | nil => cases h
  | cons a as ih =>
    have hm := drainIteration_moves hconn force a
    have hkeep := Moves.keeps (f := fun s : State => s.conn.datagram) (fun _ _ hm => hm.datagram_eq) hm
    have hconn' : (drainIteration s force a).1.conn.conn.isSome = true := by
      rw [Moves.keeps (f := fun s => s.conn.conn) (fun _ _ hm => hm.conn_eq) hm]
      exact hconn
    have hemit : ∀ d, (drainIteration s force a).2 = .emit d → d = s.conn.datagram d.payload :=
      fun d hd => drainIteration_emit hconn hd
    unfold drainLoop at h
    split at h
    · rename_i s' force' heq
      rw [heq] at hkeep hconn'
      rw [← hkeep] at hout ⊢
      exact ih hconn' force' out h hout
    · exact LoopEnd.stopped.inj h ▸ hout
    · cases h
    · rename_i s' d heq
      rw [heq] at hkeep hconn' hemit
      have hall : ∀ d' ∈ out ++ [d], d' = s.conn.datagram d'.payload := by
        intro d' hd'
        rcases List.mem_append.mp hd' with hd' | hd'
        · exact hout d' hd'
        · rw [List.mem_singleton.mp hd']
          exact hemit d rfl
      split at h
      · exact LoopEnd.stopped.inj h ▸ hall
      · rw [← hkeep] at hall ⊢
        exact ih hconn' false (out ++ [d]) h hall

theorem drainClose_datagrams {s : State} {a : CloseAnswer} {ds : List Datagram}
    (h : (drainClose s a).2 = .returned ds) : ∀ d ∈ ds, d = s.conn.datagram d.payload := by
  have hkeep := Moves.keeps (f := fun s : State => s.conn.datagram) (fun _ _ hm => hm.datagram_eq)
    (s.runCallbacks_moves a.callbacks)
  unfold drainClose at h
  cases hr : a.result with
  | ok pkt =>
    simp only [hr] at h
    obtain rfl := Result.returned.inj h
    rw [← hkeep]
    intro d hd
    split at hd
    · rw [List.mem_singleton.mp hd]
      rfl
    · cases hd
  | error e =>
    simp only [hr] at h
    split at h
    · obtain rfl := Result.returned.inj h
      exact List.forall_mem_nil _
    · cases h

/-- Every datagram of a call has the addresses of the connection. -/
theorem drainOutgoingDatagrams_datagrams {s : State} {a : DrainAnswers} {ds : List Datagram}
    (h : (drainOutgoingDatagrams s a).2 = .returned ds) :
    ∀ d ∈ ds, d = s.conn.datagram d.payload := by
  unfold drainOutgoingDatagrams at h
  split at h
  · obtain rfl := Result.returned.inj h
    exact List.forall_mem_nil _
  · rename_i hnone
    have hconn : s.conn.conn.isSome = true := by
      rw [Option.isSome_iff_ne_none]
      simpa using hnone
    split at h
    · exact drainClose_datagrams h
    · split at h
      · rename_i s' out heq
        have hstopped : (drainLoop s false [] a.loop).2 = .stopped out := by rw [heq]
        obtain rfl := Result.returned.inj h
        exact drainLoop_datagrams hconn false [] a.loop hstopped (List.forall_mem_nil _)
      · cases h
      · cases h

end Connection

/-! ## Datagrams and paths -/

/-- The address that the connection was made with. -/
def Start.remoteAddress (start : Start) : Option Address := start.base.conn.remoteAddress

/-- Each datagram is one of the packets, in their order, and its peer address resolves to the remote
address of the path of the packet. -/
def AddressedToPaths (getaddrinfo : Getaddrinfo) (ds : List Datagram)
    (packets : List (Bytes × Path)) : Prop :=
  List.Forall₂ (fun d p => d.payload = p.1 ∧
    addressToSockaddr getaddrinfo d.peerAddress = some p.2.remoteAddr) ds packets

/-- Datagrams to one address. -/
theorem addressedToPaths_iff {getaddrinfo : Getaddrinfo} {ds : List Datagram}
    {packets : List (Bytes × Path)} {address : Option Address}
    (hpayload : ds.map Datagram.payload = packets.map Prod.fst)
    (haddress : ∀ d ∈ ds, d.peerAddress = address) :
    AddressedToPaths getaddrinfo ds packets ↔
      ∀ p ∈ packets, addressToSockaddr getaddrinfo address = some p.2.remoteAddr := by
  unfold AddressedToPaths
  induction ds generalizing packets with
  | nil =>
    obtain rfl := List.map_eq_nil_iff.mp hpayload.symm
    exact iff_of_true .nil (List.forall_mem_nil _)
  | cons d ds ih =>
    cases packets with
    | nil => cases hpayload
    | cons p packets =>
      obtain ⟨hhead, htail⟩ := List.cons.inj hpayload
      obtain ⟨hd, hds⟩ := List.forall_mem_cons.mp haddress
      rw [List.forall₂_cons, ih htail hds, List.forall_mem_cons, hd]
      exact and_congr_left' (and_iff_right hhead)

/-- In every run, the datagrams of a call are the packets that ngtcp2 built in it, each with the
address that the connection was made with. So they are addressed to the paths that ngtcp2 reported
for them if and only if it reported none but to what that address resolves to. -/
theorem datagrams_addressed (start : Start) (ops : List Op) (a : DrainAnswers)
    {ds : List Datagram}
    (hreturned : (Connection.drainOutgoingDatagrams (start.run ops) a).2 = .returned ds) :
    let s := start.run ops
    let packets := Trace.builtOn (s.actsSince (step s (.drainOutgoingDatagrams a)))
    ds.map Datagram.payload = packets.map Prod.fst ∧
      (∀ d ∈ ds, d.peerAddress = start.remoteAddress) ∧
      ∀ getaddrinfo : Getaddrinfo, AddressedToPaths getaddrinfo ds packets ↔
        ∀ p ∈ packets, addressToSockaddr getaddrinfo start.remoteAddress = some p.2.remoteAddr := by
  intro s packets
  have hpayload : ds.map Datagram.payload = packets.map Prod.fst := by
    rw [Trace.builtOn_fst]
    rcases Connection.drainOutgoingDatagrams_acts s a with
      ⟨ds', hds', h⟩ | ⟨⟨e, he⟩, -⟩ | ⟨hrunning, -⟩
    · obtain rfl := Result.returned.inj (hreturned.symm.trans hds')
      exact h.actsSince.2.1.symm
    · exact absurd (hreturned.symm.trans he) (fun h => by cases h)
    · exact absurd (hreturned.symm.trans hrunning) (fun h => by cases h)
  have haddress : ∀ d ∈ ds, d.peerAddress = start.remoteAddress := by
    have hkeep := Moves.keeps (f := fun s : State => s.conn.datagram)
      (fun _ _ hm => hm.datagram_eq) (start.run_moves ops)
    intro d hd
    rw [Connection.drainOutgoingDatagrams_datagrams hreturned d hd, hkeep]
    rfl
  exact ⟨hpayload, haddress, fun _ => addressedToPaths_iff hpayload haddress⟩

/-- Resolves a host text to the address with these bytes. -/
def literalHosts : Getaddrinfo := fun host _ => some [{ family := .inet, addr := host }]

/-- The answers of a call that builds one packet, for the path. -/
def onePacket (path : Path) : DrainAnswers :=
  { loop := [{ writev := { result := .ok [7], path } }, { writev := { result := .ok [] } }] }

/-- The peer keeps its address. -/
theorem datagrams_addressed_samePeer :
    let peer : Address := { host := [49], port := 1 }
    let path : Path := { remoteAddr := { family := .inet, addr := [49] } }
    AddressedToPaths literalHosts [{ payload := [7], peerAddress := some peer, localAddress := none }]
      [([7], path)] := by
  intro peer path
  exact ((datagrams_addressed (.client path (some peer) none) [] (onePacket path)
    (by decide)).2.2 literalHosts).mpr (by decide)

/-- A client receives a datagram from another address of its peer, and ngtcp2 reports the path of
that datagram for its next packet: the datagram is addressed to the old one. -/
theorem datagram_misaddressed :
    ¬ ∀ (getaddrinfo : Getaddrinfo) (start : Start) (ops : List Op) (a : DrainAnswers)
        (ds : List Datagram),
      (Connection.drainOutgoingDatagrams (start.run ops) a).2 = .returned ds →
      AddressedToPaths getaddrinfo ds
        (Trace.builtOn ((start.run ops).actsSince
          (step (start.run ops) (.drainOutgoingDatagrams a)))) := by
  intro h
  let old : Address := { host := [49], port := 1 }
  let new : Address := { host := [50], port := 1 }
  let path : Path := { remoteAddr := { family := .inet, addr := [50] } }
  have hbad := h literalHosts
    (.client { remoteAddr := { family := .inet, addr := [49] } } (some old) none)
    [.recv literalHosts { payload := [1], peerAddress := some new, localAddress := none } {}]
    (onePacket path) [{ payload := [7], peerAddress := some old, localAddress := none }] (by decide)
  have hfirst := (List.forall₂_cons.mp hbad).1.2
  revert hfirst
  decide

end PhpQuic
