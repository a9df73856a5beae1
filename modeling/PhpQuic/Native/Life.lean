import PhpQuic.Lifecycle
import PhpQuic.Server.Accept
import PhpQuic.Native.Construct

/-!
# The native objects over the life of a connection

From `new` or `ServerConnection::accept`, through any calls, to the end of the PHP object.

* `Object`: a connection of `PhpQuic/Lifecycle.lean` with its native part; what TLS and ngtcp2
  answer in the constructor is what the native part computes.
* `acceptWith_accept`: `accept` with its native part is `accept`.
* `natives_released`, `natives_follow`: the results about whole lives.
-/

namespace PhpQuic

/-! ## `ServerConnection::accept` -/

namespace ServerConnection

/-- `"hq-interop"`. -/
def hqInterop : Bytes := [0x68, 0x71, 0x2d, 0x69, 0x6e, 0x74, 0x65, 0x72, 0x6f, 0x70]

/-- The stages before there is an object. -/
def acceptPath (initial : Datagram) (config : ServerConfig) (a : AcceptAnswers) :
    Except Exn Path :=
  if config.certFile.isNone || config.keyFile.isNone then .error (.exception
    "ServerConnection::accept [config]: ServerConfig.certFile and ServerConfig.keyFile are required")
  else if initial.payload.length = 0 then .error (.exception
    "ServerConnection::accept [initial]: initial datagram payload is empty")
  else match a.decode.rv.filter (· ≠ .versionNegotiation) with
  | some rv => .error (.strerror
      "ServerConnection::accept [decode]: failed to decode initial datagram" rv)
  | none =>
    if !a.supportedVersion then .error (.version
      "ServerConnection::accept [decode]: unsupported QUIC version in initial datagram"
      a.decode.version)
    else if a.decode.dcidlen > 20 ∨ a.decode.scidlen > 20 then .error (.exception
      "ServerConnection::accept [decode]: initial datagram has unsupported CID length")
    else match addressToSockaddr a.getaddrinfo initial.peerAddress with
      | none => .error (.exception
          "ServerConnection::accept [address]: Datagram.peerAddress is invalid")
      | some remoteAddr =>
        (acceptLocalAddr config initial remoteAddr a).map fun localAddr => { localAddr, remoteAddr }

/-- `accept` goes through these stages, and then on to the native ones. -/
theorem accept_eq (initial : Datagram) (config : ServerConfig) (a : AcceptAnswers) :
    (accept initial config a).1 =
      (acceptPath initial config a).bind fun path => acceptNative config initial path a := by
  unfold accept acceptPath
  simp only
  repeat' split
  all_goals first | rfl | simp_all [Except.map, Except.bind]

/-- The native stages, with whether TLS was set up; an object that is thrown away is freed. -/
def acceptNatives (config : ServerConfig) (tls : TlsAnswers) (a : AcceptAnswers) :
    Option (Natives × Bool) := do
  let (n, tls) ← Natives.initServer {} config.certFile config.keyFile
    (some (config.alpn.getD hqInterop)) tls
  if !tls || !a.random || !a.resetToken || a.forceNewFailure || a.serverNew.isSome then
    let n ← n.freeObject
    return (n, tls)
  else
  let n ← (n.connNew .server).setTlsNativeHandle
  -- `ngtcp2_conn_read_pkt`
  let n ← n.use
  if a.readPkt.isSome then
    let n ← n.freeObject
    return (n, tls)
  else
  return (n, tls)

/-- `accept`, with the native part of what it has made. -/
def acceptWith (initial : Datagram) (config : ServerConfig) (tls : TlsAnswers) (a : AcceptAnswers) :
    Option (Natives × Except Exn State) :=
  match acceptPath initial config a with
  | .error e => some ({}, .error e)
  | .ok path => do
    let (n, tls) ← acceptNatives config tls a
    return (n, acceptNative config initial path { a with tls })

end ServerConnection

/-! ## Lives -/

/-- A connection object with its native part. -/
structure Object where
  state : State
  natives : Natives

/-- A call of a method of `Op`, or of the constructor. -/
inductive ObjectCall where
  | op (o : Op)
  | construct (remoteAddress : Address) (config : Option ClientConfig) (a : ClientAnswers)

/-- The effect of a call. -/
def Object.step (x : Object) : ObjectCall → Option Object
  | .op o => do
    let natives ← x.natives.use
    return ⟨PhpQuic.step x.state o, natives⟩
  | .construct remoteAddress config a => do
    let (natives, answers) ← x.natives.construct remoteAddress config a
    let localAddress := config.bind (·.localAddress)
    return ⟨Call.step x.state (.construct remoteAddress localAddress answers), natives⟩

/-- How an object comes to be: for `new`, before its constructor, or by `accept`. -/
inductive Birth where
  | new
  | accept (initial : Datagram) (config : ServerConfig) (tls : TlsAnswers) (a : AcceptAnswers)

def Birth.run : Birth → Option (Natives × Except Exn State)
  | .new => some ({}, .ok ⟨Connection.createObject, []⟩)
  | .accept initial config tls a => ServerConnection.acceptWith initial config tls a

/-- A whole life: the calls, if there is an object, and its end. -/
def Birth.life (b : Birth) (calls : List ObjectCall) : Option Natives := do
  let (n, made) ← b.run
  match made with
  | .error _ => return n
  | .ok s =>
    let x ← calls.foldlM Object.step ⟨s, n⟩
    x.natives.freeObject

/-- The offer after a call. -/
def TlsOffer.next (offer : Option TlsOffer) : ObjectCall → Option TlsOffer
  | .op _ => offer
  | .construct remoteAddress config a => construct offer remoteAddress config a

/-- How many connections `accept` makes. -/
def Birth.accepts : Birth → Nat
  | .new => 0
  | .accept .. => 1

/-- The offer of a new object. -/
def Birth.offer : Birth → Option TlsOffer
  | .new => none
  | .accept _ config _ _ =>
    if h : cString (config.alpn.getD ServerConnection.hqInterop) ≠ [] then
      some { role := .server, alpn := _, alpn_ne := h }
    else none

/-! ## Every step -/

/-- The native part is sound, and it has a connection if the model of the methods has one. -/
structure Object.Sound (x : Object) (offer : Option TlsOffer) : Prop where
  natives : x.natives.Shows offer
  conn_iff : x.natives.conn.isSome = x.state.conn.conn.isSome

/-- A call of the constructor, which alone makes a connection of ngtcp2. -/
def ObjectCall.isConstruct : ObjectCall → Bool
  | .op _ => false
  | .construct .. => true

theorem step_conn (s : State) (o : Op) : (PhpQuic.step s o).conn.conn = s.conn.conn :=
  Runs.Moves.keeps (f := fun s : State => s.conn.conn) (fun _ _ hm => hm.conn_eq) (step_moves s o)

theorem Call.construct_conn (s : State) (r : Address) (l : Option Address)
    (a : Connection.ConstructAnswers) : (Call.step s (.construct r l a)).conn.conn =
      if (s.conn.construct r l a).2.isNone then some .client else s.conn.conn := by
  rw [← Connection.construct_conn]
  unfold Call.step
  simp only
  split <;> rfl

/-- The native part has a connection when one was made. -/
theorem Natives.Shows.conn_isSome {n : Natives} {offer : Option TlsOffer} (h : n.Shows offer) :
    n.conn.isSome = decide (0 < n.made.length) := by
  rw [h.conn]
  cases n.made <;> rfl

theorem Object.Sound.step {x : Object} {offer : Option TlsOffer} (h : x.Sound offer)
    (call : ObjectCall) : Defined (x.step call) fun x' => x'.Sound (TlsOffer.next offer call) ∧
      x'.natives.made.length ≤ x.natives.made.length + (if call.isConstruct then 1 else 0) ∧
      ∃ c : Call, x'.state = c.step x.state := by
  cases call with
  | op o =>
    refine .bind_some h.natives.use (.pure ⟨⟨h.natives, ?_⟩, Nat.le_refl _, .op o, rfl⟩)
    rw [h.conn_iff]
    exact (congrArg _ (step_conn x.state o)).symm
  | construct r config a =>
    refine (h.natives.construct r config a x.state.conn).bind fun ⟨n, answers⟩ ⟨hn, hmade⟩ => ?_
    simp only at hn hmade
    refine .pure ⟨⟨hn, ?_⟩, ?_, .construct r _ answers, rfl⟩
    · show n.conn.isSome = (Call.step x.state _).conn.conn.isSome
      have hconn := h.conn_iff
      rw [h.natives.conn_isSome] at hconn
      rw [hn.conn_isSome, Call.construct_conn, hmade]
      split
      · simp
      · simpa using hconn
    · show n.made.length ≤ x.natives.made.length + 1
      rw [hmade]
      split <;> omega

/-! ## `accept`, and whole lives -/

namespace ServerConnection

variable {initial : Datagram} {config : ServerConfig} {tls : TlsAnswers} {a : AcceptAnswers}

/-- All native stages go through. -/
def nativeOk (a : AcceptAnswers) : Bool :=
  a.tls && a.random && a.resetToken && !a.forceNewFailure && a.serverNew.isNone && a.readPkt.isNone

theorem acceptNative_cases (initial : Datagram) (config : ServerConfig) (a : AcceptAnswers)
    (path : Path) : (nativeOk a = true ∧ ∃ s, acceptNative config initial path a = .ok s ∧
      s.conn.conn = some .server) ∨
    (nativeOk a = false ∧ ∃ e, acceptNative config initial path a = .error e) := by
  have hconn : (((acceptObject config initial path a).runCallbacks a.callbacks).log
      (.readPkt path initial.payload none)).conn.conn = some .server := by
    obtain ⟨_, _, _, h⟩ := (acceptObject config initial path a).runCallbacks_rest a.callbacks
    show ((acceptObject config initial path a).runCallbacks a.callbacks).conn.conn = some .server
    rw [h]
    rfl
  unfold acceptNative nativeOk
  cases a.tls <;> cases a.random <;> cases a.resetToken <;> cases a.forceNewFailure <;>
    cases a.serverNew <;> cases a.readPkt
  all_goals first | exact .inr ⟨rfl, _, rfl⟩ | exact .inl ⟨rfl, _, rfl, hconn⟩

/-- The native stages leave a connection, if all of them go through, or nothing. -/
theorem acceptNatives_spec (initial : Datagram) (hcert : config.certFile.isSome)
    (hkey : config.keyFile.isSome) : Defined (acceptNatives config tls a) fun r =>
      r.1.made.length ≤ 1 ∧
      if nativeOk { a with tls := r.2 } then
        r.1.Shows (Birth.accept initial config tls a).offer ∧ r.1.conn.isSome
      else r.1.store.Owns r.1.made.tail := by
  obtain ⟨cert, hcert⟩ := Option.isSome_iff_exists.mp hcert
  obtain ⟨key, hkey⟩ := Option.isSome_iff_exists.mp hkey
  unfold acceptNatives
  rw [hcert, hkey]
  have hinit : Defined (Natives.initServer {} (some cert) (some key)
      (some (config.alpn.getD hqInterop)) tls) fun r => r.1.made = [] ∧
        if r.2 then r.1.Shows (Birth.accept initial config tls a).offer ∧
          (Birth.accept initial config tls a).offer.isSome else r.1.Bare := by
    by_cases halpn : cString (config.alpn.getD hqInterop) = []
    · unfold Natives.initServer
      simp only
      rw [if_pos halpn]
      exact .pure ⟨rfl, Natives.Bare.empty.warn _⟩
    · refine (Natives.initServer_spec .empty cert key halpn tls).mono fun r ⟨_, hset⟩ => ?_
      unfold Natives.SetUp at hset
      split at hset
      · obtain ⟨p, q, htls, hmade⟩ := hset
        refine ⟨hmade, ?_⟩
        rw [if_pos ‹_›, Birth.offer, dif_pos halpn]
        exact ⟨⟨p, q, htls⟩, rfl⟩
      · exact ⟨hset.made, by rw [if_neg ‹_›]; exact hset⟩
  refine hinit.bind fun ⟨n, ok⟩ ⟨hmade, hset⟩ => ?_
  simp only at hmade hset ⊢
  split
  · -- the object is thrown away before it has a connection
    rename_i hfail
    have hno : nativeOk { a with tls := ok } = false := by
      revert hfail
      unfold nativeOk
      cases ok <;> cases a.random <;> cases a.resetToken <;> cases a.forceNewFailure <;>
        cases a.serverNew <;> simp
    have hfree : Defined n.freeObject fun n' => n'.made = n.made ∧ n'.store.Owns n.made.tail := by
      cases ok with
      | true =>
        rw [if_pos rfl] at hset
        exact hset.1.freeObject
      | false => exact (show n.Shows none from hset).freeObject
    refine hfree.bind fun n' ⟨hmade', howns⟩ => .pure ⟨?_, ?_⟩
    · rw [hmade', hmade]
      exact Nat.zero_le _
    · rw [hno, if_neg Bool.false_ne_true, hmade']
      exact howns
  · rename_i hgo
    cases ok with
    | false => simp at hgo
    | true =>
    rw [if_pos rfl] at hset
    refine (hset.1.connNew hset.2 .server).bind fun n' ⟨hshows, hmade'⟩ => ?_
    refine .bind_some hshows.use ?_
    rw [hmade] at hmade'
    have hok : nativeOk { a with tls := true } = a.readPkt.isNone := by
      revert hgo
      unfold nativeOk
      cases a.random <;> cases a.resetToken <;> cases a.forceNewFailure <;>
        cases a.serverNew <;> simp
    cases hread : a.readPkt with
    | some rv =>
      rw [hread] at hok
      refine hshows.freeObject.bind fun n'' ⟨hmade'', howns⟩ => .pure ⟨?_, ?_⟩
      · rw [hmade'', hmade']
        exact Nat.le_refl _
      · rw [hok, hmade'']
        exact howns
    | none =>
      rw [hread] at hok
      refine .pure ⟨Nat.le_of_eq hmade', ?_⟩
      rw [hok]
      exact ⟨hshows, by rw [hshows.conn_isSome, hmade']; rfl⟩

/-- The stages before the native ones have seen to the files. -/
theorem acceptPath_files {path : Path} (h : acceptPath initial config a = .ok path) :
    config.certFile.isSome ∧ config.keyFile.isSome := by
  unfold acceptPath at h
  split at h
  · cases h
  · rename_i hfiles
    simpa [Option.isNone_iff_eq_none, Option.isSome_iff_ne_none] using hfiles

/-- What `accept` returns is what the model of the methods returns. -/
theorem acceptWith_accept {n : Natives} {r : Except Exn State}
    (h : acceptWith initial config tls a = some (n, r)) :
    ∃ ok, r = (accept initial config { a with tls := ok }).1 := by
  unfold acceptWith at h
  -- these stages do not ask about TLS
  have hsame (ok : Bool) : acceptPath initial config { a with tls := ok } =
      acceptPath initial config a := rfl
  simp only [accept_eq, hsame]
  cases hpath : acceptPath initial config a with
  | error e =>
    rw [hpath] at h
    cases h
    exact ⟨true, rfl⟩
  | ok path =>
    rw [hpath] at h
    obtain ⟨⟨n', ok⟩, -, heq⟩ := Option.bind_eq_some_iff.mp h
    cases heq
    exact ⟨ok, rfl⟩

theorem acceptWith_spec : Defined (acceptWith initial config tls a) fun r =>
    r.1.made.length ≤ 1 ∧
    match r.2 with
    | .ok s => (Object.mk s r.1).Sound (Birth.accept initial config tls a).offer
    | .error _ => r.1.store.Owns r.1.made.tail := by
  unfold acceptWith
  cases hpath : acceptPath initial config a with
  | error e => exact .pure ⟨Nat.zero_le _, .empty⟩
  | ok path =>
    obtain ⟨hcert, hkey⟩ := acceptPath_files hpath
    refine (acceptNatives_spec initial hcert hkey).bind fun ⟨n, ok⟩ ⟨hmade, hn⟩ => .pure ⟨hmade, ?_⟩
    simp only at hn ⊢
    rcases acceptNative_cases initial config { a with tls := ok } path with
      ⟨hok, s, hs, hserver⟩ | ⟨hok, e, he⟩
    · rw [hok, if_pos rfl] at hn
      rw [hs]
      exact ⟨hn.1, by rw [hn.2, hserver]; rfl⟩
    · rw [hok, if_neg Bool.false_ne_true] at hn
      rw [he]
      exact hn

end ServerConnection

/-- A new object is sound, and one that was thrown away has left nothing. -/
theorem Birth.run_spec (b : Birth) : Defined b.run fun r => r.1.made.length ≤ b.accepts ∧
    match r.2 with
    | .ok s => (Object.mk s r.1).Sound b.offer
    | .error _ => r.1.store.Owns r.1.made.tail := by
  cases b with
  | new => exact .pure ⟨Nat.zero_le _, Natives.Bare.empty, rfl⟩
  | accept initial config tls a => exact ServerConnection.acceptWith_spec

/-! ## The results -/

section Lives

variable (b : Birth) (calls : List ObjectCall)

/-- The object comes from where a connection of the model of the methods comes from. -/
theorem Birth.run_start {b : Birth} {n : Natives} {s : State} (h : b.run = some (n, .ok s)) :
    ∃ start : Start, s = start.state := by
  cases b with
  | new =>
    cases h
    exact ⟨.uninitialised, rfl⟩
  | accept initial config tls a =>
    obtain ⟨ok, hr⟩ := ServerConnection.acceptWith_accept h
    obtain ⟨path, remoteAddress, localAddress, callbacks, hs⟩ :=
      ServerConnection.accept_start hr.symm
    exact ⟨_, hs⟩

/-- What holds of an object that came to be in `s`, after the calls. -/
structure Birth.Reached (s : State) (x : Object) (calls : List ObjectCall) : Prop where
  sound : x.Sound (calls.foldl TlsOffer.next b.offer)
  made : x.natives.made.length ≤ b.accepts + calls.countP ObjectCall.isConstruct
  state : ∃ calls', x.state = Runs.run (fun s c => Call.step s c) s calls'

theorem Birth.reached {n : Natives} {s : State} (h : b.run = some (n, .ok s)) :
    Defined (calls.foldlM Object.step ⟨s, n⟩) (b.Reached s · calls) := by
  obtain ⟨hmade, hsound⟩ := b.run_spec.of_eq h
  have hbirth : b.Reached s ⟨s, n⟩ [] := ⟨hsound, hmade, [], rfl⟩
  refine Defined.foldlM (I := b.Reached s) (fun x os call hx => ?_) calls hbirth
  obtain ⟨calls', hstate⟩ := hx.state
  refine (hx.sound.step call).mono fun x' ⟨hx', hlen, c, hc⟩ => ⟨?_, ?_, calls' ++ [c], ?_⟩
  · rw [List.foldl_append]
    exact hx'
  · have := hx.made
    rw [List.countP_append, List.countP_singleton]
    omega
  · rw [Runs.run_append, ← hstate]
    exact hc

/-- Every life is defined: nothing is used or freed that is not there, and all that is alive when
the object is gone are the connections of ngtcp2 that a later one has replaced. -/
theorem natives_released : Defined (b.life calls) fun n =>
    n.store.Owns n.made.tail ∧ n.made.length ≤ b.accepts + calls.countP ObjectCall.isConstruct := by
  unfold Birth.life
  obtain ⟨⟨n, made⟩, hrun, hmade, hr⟩ := b.run_spec
  refine .bind_some hrun ?_
  cases made with
  | error e =>
    refine .pure ⟨hr, ?_⟩
    have : n.made.length ≤ b.accepts := hmade
    omega
  | ok s =>
    refine (b.reached calls hrun).bind fun x hx => ?_
    refine hx.sound.natives.freeObject.mono fun n' ⟨hmade', howns⟩ => ?_
    rw [hmade']
    exact ⟨howns, hx.made⟩

/-- A constructor call to which everything answers with success. -/
def connects (alpn : Option Bytes) : ObjectCall :=
  .construct { host := [0x61], port := 443 }
    (some { localAddress := none, serverName := none, alpn })
    { getaddrinfo := fun _ _ => some [{ family := .inet }], inetPton := fun _ _ => false }

/-- The connection that the second call has replaced is still alive at the end. -/
example : (Birth.life .new [connects none, connects none]).map
    (fun n => n.made.tail.map fun p => (n.store.get p).isSome) = some [true] := by decide

/-! ## The offer of a life -/

/-- The offer that a call makes when it finds no session. -/
def ObjectCall.offer? : ObjectCall → Option TlsOffer
  | .op _ => none
  | .construct remoteAddress config a =>
    if resolves a.getaddrinfo remoteAddress (config.bind (·.localAddress)) then
      TlsOffer.first config a.tls
    else none

theorem TlsOffer.next_alpn (offer : Option TlsOffer) (call : ObjectCall) :
    (TlsOffer.next offer call).map (·.alpn) = (offer <|> call.offer?).map (·.alpn) := by
  cases call with
  | op o => cases offer <;> rfl
  | construct r config a =>
    simp only [next, construct, ObjectCall.offer?]
    cases resolves a.getaddrinfo r (config.bind (·.localAddress)) with
    | false => cases offer <;> rfl
    | true =>
      simp only [Bool.not_true, Bool.false_eq_true, if_false, if_true, Option.map_map]
      congr 1
      funext o
      simp only [Function.comp_apply]
      split <;> rfl

theorem TlsOffer.foldl_alpn (offer : Option TlsOffer) :
    (calls.foldl TlsOffer.next offer).map (·.alpn) =
      (offer <|> calls.findSome? ObjectCall.offer?).map (·.alpn) := by
  induction calls generalizing offer with
  | nil => cases offer <;> rfl
  | cons call calls ih =>
    have hnext := TlsOffer.next_alpn offer call
    rw [List.foldl_cons, ih, List.findSome?_cons]
    cases offer with
    | some o =>
      cases hn : TlsOffer.next (some o) call with
      | none => rw [hn] at hnext; cases hnext
      | some o' => rw [hn] at hnext; exact hnext
    | none =>
      cases hn : TlsOffer.next none call with
      | none =>
        rw [hn] at hnext
        cases hc : call.offer? with
        | none => rfl
        | some o => rw [hc] at hnext; cases hnext
      | some o' =>
        rw [hn] at hnext
        cases hc : call.offer? with
        | none => rw [hc] at hnext; cases hnext
        | some o => rw [hc] at hnext; exact hnext

/-- The native part goes along with the model of the methods: it is sound, it has a connection if
that has one, and the protocol that its session offers is that of the first call that set TLS up,
which a later configuration does not change. -/
theorem natives_follow {n : Natives} {s : State} (h : b.run = some (n, .ok s)) :
    Defined (calls.foldlM Object.step ⟨s, n⟩) fun x =>
      (∃ (start : Start) (calls' : List Call), x.state = start.runCalls calls') ∧
      x.natives.conn.isSome = x.state.conn.conn.isSome ∧
      x.natives.Shows (calls.foldl TlsOffer.next b.offer) ∧
      (calls.foldl TlsOffer.next b.offer).map (·.alpn) =
        (b.offer <|> calls.findSome? ObjectCall.offer?).map (·.alpn) := by
  refine (b.reached calls h).mono fun x hx => ⟨?_, hx.sound.conn_iff, hx.sound.natives, ?_⟩
  · obtain ⟨start, rfl⟩ := Birth.run_start h
    obtain ⟨calls', hstate⟩ := hx.state
    exact ⟨start, calls', hstate⟩
  · exact TlsOffer.foldl_alpn calls b.offer

end Lives

theorem natives_follow_connects :
    Defined ([connects none, connects (some [0x78])].foldlM Object.step
      ⟨⟨Connection.createObject, []⟩, {}⟩) fun x =>
      (∃ (start : Start) (calls' : List Call), x.state = start.runCalls calls') ∧
      x.natives.conn.isSome = x.state.conn.conn.isSome ∧
      x.natives.Shows ([connects none, connects (some [0x78])].foldl TlsOffer.next none) ∧
      ([connects none, connects (some [0x78])].foldl TlsOffer.next none).map (·.alpn) =
        some Natives.h3 :=
  natives_follow .new [connects none, connects (some [0x78])] rfl

end PhpQuic
