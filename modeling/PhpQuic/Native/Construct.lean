import PhpQuic.Connection.Methods
import PhpQuic.Native.Tls

/-!
# The native objects in the constructor

`Connection::__construct`, every call of ngtcp2 and the end of the PHP object, on the native objects
of `PhpQuic/Native/Tls.lean`. The constructor may be called again on an object that has a
connection: the session is kept, and the new connection of ngtcp2 takes the place of the old one,
which nothing frees.

* `construct`: what it does to the native objects, and what it is answered on the way, which is what
  `Connection.construct` asks for.
* `TlsOffer`: what the session of an object says to the peer, as a machine of its own over the
  calls; `Natives.Shows`: the native part that says it.
* `Shows.use`, `Shows.construct`, `Shows.freeObject`: what each call does to an object that says it.
-/

namespace PhpQuic

/-- `php_quic_client_config`. -/
structure ClientConfig where
  localAddress : Option Address
  serverName : Option Bytes
  alpn : Option Bytes
  deriving DecidableEq

/-- What the constructor is answered. -/
structure ClientAnswers where
  getaddrinfo : Getaddrinfo
  /-- Whether `inet_pton` reads the text as an address of the family. -/
  inetPton : Family → Bytes → Bool
  tls : TlsAnswers := {}
  /-- `gnutls_server_name_set`: the text of the error. -/
  serverNameSet : Option String := none
  /-- `php_quic_fill_random` for the two connection ids. -/
  randomDcid : Bool := true
  randomScid : Bool := true
  /-- `ngtcp2_conn_client_new`: the text of the error. -/
  clientNew : Option String := none

/-- `php_quic_is_numeric_host`. -/
def isNumericHost (inetPton : Family → Bytes → Bool) (host : Bytes) : Bool :=
  inetPton .inet host || inetPton .inet6 host

/-- `"localhost"`. -/
def localhost : Bytes := [0x6c, 0x6f, 0x63, 0x61, 0x6c, 0x68, 0x6f, 0x73, 0x74]

/-- The name for `gnutls_server_name_set`. -/
def sni (remoteAddress : Address) (config : Option ClientConfig)
    (inetPton : Family → Bytes → Bool) : Bytes :=
  match config.bind (·.serverName) with
  | some name => cString name
  | none =>
    let host := cString remoteAddress.host
    if isNumericHost inetPton host then localhost else host

/-- The addresses that the constructor needs can be resolved. -/
def resolves (getaddrinfo : Getaddrinfo) (remoteAddress : Address)
    (localAddress : Option Address) : Bool :=
  (addressToSockaddr getaddrinfo (some remoteAddress)).isSome &&
    match localAddress with
    | some address => (addressToSockaddr getaddrinfo (some address)).isSome
    | none => true

/-- The session that ngtcp2 is to use. -/
def NativeObject.setTls (session : Option Nat) : NativeObject → Option NativeObject
  | .conn role _ => some (.conn role session)
  | _ => none

namespace Natives

variable {n : Natives} {p q : Nat} {s : TlsSession}

/-! ## The calls of ngtcp2 -/

/-- `ngtcp2_conn_client_new` or `ngtcp2_conn_server_new` into `connection->conn`. -/
def connNew (n : Natives) (role : Role) : Natives :=
  { n with
    conn := some n.store.next
    store := n.store.alloc (.conn role none)
    made := n.store.next :: n.made }

/-- `ngtcp2_conn_set_tls_native_handle(connection->conn, connection->session)`. -/
def setTlsNativeHandle (n : Natives) : Option Natives :=
  n.conn.bind fun c =>
    (n.store.modify c (NativeObject.setTls n.session)).map fun store => { n with store }

/-- Any other call of ngtcp2; the methods make none without a connection. It goes through the
connection, the session that it was given, and the credentials of that. -/
def use (n : Natives) : Option Natives :=
  match n.conn with
  | none => some n
  | some c =>
    match n.store.get c with
    | some (.conn _ (some q)) =>
      match n.store.get q with
      | some (.session s) =>
        match s.credentials.bind n.store.get with
        | some (.cred _ _) => some n
        | _ => none
      | _ => none
    | _ => none

/-- `ngtcp2_conn_del(connection->conn)`, and the pointer becomes `NULL`. -/
def connDel (n : Natives) : Option Natives :=
  n.conn.bind fun c => (n.store.free c).map fun store => { n with conn := none, store }

/-- `php_quic_connection_free_object`. -/
def freeObject (n : Natives) : Option Natives := do
  let n ← if n.conn.isSome then n.connDel else some n
  n.cleanup

/-- `php_quic_connection_init_native`, with whether it was a `SUCCESS`. -/
def initNative (n : Natives) (a : ClientAnswers) : Option (Natives × Bool) := do
  if !a.randomDcid then return (n.warn "failed to generate random DCID", false)
  else if !a.randomScid then return (n.warn "failed to generate random SCID", false)
  else
  match a.clientNew with
  | some text => return (n.warn ("ngtcp2_conn_client_new failed: " ++ text), false)
  | none =>
  let n ← (n.connNew .client).setTlsNativeHandle
  return (n, true)

/-- TLS is set up unless there is a session. -/
def initTls (n : Natives) (config : Option ClientConfig) (a : TlsAnswers) :
    Option (Natives × Bool) :=
  if n.session.isSome then some (n, true)
  else n.initClient (some ((config.bind (·.alpn)).getD h3)) a

/-- `gnutls_server_name_set`, which an empty name does not reach; the text of its error. -/
def setServerName (n : Natives) (name : Bytes) (failure : Option String) :
    Option (Natives × Option String) :=
  if name = [] then some (n, none)
  else
    match failure with
    | some text => some (n, some text)
    | none => (n.setSession fun s => { s with serverName := some name }).map fun n => (n, none)

/-- `Connection::__construct` on the native part, and what its calls have answered. -/
def construct (n : Natives) (remoteAddress : Address) (config : Option ClientConfig)
    (a : ClientAnswers) : Option (Natives × Connection.ConstructAnswers) := do
  if !resolves a.getaddrinfo remoteAddress (config.bind (·.localAddress)) then
    return (n, { getaddrinfo := a.getaddrinfo })
  else
  let (n, tls) ← n.initTls config a.tls
  if !tls then return (n, { getaddrinfo := a.getaddrinfo, tls := false })
  else
  let (n, failure) ← n.setServerName (sni remoteAddress config a.inetPton) a.serverNameSet
  match failure with
  | some text => return (n, { getaddrinfo := a.getaddrinfo, serverNameSet := some text })
  | none =>
  let (n, initNative) ← n.initNative a
  return (n, { getaddrinfo := a.getaddrinfo, initNative })

/-! ## What they do to an object that has TLS -/

/-- A new connection that uses the session. -/
theorem HasTls.connNew (h : n.HasTls p q s) (role : Role) :
    Defined (n.connNew role).setTlsNativeHandle fun n' =>
      n'.HasTls p q s ∧ n'.made = n.store.next :: n.made := by
  have howns := h.owns.alloc (.conn role none)
  have hnew := n.store.get_alloc_self (.conn role none)
  refine .bind_some rfl <| (howns.modify (f := NativeObject.setTls (n.connNew role).session) hnew
    rfl).map fun store ⟨howns, hself, hrest⟩ => ⟨?_, rfl⟩
  -- what was there is untouched
  have hold : ∀ r ∈ q :: p :: n.made, store.get r = n.store.get r := fun r hr =>
    (hrest r (h.owns.ne_next hr)).trans (Store.get_alloc ((h.owns.alive r).mpr hr))
  obtain ⟨k, t, hp⟩ := h.cred_at
  refine ⟨h.cred, h.session, rfl, ⟨k, t, ?_⟩, ?_, ?_, ?_⟩
  · exact (hold p (by simp)).trans hp
  · exact (hold q (by simp)).trans h.session_at
  · intro c hc
    rcases List.mem_cons.mp hc with rfl | hc
    · exact ⟨role, hself.trans (by rw [show (n.connNew role).session = some q from h.session])⟩
    · obtain ⟨r, hr⟩ := h.conns c hc
      exact ⟨r, (hold c (by simp [hc])).trans hr⟩
  · exact howns.perm ((List.Perm.swap q _ _).trans ((List.Perm.swap p _ _).cons q))

/-- Nothing that a call of ngtcp2 goes through is gone. -/
theorem HasTls.use (h : n.HasTls p q s) (hs : s.credentials = some p) : n.use = some n := by
  obtain ⟨k, t, hp⟩ := h.cred_at
  unfold Natives.use
  rw [h.conn]
  cases hmade : n.made with
  | nil => rfl
  | cons c cs =>
    obtain ⟨role, hc⟩ := h.conns c (hmade ▸ List.mem_cons_self)
    simp only [List.head?_cons, hc, h.session_at, hs, Option.bind_some, hp]

theorem Bare.use (h : n.Bare) : n.use = some n := by
  unfold Natives.use
  rw [h.conn]

theorem Bare.freeObject (h : n.Bare) : n.freeObject = some n := by
  unfold Natives.freeObject
  rw [h.conn]
  exact h.cleanup

/-- Of the connections that were made, only the last one is freed. -/
theorem HasTls.freeObject (h : n.HasTls p q s) : Defined n.freeObject fun n' =>
    n'.made = n.made ∧ n'.store.Owns n.made.tail := by
  unfold Natives.freeObject
  cases hmade : n.made with
  | nil =>
    have hconn : n.conn = none := by rw [h.conn, hmade]; rfl
    rw [hconn]
    refine (cleanup_owns h.cred h.session h.owns).mono fun n' ⟨_, _, _, hmade', howns⟩ => ?_
    exact ⟨hmade'.trans hmade, by rw [hmade] at howns; exact howns⟩
  | cons c cs =>
    have hconn : n.conn = some c := by rw [h.conn, hmade]; rfl
    have howns := h.owns
    rw [hmade] at howns
    replace howns : n.store.Owns (c :: q :: p :: cs) :=
      howns.perm (((List.Perm.swap c p cs).cons q).trans (List.Perm.swap c q _))
    rw [hconn]
    have hdel : Defined n.connDel fun n' => n'.cred = some p ∧ n'.session = some q ∧
        n'.made = n.made ∧ n'.store.Owns (q :: p :: cs) :=
      .bind_some hconn <| howns.free.map fun store ⟨howns, _⟩ => ⟨h.cred, h.session, rfl, howns⟩
    refine hdel.bind fun n₁ ⟨hcred, hsession, hmade₁, howns⟩ => ?_
    refine (cleanup_owns hcred hsession howns).mono fun n' ⟨_, _, _, hmade', howns⟩ => ?_
    exact ⟨hmade'.trans (hmade₁.trans hmade), howns⟩

theorem HasTls.initNative (h : n.HasTls p q s) (a : ClientAnswers) :
    Defined (n.initNative a) fun r => r.1.HasTls p q s ∧
      (r.1.made.length = n.made.length + if r.2 then 1 else 0) := by
  unfold Natives.initNative
  cases a.randomDcid with
  | false => exact .pure ⟨h.warn _, rfl⟩
  | true =>
  cases a.randomScid with
  | false => exact .pure ⟨h.warn _, rfl⟩
  | true =>
  cases a.clientNew with
  | some text => exact .pure ⟨h.warn _, rfl⟩
  | none =>
  refine (h.connNew .client).bind fun n' ⟨h', hmade⟩ => .pure ⟨h', ?_⟩
  rw [hmade]
  rfl

end Natives

/-! ## What the session says -/

/-- What the TLS session of an object says to the peer. -/
structure TlsOffer where
  role : Role
  alpn : Bytes
  serverName : Option Bytes := none
  alpn_ne : alpn ≠ []

/-- The session that says it. -/
def TlsOffer.session (o : TlsOffer) (p : Nat) : TlsSession :=
  { Natives.ready o.role p o.alpn with serverName := o.serverName }

/-- The native part of an object: nothing, or a session that says this. -/
def Natives.Shows (n : Natives) : Option TlsOffer → Prop
  | none => n.Bare
  | some o => ∃ p q, n.HasTls p q (o.session p)

/-- The offer of a session that the constructor sets up. -/
def TlsOffer.first (config : Option ClientConfig) (a : TlsAnswers) : Option TlsOffer :=
  if a.clientOk then some {
    role := .client
    alpn := Natives.clientAlpn (some ((config.bind (·.alpn)).getD Natives.h3))
    alpn_ne := Natives.clientAlpn_ne _ }
  else none

/-- The offer after a call of the constructor: TLS is set up by the first call that gets so far, and
the name is that of the last one. -/
def TlsOffer.construct (offer : Option TlsOffer) (remoteAddress : Address)
    (config : Option ClientConfig) (a : ClientAnswers) : Option TlsOffer :=
  if !resolves a.getaddrinfo remoteAddress (config.bind (·.localAddress)) then offer
  else
    (offer <|> first config a.tls).map fun o =>
      let name := sni remoteAddress config a.inetPton
      if name = [] ∨ a.serverNameSet.isSome then o else { o with serverName := some name }

/-- When the constructor returns. -/
theorem Connection.construct_isNone (c : Connection) (r : Address) (l : Option Address)
    (a : ConstructAnswers) : (c.construct r l a).2.isNone =
      (resolves a.getaddrinfo r l && a.tls && a.serverNameSet.isNone && a.initNative) := by
  unfold construct resolves
  simp only
  cases addressToSockaddr a.getaddrinfo (some r) with
  | none => rfl
  | some remoteAddr =>
    cases l with
    | none =>
      cases a.tls <;> cases a.serverNameSet <;> cases a.initNative <;> rfl
    | some address =>
      simp only
      cases addressToSockaddr a.getaddrinfo (some address) with
      | none => rfl
      | some localAddr => cases a.tls <;> cases a.serverNameSet <;> cases a.initNative <;> rfl

/-- The constructor makes a client when it returns. -/
theorem Connection.construct_conn (c : Connection) (r : Address) (l : Option Address)
    (a : ConstructAnswers) : (c.construct r l a).1.conn =
      if (c.construct r l a).2.isNone then some .client else c.conn := by
  unfold construct
  simp only
  repeat' split
  all_goals simp_all

namespace Natives

variable {n : Natives} {offer : Option TlsOffer}

theorem Shows.use (h : n.Shows offer) : n.use = some n := by
  cases offer with
  | none => exact Bare.use h
  | some o =>
    obtain ⟨p, q, h⟩ := h
    exact h.use rfl

theorem Shows.freeObject (h : n.Shows offer) : Defined n.freeObject fun n' =>
    n'.made = n.made ∧ n'.store.Owns n.made.tail := by
  cases offer with
  | none =>
    rw [Bare.freeObject h]
    exact .pure ⟨rfl, by rw [h.made]; exact h.owns⟩
  | some o =>
    obtain ⟨p, q, h⟩ := h
    exact h.freeObject

theorem Shows.conn (h : n.Shows offer) : n.conn = n.made.head? := by
  cases offer with
  | none => rw [Bare.conn h, Bare.made h]; rfl
  | some o =>
    obtain ⟨p, q, h⟩ := h
    exact h.conn

/-- TLS is set up if it was not. -/
theorem Shows.initTls (h : n.Shows offer) (config : Option ClientConfig) (a : TlsAnswers) :
    Defined (n.initTls config a) fun r => r.1.made = n.made ∧
      r.2 = (offer <|> TlsOffer.first config a).isSome ∧
      r.1.Shows (offer <|> TlsOffer.first config a) := by
  unfold Natives.initTls TlsOffer.first
  cases offer with
  | some o =>
    obtain ⟨p, q, h⟩ := h
    rw [h.session]
    exact .pure ⟨rfl, by simp, p, q, h⟩
  | none =>
    rw [Bare.session h]
    refine (initClient_spec h _ a).mono fun r ⟨hok, hset⟩ => ?_
    unfold SetUp at hset
    rw [hok] at hset
    cases hc : a.clientOk with
    | true =>
      rw [hc, if_pos rfl] at hset
      obtain ⟨p, q, htls, hmade⟩ := hset
      exact ⟨hmade.trans (Bare.made h).symm, by simp [hok, hc], p, q, htls⟩
    | false =>
      rw [hc, if_neg Bool.false_ne_true] at hset
      exact ⟨hset.made.trans (Bare.made h).symm, by simp [hok, hc], hset⟩

theorem Shows.setServerName {o : TlsOffer} (h : n.Shows (some o)) (name : Bytes)
    (failure : Option String) :
    Defined (n.setServerName name failure) fun r => r.1.made = n.made ∧ r.1.Shows
      (some (if name = [] ∨ failure.isSome then o else { o with serverName := some name })) := by
  obtain ⟨p, q, h⟩ := h
  unfold Natives.setServerName
  split
  · exact .pure ⟨rfl, by rw [if_pos (.inl ‹_›)]; exact ⟨p, q, h⟩⟩
  · cases failure with
    | some text => exact .pure ⟨rfl, by rw [if_pos (.inr rfl)]; exact ⟨p, q, h⟩⟩
    | none =>
      refine (h.setSession _).map fun n' ⟨h', hmade⟩ => ⟨hmade, ?_⟩
      rw [if_neg (by simp [*])]
      exact ⟨p, q, h'⟩

theorem Shows.connNew (h : n.Shows offer) (hoffer : offer.isSome) (role : Role) :
    Defined (n.connNew role).setTlsNativeHandle fun n' =>
      n'.Shows offer ∧ n'.made.length = n.made.length + 1 := by
  obtain ⟨o, rfl⟩ := Option.isSome_iff_exists.mp hoffer
  obtain ⟨p, q, h⟩ := h
  exact (h.connNew role).mono fun n' ⟨h', hmade⟩ => ⟨⟨p, q, h'⟩, by rw [hmade]; rfl⟩

theorem Shows.initNative (h : n.Shows offer) (hoffer : offer.isSome) (a : ClientAnswers) :
    Defined (n.initNative a) fun r => r.1.Shows offer ∧
      r.1.made.length = n.made.length + if r.2 then 1 else 0 := by
  obtain ⟨o, rfl⟩ := Option.isSome_iff_exists.mp hoffer
  obtain ⟨p, q, h⟩ := h
  exact (h.initNative a).mono fun r ⟨hr, hmade⟩ => ⟨⟨p, q, hr⟩, hmade⟩

/-- The constructor keeps to the offer; ngtcp2 makes a connection when it returns. -/
theorem Shows.construct (h : n.Shows offer) (remoteAddress : Address)
    (config : Option ClientConfig) (a : ClientAnswers) (c : Connection) :
    Defined (n.construct remoteAddress config a) fun r =>
      r.1.Shows (TlsOffer.construct offer remoteAddress config a) ∧
      r.1.made.length = n.made.length +
        if (c.construct remoteAddress (config.bind (·.localAddress)) r.2).2.isNone then 1
        else 0 := by
  simp only [Connection.construct_isNone]
  unfold Natives.construct TlsOffer.construct
  cases hres : resolves a.getaddrinfo remoteAddress (config.bind (·.localAddress)) with
  | false => exact .pure ⟨h, by simp [hres]⟩
  | true =>
  refine (h.initTls config a.tls).bind fun ⟨n₁, ok⟩ ⟨hmade, hok, hshows⟩ => ?_
  simp only at hmade hok hshows
  generalize (offer <|> TlsOffer.first config a.tls) = first at hok hshows ⊢
  subst hok
  cases first with
  | none => exact .pure ⟨hshows, by simp [hmade]⟩
  | some o =>
  refine (hshows.setServerName _ a.serverNameSet).bind fun ⟨n₂, failure⟩ ⟨hmade₂, hshows⟩ => ?_
  simp only at hmade₂ hshows
  cases failure with
  | some text => exact .pure ⟨hshows, by simp [hmade₂, hmade]⟩
  | none =>
  refine (hshows.initNative rfl a).bind fun ⟨n₃, ok⟩ ⟨hshows, hmade₃⟩ => ?_
  exact .pure ⟨hshows, by simp [hmade₃, hmade₂, hmade, hres]⟩

end Natives

end PhpQuic
