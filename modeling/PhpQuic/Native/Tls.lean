import PhpQuic.Types
import PhpQuic.Lib.Store

/-!
# The native objects behind a connection

`cred`, `session` and `conn` of a connection point to objects of GnuTLS and ngtcp2. `Natives` has
the three pointers (`none` is `NULL`) and the objects alive; a function of `src/tls_gnutls.c` is an
`Option`, and `none` if it uses or frees what is not there.

A function that makes an object and fails leaves the pointer that it was given as it was. Left out:
the priority strings, which are constants, and an error handler of PHP that calls the connection
from within a warning.

* `initClient`, `initServer`, `cleanup`: in the source's order, with its warnings.
* `Bare`, `HasCred`, `HasTls`: how far an object has got. `initClient_spec`, `initServer_spec`: TLS
  is either all set up or not at all, and whatever was made on the way was freed once.
-/

namespace PhpQuic

/-- A `gnutls_session_t`: what has been set of it. -/
structure TlsSession where
  role : Role
  /-- `gnutls_priority_set_direct`. -/
  priority : Bool := false
  /-- `ngtcp2_crypto_gnutls_configure_client_session`, `…_server_session`. -/
  configured : Option Role := none
  /-- `gnutls_credentials_set`. -/
  credentials : Option Nat := none
  /-- `gnutls_alpn_set_protocols`. -/
  alpn : Option Bytes := none
  /-- `gnutls_server_name_set`. -/
  serverName : Option Bytes := none
  /-- `gnutls_session_set_ptr` to the `conn_ref` of the connection. -/
  connRef : Bool := false
  /-- `gnutls_handshake_set_timeout`. -/
  handshakeTimeout : Bool := false
  deriving DecidableEq

inductive NativeObject where
  /-- A `gnutls_certificate_credentials_t`: its key and certificate, and whether it has the
  system's trust. -/
  | cred (keyFile : Option (Bytes × Bytes)) (systemTrust : Bool)
  | session (s : TlsSession)
  /-- An `ngtcp2_conn`, with the session of `ngtcp2_conn_set_tls_native_handle`. -/
  | conn (role : Role) (tlsNativeHandle : Option Nat)
  deriving DecidableEq

/-- Something of the credentials is set. -/
def NativeObject.setCred (keyFile : Option (Bytes × Bytes)) (systemTrust : Bool) :
    NativeObject → Option NativeObject
  | .cred _ _ => some (.cred keyFile systemTrust)
  | _ => none

/-- Something of the session is set. -/
def NativeObject.setSession (f : TlsSession → TlsSession) : NativeObject → Option NativeObject
  | .session s => some (.session (f s))
  | _ => none

/-- The native part of a connection. -/
structure Natives where
  cred : Option Nat := none
  session : Option Nat := none
  conn : Option Nat := none
  store : Store NativeObject := .empty
  /-- The connections that ngtcp2 has made for the object, the last first. -/
  made : List Nat := []
  warnings : List String := []

/-- The answers in one call of `php_quic_tls_gnutls_init_client` or `…_init_server`: the text of the
error, or `none`. -/
structure TlsAnswers where
  allocate : Option String := none
  /-- `gnutls_certificate_set_x509_key_file`; servers only. -/
  keyFile : Option String := none
  init : Option String := none
  priority : Option String := none
  configure : Bool := true
  /-- `gnutls_certificate_set_x509_system_trust`, when negative; clients only. -/
  systemTrust : Option String := none
  credentialsSet : Option String := none
  alpnSet : Option String := none
  deriving DecidableEq

/-- Everything that a client needs was answered with success. -/
def TlsAnswers.clientOk (a : TlsAnswers) : Bool :=
  a.allocate.isNone && a.init.isNone && a.priority.isNone && a.configure &&
    a.credentialsSet.isNone && a.alpnSet.isNone

def TlsAnswers.serverOk (a : TlsAnswers) : Bool :=
  a.allocate.isNone && a.keyFile.isNone && a.init.isNone && a.priority.isNone && a.configure &&
    a.credentialsSet.isNone && a.alpnSet.isNone

namespace Natives

variable {n : Natives} {p q : Nat} {s : TlsSession}

/-! ## The calls of GnuTLS -/

/-- `php_error_docref(NULL, E_WARNING, …)`. -/
def warn (n : Natives) (text : String) : Natives := { n with warnings := n.warnings ++ [text] }

/-- `gnutls_certificate_allocate_credentials(&connection->cred)`. -/
def allocateCredentials (n : Natives) : Natives :=
  { n with cred := some n.store.next, store := n.store.alloc (.cred none false) }

/-- `gnutls_init(&connection->session, …)`. -/
def init (n : Natives) (role : Role) : Natives :=
  { n with session := some n.store.next, store := n.store.alloc (.session { role }) }

/-- A call that sets something of the credentials. -/
def setCred (n : Natives) (keyFile : Option (Bytes × Bytes)) (systemTrust : Bool) :
    Option Natives :=
  n.cred.bind fun p =>
    (n.store.modify p (NativeObject.setCred keyFile systemTrust)).map fun store => { n with store }

/-- A call that sets something of the session. -/
def setSession (n : Natives) (f : TlsSession → TlsSession) : Option Natives :=
  n.session.bind fun q =>
    (n.store.modify q (NativeObject.setSession f)).map fun store => { n with store }

/-- `gnutls_deinit(connection->session)`, and the pointer becomes `NULL`. -/
def deinit (n : Natives) : Option Natives :=
  n.session.bind fun q => (n.store.free q).map fun store => { n with session := none, store }

/-- `gnutls_certificate_free_credentials(connection->cred)`, and the pointer becomes `NULL`. -/
def freeCredentials (n : Natives) : Option Natives :=
  n.cred.bind fun p => (n.store.free p).map fun store => { n with cred := none, store }

/-! ## `src/tls_gnutls.c` -/

/-- `php_quic_tls_gnutls_cleanup`. -/
def cleanup (n : Natives) : Option Natives := do
  let n ← if n.session.isSome then n.deinit else some n
  if n.cred.isSome then n.freeCredentials else some n

/-- A warning, `php_quic_tls_gnutls_cleanup` and `FAILURE`. -/
def failed (n : Natives) (text : String) : Option (Natives × Bool) :=
  (n.warn text).cleanup.map fun n => (n, false)

/-- `"h3"`. -/
def h3 : Bytes := [0x68, 0x33]

/-- The protocol that a client offers. -/
def clientAlpn (alpn : Option Bytes) : Bytes :=
  match alpn with
  | none => h3
  | some alpn => if cString alpn = [] then h3 else cString alpn

theorem clientAlpn_ne (alpn : Option Bytes) : clientAlpn alpn ≠ [] := by
  unfold clientAlpn
  cases alpn with
  | none => exact List.cons_ne_nil _ _
  | some alpn =>
    simp only
    split
    · exact List.cons_ne_nil _ _
    · assumption

/-- `gnutls_certificate_set_x509_system_trust`; without it the setup goes on. -/
def setSystemTrust (n : Natives) (failure : Option String) : Option Natives :=
  match failure with
  | some text => some (n.warn ("gnutls_certificate_set_x509_system_trust: " ++ text))
  | none => n.setCred none true

/-- `php_quic_tls_gnutls_init_client`, with whether it was a `SUCCESS`. -/
def initClient (n : Natives) (alpn : Option Bytes) (a : TlsAnswers) : Option (Natives × Bool) := do
  let alpn := clientAlpn alpn
  match a.allocate with
  | some text =>
    return (n.warn ("gnutls_certificate_allocate_credentials failed: " ++ text), false)
  | none =>
  let n := n.allocateCredentials
  match a.init with
  | some text =>
    let n ← (n.warn ("gnutls_init failed: " ++ text)).freeCredentials
    return (n, false)
  | none =>
  let n := n.init .client
  match a.priority with
  | some text => n.failed ("gnutls_priority_set_direct failed: " ++ text)
  | none =>
  let n ← n.setSession fun s => { s with priority := true }
  if !a.configure then
    -- the two calls of `cleanup`, written out
    let n ← (n.warn "ngtcp2_crypto_gnutls_configure_client_session failed").deinit
    let n ← n.freeCredentials
    return (n, false)
  else
  let n ← n.setSession fun s => { s with configured := some .client }
  let n ← n.setSystemTrust a.systemTrust
  match a.credentialsSet with
  | some text => n.failed ("gnutls_credentials_set failed: " ++ text)
  | none =>
  let cred := n.cred
  let n ← n.setSession fun s => { s with credentials := cred }
  match a.alpnSet with
  | some text => n.failed ("gnutls_alpn_set_protocols failed: " ++ text)
  | none =>
  let n ← n.setSession fun s => { s with alpn := some alpn }
  let n ← n.setSession fun s => { s with connRef := true }
  return (n, true)

/-- `php_quic_tls_gnutls_init_server`. -/
def initServer (n : Natives) (certFile keyFile alpn : Option Bytes) (a : TlsAnswers) :
    Option (Natives × Bool) :=
  match certFile, keyFile, alpn with
  | some certFile, some keyFile, some alpn => do
    if cString alpn = [] then
      return (n.warn "server TLS initialization requires cert_file, key_file, and alpn", false)
    else
    match a.allocate with
    | some text =>
      return (n.warn ("gnutls_certificate_allocate_credentials failed: " ++ text), false)
    | none =>
    let n := n.allocateCredentials
    match a.keyFile with
    | some text => n.failed ("gnutls_certificate_set_x509_key_file failed: " ++ text)
    | none =>
    let n ← n.setCred (some (cString certFile, cString keyFile)) false
    match a.init with
    | some text => n.failed ("gnutls_init failed: " ++ text)
    | none =>
    let n := n.init .server
    match a.priority with
    | some text => n.failed ("gnutls_priority_set_direct failed: " ++ text)
    | none =>
    let n ← n.setSession fun s => { s with priority := true }
    if !a.configure then
      n.failed "ngtcp2_crypto_gnutls_configure_server_session failed"
    else
    let n ← n.setSession fun s => { s with configured := some .server }
    match a.credentialsSet with
    | some text => n.failed ("gnutls_credentials_set failed: " ++ text)
    | none =>
    let cred := n.cred
    let n ← n.setSession fun s => { s with credentials := cred }
    match a.alpnSet with
    | some text => n.failed ("gnutls_alpn_set_protocols failed: " ++ text)
    | none =>
    let n ← n.setSession fun s => { s with alpn := some (cString alpn) }
    let n ← n.setSession fun s => { s with connRef := true }
    let n ← n.setSession fun s => { s with handshakeTimeout := true }
    return (n, true)
  | _, _, _ =>
    some (n.warn "server TLS initialization requires cert_file, key_file, and alpn", false)

/-! ## How far an object has got -/

/-- The object has nothing native. -/
structure Bare (n : Natives) : Prop where
  cred : n.cred = none
  session : n.session = none
  conn : n.conn = none
  made : n.made = []
  owns : n.store.Owns []

/-- The object has credentials at `p`, and no more. -/
structure HasCred (n : Natives) (p : Nat) : Prop where
  cred : n.cred = some p
  session : n.session = none
  conn : n.conn = none
  made : n.made = []
  cred_at : ∃ keyFile trust, n.store.get p = some (.cred keyFile trust)
  owns : n.store.Owns [p]

/-- The object has credentials at `p` and a session at `q`, and its connections use the session. -/
structure HasTls (n : Natives) (p q : Nat) (s : TlsSession) : Prop where
  cred : n.cred = some p
  session : n.session = some q
  conn : n.conn = n.made.head?
  cred_at : ∃ keyFile trust, n.store.get p = some (.cred keyFile trust)
  session_at : n.store.get q = some (.session s)
  conns : ∀ c ∈ n.made, ∃ role, n.store.get c = some (.conn role (some q))
  owns : n.store.Owns (q :: p :: n.made)

theorem Bare.warn (h : n.Bare) (text : String) : (n.warn text).Bare :=
  ⟨h.cred, h.session, h.conn, h.made, h.owns⟩

theorem Bare.empty : ({} : Natives).Bare := ⟨rfl, rfl, rfl, rfl, .empty⟩

theorem Bare.allocateCredentials (h : n.Bare) : HasCred n.allocateCredentials n.store.next :=
  ⟨rfl, h.session, h.conn, h.made, ⟨none, false, n.store.get_alloc_self _⟩, h.owns.alloc _⟩

theorem Bare.cleanup (h : n.Bare) : n.cleanup = some n := by
  unfold Natives.cleanup
  simp [h.cred, h.session]

namespace HasCred

theorem warn (h : n.HasCred p) (text : String) : (n.warn text).HasCred p :=
  ⟨h.cred, h.session, h.conn, h.made, h.cred_at, h.owns⟩

theorem setCred (h : n.HasCred p) (keyFile : Option (Bytes × Bytes)) (trust : Bool) :
    Defined (n.setCred keyFile trust) (HasCred · p) := by
  obtain ⟨k, t, hp⟩ := h.cred_at
  have hmodify := h.owns.modify (f := NativeObject.setCred keyFile trust) hp rfl
  exact .bind_some h.cred <| hmodify.map fun store ⟨howns, hself, _⟩ =>
    ⟨h.cred, h.session, h.conn, h.made, ⟨keyFile, trust, hself⟩, howns⟩

theorem freeCredentials (h : n.HasCred p) : Defined n.freeCredentials Bare := by
  exact .bind_some h.cred <| h.owns.free.map fun store ⟨howns, _⟩ =>
    ⟨rfl, h.session, h.conn, h.made, howns⟩

theorem cleanup (h : n.HasCred p) : Defined n.cleanup Bare := by
  unfold Natives.cleanup
  rw [h.session]
  show Defined (if n.cred.isSome then n.freeCredentials else some n) Bare
  rw [h.cred]
  exact h.freeCredentials

theorem init (h : n.HasCred p) (role : Role) : HasTls (n.init role) p n.store.next { role } := by
  obtain ⟨k, t, hp⟩ := h.cred_at
  refine ⟨h.cred, rfl, ?_, ⟨k, t, ?_⟩, n.store.get_alloc_self _, ?_, ?_⟩
  · show n.conn = n.made.head?
    rw [h.conn, h.made]
    rfl
  · exact (Store.get_alloc (by rw [hp]; rfl)).trans hp
  · intro c hc
    rw [show (n.init role).made = [] from h.made] at hc
    cases hc
  · rw [show (n.init role).made = [] from h.made]
    exact h.owns.alloc _

end HasCred

namespace HasTls

theorem warn (h : n.HasTls p q s) (text : String) : (n.warn text).HasTls p q s :=
  ⟨h.cred, h.session, h.conn, h.cred_at, h.session_at, h.conns, h.owns⟩

theorem ne (h : n.HasTls p q s) : p ≠ q := fun hpq => by
  have := (List.nodup_cons.mp h.owns.nodup).1
  exact this (hpq ▸ List.mem_cons_self)

/-- A connection is not the session. -/
theorem conn_ne (h : n.HasTls p q s) {c : Nat} (hc : c ∈ n.made) : c ≠ q := fun hcq => by
  have := (List.nodup_cons.mp h.owns.nodup).1
  exact this (List.mem_cons_of_mem _ (hcq ▸ hc))

/-- A call that sets something of the session. -/
theorem setSession (h : n.HasTls p q s) (f : TlsSession → TlsSession) :
    Defined (n.setSession f) fun n' => n'.HasTls p q (f s) ∧ n'.made = n.made := by
  obtain ⟨k, t, hp⟩ := h.cred_at
  have hmodify := h.owns.modify (f := NativeObject.setSession f) h.session_at rfl
  refine .bind_some h.session <| hmodify.map fun store ⟨howns, hself, hrest⟩ =>
    ⟨⟨h.cred, h.session, h.conn, ⟨k, t, (hrest p h.ne).trans hp⟩, hself, ?_, howns⟩, rfl⟩
  intro c hc
  obtain ⟨role, hconn⟩ := h.conns c hc
  exact ⟨role, (hrest c (h.conn_ne hc)).trans hconn⟩

theorem setCred (h : n.HasTls p q s) (keyFile : Option (Bytes × Bytes)) (trust : Bool) :
    Defined (n.setCred keyFile trust) fun n' => n'.HasTls p q s ∧ n'.made = n.made := by
  obtain ⟨k, t, hp⟩ := h.cred_at
  have hmodify := h.owns.modify (f := NativeObject.setCred keyFile trust) hp rfl
  refine .bind_some h.cred <| hmodify.map fun store ⟨howns, hself, hrest⟩ =>
    ⟨⟨h.cred, h.session, h.conn, ⟨keyFile, trust, hself⟩,
      (hrest q h.ne.symm).trans h.session_at, ?_, howns⟩, rfl⟩
  intro c hc
  obtain ⟨role, hconn⟩ := h.conns c hc
  refine ⟨role, (hrest c fun hcp => ?_).trans hconn⟩
  -- what is at `p` is credentials
  rw [hcp, hp] at hconn
  cases hconn

theorem setSystemTrust (h : n.HasTls p q s) (failure : Option String) :
    Defined (n.setSystemTrust failure) fun n' => n'.HasTls p q s ∧ n'.made = n.made := by
  cases failure with
  | some text => exact .pure ⟨h.warn _, rfl⟩
  | none => exact h.setCred none true

theorem deinit (h : n.HasTls p q s) (hmade : n.made = []) : Defined n.deinit (HasCred · p) := by
  have hconn : n.conn = none := by rw [h.conn, hmade]; rfl
  obtain ⟨k, t, hp⟩ := h.cred_at
  refine .bind_some h.session <| h.owns.free.map fun store ⟨howns, hrest⟩ =>
    ⟨h.cred, rfl, hconn, hmade, ⟨k, t, (hrest p List.mem_cons_self).trans hp⟩, hmade ▸ howns⟩

/-- The session goes before the credentials that it uses; `l` is what else is alive. -/
theorem cleanup_owns {l : List Nat} (hcred : n.cred = some p) (hsession : n.session = some q)
    (h : n.store.Owns (q :: p :: l)) : Defined n.cleanup fun n' => n'.cred = none ∧
      n'.session = none ∧ n'.conn = n.conn ∧ n'.made = n.made ∧ n'.store.Owns l := by
  have hdeinit : Defined n.deinit fun n' => n'.cred = some p ∧ n'.session = none ∧
      n'.conn = n.conn ∧ n'.made = n.made ∧ n'.store.Owns (p :: l) :=
    .bind_some hsession <| h.free.map fun store ⟨howns, _⟩ => ⟨hcred, rfl, rfl, rfl, howns⟩
  unfold Natives.cleanup
  rw [hsession]
  refine hdeinit.bind fun n' ⟨hcred', hsession', hconn, hmade, howns⟩ => ?_
  show Defined (if n'.cred.isSome then n'.freeCredentials else some n') _
  rw [if_pos (by rw [hcred']; rfl)]
  exact .bind_some hcred' <| howns.free.map fun store ⟨howns', _⟩ =>
    ⟨rfl, hsession', hconn, hmade, howns'⟩

theorem cleanup (h : n.HasTls p q s) (hmade : n.made = []) : Defined n.cleanup Bare := by
  refine (cleanup_owns h.cred h.session h.owns).mono
    fun n' ⟨hcred, hsession, hconn, hmade', howns⟩ =>
      ⟨hcred, hsession, ?_, hmade'.trans hmade, hmade ▸ howns⟩
  rw [hconn, h.conn, hmade]
  rfl

end HasTls

/-! ## The two setups -/

/-- A session that has been set up. -/
def ready (role : Role) (p : Nat) (alpn : Bytes) : TlsSession where
  role
  priority := true
  configured := some role
  credentials := some p
  alpn := some alpn
  connRef := true
  handshakeTimeout := role = .server

/-- TLS is set up, or there is nothing of it. -/
def SetUp (role : Role) (alpn : Bytes) (r : Natives × Bool) : Prop :=
  if r.2 then ∃ p q, r.1.HasTls p q (ready role p alpn) ∧ r.1.made = [] else r.1.Bare

theorem failed_spec {role : Role} {alpn : Bytes} {text : String}
    (h : Defined (n.warn text).cleanup Bare) :
    Defined (n.failed text) fun r => r.2 = false ∧ SetUp role alpn r :=
  h.map fun _ hbare => ⟨rfl, hbare⟩

theorem initClient_spec (h : n.Bare) (alpn : Option Bytes) (a : TlsAnswers) :
    Defined (n.initClient alpn a) fun r =>
      r.2 = a.clientOk ∧ SetUp .client (clientAlpn alpn) r := by
  unfold initClient TlsAnswers.clientOk
  simp only
  have hcred := h.allocateCredentials
  have htls := hcred.init .client
  cases a.allocate with
  | some text => exact .pure ⟨rfl, h.warn _⟩
  | none =>
  cases a.init with
  | some text => exact (hcred.warn _).freeCredentials.bind fun n' hn' => .pure ⟨rfl, hn'⟩
  | none =>
  cases a.priority with
  | some text => exact failed_spec ((htls.warn _).cleanup h.made)
  | none =>
  refine (htls.setSession _).bind fun n₁ ⟨htls, hmade⟩ => ?_
  replace hmade : n₁.made = [] := hmade.trans h.made
  cases a.configure with
  | false =>
    refine ((htls.warn _).deinit hmade).bind fun _ hcred => ?_
    exact hcred.freeCredentials.bind fun _ hbare => .pure ⟨rfl, hbare⟩
  | true =>
  refine (htls.setSession _).bind fun n₂ ⟨htls, hmade₂⟩ => ?_
  refine (htls.setSystemTrust _).bind fun n₃ ⟨htls, hmade₃⟩ => ?_
  replace hmade : n₃.made = [] := hmade₃.trans (hmade₂.trans hmade)
  have hcred₃ := htls.cred
  cases a.credentialsSet with
  | some text => exact failed_spec ((htls.warn _).cleanup hmade)
  | none =>
  refine (htls.setSession _).bind fun n₄ ⟨htls, hmade₄⟩ => ?_
  cases a.alpnSet with
  | some text => exact failed_spec ((htls.warn _).cleanup (hmade₄.trans hmade))
  | none =>
  refine (htls.setSession _).bind fun n₅ ⟨htls, hmade₅⟩ => ?_
  refine (htls.setSession _).bind fun n₆ ⟨htls, hmade₆⟩ => ?_
  rw [hcred₃] at htls
  exact .pure ⟨rfl, _, _, htls, hmade₆.trans (hmade₅.trans (hmade₄.trans hmade))⟩

theorem initServer_spec (h : n.Bare) (certFile keyFile : Bytes) {alpn : Bytes}
    (halpn : cString alpn ≠ []) (a : TlsAnswers) :
    Defined (n.initServer (some certFile) (some keyFile) (some alpn) a) fun r =>
      r.2 = a.serverOk ∧ SetUp .server (cString alpn) r := by
  unfold initServer TlsAnswers.serverOk
  simp only
  rw [if_neg halpn]
  have hcred := h.allocateCredentials
  cases a.allocate with
  | some text => exact .pure ⟨rfl, h.warn _⟩
  | none =>
  cases a.keyFile with
  | some text => exact failed_spec (hcred.warn _).cleanup
  | none =>
  refine (hcred.setCred _ _).bind fun n₁ hcred => ?_
  cases a.init with
  | some text => exact failed_spec (hcred.warn _).cleanup
  | none =>
  have htls := hcred.init .server
  cases a.priority with
  | some text => exact failed_spec ((htls.warn _).cleanup hcred.made)
  | none =>
  refine (htls.setSession _).bind fun n₂ ⟨htls, hmade₂⟩ => ?_
  replace hmade₂ : n₂.made = [] := hmade₂.trans hcred.made
  cases a.configure with
  | false => exact failed_spec ((htls.warn _).cleanup hmade₂)
  | true =>
  refine (htls.setSession _).bind fun n₃ ⟨htls, hmade₃⟩ => ?_
  replace hmade₃ : n₃.made = [] := hmade₃.trans hmade₂
  have hcred₃ := htls.cred
  cases a.credentialsSet with
  | some text => exact failed_spec ((htls.warn _).cleanup hmade₃)
  | none =>
  refine (htls.setSession _).bind fun n₄ ⟨htls, hmade₄⟩ => ?_
  replace hmade₄ : n₄.made = [] := hmade₄.trans hmade₃
  cases a.alpnSet with
  | some text => exact failed_spec ((htls.warn _).cleanup hmade₄)
  | none =>
  refine (htls.setSession _).bind fun n₅ ⟨htls, hmade₅⟩ => ?_
  refine (htls.setSession _).bind fun n₆ ⟨htls, hmade₆⟩ => ?_
  refine (htls.setSession _).bind fun n₇ ⟨htls, hmade₇⟩ => ?_
  rw [hcred₃] at htls
  exact .pure ⟨rfl, _, _, htls, hmade₇.trans (hmade₆.trans (hmade₅.trans hmade₄))⟩

end Natives

end PhpQuic
