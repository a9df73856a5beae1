import PhpQuic.System

/-!
# `ServerConnection::accept`

The static method of `src/server_connection.c` that makes a server connection of a client's first
datagram. It goes through its stages in the order of the source (config, initial, decode, address,
tls, cid, transport, new, read), each of which can end it with an exception.

* `AcceptAnswers`: what ngtcp2, GnuTLS and the system answer in one call.
* `StringRefs`: how many references to the strings of the configuration the call has added; the
  stages before the addresses return without giving them back. PHP counts no references to a string
  that is interned (`Interned`), as the literals of a script are.
* `accept_start`: what `accept` returns is a server of `Start`.
-/

namespace PhpQuic

/-- Which of the strings of a configuration are interned. -/
structure Interned where
  certFile : Bool := false
  keyFile : Bool := false
  alpn : Bool := false
  deriving DecidableEq

/-- `php_quic_server_config`. -/
structure ServerConfig where
  localAddress : Option Address
  certFile : Option Bytes
  keyFile : Option Bytes
  alpn : Option Bytes
  interned : Interned := {}
  deriving DecidableEq

/-- The answer of `ngtcp2_pkt_decode_version_cid` (`none` is 0) with what it decoded. -/
structure DecodeAnswer where
  rv : Option Err := none
  version : UInt32 := 1
  dcidlen : Nat := 8
  scidlen : Nat := 8
  deriving DecidableEq

/-- The answers in one call of `accept`. -/
structure AcceptAnswers where
  decode : DecodeAnswer := {}
  /-- `ngtcp2_is_supported_version`. -/
  supportedVersion : Bool := true
  getaddrinfo : Getaddrinfo
  inetNtop : Family → Bytes → Bytes
  /-- `php_quic_tls_gnutls_init_server`. -/
  tls : Bool := true
  /-- `php_quic_fill_random`. -/
  random : Bool := true
  /-- `php_quic_server_set_stateless_reset_token`. -/
  resetToken : Bool := true
  /-- `php_quic_test_force_server_new_failure`. -/
  forceNewFailure : Bool := false
  /-- `ngtcp2_conn_server_new`; `none` is 0. -/
  serverNew : Option Err := none
  callbacks : List Callback := []
  /-- `ngtcp2_conn_read_pkt`; `none` is 0. -/
  readPkt : Option Err := none

/-- The references that the call holds to `cert_file`, `key_file` and `alpn`. -/
structure StringRefs where
  certFile : Int := 0
  keyFile : Int := 0
  alpn : Int := 0
  deriving DecidableEq

/-- `zend_string_copy`. -/
def zendStringCopy (interned : Bool) (refs : Int) : Int := if interned then refs else refs + 1

/-- `zend_string_release`. -/
def zendStringRelease (interned : Bool) (refs : Int) : Int := if interned then refs else refs - 1

namespace StringRefs

/-- The two files are copied, and `alpn` is copied or made. -/
def copy (config : ServerConfig) (r : StringRefs) : StringRefs where
  certFile := zendStringCopy config.interned.certFile r.certFile
  keyFile := zendStringCopy config.interned.keyFile r.keyFile
  alpn := match config.alpn with
    | some _ => zendStringCopy config.interned.alpn r.alpn
    -- `zend_string_init`: a string that is not interned
    | none => r.alpn + 1

/-- The three are released. -/
def release (config : ServerConfig) (r : StringRefs) : StringRefs where
  certFile := zendStringRelease config.interned.certFile r.certFile
  keyFile := zendStringRelease config.interned.keyFile r.keyFile
  alpn := zendStringRelease (config.alpn.isSome && config.interned.alpn) r.alpn

end StringRefs

namespace ServerConnection

/-- The local address: of the configuration, of the datagram, or the default. -/
def acceptLocalAddr (config : ServerConfig) (initial : Datagram) (remoteAddr : SockAddr)
    (a : AcceptAnswers) : Except Exn SockAddr :=
  match config.localAddress with
  | some address =>
    match addressToSockaddr a.getaddrinfo (some address) with
    | none => .error (.exception "ServerConnection::accept [address]: localAddress is invalid")
    | some localAddr => .ok localAddr
  | none =>
    match initial.localAddress with
    | some address =>
      match addressToSockaddr a.getaddrinfo (some address) with
      | none => .error (.exception
          "ServerConnection::accept [address]: Datagram.localAddress is invalid")
      | some localAddr => .ok localAddr
    | none => .ok (defaultLocalAddr remoteAddr.family)

/-- The object that `accept` makes, when ngtcp2 has its connection. -/
def acceptObject (config : ServerConfig) (initial : Datagram) (path : Path) (a : AcceptAnswers) :
    State :=
  let localAddress := match config.localAddress, initial.localAddress with
    | some address, _ => address
    | none, some address => address
    | none, none => addressFromSockaddr a.inetNtop path.localAddr
  ⟨Connection.fresh .server path initial.peerAddress (some localAddress), []⟩

/-- The stages behind the addresses; each of them gives the strings back. -/
def acceptNative (config : ServerConfig) (initial : Datagram) (path : Path) (a : AcceptAnswers) :
    Except Exn State :=
  if !a.tls then .error (.exception
    "ServerConnection::accept [tls]: failed to initialize server-side GnuTLS session")
  else if !a.random then .error (.exception
    "ServerConnection::accept [cid]: failed to generate server SCID")
  else if !a.resetToken then .error (.exception
    "ServerConnection::accept [transport]: failed to generate stateless reset token")
  else if a.forceNewFailure then .error (.exception
    "ServerConnection::accept [ngtcp2:new]: forced failure by NGTCP2_TEST_FORCE_SERVER_NEW_FAILURE")
  else match a.serverNew with
    | some rv => .error (.ngtcp2 "ServerConnection::accept [ngtcp2:new]: ngtcp2_conn_server_new" rv)
    | none =>
      let s := ((acceptObject config initial path a).runCallbacks a.callbacks).log
        (.readPkt path initial.payload a.readPkt)
      match a.readPkt with
      | some rv => .error (.ngtcp2
          "ServerConnection::accept [ngtcp2:read_initial]: ngtcp2_conn_read_pkt (initial)" rv)
      | none => .ok s

/-- `ServerConnection::accept`, with the references that it has added when it ends. -/
def accept (initial : Datagram) (config : ServerConfig) (a : AcceptAnswers) :
    Except Exn State × StringRefs :=
  let refs : StringRefs := {}
  if config.certFile.isNone || config.keyFile.isNone then (.error (.exception
    "ServerConnection::accept [config]: ServerConfig.certFile and ServerConfig.keyFile are required"),
    refs)
  else
    let refs := refs.copy config
    if initial.payload.length = 0 then (.error (.exception
      "ServerConnection::accept [initial]: initial datagram payload is empty"), refs)
    else match a.decode.rv.filter (· ≠ .versionNegotiation) with
    | some rv => (.error (.strerror
        "ServerConnection::accept [decode]: failed to decode initial datagram" rv), refs)
    | none =>
      if !a.supportedVersion then (.error (.version
        "ServerConnection::accept [decode]: unsupported QUIC version in initial datagram"
        a.decode.version), refs)
      -- `NGTCP2_MAX_CIDLEN`
      else if a.decode.dcidlen > 20 ∨ a.decode.scidlen > 20 then (.error (.exception
        "ServerConnection::accept [decode]: initial datagram has unsupported CID length"), refs)
      else match addressToSockaddr a.getaddrinfo initial.peerAddress with
        | none => (.error (.exception
            "ServerConnection::accept [address]: Datagram.peerAddress is invalid"), refs.release config)
        | some remoteAddr =>
          match acceptLocalAddr config initial remoteAddr a with
          | .error e => (.error e, refs.release config)
          | .ok localAddr =>
            (acceptNative config initial { localAddr, remoteAddr } a, refs.release config)

/-- An accepted connection is a server that has read its first datagram. -/
theorem accept_start {initial : Datagram} {config : ServerConfig} {a : AcceptAnswers} {s : State}
    (h : (accept initial config a).1 = .ok s) :
    ∃ path remoteAddress localAddress callbacks,
      s = (Start.server path remoteAddress localAddress initial.payload callbacks).state := by
  have hnative {path : Path} (hn : acceptNative config initial path a = .ok s) :
      ∃ path remoteAddress localAddress callbacks,
        s = (Start.server path remoteAddress localAddress initial.payload callbacks).state := by
    unfold acceptNative at hn
    repeat' split at hn
    all_goals try cases hn
    rename_i hread
    exact ⟨path, initial.peerAddress, _, a.callbacks, by rw [hread]; rfl⟩
  unfold accept at h
  simp only at h
  repeat' split at h
  all_goals first | exact hnative h | cases h

end ServerConnection

end PhpQuic
