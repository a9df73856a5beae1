import PhpQuic.Server.Endpoint
import PhpQuic.Address.FromString

/-!
# The keys of the registry

A connection is registered under the text `host|port` of its peer's address, where the host ends at
its first NUL. The separator may occur in the host, but never in the port.

* `connectionKey_eq_iff`: two addresses have the same key if and only if they have the same port and
  the same host up to a NUL. They then resolve to the same socket address.
-/

namespace PhpQuic

open CString

/-- `php_quic_address_to_sockaddr` reads what the key shows, and whether the host is empty. -/
theorem addressToSockaddr_congr {a b : Address} (ha : a.host ≠ []) (hb : b.host ≠ [])
    (hport : a.port = b.port) (hhost : cString a.host = cString b.host)
    (getaddrinfo : Getaddrinfo) :
    addressToSockaddr getaddrinfo (some a) = addressToSockaddr getaddrinfo (some b) := by
  have hlen : ∀ {x : Address}, x.host ≠ [] → ¬x.host.length = 0 := by
    intro x hx
    simpa using hx
  simp only [addressToSockaddr, if_neg (hlen ha), if_neg (hlen hb), hport, hhost]

namespace ServerEndpoint

theorem connectionKey_of_host {d : Datagram} {a : Address} (hd : d.peerAddress = some a)
    (ha : a.host ≠ []) : connectionKey d = some (cString a.host ++ 124 :: decimal a.port) := by
  have hlen : ¬a.host.length = 0 := by simpa using ha
  simp only [connectionKey, hd, if_neg hlen]

/-- Two peers with the same key have the same port and the same host, up to a NUL, and resolve to
the same socket address. -/
theorem connectionKey_eq_iff {d e : Datagram} {a b : Address} (hd : d.peerAddress = some a)
    (he : e.peerAddress = some b) (ha : a.host ≠ []) (hb : b.host ≠ []) :
    (connectionKey d = connectionKey e ↔ a.port = b.port ∧ cString a.host = cString b.host) ∧
      (connectionKey d = connectionKey e →
        ∀ getaddrinfo : Getaddrinfo, addressToSockaddr getaddrinfo d.peerAddress =
          addressToSockaddr getaddrinfo e.peerAddress) := by
  have hkey : connectionKey d = connectionKey e ↔
      a.port = b.port ∧ cString a.host = cString b.host := by
    rw [connectionKey_of_host hd ha, connectionKey_of_host he hb, Option.some.injEq]
    constructor
    · intro heq
      have hsep : ∀ n : Int, 124 ∉ decimal n := not_mem_decimal rfl (by decide)
      obtain ⟨hhost, hport⟩ := split_last_inj (hsep a.port) (hsep b.port) heq
      exact ⟨decimal_inj hport, hhost⟩
    · rintro ⟨hport, hhost⟩
      rw [hport, hhost]
  refine ⟨hkey, ?_⟩
  intro heq
  obtain ⟨hport, hhost⟩ := hkey.mp heq
  rw [hd, he]
  exact addressToSockaddr_congr ha hb hport hhost

/-- The separator in a host: `a|1` with the port `2`, and `a` with the port `1`. -/
theorem connectionKey_separator :
    let d : Datagram := ⟨[], some { host := [97, 124, 49], port := 2 }, none⟩
    let e : Datagram := ⟨[], some { host := [97], port := 1 }, none⟩
    connectionKey d ≠ connectionKey e := by
  intro d e heq
  have h := ((connectionKey_eq_iff rfl rfl (by decide) (by decide)).1.mp heq).1
  exact absurd h (by decide)

end ServerEndpoint

end PhpQuic
