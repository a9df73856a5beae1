import PhpQuic.Types

/-!
# Addresses

`php_quic_address_to_sockaddr` and `php_quic_address_init_from_sockaddr` of `src/address.c`, and
`php_quic_default_local_addr` of `src/connection.c`. The resolver of the system is an input (`Getaddrinfo`): it is given the host and
the port as C strings and answers with the addresses it found, or not at all.
-/

namespace PhpQuic

/-- The digits that `%ld` prints of a natural number. -/
def decimalNat (n : Nat) : Bytes := (Nat.toDigits 10 n).map fun d => d.toNat.toUInt8

/-- What `%ld` prints. -/
def decimal (n : Int) : Bytes :=
  if n < 0 then 45 :: decimalNat n.natAbs else decimalNat n.natAbs

/-- `getaddrinfo` for datagram sockets and a numeric port; `none` is an error code. -/
abbrev Getaddrinfo := Bytes → Bytes → Option (List SockAddr)

/-- `php_quic_address_to_sockaddr`; `none` is `FAILURE`. -/
def addressToSockaddr (getaddrinfo : Getaddrinfo) (address : Option Address) : Option SockAddr :=
  match address with
  | none => none
  | some address =>
    if address.host.length = 0 then none
    else if address.port < 0 ∨ address.port > 65535 then none
    else
      (getaddrinfo (cString address.host) (decimal address.port)).bind fun res =>
        res.find? fun rp => rp.family = .inet || rp.family = .inet6

/-- `php_quic_address_init_from_sockaddr`; `inetNtop` prints an address. -/
def addressFromSockaddr (inetNtop : Family → Bytes → Bytes) (addr : SockAddr) : Address :=
  match addr.family with
  | .other => { host := [], port := 0 }
  | family => { host := inetNtop family addr.addr, port := addr.port }

/-- `php_quic_default_local_addr`. -/
def defaultLocalAddr (family : Family) : SockAddr :=
  if family = .inet6 then { family := .inet6, addr := List.replicate 16 0, port := 0 }
  else { family := .inet, addr := List.replicate 4 0, port := 0 }

end PhpQuic
