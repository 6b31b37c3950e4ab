import GossipDirectory.Address.Ip
import GossipDirectory.Error
import GossipDirectory.Text.Decimal

/-!
# The proxy in front of the onion network

Circuits are opened by a SOCKS5 proxy on the local machine, given as host and port. The host is
everything before the last colon.

## Implementation notes

A dial is modelled by what the proxy does; whatever goes wrong on the way, the dial is refused.
-/

namespace GossipDirectory

/-- A proxy's host and port. -/
structure SocksProxy where
  host : String
  port : UInt16
  deriving DecidableEq, Repr

/-- Splits at the last colon. -/
def splitLastColon (cs : List Char) : Option (List Char × List Char) :=
  match cs.reverse.span (· ≠ ':') with
  | (port, _ :: host) => some (host.reverse, port.reverse)
  | (_, []) => none

namespace SocksProxy

/-- The proxy that a text names. -/
def parse (text : String) : Except Failure SocksProxy :=
  match splitLastColon text.toList with
  | some (host, port) =>
    match host.isEmpty, Decimal.parse? UInt16.size port with
    | false, some n => .ok { host := String.ofList host, port := UInt16.ofNat n }
    | _, _ => .error (.config (.socksProxy text))
  | none => .error (.config (.socksProxy text))

end SocksProxy

/-- Where a proxy hangs up. -/
inductive HangUp
  | accept
  | greeting
  | request
  deriving DecidableEq, Repr

/-- What a proxy does with one connection. -/
structure ProxyConduct where
  /-- Connections to the proxy are accepted at all. -/
  reachable : Bool
  /-- The method that it answers the greeting with; zero asks for no authentication. -/
  method : Nat
  /-- The code that it answers the request with; zero grants it. -/
  reply : Nat
  hangUp : Option HangUp
  deriving DecidableEq, Repr

/-- The target of a circuit as the proxy reads it. -/
inductive CircuitTarget
  | name (host : String)
  | ip4 (ip : Ipv4)
  | ip6 (ip : Ipv6)
  deriving DecidableEq, Repr

/-- A request that the proxy reads. -/
structure CircuitRequest where
  target : CircuitTarget
  port : UInt16
  deriving DecidableEq, Repr

namespace CircuitRequest

/-- The target that a host name stands for. -/
def targetOf (host : String) : CircuitTarget :=
  match IpAddress.parse? host.toList with
  | some (.v4 ip) => .ip4 ip
  | some (.v6 ip) => .ip6 ip
  | none => .name host

/-- A host name that fits a request. -/
def fits (host : String) : Bool :=
  host.utf8ByteSize ≤ 255

end CircuitRequest

/-- The requests that reach a proxy on a dial, and whether the circuit stands. -/
def dialThrough (proxy : ProxyConduct) (host : String) (port : UInt16) :
    Bool × List CircuitRequest :=
  if !proxy.reachable || !CircuitRequest.fits host || proxy.hangUp = some .accept ||
      proxy.method ≠ 0 || proxy.hangUp = some .greeting then (false, [])
  else
    (proxy.reply = 0 && proxy.hangUp ≠ some .request,
      [{ target := CircuitRequest.targetOf host, port }])

end GossipDirectory
