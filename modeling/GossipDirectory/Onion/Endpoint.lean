import GossipDirectory.Address.Text
import GossipDirectory.Crypto.Sha3

/-!
# Onion endpoints

An onion service is known by 56 characters that encode its public key, two checksum bytes and the
version. An endpoint is a service and a port between 1024 and 65534.
-/

namespace GossipDirectory

/-- A service of the onion network and the port to reach it at. -/
structure OnionEndpoint where
  serviceId : String
  port : UInt16
  deriving DecidableEq, Repr

namespace OnionEndpoint

/-- The smallest port. -/
def minPort : UInt16 := 1024

/-- The first port above the accepted ones. -/
def maxPort : UInt16 := 65535

/-- The address kinds that the onion transport handles. -/
def protocols : List String := ["onion3"]

/-- The endpoint of an address that is one onion segment; a peer at its end is ignored. -/
def ofMultiaddr (address : Multiaddr) : Except Failure OnionEndpoint :=
  match address.stripPeer with
  | [.onion3 hash port] =>
    if minPort ≤ port ∧ port < maxPort then
      .ok { serviceId := String.ofList (Base32.encode hash), port }
    else .error (.invalidAddress (.onionPort port.toNat))
  | _ => .error (.invalidAddress (.notOnion address.toText))

/-- The host name of the service. -/
def hostname (e : OnionEndpoint) : String :=
  e.serviceId ++ ".onion"

/-- The address of the endpoint. -/
def toMultiaddr (e : OnionEndpoint) : Except Failure Multiaddr :=
  Multiaddr.ofText ("/onion3/" ++ e.serviceId ++ ":" ++ Decimal.text e.port.toNat)

end OnionEndpoint

/-- An address can be dialed over the onion network. -/
def isOnionAddress (address : Multiaddr) : Bool :=
  match OnionEndpoint.ofMultiaddr address with
  | .ok _ => true
  | .error _ => false

namespace OnionService

/-- The version of onion services. -/
def version : UInt8 := 3

/-- What is hashed in front of the key. -/
def checksumPrefix : Bytes :=
  Utf8.encode ".onion checksum"

/-- The 35 bytes that the name of a service encodes. -/
def nameBytes (publicKey : Bytes) : Bytes :=
  publicKey ++ (Sha3.digest (checksumPrefix ++ publicKey ++ [version])).take 2 ++ [version]

/-- The name of the service of a public key. -/
def idOf (publicKey : Bytes) : String :=
  String.ofList (Base32.encode (nameBytes publicKey))

end OnionService

end GossipDirectory
