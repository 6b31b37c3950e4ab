import GossipDirectory.Address.Ip
import GossipDirectory.Address.PeerId
import GossipDirectory.Text.BitAlphabet

/-!
# Multiaddresses

An address is a sequence of segments, each naming a protocol and, for most protocols, a value.
-/

namespace GossipDirectory

/-- Protocols that stand without a value. -/
inductive PlainProtocol
  | udt | utp | http | https | tls | noise | quic | quicV1 | webtransport
  | p2pCircuit | p2pStardust | p2pWebSocketStar | p2pWebRtcStar | p2pWebRtcDirect
  | webrtcDirect | webrtc
  deriving DecidableEq, Repr

/-- Protocols whose value is free text. -/
inductive TextProtocol
  | dns | dns4 | dns6 | dnsaddr | unix | ip6zone | sni
  deriving DecidableEq, Repr

/-- Protocols whose value is a port. -/
inductive PortProtocol
  | tcp | udp | sctp | dccp
  deriving DecidableEq, Repr

/-- Protocols whose value is an address of an anonymity network, written in full or as its hash. -/
inductive GarlicProtocol
  | garlic64 | garlic32
  deriving DecidableEq, Repr

/-- One step of an address. -/
inductive Segment
  | ip4 (ip : Ipv4)
  | ip6 (ip : Ipv6)
  | ipcidr (width : UInt8)
  | port (protocol : PortProtocol) (number : UInt16)
  | text (protocol : TextProtocol) (value : String)
  | memory (number : UInt64)
  | p2p (peer : PeerId)
  /-- An onion address of the second version: ten bytes and a port. -/
  | onion (hash : Bytes) (number : UInt16)
  /-- An onion address of the third version: 35 bytes and a port. -/
  | onion3 (hash : Bytes) (number : UInt16)
  | garlic (protocol : GarlicProtocol) (address : Bytes)
  /-- The digest of a certificate. -/
  | certhash (hash : TaggedDigest)
  /-- A web socket at a path, over TLS or not. -/
  | webSocket (secure : Bool) (path : String)
  | httpPath (path : String)
  | plain (protocol : PlainProtocol)
  deriving DecidableEq, Repr

/-- An address. -/
abbrev Multiaddr := List Segment

namespace PlainProtocol

/-- Every protocol without value. -/
def all : List PlainProtocol :=
  [.udt, .utp, .http, .https, .tls, .noise, .quic, .quicV1, .webtransport, .p2pCircuit,
    .p2pStardust, .p2pWebSocketStar, .p2pWebRtcStar, .p2pWebRtcDirect, .webrtcDirect, .webrtc]

/-- The name of a protocol. -/
def name : PlainProtocol → String
  | .udt => "udt"
  | .utp => "utp"
  | .http => "http"
  | .https => "https"
  | .tls => "tls"
  | .noise => "noise"
  | .quic => "quic"
  | .quicV1 => "quic-v1"
  | .webtransport => "webtransport"
  | .p2pCircuit => "p2p-circuit"
  | .p2pStardust => "p2p-stardust"
  | .p2pWebSocketStar => "p2p-websocket-star"
  | .p2pWebRtcStar => "p2p-webrtc-star"
  | .p2pWebRtcDirect => "p2p-webrtc-direct"
  | .webrtcDirect => "webrtc-direct"
  | .webrtc => "webrtc"

end PlainProtocol

namespace TextProtocol

/-- Every protocol with a text value. -/
def all : List TextProtocol :=
  [.dns, .dns4, .dns6, .dnsaddr, .unix, .ip6zone, .sni]

/-- The name of a protocol. -/
def name : TextProtocol → String
  | .dns => "dns"
  | .dns4 => "dns4"
  | .dns6 => "dns6"
  | .dnsaddr => "dnsaddr"
  | .unix => "unix"
  | .ip6zone => "ip6zone"
  | .sni => "sni"

end TextProtocol

namespace PortProtocol

/-- Every protocol with a port. -/
def all : List PortProtocol :=
  [.tcp, .udp, .sctp, .dccp]

/-- The name of a protocol. -/
def name : PortProtocol → String
  | .tcp => "tcp"
  | .udp => "udp"
  | .sctp => "sctp"
  | .dccp => "dccp"

end PortProtocol

namespace GarlicProtocol

/-- Every protocol with a garlic address. -/
def all : List GarlicProtocol :=
  [.garlic64, .garlic32]

/-- The name of a protocol. -/
def name : GarlicProtocol → String
  | .garlic64 => "garlic64"
  | .garlic32 => "garlic32"

/-- The characters that write an address. -/
def alphabet : GarlicProtocol → BitAlphabet
  | .garlic64 => .garlic64
  | .garlic32 => .lower32

/-- The lengths that a written address may have. -/
def Fits : GarlicProtocol → Nat → Prop
  | .garlic64, length => 516 ≤ length ∧ length ≤ 616
  | .garlic32, length => length = 52 ∨ 55 ≤ length

instance : (protocol : GarlicProtocol) → (length : Nat) → Decidable (protocol.Fits length)
  | .garlic64, length => inferInstanceAs (Decidable (516 ≤ length ∧ length ≤ 616))
  | .garlic32, length => inferInstanceAs (Decidable (length = 52 ∨ 55 ≤ length))

end GarlicProtocol

namespace Multiaddr

/-- The address of a port on a host. -/
def ofHost (ip : IpAddress) (port : UInt16) : Multiaddr :=
  match ip with
  | .v4 ip => [.ip4 ip, .port .tcp port]
  | .v6 ip => [.ip6 ip, .port .tcp port]

/-- The address without a peer id at its end. -/
def stripPeer (addr : Multiaddr) : Multiaddr :=
  match addr.getLast? with
  | some (.p2p _) => addr.dropLast
  | _ => addr

/-- Peer and transport address of an address that ends with a peer id. -/
def splitPeer? (addr : Multiaddr) : Option (PeerId × Multiaddr) :=
  match addr.getLast? with
  | some (.p2p peer) => if addr.dropLast.isEmpty then none else some (peer, addr.dropLast)
  | _ => none

end Multiaddr

end GossipDirectory
