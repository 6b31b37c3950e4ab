import GossipDirectory.Address.Multiaddr
import GossipDirectory.Error
import GossipDirectory.Text.Base32
import GossipDirectory.Text.Multibase
import GossipDirectory.Text.Percent

/-!
# Address text

An address is written as `/name/value` for every segment, without the value where a protocol has
none. The empty text is the empty address; every other text starts with a slash.
-/

namespace GossipDirectory

namespace Multiaddr

/-! ## Writing -/

/-- An onion address: its bytes in base 32, a colon and the port. -/
def onionChars (hash : Bytes) (port : UInt16) : List Char :=
  Base32.encode hash ++ ':' :: Decimal.render port.toNat

/-- A digest of a certificate, in the base that its first character names. -/
def certhashChars (hash : TaggedDigest) : List Char :=
  'u' :: BitAlphabet.url64.encode hash.toBytes

/-- The path segments of a written segment. -/
def segmentWords : Segment → List (List Char)
  | .ip4 ip => ["ip4".toList, ip.render]
  | .ip6 ip => ["ip6".toList, ip.render]
  | .ipcidr width => ["ipcidr".toList, Decimal.render width.toNat]
  | .port protocol number => [protocol.name.toList, Decimal.render number.toNat]
  | .text protocol value => [protocol.name.toList, value.toList]
  | .memory number => ["memory".toList, Decimal.render number.toNat]
  | .p2p peer => ["p2p".toList, peer.render]
  | .onion hash number => ["onion".toList, onionChars hash number]
  | .onion3 hash number => ["onion3".toList, onionChars hash number]
  | .garlic protocol address => [protocol.name.toList, protocol.alphabet.encode address]
  | .certhash hash => ["certhash".toList, certhashChars hash]
  | .webSocket secure path =>
    if path = "/" then [if secure then "wss".toList else "ws".toList]
    else [if secure then "x-parity-wss".toList else "x-parity-ws".toList,
      (Percent.encodeText path).toList]
  | .httpPath path => ["http-path".toList, (Percent.encodeText path).toList]
  | .plain protocol => [protocol.name.toList]

/-- A written segment. -/
def segmentChars (s : Segment) : List Char :=
  (segmentWords s).flatMap ('/' :: ·)

/-- A written address. -/
def render (addr : Multiaddr) : List Char :=
  addr.flatMap segmentChars

/-- The text of an address. -/
def toText (addr : Multiaddr) : String :=
  String.ofList addr.render

/-! ## Reading -/

/-- Why digits give no number below a bound: the first character that is no digit, or with which
the number becomes too large, decides. -/
def digitsDefect (bound value : Nat) : List Char → ValueDefect
  | [] => .tooLarge
  | c :: rest =>
    match Decimal.digit? c with
    | none => .badDigit
    | some d =>
      if bound ≤ 10 * value + d then .tooLarge else digitsDefect bound (10 * value + d) rest

/-- Why a text gives no number below a bound. -/
def numberDefect (bound : Nat) (cs : List Char) : ValueDefect :=
  match cs with
  | [] => .noDigits
  | ['+'] => .badDigit
  | '+' :: rest => digitsDefect bound 0 rest
  | _ => digitsDefect bound 0 cs

/-- A number below a bound, with an optional plus sign. -/
def numberValue (bound : Nat) (cs : List Char) : Except AddressError Nat :=
  match Decimal.parse? bound cs with
  | some n => .ok n
  | none => .error (.unreadableValue (numberDefect bound cs))

/-- Why a text gives no peer id. -/
def peerDefect (cs : List Char) : ValueDefect :=
  match Base58.decode? cs with
  | none => .digits
  | some bytes =>
    match TaggedDigest.ofBytes? bytes with
    | none => .digest
    | some tagged => .hashCode tagged.code

/-- A value that has to be readable. -/
def required {α : Type} (defect : ValueDefect) (value : Option α) : Except AddressError α :=
  match value with
  | some x => .ok x
  | none => .error (.unreadableValue defect)

/-- The upper case form of a character, as far as it lies in ASCII; a few ligatures and letters
outside ASCII have such a form too. -/
def upper (c : Char) : List Char :=
  match c.toNat with
  | 0xDF => ['S', 'S']
  | 0x131 => ['I']
  | 0x17F => ['S']
  | 0xFB00 => ['F', 'F']
  | 0xFB01 => ['F', 'I']
  | 0xFB02 => ['F', 'L']
  | 0xFB03 => ['F', 'F', 'I']
  | 0xFB04 => ['F', 'F', 'L']
  | 0xFB05 => ['S', 'T']
  | 0xFB06 => ['S', 'T']
  | _ => [c.toUpper]

/-- An onion address of `size` bytes, written with `width` characters, and its port. Bytes that
padding leaves out are zero. -/
def onionValue (size width : Nat) (cs : List Char) : Except AddressError (Bytes × UInt16) := do
  match splitAt ':' (cs.flatMap upper) with
  | host :: rest =>
    if (String.ofList host).utf8ByteSize ≠ width then .error .notAnAddress
    else match rest with
      | [] => .error .notAnAddress
      | port :: more =>
        let n ← numberValue UInt16.size port
        if n = 0 ∨ ¬ more.isEmpty then .error .notAnAddress
        else match Base32.decode? host with
          | none => .error .notAnAddress
          | some hash =>
            .ok (hash ++ List.replicate (size - hash.length) 0, UInt16.ofNat n)
  | [] => .error .notAnAddress

/-- The digit that a character stands for: the common digits of base 64 are read as those of garlic
addresses. -/
def garlicDigit : GarlicProtocol → Char → Char
  | .garlic64, '+' => '-'
  | .garlic64, '/' => '~'
  | _, c => c

/-- The bytes of a garlic address. -/
def garlicValue (protocol : GarlicProtocol) (cs : List Char) : Except AddressError Bytes :=
  if protocol.Fits (String.ofList cs).utf8ByteSize then
    required .digits (protocol.alphabet.decode? (cs.map (garlicDigit protocol)))
  else .error .missingValue

/-- Why a text gives no digest of a certificate. -/
def certhashDefect (cs : List Char) : ValueDefect :=
  match cs with
  | [] => .digits
  | code :: digits =>
    match Multibase.base? code with
    | none => .unknownBase code
    | some base =>
      match base.decode? digits with
      | none => .digits
      | some _ => .digest

/-- The reader of a protocol's value. -/
def valueReader (name : List Char) : Option (List Char → Except AddressError Segment) :=
  let name := String.ofList name
  if name = "ip4" then some fun v => return .ip4 (← required .ipv4 (Ipv4.parse? v))
  else if name = "ip6" then some fun v => return .ip6 (← required .ipv6 (Ipv6.parse? v))
  else if name = "ipcidr" then
    some fun v => return .ipcidr (UInt8.ofNat (← numberValue UInt8.size v))
  else if name = "memory" then
    some fun v => return .memory (UInt64.ofNat (← numberValue UInt64.size v))
  else if name = "p2p" ∨ name = "ipfs" then
    some fun v => return .p2p (← required (peerDefect v) (PeerId.parse? v))
  else if name = "onion" then
    some fun v => do
      let (hash, port) ← onionValue 10 16 v
      return .onion hash port
  else if name = "onion3" then
    some fun v => do
      let (hash, port) ← onionValue 35 56 v
      return .onion3 hash port
  else if name = "certhash" then
    some fun v =>
      return .certhash (← required (certhashDefect v)
        ((Multibase.decode? v).bind TaggedDigest.ofBytes?))
  else if name = "http-path" then
    some fun v => return .httpPath (← required .notText (Percent.decodeText? (String.ofList v)))
  else if name = "x-parity-ws" ∨ name = "x-parity-wss" then
    some fun v => do
      let path ← required .notText (Percent.decodeText? (String.ofList v))
      return .webSocket (name = "x-parity-wss") path
  else
    (PortProtocol.all.find? (·.name = name)).map (fun protocol v => do
      return .port protocol (UInt16.ofNat (← numberValue UInt16.size v))) <|>
    (GarlicProtocol.all.find? (·.name = name)).map (fun protocol v => do
      return .garlic protocol (← garlicValue protocol v)) <|>
    (TextProtocol.all.find? (·.name = name)).map fun protocol v =>
      return .text protocol (String.ofList v)

/-- The segment of a protocol that stands without a value. -/
def bareSegment? (name : List Char) : Option Segment :=
  let name := String.ofList name
  if name = "ws" then some (.webSocket false "/")
  else if name = "wss" then some (.webSocket true "/")
  else (PlainProtocol.all.find? (·.name = name)).map .plain

/-- Reads the segments that a list of words names. -/
def ofWords : List (List Char) → Except AddressError Multiaddr
  | [] => .ok []
  | name :: rest =>
    match bareSegment? name with
    | some segment => do
      let segments ← ofWords rest
      return segment :: segments
    | none =>
      match valueReader name with
      | none => .error (.unknownProtocol (String.ofList name))
      | some read =>
        match rest with
        | [] => .error .missingValue
        | value :: rest => do
          let segment ← read value
          let segments ← ofWords rest
          return segment :: segments

/-- Reads an address. -/
def parse (cs : List Char) : Except AddressError Multiaddr :=
  match splitAt '/' cs with
  | [] => .error .notAnAddress
  | start :: words => if start.isEmpty then ofWords words else .error .notAnAddress

/-- The address that a text writes. -/
def ofText (s : String) : Except Failure Multiaddr :=
  (parse s.toList).mapError .invalidAddress

end Multiaddr

end GossipDirectory
