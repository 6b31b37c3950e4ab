import GossipDirectory.Address.TaggedDigest
import GossipDirectory.Text.Base58

/-!
# Peer ids

A peer is named by a tagged digest, which is either a SHA-256 digest or, if the key is short, the
key itself. The text of an id is base 58.
-/

namespace GossipDirectory

/-- The name of a peer. -/
structure PeerId extends TaggedDigest
  deriving DecidableEq, Repr, Inhabited

namespace PeerId

/-- Code of a digest that is the data itself. -/
def identityCode : Nat := 0

/-- Code of a SHA-256 digest. -/
def sha256Code : Nat := 0x12

/-- The most bytes that an id of the identity code holds. -/
def maxInline : Nat := 42

/-- The id that a byte string holds. -/
def ofBytes? (bytes : Bytes) : Option PeerId := do
  let p ← TaggedDigest.ofBytes? bytes
  if p.code = sha256Code ∨ (p.code = identityCode ∧ p.digest.length ≤ maxInline) then
    some { toTaggedDigest := p }
  else none

/-- Writes an id. -/
def render (p : PeerId) : List Char :=
  Base58.encode p.toBytes

/-- The text of an id. -/
def text (p : PeerId) : String :=
  String.ofList p.render

/-- Reads an id. -/
def parse? (cs : List Char) : Option PeerId :=
  (Base58.decode? cs).bind ofBytes?

/-- The id of an ed25519 public key: the key itself, tagged with its kind and length. -/
def ofPublicKey (key : Bytes) : PeerId :=
  { code := identityCode, digest := [8, 1, 18, 32] ++ key }

/-- Lexicographic order of byte strings. -/
def bytesLe : Bytes → Bytes → Bool
  | [], _ => true
  | _ :: _, [] => false
  | a :: as, b :: bs => if a < b then true else if b < a then false else bytesLe as bs

/-- Ids are ordered by code, then by length, then by digest. -/
def le (p q : PeerId) : Bool :=
  if p.code ≠ q.code then p.code < q.code
  else if p.digest.length ≠ q.digest.length then p.digest.length < q.digest.length
  else bytesLe p.digest q.digest

end PeerId

end GossipDirectory
