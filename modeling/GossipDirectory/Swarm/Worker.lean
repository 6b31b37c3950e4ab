import GossipDirectory.Dht.Role
import GossipDirectory.Mesh.ReceiveLoop
import GossipDirectory.Peerstore.Snapshot
import GossipDirectory.Swarm.ConnectionManager
import GossipDirectory.Swarm.PeerBook
import GossipDirectory.Swarm.Rendezvous

/-!
# The network task

One task owns the connections of a node. It carries out commands and reacts to what the network
reports: it keeps the book of known peers, the connection times and the rendezvous, answers every
request to connect when its dial is decided, and turns into a lookup server once it listens on a
bootstrap address.

## Implementation notes

What the network does with a dial comes from outside: the number of the connection, and a refusal
if it was not even tried. What the task asks of the network is returned as a list of requests.
`links` are the open connections as far as they were reported.
-/

namespace GossipDirectory

/-- A connection that is open or being opened, told apart from all others. -/
abbrev ConnectionId := Nat

/-- A request of another task that waits for its answer. -/
abbrev ReplyId := Nat

/-- What other tasks ask of the network task. -/
inductive Command
  | publish (data : Bytes)
  | connect (peer : PeerId) (addresses : List Multiaddr) (reply : ReplyId)
  | knownPeers (reply : ReplyId)
  | listenAddresses (reply : ReplyId)
  deriving DecidableEq, Repr

/-- Why an outgoing connection failed. -/
inductive DialFailure
  /-- It was not tried, because of a connection or another dial to the peer. -/
  | skipped
  | failed (cause : TransportError)
  deriving DecidableEq, Repr

/-- The transport error of a failed dial. -/
def DialFailure.cause : DialFailure → TransportError
  | .skipped => .dial
  | .failed cause => cause

/-- What the network reports. -/
inductive SwarmEvent
  | gossip (g : InboundGossip)
  /-- A peer told its listen addresses. -/
  | identified (peer : PeerId) (addresses : List Multiaddr)
  | listening (address : Multiaddr)
  /-- A connection is open; one that this node dialed has a remote address. -/
  | established (id : ConnectionId) (peer : PeerId) (dialed : Option Multiaddr)
  /-- A connection is closed; so many others to the peer remain. -/
  | closed (id : ConnectionId) (peer : PeerId) (remaining : Nat)
  | dialFailed (id : ConnectionId) (peer : Option PeerId) (failure : DialFailure)
  /-- The lookup network knows addresses of a peer; another peer may have lost its place. -/
  | routed (peer : PeerId) (addresses : List Multiaddr) (evicted : Option PeerId)
  | unroutable (peer : PeerId)
  | providersFound (query : Nat) (providers : List PeerId)
  | queryEnded (query : Nat)
  deriving DecidableEq, Repr

/-- What the network task asks of the network and tells other tasks. -/
inductive Request
  | publish (data : Bytes)
  | dial (id : ConnectionId) (peer : PeerId) (addresses : List Multiaddr)
  /-- Dials a peer at whatever addresses the lookup network knows. -/
  | dialKnown (peer : PeerId)
  | disconnect (peer : PeerId)
  | hand (g : InboundGossip)
  | answerConnect (reply : ReplyId) (result : Except Failure Unit)
  | answerPeers (reply : ReplyId) (peers : List KnownPeer)
  | answerAddresses (reply : ReplyId) (addresses : List Multiaddr)
  | learn (peer : PeerId) (address : Multiaddr)
  | setMode (mode : Option LookupMode)
  | provide (key : String)
  | search (key : String) (query : Nat)
  | endQuery (query : Nat)

/-- What the network does with a dial at once. -/
structure DialAnswer where
  id : ConnectionId
  refusal : Option TransportError := none
  deriving DecidableEq, Repr

/-- The state of the network task. -/
structure Worker where
  me : PeerId
  mode : DhtMode
  bootstrap : List Multiaddr
  connections : ConnectionManager
  book : PeerBook
  rendezvous : Rendezvous
  /-- Requests to connect whose dials are not decided. -/
  pendingDials : List (ConnectionId × ReplyId)
  links : List (ConnectionId × PeerId)
  listening : List Multiaddr
  /-- Addresses that are to be listened on and were not reported yet. -/
  unreported : List Multiaddr := []
  deriving Repr

namespace Worker

/-- A connection to a peer is open. -/
def isConnected (w : Worker) (peer : PeerId) : Bool :=
  w.links.any (·.2 = peer)

/-- Notes an address of a peer. -/
def remember (w : Worker) (peer : PeerId) (address : Multiaddr) : Worker :=
  { w with book := w.book.add peer address }

/-- Forgets a peer's addresses. -/
def forget (w : Worker) (peer : PeerId) : Worker :=
  { w with book := (w.book.remove peer).2 }

/-- Asks for the connections to trim to be closed. -/
def trim (w : Worker) (now : Millis) (meshPeers : List PeerId) : List Request :=
  (w.connections.trimCandidates now meshPeers).map .disconnect

/-- Advertises the room and looks for others in it. -/
def advertise (w : Worker) (query : Nat) : Worker × List Request :=
  let key := w.rendezvous.key
  ({ w with rendezvous := w.rendezvous.track query }, [.provide key, .search key query])

/-- Carries out a command. -/
def handleCommand (w : Worker) (answer : DialAnswer) : Command → Worker × List Request
  | .publish data => (w, [.publish data])
  | .connect peer addresses reply =>
    if w.isConnected peer then (w, [.answerConnect reply (.ok ())])
    else match answer.refusal with
      | some cause => (w, [.answerConnect reply (.error (.transport cause))])
      | none =>
        ({ w with pendingDials := Keyed.put answer.id reply w.pendingDials },
          [.dial answer.id peer addresses])
  | .knownPeers reply => (w, [.answerPeers reply w.book.peers])
  | .listenAddresses reply => (w, [.answerAddresses reply w.listening])

/-- Answers the request whose dial is decided. -/
def settleDial (w : Worker) (id : ConnectionId) (result : Except Failure Unit) :
    Worker × List Request :=
  match Keyed.get? id w.pendingDials with
  | some reply =>
    ({ w with pendingDials := Keyed.erase id w.pendingDials }, [.answerConnect reply result])
  | none => (w, [])

/-- Dials providers until the query's limit is reached. -/
def dialProviders (w : Worker) (query : Nat) : List PeerId → Worker × List Request
  | [] => (w, [])
  | provider :: rest =>
    if provider = w.me ∨ w.isConnected provider then dialProviders w query rest
    else
      let (accepted, rendezvous) := w.rendezvous.accept query
      if accepted then
        let (w, requests) := dialProviders { w with rendezvous } query rest
        (w, .dialKnown provider :: requests)
      else ({ w with rendezvous := rendezvous.finish query }, [.endQuery query])

/-- Turns into a lookup server if an address that is listened on is a bootstrap address. -/
def promote (w : Worker) (address : Multiaddr) : Worker × List Request :=
  match promotedMode? w.mode address w.bootstrap with
  | some mode => ({ w with mode }, [.setMode mode.lookupMode?])
  | none => (w, [])

/-- A connection was opened. -/
def opened (w : Worker) (id : ConnectionId) (peer : PeerId) (dialed : Option Multiaddr)
    (now : Millis) (meshPeers : List PeerId) : Worker × List Request :=
  let (w, answers) := w.settleDial id (.ok ())
  let w := match dialed with
    | some address => w.remember peer address
    | none => w
  let w := { w with
    links := Keyed.put id peer w.links
    connections := w.connections.connect peer now }
  let trimmed := if w.connections.highWater < w.connections.peerCount then
      w.trim now meshPeers
    else []
  (w, answers ++ trimmed)

/-- An outgoing connection failed. A peer that cannot be reached is forgotten. -/
def dialFailed (w : Worker) (id : ConnectionId) (peer : Option PeerId) (failure : DialFailure) :
    Worker × List Request :=
  let w := match peer with
    | some peer =>
      if failure = DialFailure.skipped ∨ w.isConnected peer then w else w.forget peer
    | none => w
  w.settleDial id (.error (.transport failure.cause))

/-- Reacts to a report of the network. `meshPeers` are the mesh neighbours at that moment. -/
def handleEvent (w : Worker) (now : Millis) (meshPeers : List PeerId) :
    SwarmEvent → Worker × List Request
  | .gossip g => (w, [.hand g])
  | .identified peer addresses =>
    (addresses.foldl (fun w address => w.remember peer address) w, addresses.map (.learn peer))
  | .listening address =>
    let w := if w.listening.contains address then w
      else { w with listening := w.listening ++ [address] }
    w.promote address
  | .established id peer dialed => w.opened id peer dialed now meshPeers
  | .closed id peer remaining =>
    let w := { w with links := Keyed.erase id w.links }
    if remaining = 0 then ({ w with connections := w.connections.disconnect peer }, [])
    else (w, [])
  | .dialFailed id peer failure => w.dialFailed id peer failure
  | .routed peer addresses evicted =>
    let w := match evicted with
      | some old => w.forget old
      | none => w
    (addresses.foldl (fun w address => w.remember peer address) w, [])
  | .unroutable peer => (w.forget peer, [])
  | .providersFound query providers => w.dialProviders query providers
  | .queryEnded query => ({ w with rendezvous := w.rendezvous.finish query }, [])

end Worker

end GossipDirectory
