import GossipDirectory.Onion.Endpoint

/-!
# The onion transport

The transport listens at most once, on the address of its own hidden service, whose local listener
exists from the start; connections may arrive there before anybody listens. Dialing asks for a
circuit to the host name and port of the address.
-/

namespace GossipDirectory

/-- Why the transport refuses an address. -/
inductive TransportRefusal
  | unsupported (address : Multiaddr)
  /-- The hidden service is taken already, or there is none. -/
  | alreadyBound
  deriving DecidableEq, Repr

/-- A circuit through the onion network, as it is asked for. -/
structure Circuit where
  host : String
  port : UInt16
  deriving DecidableEq, Repr

/-- What the transport reports. -/
inductive TransportEvent
  | newAddress (listener : Nat) (address : Multiaddr)
  | listenerClosed (listener : Nat)
  | incoming (listener : Nat) (address : Multiaddr) (remote : Multiaddr)
  /-- A connection could not be accepted. -/
  | acceptFailed (listener : Nat) (cause : String)
  deriving DecidableEq, Repr

/-- What comes to a local listener. -/
inductive Arrival
  | connection (ip : IpAddress) (port : UInt16)
  /-- The system refuses to accept a connection. -/
  | failure (cause : String)
  deriving DecidableEq, Repr

/-- A hidden service with what waits at its local listener. -/
structure HiddenService where
  endpoint : OnionEndpoint
  waiting : List Arrival := []
  deriving DecidableEq, Repr

/-- A listener in use. -/
structure ActiveListener where
  id : Nat
  address : Multiaddr
  waiting : List Arrival
  deriving DecidableEq, Repr

/-- The report of something that came to a listener. -/
def ActiveListener.report (active : ActiveListener) : Arrival → TransportEvent
  | .connection ip port => .incoming active.id active.address (.ofHost ip port)
  | .failure cause => .acceptFailed active.id cause

/-- The state of the transport. -/
structure OnionTransport where
  service : Option HiddenService
  listener : Option ActiveListener := none
  localAddress : Option Multiaddr := none
  /-- Events not yet reported. -/
  events : List TransportEvent := []
  deriving DecidableEq, Repr

namespace OnionTransport

/-- Starts to listen. The hidden service is taken for it, and put back if the address is not its
own. -/
def listenOn (t : OnionTransport) (id : Nat) (address : Multiaddr) :
    Except TransportRefusal Unit × OnionTransport :=
  match OnionEndpoint.ofMultiaddr address with
  | .error _ => (.error (.unsupported address), t)
  | .ok endpoint =>
    let taken : OnionTransport := { t with service := none }
    match t.service with
    | none => (.error .alreadyBound, taken)
    | some service =>
      if service.endpoint = endpoint then
        (.ok (),
          { taken with
            listener := some { id, address, waiting := service.waiting }
            localAddress := some address
            events := t.events ++ [.newAddress id address] })
      else (.error (.unsupported address), { taken with service := some service })

/-- Stops to listen; the answer says whether the listener was the active one. -/
def removeListener (t : OnionTransport) (id : Nat) : Bool × OnionTransport :=
  match t.listener with
  | some active =>
    if active.id = id then
      (true, { t with listener := none, events := t.events ++ [.listenerClosed id] })
    else (false, t)
  | none => (false, t)

/-- Dials an address. The answer tells whether the dial was begun, and which circuits were asked
for; a refused address asks for none. -/
def dial (address : Multiaddr) : Except TransportRefusal Unit × List Circuit :=
  match OnionEndpoint.ofMultiaddr address with
  | .error _ => (.error (.unsupported address), [])
  | .ok endpoint => (.ok (), [{ host := endpoint.hostname, port := endpoint.port }])

/-- Something comes to the local listener, if there still is one. -/
def arrive (t : OnionTransport) (arrival : Arrival) : OnionTransport :=
  match t.listener, t.service with
  | some active, _ =>
    { t with listener := some { active with waiting := active.waiting ++ [arrival] } }
  | none, some service =>
    { t with service := some { service with waiting := service.waiting ++ [arrival] } }
  | none, none => t

/-- The next event, if there is one: first those noted, then what waits at the listener. -/
def poll (t : OnionTransport) : Option TransportEvent × OnionTransport :=
  match t.events with
  | event :: rest => (some event, { t with events := rest })
  | [] =>
    match t.listener with
    | none => (none, t)
    | some active =>
      match active.waiting with
      | [] => (none, t)
      | arrival :: rest =>
        (some (active.report arrival), { t with listener := some { active with waiting := rest } })

end OnionTransport

end GossipDirectory
