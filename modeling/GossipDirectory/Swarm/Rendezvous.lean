import GossipDirectory.Collection.Keyed

/-!
# Rendezvous

Nodes of one room find each other under a common key. For every query a limited number of providers
is dialed; a query that reached its limit or ended counts nothing any more.
-/

namespace GossipDirectory

/-- The key of a room and how many providers were accepted for each running query. -/
structure Rendezvous where
  key : String
  limit : Nat
  queries : List (Nat × Nat)
  deriving DecidableEq, Repr

namespace Rendezvous

/-- The rendezvous of a room. -/
def ofRoom (room : String) (limit : Nat) : Rendezvous :=
  { key := "floodsub:" ++ room, limit, queries := [] }

/-- A query starts. -/
def track (r : Rendezvous) (query : Nat) : Rendezvous :=
  { r with queries := Keyed.put query 0 r.queries }

/-- Counts a provider if the query has not reached its limit. -/
def accept (r : Rendezvous) (query : Nat) : Bool × Rendezvous :=
  match Keyed.get? query r.queries with
  | some found =>
    if found < r.limit then (true, { r with queries := Keyed.put query (found + 1) r.queries })
    else (false, r)
  | none => (false, r)

/-- A query ends. -/
def finish (r : Rendezvous) (query : Nat) : Rendezvous :=
  { r with queries := Keyed.erase query r.queries }

end Rendezvous

end GossipDirectory
