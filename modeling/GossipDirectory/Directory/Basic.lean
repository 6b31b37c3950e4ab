import GossipDirectory.Collection.Keyed
import GossipDirectory.Error

/-!
# The directory

A directory holds several values under a key. All values of a key live until one common time, which
every addition to the key sets anew; a slot that has passed its time counts as absent and is dropped
when it is listed, added to, or evicted.

## Implementation notes

Times are milliseconds since the directory was made. Slots are found by key only, so their order
cannot be observed.
-/

namespace GossipDirectory

/-- A time or a span of time, in milliseconds. -/
abbrev Millis := Nat

/-- The values of a key and the time when they lapse. -/
structure Slot where
  values : List String
  expires : Millis
  deriving DecidableEq, Repr

/-- The slots by key, and how many additions were made. -/
structure Directory where
  slots : List (String × Slot)
  added : Nat
  deriving DecidableEq, Repr

/-- What a directory tells about itself: named counts, written as decimal numbers. -/
structure StatusInfo where
  keyspace : List (String × String)
  stats : List (String × String)
  deriving DecidableEq, Repr

namespace Directory

/-- The shortest accepted life time. -/
def minimumLife : Millis := 1000

/-- Life time of a mode. -/
def timeToLive (mode : String) : Millis :=
  if mode = "short" then 60 * 1000
  else if mode = "long" then 60 * 60 * 1000
  else 5 * 60 * 1000

/-- The directory without entries. -/
def empty : Directory :=
  { slots := [], added := 0 }

/-- How many slots are held, lapsed ones included. -/
def keyCount (d : Directory) : Nat :=
  d.slots.length

/-- How many slots are held, and how many additions were made. -/
def status (d : Directory) : StatusInfo :=
  { keyspace := [("keys", Decimal.text d.keyCount)], stats := [("added", Decimal.text d.added)] }

/-- The values listed under a key, and the directory without the slot if it has lapsed. -/
def list (d : Directory) (key : String) (now : Millis) : List String × Directory :=
  match Keyed.get? key d.slots with
  | some slot =>
    if now < slot.expires then (slot.values, d)
    else ([], { d with slots := Keyed.erase key d.slots })
  | none => ([], d)

/-- The values that an addition at `now` finds under its key. -/
def living (d : Directory) (key : String) (now : Millis) : List String :=
  match Keyed.get? key d.slots with
  | some slot => if now < slot.expires then slot.values else []
  | none => []

/-- Adds a value; all values of the key then live for `life` more. -/
def add (d : Directory) (key value : String) (life now : Millis) : Except Failure Directory :=
  if life < minimumLife then .error (.directory (minimumLife / 1000))
  else
    let values := d.living key now
    let values := if value ∈ values then values else values ++ [value]
    .ok { slots := Keyed.put key { values, expires := now + life } d.slots, added := d.added + 1 }

/-- Removes a value, and the slot with its last value. -/
def remove (d : Directory) (key value : String) : Directory :=
  match Keyed.get? key d.slots with
  | some slot =>
    let values := slot.values.filter (· ≠ value)
    if values.isEmpty then { d with slots := Keyed.erase key d.slots }
    else { d with slots := Keyed.put key { slot with values } d.slots }
  | none => d

/-- Drops every lapsed slot and counts them. -/
def evict (d : Directory) (now : Millis) : Nat × Directory :=
  let kept := d.slots.filter fun (_, slot) => now < slot.expires
  (d.slots.length - kept.length, { d with slots := kept })

end Directory

end GossipDirectory
