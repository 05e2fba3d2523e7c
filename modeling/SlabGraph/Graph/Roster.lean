import SlabGraph.Graph.Record
import SlabGraph.Pool.Contents

/-!
# Rosters

A roster holds all entities of one kind of a graph. It keeps their records in a pool, links
them in one list with the newest first, counts them, and numbers them. The numbers, called
ids, are given out in order and never again, so an id names at most one entity that ever
was in the roster.

A handle resolves to a record when the slot it names holds a record with its id. After a
deletion the slot may hold a newer record, which has another id, so the handle stays dead.

## Main definitions

* `Roster`, `Roster.new`;
* `Roster.create`, `Roster.remove`, `Roster.clear`;
* `Roster.find?`, `Roster.resolve`, `Roster.handle`;
* `Roster.members`, all members in list order.
-/

namespace SlabGraph

/-- All entities of one kind. -/
structure Roster (slots : Nat) (ι δ : Type) where
  /-- The records. -/
  pool : Pool (Record slots ι δ)
  /-- The head of the list of all entities. -/
  first : Packed Ptr
  /-- The number of entities. -/
  count : Nat
  /-- The id of the next entity. -/
  nextUid : Nat
deriving DecidableEq

/-- Ids are 64-bit words. -/
def uidLimit : Nat := UInt64.size

namespace Roster

variable {slots : Nat} {ι δ α : Type}

/-- A roster without entities. -/
def new (capacity : Capacity) : Roster slots ι δ where
  pool := .new capacity
  first := .empty
  count := 0
  nextUid := 0

/-- Runs an action on the pool. -/
def onPool (x : Action (Pool (Record slots ι δ)) α) : Action (Roster slots ι δ) α :=
  Action.within Roster.pool (fun roster pool => { roster with pool }) x

/-- The record in a slot, which must be live. -/
def record (roster : Roster slots ι δ) (slot : Ptr) : Except Fault (Record slots ι δ) :=
  roster.pool.read slot

/-- Replaces the record in a slot. -/
def setRecord (roster : Roster slots ι δ) (slot : Ptr) (record : Record slots ι δ) :
    Roster slots ι δ :=
  { roster with pool := roster.pool.replace slot record }

/-! ### Changing -/

/-- Adds an entity with the next id, in front of the list. -/
def create (graph : GraphId) (incidence : ι) (data : δ) : Action (Roster slots ι δ) Ptr := do
  let uid := (← get).nextUid
  Action.demand (uid + 1 < uidLimit) .overflow
  modify fun roster => { roster with nextUid := uid + 1 }
  let slot ← onPool (Pool.construct fun _ => .fresh graph uid incidence data)
  let head ← onPool (Chain.pushFront slot allSlot (← get).first)
  modify fun roster => { roster with first := head, count := roster.count + 1 }
  return slot

/-- Takes an entity off the list and out of the pool. -/
def remove (slot : Ptr) : Action (Roster slots ι δ) (Record slots ι δ) := do
  let head ← onPool (Chain.unlink slot allSlot (← get).first)
  modify fun roster => { roster with first := head }
  Action.demand ((← get).count ≠ 0) .underflow
  modify fun roster => { roster with count := roster.count - 1 }
  onPool (Pool.dealloc slot)

/-- Takes all entities out. The ids go on. -/
def clear : Action (Roster slots ι δ) Unit := do
  let _ ← onPool Pool.clear
  modify fun roster => { roster with first := .empty, count := 0 }

/-! ### Handles -/

/-- The record that a handle names, if the roster is that of graph `graph`. -/
def find? {kind : EntityKind} (roster : Roster slots ι δ) (graph : GraphId)
    (handle : Handle kind) : Option (Record slots ι δ) :=
  if handle.graph = graph then
    (roster.pool.get? handle.slot).filter fun record => record.uid == handle.uid
  else
    none

/-- The slot that a handle names, which must be live in graph `graph`. -/
def resolve {kind : EntityKind} (roster : Roster slots ι δ) (graph : GraphId)
    (handle : Handle kind) : Except Fault Ptr :=
  if handle.graph ≠ graph then .error (.foreign handle graph)
  else if (roster.find? graph handle).isNone then .error (.deleted handle)
  else .ok handle.slot

/-- The record that a handle names, which must be live in graph `graph`. -/
def lookup {kind : EntityKind} (roster : Roster slots ι δ) (graph : GraphId)
    (handle : Handle kind) : Except Fault (Record slots ι δ) := do
  roster.record (← roster.resolve graph handle)

/-- The handle of the entity in a slot. -/
def handle (kind : EntityKind) (roster : Roster slots ι δ) (graph : GraphId) (slot : Ptr) :
    Except Fault (Handle kind) := do
  let record ← roster.record slot
  return ⟨graph, record.uid, slot⟩

/-- The handle of the entity in a slot, if there is a slot. -/
def handle? (kind : EntityKind) (roster : Roster slots ι δ) (graph : GraphId) :
    Option Ptr → Except Fault (Option (Handle kind))
  | none => .ok none
  | some slot => some <$> roster.handle kind graph slot

/-! ### Members -/

/-- The slots of all entities, the newest first. -/
def members (roster : Roster slots ι δ) : Except Fault (List Ptr) :=
  Chain.walk roster.pool allSlot roster.first.unpack

end Roster

end SlabGraph
