import SlabGraph.Graph.Basic

/-!
# Tags on Nodes and Edges

A graph is a host of both kinds of tag, and all its nodes and edges are the objects that
carry them. An operation with a tag first checks that the tag is in use in the graph, and
then that the entity is live. The *raw* operations leave out the first check: they work on
the stamps of the entity as they are.

## Main definitions

* the `TagHost` instances of `Graph`;
* `Graph.area`, `Graph.onArea`, the stamps of a live entity;
* `Graph.mark`, `Graph.unmark`, `Graph.isMarked`;
* `Graph.setNumber`, `Graph.number`, `Graph.unnumber`, `Graph.isNumbered`.
-/

namespace SlabGraph

namespace Graph

variable {N E α : Type}

/-- Changes the stamps of all entities. -/
def mapAreas (f : TagArea → TagArea) (g : Graph N E) : Graph N E :=
  { g with
    nodes := { g.nodes with pool := g.nodes.pool.map fun r => { r with area := f r.area } }
    edges := { g.edges with pool := g.edges.pool.map fun r => { r with area := f r.area } } }

instance : TagHost (Graph N E) .marker where
  ledger := markers
  setLedger g markers := { g with markers }
  sweep g := g.mapAreas fun area => { area with marks := area.marks.scrub g.markers }

instance : TagHost (Graph N E) .numeration where
  ledger := nums
  setLedger g nums := { g with nums }
  sweep g := g.mapAreas fun area => { area with numbers := area.numbers.scrub g.nums }

/-! ### The stamps of an entity -/

/-- The stamps of a live entity. -/
def area (g : Graph N E) : {kind : EntityKind} → Handle kind → Except Fault TagArea
  | .node, handle => do return (← g.node handle).area
  | .edge, handle => do return (← g.edge handle).area

/-- Replaces the stamps of a live entity. -/
def setArea (area : TagArea) : {kind : EntityKind} → Handle kind → Action (Graph N E) Unit
  | .node, handle => do
    let record ← Action.read (·.node handle)
    modify fun g => { g with nodes := g.nodes.setRecord handle.slot { record with area } }
  | .edge, handle => do
    let record ← Action.read (·.edge handle)
    modify fun g => { g with edges := g.edges.setRecord handle.slot { record with area } }

/-- Changes the stamps of a live entity. -/
def onArea {kind : EntityKind} (handle : Handle kind)
    (change : TagArea → Except Fault (α × TagArea)) : Action (Graph N E) α := do
  let area ← Action.read (·.area handle)
  let (answer, area) ← Action.check (change area)
  setArea area handle
  return answer

/-- Fails unless a tag is in use in the graph. -/
def checkTag {kind : TagKind} [TagHost (Graph N E) kind] (g : Graph N E) (tag : Tag kind) :
    Except Fault Unit :=
  if (TagHost.ledger g).isLive tag then .ok () else .error (.tagNotInUse tag g.id)

/-! ### Markers -/

section

variable {kind : EntityKind} (handle : Handle kind) (marker : Marker)

/-- Sets a marker on an entity, whether or not the marker is in use. -/
def rawMark : Action (Graph N E) Bool := onArea handle (TagArea.mark marker)

/-- Clears a marker on an entity, whether or not the marker is in use. -/
def rawUnmark : Action (Graph N E) Bool := onArea handle (TagArea.unmark marker)

/-- Whether the stamps of an entity match a marker. -/
def rawIsMarked (g : Graph N E) : Except Fault Bool := do
  return (← g.area handle).marks.isMarked marker

/-- Sets a marker on an entity. Answers whether it was not set before. -/
def mark : Action (Graph N E) Bool := do
  Action.read (·.checkTag marker)
  rawMark handle marker

/-- Clears a marker on an entity. Answers whether it was set before. -/
def unmark : Action (Graph N E) Bool := do
  Action.read (·.checkTag marker)
  rawUnmark handle marker

/-- Whether a marker is set on an entity. -/
def isMarked (g : Graph N E) : Except Fault Bool := do
  g.checkTag marker
  rawIsMarked handle marker g

end

/-! ### Numerations -/

section

variable {kind : EntityKind} (handle : Handle kind) (num : Numeration)

/-- Sets the number of an entity, whether or not the numeration is in use. -/
def rawSetNumber (value : Int) : Action (Graph N E) Unit :=
  onArea handle (TagArea.setNumber num value)

/-- Removes the number of an entity, whether or not the numeration is in use. -/
def rawUnnumber : Action (Graph N E) Bool := onArea handle (TagArea.unnumber num)

/-- The number that the stamps of an entity hold for a numeration, or `noNumber`. -/
def rawNumber (g : Graph N E) : Except Fault Nat := do
  return (← g.area handle).numbers.number num

/-- Whether the stamps of an entity match a numeration. -/
def rawIsNumbered (g : Graph N E) : Except Fault Bool := do
  return (← g.area handle).numbers.isNumbered num

/-- Sets the number of an entity. -/
def setNumber (value : Int) : Action (Graph N E) Unit := do
  Action.read (·.checkTag num)
  rawSetNumber handle num value

/-- Removes the number of an entity. Answers whether there was one. -/
def unnumber : Action (Graph N E) Bool := do
  Action.read (·.checkTag num)
  rawUnnumber handle num

/-- The number of an entity, or `noNumber`. -/
def number (g : Graph N E) : Except Fault Nat := do
  g.checkTag num
  rawNumber handle num g

/-- Whether an entity has a number. -/
def isNumbered (g : Graph N E) : Except Fault Bool := do
  g.checkTag num
  rawIsNumbered handle num g

end

end Graph

end SlabGraph
