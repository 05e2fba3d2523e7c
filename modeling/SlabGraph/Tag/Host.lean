import SlabGraph.Tag.Stamps

/-!
# Hosts of Tags

A host owns a ledger and the objects that carry its tags. It grants a tag by the ledger's
lowest free index. If that index has no value left, the host first *sweeps*: it scrubs the
stamps of the indices not in use in all its objects, and lets the ledger start their values
over. So a fresh tag is never carried by an object, also after the values have started
over.

`TagHost` says what a host of one kind of tag has to provide. `ObjectHost`, a plain row of
objects, is a host of both kinds.

## Main definitions

* `TagHost`, `TagHost.grant`, `TagHost.release`, `TagHost.cycle`;
* `ObjectHost`.
-/

namespace SlabGraph

/-- A holder of objects that carry tags of a kind. -/
class TagHost (H : Type) (kind : TagKind) where
  /-- The ledger of the host. -/
  ledger : H → TagLedger kind
  /-- Replaces the ledger. -/
  setLedger : H → TagLedger kind → H
  /-- Scrubs, in all objects, what stands at the indices not in use. -/
  sweep : H → H

namespace TagHost

variable {H : Type}

/-- Starts the values of the indices not in use over, after a sweep. -/
def restart (kind : TagKind) [TagHost H kind] (host : H) : H :=
  let host := sweep kind host
  setLedger host (ledger host : TagLedger kind).restart

/-- Makes sure that an index has a value left. -/
def makeRoom (kind : TagKind) [TagHost H kind] (i : Fin kind.capacity) (host : H) : H :=
  if (ledger host : TagLedger kind).exhausted i then restart kind host else host

/-- Grants a tag that no object carries. -/
def grant (kind : TagKind) [TagHost H kind] : Action H (Tag kind) := do
  match (ledger (← get) : TagLedger kind).freeIndex with
  | none => throw (.tagsExhausted kind)
  | some i =>
    modify (makeRoom kind i)
    let (tag, granted) ← Action.read fun host => (ledger host : TagLedger kind).grant i
    modify (setLedger · granted)
    return tag

/-- Takes a tag back, which must be in use. -/
def release {kind : TagKind} [TagHost H kind] (tag : Tag kind) : Action H Unit := do
  let released ← Action.read fun host => (ledger host : TagLedger kind).release tag
  modify (setLedger · released)

/-- Grants a tag and takes it back, so many times. Answers the last of these tags. -/
def cycle (kind : TagKind) [TagHost H kind] : Nat → Action H (Option (Tag kind))
  | 0 => return none
  | 1 => do
    let tag ← grant kind
    release tag
    return some tag
  | count + 2 => do
    release (← grant kind)
    cycle kind (count + 1)

end TagHost

/-- A row of objects, with a ledger for each kind of tag. -/
structure ObjectHost where
  /-- The ledger of the markers. -/
  markers : TagLedger .marker
  /-- The ledger of the numerations. -/
  nums : TagLedger .numeration
  /-- The stamps of the objects. -/
  objects : Array TagArea
deriving DecidableEq

namespace ObjectHost

/-- A host without objects. -/
def new : Action IdSupply ObjectHost := do
  let markers ← TagLedger.new
  let nums ← TagLedger.new
  return ⟨markers, nums, #[]⟩

instance : TagHost ObjectHost .marker where
  ledger := markers
  setLedger host markers := { host with markers }
  sweep host := { host with
    objects := host.objects.map fun area => { area with marks := area.marks.scrub host.markers } }

instance : TagHost ObjectHost .numeration where
  ledger := nums
  setLedger host nums := { host with nums }
  sweep host := { host with
    objects := host.objects.map fun area => { area with numbers := area.numbers.scrub host.nums } }

/-- Adds an object without tags. -/
def addObject (host : ObjectHost) : ObjectHost :=
  { host with objects := host.objects.push .clean }

/-- The stamps of an object. -/
def area (host : ObjectHost) (object : Nat) : Except Fault TagArea :=
  match host.objects[object]? with
  | some area => .ok area
  | none => .error (.outOfBounds host.objects.size object)

/-- Changes the stamps of an object. -/
def onArea {α : Type} (object : Nat) (change : TagArea → Except Fault (α × TagArea)) :
    Action ObjectHost α := do
  let area ← Action.read (·.area object)
  let (answer, area) ← Action.check (change area)
  modify fun host => { host with objects := host.objects.setIfInBounds object area }
  return answer

end ObjectHost

end SlabGraph
