import SlabGraph.IdSupply

/-!
# Ledgers of Tags

A ledger grants the tags of one kind and takes them back. For each index it records the
last value granted there and whether the tag is in use.

A tag is granted at the lowest index not in use, with the value after the last one. When
the last value of that index is `Tag.lastValue`, the values of all indices not in use start
over (`TagLedger.restart`). That is sound only after the stamps of those indices have been
scrubbed in all objects, which is the host's part (`SlabGraph.Tag.Host`).

A tag names the ledger that granted it, and a tag of another ledger is never in use. A copy
of a ledger keeps the number of the ledger it was copied from.

## Main definitions

* `TagLedger`, `TagLedger.new`;
* `TagLedger.freeIndex`, `TagLedger.exhausted`, `TagLedger.grant`, `TagLedger.restart`;
* `TagLedger.isLive`, `TagLedger.release`.
-/

namespace SlabGraph

/-- The record of the tags of one kind. -/
structure TagLedger (kind : TagKind) where
  /-- The number of the ledger. -/
  owner : UInt32
  /-- The last value granted, per index. -/
  last : Vector Nat kind.capacity
  /-- Whether the tag is in use, per index. -/
  used : Vector Bool kind.capacity
deriving DecidableEq

namespace TagLedger

variable {kind : TagKind}

/-- A ledger without tags, given its number. -/
def ofOwner (owner : UInt32) : TagLedger kind where
  owner
  last := .replicate _ Tag.clean
  used := .replicate _ false

/-- A ledger without tags. -/
def new : Action IdSupply (TagLedger kind) := do
  return ofOwner (← IdSupply.drawOwner)

/-- The lowest index not in use. -/
def freeIndex (ledger : TagLedger kind) : Option (Fin kind.capacity) :=
  (List.finRange kind.capacity).find? fun i => !ledger.used[i]

/-- Whether an index has no value left. -/
def exhausted (ledger : TagLedger kind) (i : Fin kind.capacity) : Bool :=
  ledger.last[i] == Tag.lastValue

/-- Grants a tag at an index. -/
def grant (ledger : TagLedger kind) (i : Fin kind.capacity) :
    Except Fault (Tag kind × TagLedger kind) :=
  if ledger.used[i] then .error (.indexInUse i)
  else if ledger.exhausted i then .error (.valuesExhausted i)
  else if Tag.lastValue ≤ ledger.last[i] then .error .overflow
  else
    let value := ledger.last[i] + 1
    .ok (⟨ledger.owner, i, value⟩,
      { ledger with last := ledger.last.set i value, used := ledger.used.set i true })

/-- Whether a tag was granted here and not taken back, as far as its owner, index and value
tell. -/
def isLive (ledger : TagLedger kind) (tag : Tag kind) : Bool :=
  tag.owner == ledger.owner && ledger.used[tag.index] && ledger.last[tag.index] == tag.value

/-- Takes a tag back, which must be in use. -/
def release (ledger : TagLedger kind) (tag : Tag kind) : Except Fault (TagLedger kind) :=
  if ledger.isLive tag then
    .ok { ledger with used := ledger.used.set tag.index false }
  else
    .error (.tagNotHeld tag.index tag.value)

/-- The number of tags in use. -/
def numLive (ledger : TagLedger kind) : Nat := ledger.used.count true

/-- Starts the values of all indices not in use over. -/
def restart (ledger : TagLedger kind) : TagLedger kind :=
  { ledger with last := .ofFn fun i => if ledger.used[i] then ledger.last[i] else Tag.clean }

end TagLedger

end SlabGraph
