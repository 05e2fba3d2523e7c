import SlabGraph.Action

/-!
# Supplies of Numbers

Graphs and the ledgers of tags are numbered, so that a handle or a tag of one of them can
be told from those of all others. The numbers are 32-bit words, given out in order from
zero. A number that was drawn is used up, even if what it was drawn for then fails.

## Main definitions

* `IdSupply`, `IdSupply.drawGraph`, `IdSupply.drawOwner`.
-/

namespace SlabGraph

/-- The numbers that come next. -/
structure IdSupply where
  /-- The number of the next graph. -/
  graph : UInt32 := 0
  /-- The number of the next ledger. -/
  owner : UInt32 := 0
deriving DecidableEq, Inhabited, Repr

namespace IdSupply

/-- Draws the number of a new graph. -/
def drawGraph : Action IdSupply GraphId := do
  let supply : IdSupply ← get
  set { supply with graph := supply.graph + 1 }
  return ⟨supply.graph⟩

/-- Draws the number of a new ledger. -/
def drawOwner : Action IdSupply UInt32 := do
  let supply : IdSupply ← get
  set { supply with owner := supply.owner + 1 }
  return supply.owner

end IdSupply

end SlabGraph
