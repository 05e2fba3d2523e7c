import SlabGraph.Direction
import SlabGraph.Handle
import SlabGraph.Tag

/-!
# Faults

Every operation of the library either completes or fails with a `Fault`. A fault is a
cause, not a text: `Fault.message` is the one place that words it.

Three groups of causes can be told apart.

* Misuse by the caller: a pointer that addresses nothing, a handle of another graph or of
  a deleted entity, a tag that is not in use, an item linked twice.
* Refusals that a caller has to reckon with: all tags of a kind are in use
  (`Fault.tagsExhausted`), or a number does not fit (`Fault.numberOutOfRange`).
* Guards inside the library, which its own bookkeeping keeps from ever failing: a full
  chunk on the list of chunks with space, a counter that passes its limit, a list that
  never ends. They are causes like the others, so that their absence can be stated.

`Violation` and `Disagreement` describe what a structural check of a graph, and a
comparison of a graph with its model, can find.
-/

namespace SlabGraph

/-- The text of a failed comparison of two values, behind which the words of the check stand, if
it has any. -/
def mismatchText (words left right : String) : String :=
  s!"assertion `left == right` failed{words}\n  left: {left}\n right: {right}"

/-- What the structural check of a graph can find wrong. Where the check compares two values, both
of them are kept: the one that is found, and the one it must be. -/
inductive Violation where
  /-- A record on a list of the graph that names another graph. -/
  | foreignRecord (kind : EntityKind) (uid : Nat) (found graph : GraphId)
  /-- Two records of one kind with one id. -/
  | duplicateId (kind : EntityKind) (uid : Nat)
  /-- A record whose link backwards disagrees with the list it was met on. -/
  | brokenList (kind : EntityKind) (uid : Nat) (found before : Option Ptr)
  /-- An edge on a list of a node it does not touch at that end. -/
  | notIncident (edge : Nat) (dir : Direction) (node : Nat) (found slot : Ptr)
  /-- An edge whose link backwards disagrees with the list of the node. -/
  | brokenIncidence (dir : Direction) (node edge : Nat) (found before : Option Ptr)
  /-- An edge with an end that is not a live node. -/
  | deletedEnd (edge : Nat) (dir : Direction)
  /-- An edge that is missing from the list of the node at one of its ends. -/
  | missingIncidence (edge : Nat) (dir : Direction)
  /-- A counter that differs from the length of its list. -/
  | wrongCount (kind : EntityKind) (found count : Nat)
  /-- A counter that differs from the number of live records in the pool. -/
  | wrongPool (kind : EntityKind) (found count : Nat)
  /-- The lists of one direction do not hold as many edges as the graph has. -/
  | wrongTotal (dir : Direction) (found count : Nat)
deriving DecidableEq, Repr

/-- The text of a violation. -/
def Violation.message : Violation → String
  | foreignRecord kind uid found graph =>
    mismatchText s!": {kind} {uid} has a foreign graph" found.debugText graph.debugText
  | duplicateId kind uid => s!"duplicated {kind} id {uid}"
  | brokenList kind uid found before =>
    mismatchText s!": broken {kind} list at {kind} {uid}"
      (Ptr.optionText found) (Ptr.optionText before)
  | notIncident edge dir node found slot =>
    mismatchText s!": edge {edge} is in the {dir} list of node {node} but not incident"
      found.text slot.text
  | brokenIncidence dir node edge found before =>
    mismatchText s!": broken {dir} list of node {node} at edge {edge}"
      (Ptr.optionText found) (Ptr.optionText before)
  | deletedEnd edge dir => s!"edge {edge} has a deleted {dir} end"
  | missingIncidence edge dir => s!"edge {edge} is missing from the list of its {dir} end"
  | wrongCount kind found count =>
    mismatchText s!": {kind} count mismatch" (toString found) (toString count)
  | wrongPool kind found count =>
    mismatchText s!": {kind} pool mismatch" (toString found) (toString count)
  | wrongTotal dir found count =>
    mismatchText s!": {dir.edgesText} lists mismatch" (toString found) (toString count)

/-- Where a graph can disagree with the plain model it is checked against. What is compared is
kept: first what the graph says, then what the model says. -/
inductive Disagreement where
  /-- The numbers of nodes or of edges differ. -/
  | count (kind : EntityKind) (graph model : Nat)
  /-- An edge has another end than in the model. -/
  | edgeEnd (edge : EdgeHandle) (dir : Direction) (graph model : NodeHandle)
  /-- A list of a node has another length than in the model. -/
  | degree (node : NodeHandle) (dir : Direction) (graph model : Nat)
  /-- The walk over both lists of a node has another length than in the model. -/
  | totalDegree (node : NodeHandle) (graph model : Nat)
  /-- A node is marked in one of the two only. -/
  | mark (marker : Marker) (node : NodeHandle) (graph model : Bool)
  /-- Marking or unmarking reports another change than the model saw. -/
  | change (marker : Marker) (node : NodeHandle) (graph model : Bool)
  /-- A marker was refused although the model has fewer than all of them. -/
  | refusal (inUse capacity : Nat)
  /-- A node that was put into an edge has no outgoing edge. -/
  | noTail (node : NodeHandle)
deriving DecidableEq, Repr

/-- The text of a disagreement. It does not say which entity is compared. -/
def Disagreement.message : Disagreement → String
  | edgeEnd _ _ graph model => mismatchText "" graph.text model.text
  | mark _ _ graph model | change _ _ graph model =>
    mismatchText "" (toString graph) (toString model)
  | count _ graph model | degree _ _ graph model | totalDegree _ graph model
  | refusal graph model => mismatchText "" (toString graph) (toString model)
  | noTail _ => "inserted node has an outgoing edge"

/-- Why an operation failed. -/
inductive Fault where
  /-- A reserved value was to be stored as a present one. -/
  | reservedValue
  /-- An item or a list was named by an index past the end. -/
  | outOfBounds (size index : Nat)
  /-- An item was to be attached in front of itself. -/
  | selfAttach
  /-- An item that has neighbours in a list was to be attached in that list. -/
  | alreadyLinked
  /-- A list has more members than its storage has items. -/
  | endlessList
  /-- A pool was asked for with an impossible number of entries per chunk. -/
  | capacityOutOfRange
  /-- A deallocation from a pool without live entries. -/
  | emptyPool (ptr : Ptr)
  /-- A deallocation of a pointer that addresses no live entry. -/
  | notAllocated (ptr : Ptr)
  /-- An access through a pointer that addresses no live entry. -/
  | invalidPtr
  /-- A pool was given up while it had live entries. -/
  | poolInUse (live : Nat)
  /-- A pool cannot have another chunk. -/
  | tooManyChunks
  /-- The value for a new entry could not be built. -/
  | constructorFailed (ptr : Ptr)
  /-- Guard: the first chunk of the list of chunks with space has none. -/
  | listedChunkFull
  /-- Guard: the first free position of a chunk is taken. -/
  | entryTaken
  /-- Guard: a chunk with a live entry counts none. -/
  | chunkCountsNone
  /-- Guard: a pointer to a chunk index that does not fit. -/
  | chunkDoesNotFit (chunk : Nat)
  /-- Guard: a pointer to the position that addresses no entry. -/
  | noPosition
  /-- Guard: a counter at its upper limit was to be raised. -/
  | overflow
  /-- Guard: a counter at zero was to be lowered. -/
  | underflow
  /-- All tags of a kind are in use. -/
  | tagsExhausted (kind : TagKind)
  /-- A tag was given back that is not in use. -/
  | tagNotHeld (index value : Nat)
  /-- A number that is negative, too large, or the mark for "no number". -/
  | numberOutOfRange
  /-- Guard: a tag was to be granted at an index in use. -/
  | indexInUse (index : Nat)
  /-- Guard: a tag was to be granted at an index that has no value left. -/
  | valuesExhausted (index : Nat)
  /-- A tag was used that is not in use in the graph. -/
  | tagNotInUse {kind : TagKind} (tag : Tag kind) (graph : GraphId)
  /-- A handle was issued by another graph. -/
  | foreign {kind : EntityKind} (handle : Handle kind) (graph : GraphId)
  /-- A handle names an entity that was deleted. -/
  | deleted {kind : EntityKind} (handle : Handle kind)
  /-- The edge of a cursor at its end was asked for. -/
  | endCursorEdge
  /-- A cursor at its end was to be moved. -/
  | endCursorAdvance
  /-- The structural check of a graph found a violation. -/
  | corrupt (violation : Violation)
  /-- A graph and its model disagree. -/
  | disagreement (what : Disagreement)
deriving DecidableEq, Repr

/-- The text of a fault. A list that does not end has no text in a program that follows it
forever, so the words for it are the only ones that stand here alone. -/
def Fault.message : Fault → String
  | reservedValue => "called `PackedOption::some()` with a reserved value"
  | outOfBounds size index => s!"index out of bounds: the len is {size} but the index is {index}"
  | selfAttach => "attaching an item in front of itself"
  | alreadyLinked => "assertion failed: !self.has_neighbours(storage, slot)"
  | endlessList => "a list does not end"
  | capacityOutOfRange => s!"chunk capacity must be in 1..={maxChunkEntries}"
  | emptyPool ptr => s!"deallocating {ptr} from an empty pool"
  | notAllocated ptr => s!"deallocating {ptr} which is not allocated"
  | invalidPtr => "dereferencing an invalid arena pointer"
  | poolInUse live => s!"dropping a slab pool with {live} live entries"
  | tooManyChunks => s!"slab pool exceeds {maxChunks} chunks"
  | constructorFailed ptr => s!"constructor failed at {ptr}"
  | listedChunkFull => "chunk on the free list is full"
  | entryTaken => "internal error: entered unreachable code"
  | chunkCountsNone => "assertion failed: !c.is_empty()"
  | chunkDoesNotFit _ => "assertion failed: chunk < MAX_CHUNKS"
  | noPosition => "assertion failed: pos != UNDEF_POS"
  | overflow => "attempt to add with overflow"
  | underflow => "attempt to subtract with overflow"
  | tagsExhausted kind => s!"all {kind.capacity} {kind}s are in use"
  | tagNotHeld index value => s!"releasing a handle that is not in use: ({index}, {value})"
  | numberOutOfRange => "number is out of range"
  | indexInUse _ => "assertion failed: !self.live[index]"
  | valuesExhausted _ => "assertion failed: !self.exhausted(index)"
  | @tagNotInUse kind tag graph => s!"{kind} {tag} is not in use in graph {graph}"
  | @foreign kind handle graph => s!"{kind} {handle} does not belong to graph {graph}"
  | @deleted kind handle => s!"{kind} {handle} is deleted"
  | endCursorEdge => "dereferencing an end edge cursor"
  | endCursorAdvance => "advancing an end edge cursor"
  | corrupt violation => violation.message
  | disagreement what => what.message

end SlabGraph
