import Mathlib.Data.Sigma.Basic
import SlabGraph.Graph.Tags

/-!
# Histories

What has happened to a graph, as its user sees it. A `Deed` is one change that was carried
out: its handles are those that were given and answered, its payloads and tags those that were
stored and granted. A history is the list of all deeds, the latest first.

Everything a user may expect of a handle can be read off the history, without looking at the
graph. A node lives from the deed that adds it until one that removes it. An edge also leaves
with a node at one of its ends, so its ends are read off as well. A payload is the one stored
last, and an entity is marked if it was marked after the marker was granted and the entity
created, and not unmarked since. Numbers are read off in the same way.

## Main definitions

* `Deed`, `History`;
* `History.NodeLive`, `History.EdgeLive`, `History.edgeEnd?`;
* `History.nodeData?`, `History.edgeData?`;
* `History.nodesIssued`, `History.edgesIssued`;
* `History.markers`, `History.Marked`;
* `History.nums`, `History.number?`.
-/

namespace SlabGraph

/-- A handle of a node or of an edge. -/
abbrev AnyHandle := Sigma Handle

/-- A change of a graph that was carried out. -/
inductive Deed (N E : Type) where
  /-- A node was added. -/
  | addNode (node : NodeHandle) (data : N)
  /-- An edge was added. -/
  | addEdge (edge : EdgeHandle) (ends : DirPair NodeHandle) (data : E)
  /-- A node was removed, and with it the edges it was an end of. -/
  | removeNode (node : NodeHandle)
  /-- An edge was removed. -/
  | removeEdge (edge : EdgeHandle)
  /-- All nodes and edges were removed. -/
  | clear
  /-- An end of an edge was moved to a node. -/
  | moveEnd (edge : EdgeHandle) (dir : Direction) (node : NodeHandle)
  /-- A payload was stored in a node. -/
  | writeNode (node : NodeHandle) (data : N)
  /-- A payload was stored in an edge. -/
  | writeEdge (edge : EdgeHandle) (data : E)
  /-- A marker was granted. -/
  | grantMarker (marker : Marker)
  /-- A marker was taken back. -/
  | freeMarker (marker : Marker)
  /-- A marker was set. -/
  | mark (x : AnyHandle) (marker : Marker)
  /-- A marker was cleared. -/
  | unmark (x : AnyHandle) (marker : Marker)
  /-- A numeration was granted. -/
  | grantNum (num : Numeration)
  /-- A numeration was taken back. -/
  | freeNum (num : Numeration)
  /-- A number was set. -/
  | setNumber (x : AnyHandle) (num : Numeration) (value : Nat)
  /-- A number was removed. -/
  | unnumber (x : AnyHandle) (num : Numeration)

/-- Whether a deed is about tags only. -/
def Deed.onTags {N E : Type} : Deed N E → Bool
  | .addNode .. | .addEdge .. | .removeNode _ | .removeEdge _ | .clear | .moveEnd ..
  | .writeNode .. | .writeEdge .. => false
  | _ => true

/-- The entity that a deed adds. -/
def Deed.adds {N E : Type} : Deed N E → Option AnyHandle
  | .addNode node _ => some ⟨.node, node⟩
  | .addEdge edge _ _ => some ⟨.edge, edge⟩
  | _ => none

/-- A deed about tags adds no entity. -/
theorem Deed.adds_of_onTags {N E : Type} {deed : Deed N E} (h : deed.onTags = true) :
    deed.adds = none := by
  cases deed <;> first | rfl | cases h

/-- The deeds of a graph, the latest first. -/
abbrev History (N E : Type) := List (Deed N E)

namespace History

variable {N E : Type}

/-! ### Nodes -/

/-- A node was added and not removed since. -/
def NodeLive (node : NodeHandle) : History N E → Prop
  | [] => False
  | .addNode added _ :: past => node = added ∨ NodeLive node past
  | .removeNode removed :: past => node ≠ removed ∧ NodeLive node past
  | .clear :: _ => False
  | _ :: past => NodeLive node past

/-- The payload that was stored last in a node. -/
def nodeData? (node : NodeHandle) : History N E → Option N
  | [] => none
  | .addNode added data :: past => if node = added then some data else nodeData? node past
  | .writeNode written data :: past => if node = written then some data else nodeData? node past
  | _ :: past => nodeData? node past

/-- The handles of nodes that were answered, the latest first. -/
def nodesIssued : History N E → List NodeHandle
  | [] => []
  | .addNode added _ :: past => added :: nodesIssued past
  | _ :: past => nodesIssued past

/-! ### Edges -/

/-- The node that was last made the `dir` end of an edge. -/
def edgeEnd? (edge : EdgeHandle) (dir : Direction) : History N E → Option NodeHandle
  | [] => none
  | .addEdge added ends _ :: past =>
    if edge = added then some (ends.get dir) else edgeEnd? edge dir past
  | .moveEnd moved dir' node :: past =>
    if edge = moved ∧ dir = dir' then some node else edgeEnd? edge dir past
  | _ :: past => edgeEnd? edge dir past

/-- An edge was added and not removed since, neither by itself nor with a node at one of its
ends. -/
def EdgeLive (edge : EdgeHandle) : History N E → Prop
  | [] => False
  | .addEdge added _ _ :: past => edge = added ∨ EdgeLive edge past
  | .removeEdge removed :: past => edge ≠ removed ∧ EdgeLive edge past
  | .removeNode removed :: past =>
    (∀ dir, edgeEnd? edge dir past ≠ some removed) ∧ EdgeLive edge past
  | .clear :: _ => False
  | _ :: past => EdgeLive edge past

/-- The payload that was stored last in an edge. -/
def edgeData? (edge : EdgeHandle) : History N E → Option E
  | [] => none
  | .addEdge added _ data :: past => if edge = added then some data else edgeData? edge past
  | .writeEdge written data :: past => if edge = written then some data else edgeData? edge past
  | _ :: past => edgeData? edge past

/-- The handles of edges that were answered, the latest first. -/
def edgesIssued : History N E → List EdgeHandle
  | [] => []
  | .addEdge added _ _ :: past => added :: edgesIssued past
  | _ :: past => edgesIssued past

/-! ### Markers -/

/-- The markers that were granted and not taken back since, the latest first. -/
def markers : History N E → List Marker
  | [] => []
  | .grantMarker granted :: past => granted :: markers past
  | .freeMarker freed :: past => (markers past).erase freed
  | _ :: past => markers past

/-- An entity was marked after the marker was granted and the entity added, and not unmarked
since. -/
def Marked (marker : Marker) (x : AnyHandle) : History N E → Prop
  | [] => False
  | .grantMarker granted :: past => marker ≠ granted ∧ Marked marker x past
  | .addNode added _ :: past => x ≠ ⟨.node, added⟩ ∧ Marked marker x past
  | .addEdge added _ _ :: past => x ≠ ⟨.edge, added⟩ ∧ Marked marker x past
  | .mark y set :: past => (x = y ∧ marker = set) ∨ Marked marker x past
  | .unmark y cleared :: past => ¬ (x = y ∧ marker = cleared) ∧ Marked marker x past
  | _ :: past => Marked marker x past

/-! ### Numerations -/

/-- The numerations that were granted and not taken back since, the latest first. -/
def nums : History N E → List Numeration
  | [] => []
  | .grantNum granted :: past => granted :: nums past
  | .freeNum freed :: past => (nums past).erase freed
  | _ :: past => nums past

/-- The number that was set last, after the numeration was granted and the entity added, and not
removed since. -/
def number? (num : Numeration) (x : AnyHandle) : History N E → Option Nat
  | [] => none
  | .grantNum granted :: past => if num = granted then none else number? num x past
  | .addNode added _ :: past => if x = ⟨.node, added⟩ then none else number? num x past
  | .addEdge added _ _ :: past => if x = ⟨.edge, added⟩ then none else number? num x past
  | .setNumber y set value :: past =>
    if x = y ∧ num = set then some value else number? num x past
  | .unnumber y removed :: past =>
    if x = y ∧ num = removed then none else number? num x past
  | _ :: past => number? num x past

/-! ### What is live was issued -/

/-- The handle of a live node was issued. -/
theorem mem_nodesIssued_of_live {node : NodeHandle} {past : History N E}
    (h : NodeLive node past) : node ∈ nodesIssued past := by
  induction past with
  | nil => exact h.elim
  | cons deed past ih =>
      cases deed with
      | addNode added data =>
          rcases h with rfl | h
          · exact List.mem_cons_self
          · exact List.mem_cons_of_mem _ (ih h)
      | removeNode removed => exact ih h.2
      | clear => exact h.elim
      | _ => exact ih h

/-- The handle of a live edge was issued. -/
theorem mem_edgesIssued_of_live {edge : EdgeHandle} {past : History N E}
    (h : EdgeLive edge past) : edge ∈ edgesIssued past := by
  induction past with
  | nil => exact h.elim
  | cons deed past ih =>
      cases deed with
      | addEdge added ends data =>
          rcases h with rfl | h
          · exact List.mem_cons_self
          · exact List.mem_cons_of_mem _ (ih h)
      | removeEdge removed => exact ih h.2
      | removeNode removed => exact ih h.2
      | clear => exact h.elim
      | _ => exact ih h

/-- The handles of nodes issued over two histories are those issued over each. -/
theorem nodesIssued_append (later past : History N E) :
    nodesIssued (later ++ past) = nodesIssued later ++ nodesIssued past := by
  induction later with
  | nil => rfl
  | cons deed later ih => cases deed <;> simp [nodesIssued, ih]

/-- The handles of edges issued over two histories are those issued over each. -/
theorem edgesIssued_append (later past : History N E) :
    edgesIssued (later ++ past) = edgesIssued later ++ edgesIssued past := by
  induction later with
  | nil => rfl
  | cons deed later ih => cases deed <;> simp [edgesIssued, ih]

/-- A node that was issued and is not live stays so, as long as its handle is not issued
again. -/
theorem not_nodeLive_append {node : NodeHandle} {later past : History N E}
    (hdead : ¬ NodeLive node past) (hnew : node ∉ nodesIssued later) :
    ¬ NodeLive node (later ++ past) := by
  induction later with
  | nil => exact hdead
  | cons deed later ih =>
      cases deed with
      | addNode added data =>
          simp only [nodesIssued, List.mem_cons, not_or] at hnew
          rintro (heq | hlive)
          · exact hnew.1 heq
          · exact ih hnew.2 hlive
      | removeNode removed => exact fun hlive => ih hnew hlive.2
      | clear => exact id
      | _ => exact ih hnew

/-- An edge that was issued and is not live stays so, as long as its handle is not issued
again. -/
theorem not_edgeLive_append {edge : EdgeHandle} {later past : History N E}
    (hdead : ¬ EdgeLive edge past) (hnew : edge ∉ edgesIssued later) :
    ¬ EdgeLive edge (later ++ past) := by
  induction later with
  | nil => exact hdead
  | cons deed later ih =>
      cases deed with
      | addEdge added ends data =>
          simp only [edgesIssued, List.mem_cons, not_or] at hnew
          rintro (heq | hlive)
          · exact hnew.1 heq
          · exact ih hnew.2 hlive
      | removeEdge removed => exact fun hlive => ih hnew hlive.2
      | removeNode removed => exact fun hlive => ih hnew hlive.2
      | clear => exact id
      | _ => exact ih hnew

end History

end SlabGraph
