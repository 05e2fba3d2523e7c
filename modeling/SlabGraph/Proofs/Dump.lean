import SlabGraph.Proofs.Handles
import SlabGraph.Proofs.Relocation.Queries

/-!
# Reading a Dump

The text that a graph prints can be read again. A decoder that knows nothing of the graph finds the
lines, reads each of them as that of a node or of an edge, and so has the ids that were listed
(`Dump.decode_text`). No two dumps have the same text, whatever ids they list, and two graphs print
the same text exactly if they list the same ids in the same order.

A line is told from another one by the reader and not by its form: what is read off the line of a
node is the id of a node, and what is read off the line of an edge is two ids. A decimal number is
read up to the first character that is no digit, and what follows a number in a line is none.

In the dump of a graph, the ends of the edges are nodes that are listed, and no id is listed twice,
so each id in the line of an edge has its own line, and only one (`Graph.DumpsTo`).

## Main definitions

* `Dump.linesOf`, `Dump.readLine`, `Dump.decode`;
* `Graph.nodeIds`, `Graph.edgeIds`, `Graph.DumpsTo`.

## Main results

* `Dump.decode_text`: the decoder finds what was printed;
* `World.dumps_faithfully`.
-/

namespace SlabGraph

namespace Dump

/-! ### Lines -/

/-- The line of a node. -/
def nodeLine (uid : Nat) : String := s!"{uid};"

/-- The line of an edge. -/
def edgeLine (ends : Nat × Nat) : String := s!"{ends.1}->{ends.2};"

/-- The lines of a dump: the opening, one for each node, one for each edge, and the closing. -/
theorem lines_eq (d : Dump) : d.lines =
    "digraph\x7b" :: (d.nodes.map nodeLine ++ (d.edges.map edgeLine ++ ["\x7d"])) := by
  exact congrArg _ (List.append_assoc ..)

/-- The line of a node is its id and a semicolon. -/
theorem toList_nodeLine (uid : Nat) : (nodeLine uid).toList = Nat.toDigits 10 uid ++ [';'] := by
  simp [nodeLine, toString]

/-- The line of an edge is the ids of its ends with an arrow between them, and a semicolon. -/
theorem toList_edgeLine (ends : Nat × Nat) : (edgeLine ends).toList =
    Nat.toDigits 10 ends.1 ++ '-' :: '>' :: (Nat.toDigits 10 ends.2 ++ [';']) := by
  simp [edgeLine, toString]

/-- The lines of a text, each of which a line break ends. -/
def linesOf (text : String) : List String :=
  (text.toList.splitOn '\n').dropLast.map String.ofList

/-- Lines without line breaks are read back from a text in which each of them ends in one. -/
theorem linesOf_join {lines : List String} (h : ∀ line ∈ lines, '\n' ∉ line.toList) :
    linesOf (String.join (lines.map (· ++ "\n"))) = lines := by
  have hsplit : (String.join (lines.map (· ++ "\n"))).toList.splitOn '\n' =
      lines.map String.toList ++ [[]] := by
    induction lines with
    | nil => rfl
    | cons line lines ih =>
        have hrest := ih fun line' hline' => h line' (List.mem_cons_of_mem line hline')
        have hline := List.splitOn_append_cons_self_of_not_mem (h line List.mem_cons_self)
          (String.join (lines.map (· ++ "\n"))).toList
        rw [hrest] at hline
        rw [List.map_cons, String.join_cons, String.toList_append, String.toList_append,
          List.append_assoc]
        exact hline
  rw [linesOf, hsplit, List.dropLast_concat, List.map_map]
  exact (List.map_congr_left fun line _ => String.ofList_toList).trans (List.map_id _)

/-- No line of a dump has a line break in it. -/
theorem not_mem_of_mem_lines {d : Dump} {line : String} (h : line ∈ d.lines) :
    '\n' ∉ line.toList := by
  have hdigits : ∀ uid, '\n' ∉ Nat.toDigits 10 uid := fun uid hmem => by
    have hdigit := Nat.isDigit_of_mem_toDigits (by decide) (by decide) hmem
    simp at hdigit
  simp only [lines_eq, List.mem_cons, List.mem_append, List.mem_map, List.not_mem_nil,
    or_false] at h
  rcases h with rfl | ⟨uid, -, rfl⟩ | ⟨ends, -, rfl⟩ | rfl
  · decide
  · simp [toList_nodeLine, hdigits]
  · simp [toList_edgeLine, hdigits]
  · decide

/-- The lines of a dump are read back from its text. -/
theorem linesOf_text (d : Dump) : linesOf d.text = d.lines :=
  linesOf_join fun _ h => not_mem_of_mem_lines h

/-! ### The decoder -/

/-- Reads a decimal number, and answers what is left. -/
def readNumber (cs : List Char) : Option (Nat × List Char) :=
  let digits := cs.takeWhile Char.isDigit
  if digits = [] then none else some (Nat.ofDigitChars 10 digits 0, cs.dropWhile Char.isDigit)

/-- Reads the line of a node or of an edge. -/
def readLine (line : String) : Option (Nat ⊕ Nat × Nat) :=
  match readNumber line.toList with
  | some (uid, [';']) => some (.inl uid)
  | some (pred, '-' :: '>' :: cs) =>
    match readNumber cs with
    | some (succ, [';']) => some (.inr (pred, succ))
    | _ => none
  | _ => none

/-- Reads the lines after the opening one. -/
def readLines : List String → Option Dump
  | [] => none
  | line :: lines =>
    match readLine line with
    | some (.inl uid) => (readLines lines).map fun d => { d with nodes := uid :: d.nodes }
    | some (.inr ends) => (readLines lines).map fun d => { d with edges := ends :: d.edges }
    | none => if line = "\x7d" ∧ lines = [] then some ⟨[], []⟩ else none

/-- Reads the text of a dump. -/
def decode (text : String) : Option Dump :=
  match linesOf text with
  | [] => none
  | line :: lines => if line = "digraph\x7b" then readLines lines else none

/-- A number is read up to the next character, if this is no digit. -/
theorem readNumber_append (n : Nat) {c : Char} (hc : c.isDigit = false) (cs : List Char) :
    readNumber (Nat.toDigits 10 n ++ c :: cs) = some (n, c :: cs) := by
  have hdigits : ∀ d ∈ Nat.toDigits 10 n, d.isDigit = true := fun d hd =>
    Nat.isDigit_of_mem_toDigits (by decide) (by decide) hd
  have htake : (Nat.toDigits 10 n ++ c :: cs).takeWhile Char.isDigit = Nat.toDigits 10 n := by
    rw [List.takeWhile_append_of_pos hdigits, List.takeWhile_cons_of_neg (by simp [hc]),
      List.append_nil]
  have hdrop : (Nat.toDigits 10 n ++ c :: cs).dropWhile Char.isDigit = c :: cs := by
    rw [List.dropWhile_append_of_pos hdigits, List.dropWhile_cons_of_neg (by simp [hc])]
  simp [readNumber, htake, hdrop, Nat.toDigits_ne_nil]

/-- The line of a node is read as such. -/
theorem readLine_nodeLine (uid : Nat) : readLine (nodeLine uid) = some (.inl uid) := by
  simp [readLine, toList_nodeLine, readNumber_append]

/-- The line of an edge is read as such. -/
theorem readLine_edgeLine (ends : Nat × Nat) : readLine (edgeLine ends) = some (.inr ends) := by
  simp [readLine, toList_edgeLine, readNumber_append]

/-- The closing line is the line of nothing. -/
theorem readLine_closing : readLine "\x7d" = none := by decide

/-- The lines of edges are read up to the closing line. -/
theorem readLines_edges (edges : List (Nat × Nat)) :
    readLines (edges.map edgeLine ++ ["\x7d"]) = some ⟨[], edges⟩ := by
  induction edges with
  | nil => simp [readLines, readLine_closing]
  | cons ends edges ih => simp [readLines, readLine_edgeLine, ih]

/-- The lines of nodes and then those of edges are read up to the closing line. -/
theorem readLines_nodes (nodes : List Nat) (edges : List (Nat × Nat)) :
    readLines (nodes.map nodeLine ++ (edges.map edgeLine ++ ["\x7d"])) = some ⟨nodes, edges⟩ := by
  induction nodes with
  | nil => exact readLines_edges edges
  | cons uid nodes ih => simp [readLines, readLine_nodeLine, ih]

/-- The decoder finds what was printed. -/
theorem decode_text (d : Dump) : decode d.text = some d := by
  rw [decode, linesOf_text, lines_eq]
  exact (if_pos rfl).trans (readLines_nodes d.nodes d.edges)

example : decode "digraph\x7b\n12;\n3;\n3->12;\n\x7d\n" = some ⟨[12, 3], [(3, 12)]⟩ := by
  decide +kernel

/-! ### Which lines there are -/

/-- Different ids have different lines. -/
theorem nodeLine_injective : Function.Injective nodeLine := fun m n heq => by
  have hread := congrArg readLine heq
  rw [readLine_nodeLine, readLine_nodeLine] at hread
  exact Sum.inl.inj (Option.some.inj hread)

/-- Different pairs of ids have different lines. -/
theorem edgeLine_injective : Function.Injective edgeLine := fun m n heq => by
  have hread := congrArg readLine heq
  rw [readLine_edgeLine, readLine_edgeLine] at hread
  exact Sum.inr.inj (Option.some.inj hread)

/-- The line of a node is there as often as its id is listed. -/
theorem count_nodeLine (d : Dump) (uid : Nat) :
    d.lines.count (nodeLine uid) = d.nodes.count uid := by
  have hopening : nodeLine uid ≠ "digraph\x7b" := fun heq => by
    have hread := readLine_nodeLine uid
    rw [heq] at hread
    cases hread
  have hclosing : nodeLine uid ≠ "\x7d" := fun heq => by
    have hread := readLine_nodeLine uid
    rw [heq, readLine_closing] at hread
    cases hread
  have hedges : nodeLine uid ∉ d.edges.map edgeLine := fun hmem => by
    obtain ⟨ends, -, heq⟩ := List.mem_map.1 hmem
    have hread := congrArg readLine heq
    rw [readLine_edgeLine, readLine_nodeLine] at hread
    cases hread
  rw [lines_eq, List.count_cons_of_ne (Ne.symm hopening), List.count_append, List.count_append,
    List.count_map_of_injective _ _ nodeLine_injective, List.count_eq_zero_of_not_mem hedges,
    List.count_singleton]
  simp [Ne.symm hclosing]

/-- The line of an edge is there only if its ids are listed. -/
theorem mem_of_edgeLine_mem {d : Dump} {ends : Nat × Nat} (h : edgeLine ends ∈ d.lines) :
    ends ∈ d.edges := by
  have hread := readLine_edgeLine ends
  simp only [lines_eq, List.mem_cons, List.mem_append, List.mem_map, List.not_mem_nil,
    or_false] at h
  rcases h with heq | ⟨uid, -, heq⟩ | ⟨ends', hmem, heq⟩ | heq
  · rw [heq] at hread
    cases hread
  · rw [← heq, readLine_nodeLine] at hread
    cases hread
  · exact edgeLine_injective heq ▸ hmem
  · rw [heq, readLine_closing] at hread
    cases hread

/-- There is one line for each node and each edge, and two more. -/
theorem length_lines (d : Dump) : d.lines.length = d.nodes.length + d.edges.length + 2 := by
  simp [lines_eq]
  omega

end Dump

namespace Graph

variable {N E : Type}

/-! ### The dump of a graph -/

/-- The ids of the nodes, in the order of all nodes. -/
def nodeIds (g : Graph N E) : Except Fault (List Nat) := do
  (← g.nodeList).mapM g.nodeUid

/-- The ids of the ends of an edge, the predecessor first. -/
def endIds (g : Graph N E) (edge : EdgeHandle) : Except Fault (Nat × Nat) := do
  return (← g.nodeUid (← g.edgeEnd edge .up), ← g.nodeUid (← g.edgeEnd edge .down))

/-- The ids of the ends of the edges, in the order of all edges. -/
def edgeIds (g : Graph N E) : Except Fault (List (Nat × Nat)) := do
  (← g.edgeList).mapM g.endIds

/-- A graph prints the text of a dump, from which the ids of the graph can be read. -/
structure DumpsTo (g : Graph N E) (d : Dump) : Prop where
  /-- The text is printed. -/
  text : g.dumpText = .ok d.text
  /-- The decoder finds the ids that are listed. -/
  decode : Dump.decode d.text = some d
  /-- These are the ids of the nodes. -/
  nodes : g.nodeIds = .ok d.nodes
  /-- These are the ids of the ends of the edges. -/
  edges : g.edgeIds = .ok d.edges
  /-- There is nothing but lines. -/
  whole : String.join ((Dump.linesOf d.text).map (· ++ "\n")) = d.text
  /-- There is a line for each node and for each edge, and two more. -/
  numLines : (Dump.linesOf d.text).length = g.nodes.count + g.edges.count + 2
  /-- There is one line for each of the nodes in the line of an edge. -/
  ends : ∀ ends, Dump.edgeLine ends ∈ Dump.linesOf d.text →
    (Dump.linesOf d.text).count (Dump.nodeLine ends.1) = 1 ∧
    (Dump.linesOf d.text).count (Dump.nodeLine ends.2) = 1

variable {g : Graph N E} {V : View N E}

/-- The id of a node can be read. -/
theorem Holds.uid_run (h : Holds g V) {node : NodeHandle} {b : Body Unit N}
    (hb : V.nodes.find? V.id node = some b) : g.nodeUid node = .ok node.uid := by
  have huid : b.uid = node.uid := (congrArg Handle.uid (Population.find?_eq_some_iff.1 hb).2).symm
  rw [h.shown.id] at hb
  obtain ⟨r, hrun, -, rfl⟩ := h.shown.nodes.lookup_run hb
  simp [nodeUid, Graph.node, hrun, pure, Except.pure]
  exact huid

/-- The ids of the nodes are those that are dumped. -/
theorem Holds.nodeIds_run (h : Holds g V) : g.nodeIds = .ok V.dump.nodes := by
  have huids : (V.nodes.handles .node V.id).mapM g.nodeUid =
      .ok ((V.nodes.handles .node V.id).map Handle.uid) := by
    refine mapM_eq_ok fun node hnode => ?_
    obtain ⟨b, hb⟩ := Option.isSome_iff_exists.1 (h.consistent.nodes.mem_handles.1 hnode)
    exact h.uid_run hb
  simp only [nodeIds, h.nodeList_run, ok_bind, huids]
  rw [Population.handles, List.map_map]
  rfl

/-- The ids of the ends of an edge can be read. -/
theorem Holds.endIds_run (h : Holds g V) {edge : EdgeHandle} {b : Body (DirPair Ptr) E}
    (hb : V.edges.find? V.id edge = some b) :
    g.endIds edge = .ok ((V.nodes.body b.incidence.up).elim 0 Body.uid,
      (V.nodes.body b.incidence.down).elim 0 Body.uid) := by
  have hend : ∀ dir, ∃ node, g.edgeEnd edge dir = .ok node ∧
      g.nodeUid node = .ok ((V.nodes.body (b.incidence.get dir)).elim 0 Body.uid) := by
    intro dir
    obtain ⟨c, hc, hrun⟩ := h.edgeEnd_run hb dir
    refine ⟨_, hrun, ?_⟩
    rw [h.uid_run (Population.find?_eq_some_iff.2 ⟨hc, rfl⟩), hc]
    rfl
  obtain ⟨pred, hpred, hpredUid⟩ := hend .up
  obtain ⟨succ, hsucc, hsuccUid⟩ := hend .down
  simp only [endIds, hpred, hsucc, ok_bind, hpredUid, hsuccUid]
  rfl

/-- The ids of the ends of all edges are those that are dumped. -/
theorem Holds.edgeIds_run (h : Holds g V) : g.edgeIds = .ok V.dump.edges := by
  have hids : (V.edges.handles .edge V.id).mapM g.endIds =
      .ok ((V.edges.handles .edge V.id).map fun x => (V.edges.body x.slot).elim (0, 0) fun b =>
        ((V.nodes.body b.incidence.up).elim 0 Body.uid,
          (V.nodes.body b.incidence.down).elim 0 Body.uid)) := by
    refine mapM_eq_ok fun edge hedge => ?_
    obtain ⟨b, hb⟩ := Option.isSome_iff_exists.1 (h.consistent.edges.mem_handles.1 hedge)
    rw [h.endIds_run hb, (Population.find?_eq_some_iff.1 hb).1]
    rfl
  simp only [edgeIds, h.edgeList_run, ok_bind, hids]
  rw [Population.handles, List.map_map]
  rfl

/-- No id of a node is listed twice. -/
theorem Holds.nodup_dump (h : Holds g V) : V.dump.nodes.Nodup := by
  have hnodup : ((V.nodes.handles .node V.id).map Handle.uid).Nodup :=
    List.pairwise_map.2 ((h.consistent.nodes.handles_newest_first .node V.id).imp fun hlt =>
      Nat.ne_of_gt hlt)
  rwa [Population.handles, List.map_map] at hnodup

/-- The ends of the edges that are listed are nodes that are. -/
theorem Holds.mem_dump (h : Holds g V) {ends : Nat × Nat} (hends : ends ∈ V.dump.edges) :
    ends.1 ∈ V.dump.nodes ∧ ends.2 ∈ V.dump.nodes := by
  obtain ⟨e, he, rfl⟩ := List.mem_map.1 hends
  obtain ⟨b, hb⟩ := Option.isSome_iff_exists.1 ((h.consistent.edges.mem_iff e).1 he)
  have hmem : ∀ dir, (V.nodes.body (b.incidence.get dir)).elim 0 Body.uid ∈ V.dump.nodes :=
    fun dir => List.mem_map.2
      ⟨_, (h.consistent.nodes.mem_iff _).2 (h.consistent.ends e b hb dir), rfl⟩
  rw [hb]
  exact ⟨hmem .up, hmem .down⟩

/-- A graph is dumped to the ids that its view says. -/
theorem Holds.dumpsTo (h : Holds g V) : g.DumpsTo V.dump where
  text := by
    rw [dumpText, h.dump_run]
    rfl
  decode := Dump.decode_text _
  nodes := h.nodeIds_run
  edges := h.edgeIds_run
  whole := by
    rw [Dump.linesOf_text]
    rfl
  numLines := by
    rw [Dump.linesOf_text, Dump.length_lines, h.shown.nodes.count, h.shown.edges.count, View.dump,
      List.length_map, List.length_map]
  ends ends hends := by
    rw [Dump.linesOf_text] at hends ⊢
    obtain ⟨hpred, hsucc⟩ := h.mem_dump (Dump.mem_of_edgeLine_mem hends)
    rw [Dump.count_nodeLine, Dump.count_nodeLine]
    exact ⟨List.count_eq_one_of_mem h.nodup_dump hpred,
      List.count_eq_one_of_mem h.nodup_dump hsucc⟩

end Graph

/-! ### Worlds -/

namespace World

variable {N E N' E' : Type}

/-- In all worlds, a graph prints a text from which its ids can be read, and two graphs print the
same text exactly if the ids of their nodes and of the ends of their edges are the same. -/
theorem dumps_faithfully (supply supply' : IdSupply) (steps : List (Step N E))
    (steps' : List (Step N' E')) :
    ∀ r ∈ ((start supply).run steps).graphs, ∀ r' ∈ ((start supply').run steps').graphs,
      (∃ d, r.graph.DumpsTo d) ∧ (∃ d, r'.graph.DumpsTo d) ∧
      (r.graph.dumpText = r'.graph.dumpText ↔
        r.graph.nodeIds = r'.graph.nodeIds ∧ r.graph.edgeIds = r'.graph.edgeIds) := by
  intro r hr r' hr'
  obtain ⟨V, h, -⟩ := registered_run supply steps r hr
  obtain ⟨V', h', -⟩ := registered_run supply' steps' r' hr'
  refine ⟨⟨_, h.dumpsTo⟩, ⟨_, h'.dumpsTo⟩, ?_⟩
  rw [h.dumpsTo.text, h'.dumpsTo.text, h.nodeIds_run, h'.nodeIds_run, h.edgeIds_run,
    h'.edgeIds_run]
  constructor
  · intro heq
    have hdump : V.dump = V'.dump := by
      have hread := congrArg Dump.decode (Except.ok.inj heq)
      rw [Dump.decode_text, Dump.decode_text] at hread
      exact Option.some.inj hread
    rw [hdump]
    exact ⟨rfl, rfl⟩
  · rintro ⟨hnodes, hedges⟩
    have hdump : V.dump = V'.dump :=
      Dump.mk.injEq .. ▸ ⟨Except.ok.inj hnodes, Except.ok.inj hedges⟩
    rw [hdump]

/-- A world with two graphs, each a path of three nodes. The second one has its nodes in one chunk,
and one of its edges was retargeted. -/
def withTwoPaths : World Nat Nat :=
  let node (graph uid : Nat) (slot : Ptr) : NodeHandle := ⟨⟨.ofNat graph⟩, uid, slot⟩
  (start {}).run [.create ⟨1, 1⟩, .create ⟨3, 2⟩,
    .call 0 (.newNode 5), .call 0 (.newNode 6), .call 0 (.newNode 7),
    .call 0 (.newEdge (node 0 0 ⟨0, 0⟩) (node 0 1 ⟨1, 0⟩) 8),
    .call 0 (.newEdge (node 0 1 ⟨1, 0⟩) (node 0 2 ⟨2, 0⟩) 9),
    .call 1 (.newNode 5), .call 1 (.newNode 6), .call 1 (.newNode 7),
    .call 1 (.newEdge (node 1 0 ⟨0, 0⟩) (node 1 2 ⟨0, 2⟩) 8),
    .call 1 (.newEdge (node 1 1 ⟨0, 1⟩) (node 1 2 ⟨0, 2⟩) 9),
    .call 1 (.setEnd ⟨⟨1⟩, 0, ⟨0, 0⟩⟩ .down (node 1 1 ⟨0, 1⟩))]

/-- Two graphs with the same ids are dumped to one text, though their records stand in different
slots. -/
theorem dumps_faithfully_withTwoPaths :
    ∃ (h : 0 < withTwoPaths.graphs.length) (h' : 1 < withTwoPaths.graphs.length),
      let g := withTwoPaths.graphs[0].graph
      let g' := withTwoPaths.graphs[1].graph
      g.DumpsTo ⟨[2, 1, 0], [(1, 2), (0, 1)]⟩ ∧ g.dumpText = g'.dumpText ∧
        g.nodeList ≠ g'.nodeList := by
  have h : 0 < withTwoPaths.graphs.length := by decide +kernel
  have h' : 1 < withTwoPaths.graphs.length := by decide +kernel
  have hnodes : withTwoPaths.graphs[0].graph.nodeIds = .ok [2, 1, 0] := by decide +kernel +revert
  have hedges : withTwoPaths.graphs[0].graph.edgeIds = .ok [(1, 2), (0, 1)] := by
    decide +kernel +revert
  have hnodes' : withTwoPaths.graphs[1].graph.nodeIds = .ok [2, 1, 0] := by decide +kernel +revert
  have hedges' : withTwoPaths.graphs[1].graph.edgeIds = .ok [(1, 2), (0, 1)] := by
    decide +kernel +revert
  have hplaces : withTwoPaths.graphs[0].graph.nodeList ≠ withTwoPaths.graphs[1].graph.nodeList := by
    decide +kernel +revert
  obtain ⟨⟨d, hd⟩, -, hsame⟩ := dumps_faithfully {} {} _ _ _ (List.getElem_mem h) _
    (List.getElem_mem h')
  obtain rfl : d = ⟨[2, 1, 0], [(1, 2), (0, 1)]⟩ :=
    Dump.mk.injEq .. ▸ ⟨Except.ok.inj (hd.nodes.symm.trans hnodes),
      Except.ok.inj (hd.edges.symm.trans hedges)⟩
  exact ⟨h, h', hd, hsame.2 ⟨hnodes.trans hnodes'.symm, hedges.trans hedges'.symm⟩, hplaces⟩

end World

end SlabGraph
