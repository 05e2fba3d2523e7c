/-!
# Tags

A tag is a small token that a host grants and takes back. There are two kinds: a *marker*
splits the objects of its host into marked and unmarked ones, and a *numeration* gives
some of them a number. A host has `TagKind.capacity` indices of each kind, so that many
tags of the kind can be in use at once.

Every object keeps one stamp per index, and an object carries a tag exactly when its stamp
at the tag's index equals the tag's value. Granting a tag raises the value of its index,
so all stamps left by earlier tags become stale at once and taking a tag back costs
nothing. Value `Tag.clean` is never granted: it is the stamp of an object without the tag.

## Main definitions

* `TagKind` and its capacity;
* `Tag`, a granted tag: its owner, its index and its value;
* `Tag.text`, the printed form.
-/

namespace SlabGraph

/-- The two kinds of tag. -/
inductive TagKind where
  /-- A yes-or-no property of objects. -/
  | marker
  /-- A partial numbering of objects. -/
  | numeration
deriving DecidableEq, Inhabited, Repr

namespace TagKind

/-- How many tags of a kind can be in use at the same time. -/
def capacity : TagKind → Nat
  | marker => 15
  | numeration => 10

/-- The word for a kind of tag. -/
def text : TagKind → String
  | marker => "marker"
  | numeration => "numeration"

instance : ToString TagKind := ⟨text⟩

/-- The capitalised word for a kind of tag. -/
def title : TagKind → String
  | marker => "Marker"
  | numeration => "Numeration"

end TagKind

/-- A granted tag. -/
structure Tag (kind : TagKind) where
  /-- The number of the manager that granted the tag. -/
  owner : UInt32
  /-- The index whose stamps the tag uses. -/
  index : Fin kind.capacity
  /-- The stamp of the objects that carry the tag. -/
  value : Nat
deriving DecidableEq, Hashable, Repr

/-- A tag that objects carry or do not carry. -/
abbrev Marker := Tag .marker

/-- A tag under which objects carry a number. -/
abbrev Numeration := Tag .numeration

namespace Tag

/-- The stamp of an object that does not carry a tag. -/
def clean : Nat := 0

/-- The last value of an index. Before the next tag can be granted there, all stamps of
the index have to be scrubbed. -/
def lastValue : Nat := 65535

/-- The printed form of a tag. -/
def text {kind : TagKind} (tag : Tag kind) : String :=
  s!"{kind.title} \x7b owner: {tag.owner.toNat}, index: {tag.index.val}, value: {tag.value} \x7d"

instance {kind : TagKind} : ToString (Tag kind) := ⟨text⟩

end Tag

end SlabGraph
