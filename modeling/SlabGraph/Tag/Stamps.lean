import SlabGraph.Tag.Ledger

/-!
# Stamps

Every object that carries tags embeds a `TagArea`: one stamp per marker index, and one
stamp with a number per numeration index. The object carries a tag if the stamp at the
tag's index equals the tag's value. The operations on an area take the tag as it is, and do
not ask whether it is in use.

Scrubbing resets what stands at the indices that a ledger has not in use.

## Main definitions

* `Marks`, with `Marks.mark`, `Marks.unmark`, `Marks.isMarked`, `Marks.scrub`;
* `Numbers`, with `Numbers.setNumber`, `Numbers.number`, `Numbers.unnumber`,
  `Numbers.isNumbered`, `Numbers.scrub`;
* `TagArea`, both together, with its changes `TagArea.mark`, `TagArea.unmark`,
  `TagArea.setNumber`, `TagArea.unnumber`.
-/

namespace SlabGraph

/-- The printed form of a list of numbers. -/
def listText (xs : List Nat) : String :=
  "[" ++ ", ".intercalate (xs.map toString) ++ "]"

/-! ### Markers -/

/-- The marker stamps of an object. -/
structure Marks where
  /-- One stamp per index. -/
  stamps : Vector Nat TagKind.marker.capacity
deriving DecidableEq

namespace Marks

/-- The stamps of an object without markers. -/
def clean : Marks := ⟨.replicate _ Tag.clean⟩

/-- Whether a marker is set. -/
def isMarked (marks : Marks) (marker : Marker) : Bool :=
  marks.stamps[marker.index] == marker.value

/-- Sets a marker. Answers whether it was not set before. -/
def mark (marks : Marks) (marker : Marker) : Bool × Marks :=
  (!marks.isMarked marker, ⟨marks.stamps.set marker.index marker.value⟩)

/-- Clears a marker. Answers whether it was set before. -/
def unmark (marks : Marks) (marker : Marker) : Bool × Marks :=
  if marks.isMarked marker then (true, ⟨marks.stamps.set marker.index Tag.clean⟩)
  else (false, marks)

/-- Resets the stamps of the indices not in use. -/
def scrub (ledger : TagLedger .marker) (marks : Marks) : Marks :=
  ⟨.ofFn fun i => if ledger.used[i] then marks.stamps[i] else Tag.clean⟩

/-- The printed form of the stamps. -/
def text (marks : Marks) : String :=
  let stamps := listText marks.stamps.toList
  s!"Marked \x7b stamps: {stamps} \x7d"

end Marks

/-! ### Numerations -/

/-- The number of an object that has none. It is the greatest 32-bit word. -/
def noNumber : Nat := 4294967295

/-- What an object keeps for one numeration index. -/
structure NumberCell where
  /-- The stamp of the index. -/
  stamp : Nat
  /-- The number, which counts only under the stamp. -/
  number : Nat
deriving DecidableEq, Repr

/-- The cell of an index without a number. -/
def NumberCell.clean : NumberCell := ⟨Tag.clean, noNumber⟩

/-- The numeration cells of an object. -/
structure Numbers where
  /-- One cell per index. -/
  cells : Vector NumberCell TagKind.numeration.capacity
deriving DecidableEq

namespace Numbers

/-- The cells of an object without numbers. -/
def clean : Numbers := ⟨.replicate _ .clean⟩

/-- Whether there is a number in a numeration. -/
def isNumbered (numbers : Numbers) (num : Numeration) : Bool :=
  numbers.cells[num.index].stamp == num.value

/-- The number in a numeration, or `noNumber`. -/
def number (numbers : Numbers) (num : Numeration) : Nat :=
  if numbers.isNumbered num then numbers.cells[num.index].number else noNumber

/-- Sets the number in a numeration. It must be at least zero and below `noNumber`. -/
def setNumber (numbers : Numbers) (num : Numeration) (value : Int) : Except Fault Numbers :=
  if 0 ≤ value ∧ value < noNumber then
    .ok ⟨numbers.cells.set num.index ⟨num.value, value.toNat⟩⟩
  else
    .error .numberOutOfRange

/-- Removes the number in a numeration. Answers whether there was one. -/
def unnumber (numbers : Numbers) (num : Numeration) : Bool × Numbers :=
  if numbers.isNumbered num then (true, ⟨numbers.cells.set num.index .clean⟩)
  else (false, numbers)

/-- Resets the cells of the indices not in use. -/
def scrub (ledger : TagLedger .numeration) (numbers : Numbers) : Numbers :=
  ⟨.ofFn fun i => if ledger.used[i] then numbers.cells[i] else .clean⟩

/-- The printed form of the cells. -/
def text (numbers : Numbers) : String :=
  let stamps := listText (numbers.cells.toList.map (·.stamp))
  let values := listText (numbers.cells.toList.map (·.number))
  s!"Numbered \x7b stamps: {stamps}, numbers: {values} \x7d"

end Numbers

/-! ### Both kinds -/

/-- The stamps of an object for both kinds of tag. -/
structure TagArea where
  /-- The marker stamps. -/
  marks : Marks
  /-- The numeration cells. -/
  numbers : Numbers
deriving DecidableEq

namespace TagArea

/-- The stamps of an object without tags. -/
def clean : TagArea := ⟨.clean, .clean⟩

instance : Inhabited TagArea := ⟨clean⟩

/-- Sets a marker. Answers whether it was not set before. -/
def mark (marker : Marker) (area : TagArea) : Except Fault (Bool × TagArea) :=
  let (newly, marks) := area.marks.mark marker
  .ok (newly, { area with marks })

/-- Clears a marker. Answers whether it was set before. -/
def unmark (marker : Marker) (area : TagArea) : Except Fault (Bool × TagArea) :=
  let (was, marks) := area.marks.unmark marker
  .ok (was, { area with marks })

/-- Sets the number in a numeration. -/
def setNumber (num : Numeration) (value : Int) (area : TagArea) :
    Except Fault (Unit × TagArea) := do
  let numbers ← area.numbers.setNumber num value
  return ((), { area with numbers })

/-- Removes the number in a numeration. Answers whether there was one. -/
def unnumber (num : Numeration) (area : TagArea) : Except Fault (Bool × TagArea) :=
  let (was, numbers) := area.numbers.unnumber num
  .ok (was, { area with numbers })

end TagArea

end SlabGraph
