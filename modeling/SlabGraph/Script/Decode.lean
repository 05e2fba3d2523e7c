import SlabGraph.Script.Op

/-!
# Scripts from Bytes

A script is drawn from a *source* of numbers: first the number of operations, and then for each
operation two operands and a kind, whether or not the kind needs them. Drawing a number can fail,
and then there is no script.

A string of bytes is a source that never fails, so every string of bytes is read as a script. A
number up to `max` takes as many bytes as `max` needs, the most significant first, and
counts modulo `max + 1`. An operand takes two bytes, the least significant first. Bytes that
are missing at the end count as absent in the first case and as zero in the second.

## Main definitions

* `Source`, with `Source.op`, `Source.ops`, `Source.script`;
* `readUpTo`, `readWord`, the two kinds of number, and `Source.bytes`;
* `Script.read`.
-/

namespace SlabGraph

/-- The greatest number of operations that a script can be drawn with. -/
def maxScriptLength : Nat := 1023

/-- The number of the last kind of operation, with or without those on markers. -/
def lastKind (withMarkers : Bool) : Nat := if withMarkers then 10 else 6

/-! ### Drawing a script -/

/-- Where the numbers of a script come from. Drawing one can fail. -/
structure Source (σ ε : Type) where
  /-- Draws a number up to a bound. -/
  upTo (max : Nat) : StateT σ (Except ε) Nat
  /-- Draws a number of two bytes. -/
  word : StateT σ (Except ε) Nat

namespace Source

variable {σ ε : Type}

/-- Draws an operation. -/
def op (source : Source σ ε) (withMarkers : Bool) : StateT σ (Except ε) Op := do
  let a ← source.word
  let b ← source.word
  let kind ← source.upTo (lastKind withMarkers)
  return Op.ofKind kind a b

/-- Draws so many operations. -/
def ops (source : Source σ ε) (withMarkers : Bool) : Nat → StateT σ (Except ε) (List Op)
  | 0 => return []
  | count + 1 => do
    let op ← source.op withMarkers
    let rest ← source.ops withMarkers count
    return op :: rest

/-- Draws a script. -/
def script (source : Source σ ε) (withMarkers : Bool) : StateT σ (Except ε) (List Op) := do
  let count ← source.upTo maxScriptLength
  source.ops withMarkers count

end Source

/-! ### Bytes as a source -/

/-- The number of bytes that a number needs. -/
def byteWidth (n : Nat) : Nat := if n = 0 then 0 else n.log2 / 8 + 1

/-- A number with the most significant byte first. -/
def bigEndian (bytes : List UInt8) : Nat :=
  bytes.foldl (fun value byte => value * 256 + byte.toNat) 0

/-- Reads a number up to `max`. Answers it with the bytes that are left. -/
def readUpTo (max : Nat) (bytes : List UInt8) : Nat × List UInt8 :=
  let width := byteWidth max
  (bigEndian (bytes.take width) % (max + 1), bytes.drop width)

/-- Reads a number of two bytes. Answers it with the bytes that are left. -/
def readWord : List UInt8 → Nat × List UInt8
  | [] => (0, [])
  | [low] => (low.toNat, [])
  | low :: high :: rest => (low.toNat + 256 * high.toNat, rest)

/-- A string of bytes as a source, which never fails. -/
def Source.bytes : Source (List UInt8) Empty where
  upTo max bytes := .ok (readUpTo max bytes)
  word bytes := .ok (readWord bytes)

/-- Reads a script. Answers it with the bytes that are left. -/
def Script.read (withMarkers : Bool) (bytes : List UInt8) : List Op × List UInt8 :=
  match Source.bytes.script withMarkers bytes with
  | .ok answer => answer
  | .error impossible => nomatch impossible

end SlabGraph
