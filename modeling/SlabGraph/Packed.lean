import SlabGraph.Fault

/-!
# Packed Options

A type with a *reserved* value can hold an optional value in its own space: the reserved
value stands for "none". Links between the members of a list are stored this way, so every
pointer that can be linked reserves one value.

Packing refuses the reserved value, so a packed value reads back as what was packed
(`Packed.unpack_of_pack`), and two packed values that read the same are the same
(`Packed.unpack_inj`).

## Main definitions

* `Reserved`, types with a reserved value;
* `Packed`, `Packed.pack`, `Packed.ofOption`, `Packed.unpack`;
* `Word`, 32-bit words of which the greatest is reserved.
-/

namespace SlabGraph

/-- A type with one value that is never used as a proper one. -/
class Reserved (α : Type) where
  /-- The reserved value. -/
  reserved : α

instance : Reserved Ptr := ⟨Ptr.reserved⟩

/-- An optional value, held in the space of the value itself. -/
structure Packed (α : Type) where
  /-- The stored value, the reserved one for "none". -/
  raw : α
deriving DecidableEq, Repr

namespace Packed

variable {α : Type} [Reserved α] [DecidableEq α]

/-- The packed form of "none". -/
def empty : Packed α := ⟨Reserved.reserved⟩

instance : Inhabited (Packed α) := ⟨empty⟩

/-- Packs a present value, which must not be the reserved one. -/
def pack (a : α) : Except Fault (Packed α) :=
  if a = Reserved.reserved then .error .reservedValue else .ok ⟨a⟩

/-- Packs an optional value. -/
def ofOption : Option α → Except Fault (Packed α)
  | none => .ok empty
  | some a => pack a

/-- The optional value that is held. -/
def unpack (p : Packed α) : Option α :=
  if p.raw = Reserved.reserved then none else some p.raw

/-- Whether no value is held. -/
def isEmpty (p : Packed α) : Bool := p.unpack.isNone

/-- The printed form, given one for the values. -/
def text (render : α → String) (p : Packed α) : String :=
  match p.unpack with
  | none => "None"
  | some a => s!"Some({render a})"

/-- Packed values are ordered as they are stored, so "none" stands at the reserved value. -/
instance [Ord α] : Ord (Packed α) := ⟨fun p q => compare p.raw q.raw⟩

/-! ### Packing and unpacking -/

/-- The packed form of "none" reads back as "none". -/
@[simp] theorem unpack_empty : (empty : Packed α).unpack = none := by
  simp [unpack, empty]

/-- Packing answers exactly the packed value that reads back as what was packed. -/
theorem pack_eq_ok_iff {a : α} {p : Packed α} :
    pack a = .ok p ↔ p.unpack = some a := by
  obtain ⟨raw⟩ := p
  unfold pack unpack
  by_cases h : a = Reserved.reserved
  · subst h
    by_cases hraw : raw = Reserved.reserved <;> simp [hraw]
  · by_cases hraw : raw = Reserved.reserved
    · subst hraw
      simp [h]
    · simp [h, hraw, eq_comm]

/-- What was packed reads back. -/
theorem unpack_of_pack {a : α} {p : Packed α} (h : pack a = .ok p) : p.unpack = some a :=
  pack_eq_ok_iff.1 h

/-- Two packed values that read the same are the same. -/
theorem unpack_inj {p q : Packed α} : p.unpack = q.unpack ↔ p = q := by
  obtain ⟨a⟩ := p
  obtain ⟨b⟩ := q
  unfold unpack
  by_cases ha : a = Reserved.reserved <;> by_cases hb : b = Reserved.reserved <;>
    simp_all [eq_comm]

/-- An optional value is packed exactly as the packed value that reads back as it. -/
theorem ofOption_eq_ok_iff {o : Option α} {p : Packed α} :
    ofOption o = .ok p ↔ p.unpack = o := by
  cases o with
  | none =>
    rw [ofOption, ← unpack_empty (α := α), unpack_inj]
    simp [eq_comm]
  | some a => exact pack_eq_ok_iff

/-- What a packed value reads back as can be packed again, and yields the same packed value. -/
@[simp] theorem ofOption_unpack (p : Packed α) : ofOption p.unpack = .ok p :=
  ofOption_eq_ok_iff.2 rfl

end Packed

/-- A 32-bit word, of which the greatest is reserved. -/
structure Word where
  /-- The number itself. -/
  val : UInt32
deriving DecidableEq, Repr

namespace Word

instance : Reserved Word := ⟨⟨0xFFFFFFFF⟩⟩

instance : Ord Word := ⟨fun a b => compare a.val b.val⟩

/-- The printed form of a word. -/
def text (word : Word) : String := s!"Word({word.val.toNat})"

end Word

end SlabGraph
