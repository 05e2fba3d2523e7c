import Mathlib.Tactic.IntervalCases
import SlabGraph.Script.Decode

/-!
# Which Scripts Bytes Can Spell

Every string of bytes is read as a script, and the scripts that are read are those that fit: with
no more than `maxScriptLength` operations, operands of two bytes, and operations on markers only
where they are asked for. That reading reaches all of them is shown by writing them
(`Script.write`). So no operation is left out by the table of kinds, and no number is read at the
wrong place.

The numbers of a script come from a source. What has to be known of a source is that it draws
numbers as they are read from bytes (`Source.Spells`). Then drawing a script never fails, and it
is the script that is read from the bytes.

## Main definitions

* `Op.Fits`, `Script.Fits`;
* `Op.write`, `Script.write`;
* `Source.Follows`, `Source.Spells`.

## Main results

* `Script.fits_read`, `Script.read_write`;
* `Source.Spells.draws_exactly`: all sources.
-/

namespace SlabGraph

/-! ### Scripts that fit -/

namespace Op

/-- Whether an operation is about markers. -/
def onMarkers : Op → Bool
  | newMarker | freeMarker _ | mark .. | unmark .. => true
  | _ => false

/-- An operation can be written. -/
structure Fits (withMarkers : Bool) (op : Op) : Prop where
  /-- Its operands take two bytes. -/
  operand_lt : ∀ n ∈ op.operands, n < 2 ^ 16
  /-- It is about markers only where these are asked for. -/
  markers : op.onMarkers = true → withMarkers = true

/-- An operation fits if its operands fit in two bytes and it is about markers only where these are
drawn. -/
theorem fits_iff {withMarkers : Bool} {op : Op} : op.Fits withMarkers ↔
    (∀ n ∈ op.operands, n < 2 ^ 16) ∧ (op.onMarkers = true → withMarkers = true) :=
  ⟨fun h => ⟨h.operand_lt, h.markers⟩, fun h => ⟨h.1, h.2⟩⟩

instance (withMarkers : Bool) (op : Op) : Decidable (op.Fits withMarkers) :=
  decidable_of_iff' _ fits_iff

/-- The number of the kind of an operation. -/
def kind : Op → Nat
  | newNode => 0
  | newEdge .. => 1
  | deleteNode _ => 2
  | deleteEdge _ => 3
  | insertNode _ => 4
  | setPred .. => 5
  | setSucc .. => 6
  | newMarker => 7
  | freeMarker _ => 8
  | mark .. => 9
  | unmark .. => 10

/-- An operand of an operation, or zero where it has none. -/
def operand (op : Op) (i : Nat) : Nat := op.operands[i]?.getD 0

/-- An operation is its kind and its operands. -/
theorem ofKind_kind (op : Op) : ofKind op.kind (op.operand 0) (op.operand 1) = op := by
  cases op <;> rfl

/-- The operands of an operation are among the numbers that it is given. -/
theorem mem_operands_ofKind {kind a b n : Nat} (h : n ∈ (ofKind kind a b).operands) :
    n = a ∨ n = b := by
  unfold ofKind at h
  split at h <;> simp_all [operands]

/-- The operation of a kind has this kind. -/
theorem kind_ofKind {kind : Nat} (h : kind ≤ 10) (a b : Nat) : (ofKind kind a b).kind = kind := by
  interval_cases kind <;> rfl

/-- There are eleven kinds. -/
theorem kind_le_ten (op : Op) : op.kind ≤ 10 := by
  cases op <;> simp [kind]

/-- The operations on markers have the last kinds. -/
theorem onMarkers_iff (op : Op) : op.onMarkers = true ↔ lastKind false < op.kind := by
  cases op <;> simp [onMarkers, kind, lastKind]

/-- An operation of a kind that is asked for fits. -/
theorem fits_ofKind {withMarkers : Bool} {kind a b : Nat} (ha : a < 2 ^ 16) (hb : b < 2 ^ 16)
    (hkind : kind ≤ lastKind withMarkers) : (ofKind kind a b).Fits withMarkers where
  operand_lt n hn := by
    rcases mem_operands_ofKind hn with rfl | rfl
    · exact ha
    · exact hb
  markers hmarkers := by
    cases withMarkers with
    | true => rfl
    | false =>
        have hle : kind ≤ 10 := Nat.le_trans hkind (by decide)
        rw [onMarkers_iff, kind_ofKind hle] at hmarkers
        exact absurd hmarkers (Nat.not_lt.2 hkind)

namespace Fits

variable {withMarkers : Bool} {op : Op}

/-- The operands that are written for an operation fit in two bytes, also those it has not. -/
theorem operand_padded_lt (h : op.Fits withMarkers) (i : Nat) : op.operand i < 2 ^ 16 := by
  unfold operand
  cases hi : op.operands[i]? with
  | none => decide
  | some n => exact h.operand_lt n (List.mem_of_getElem? hi)

/-- The kind of an operation that fits is asked for. -/
theorem kind_le (h : op.Fits withMarkers) : op.kind ≤ lastKind withMarkers := by
  cases withMarkers with
  | true => exact op.kind_le_ten
  | false =>
      refine Nat.not_lt.1 fun hlt => ?_
      exact Bool.false_ne_true (h.markers (op.onMarkers_iff.2 hlt))

end Fits

end Op

/-- A script can be written. -/
structure Script.Fits (withMarkers : Bool) (ops : List Op) : Prop where
  /-- Its length can be written. -/
  length_le : ops.length ≤ maxScriptLength
  /-- Its operations can. -/
  fits : ∀ op ∈ ops, op.Fits withMarkers

/-- A script fits if it is not too long and all its operations fit. -/
theorem Script.fits_iff {withMarkers : Bool} {ops : List Op} : Script.Fits withMarkers ops ↔
    ops.length ≤ maxScriptLength ∧ ∀ op ∈ ops, op.Fits withMarkers :=
  ⟨fun h => ⟨h.length_le, h.fits⟩, fun h => ⟨h.1, h.2⟩⟩

instance (withMarkers : Bool) (ops : List Op) : Decidable (Script.Fits withMarkers ops) :=
  decidable_of_iff' _ Script.fits_iff

/-! ### Reading and writing -/

/-- A number of two bytes, the least significant first. -/
def wordBytes (n : Nat) : List UInt8 := [.ofNat (n % 256), .ofNat (n / 256)]

/-- A word that is read fits in two bytes. -/
theorem readWord_lt (bytes : List UInt8) : (readWord bytes).1 < 2 ^ 16 := by
  match bytes with
  | [] => decide
  | [low] =>
      have := low.toNat_lt
      simp only [readWord]
      omega
  | low :: high :: rest =>
      have := low.toNat_lt
      have := high.toNat_lt
      simp only [readWord]
      omega

/-- A word is read back from its two bytes, and the rest is left. -/
theorem readWord_wordBytes {n : Nat} (h : n < 2 ^ 16) (rest : List UInt8) :
    readWord (wordBytes n ++ rest) = (n, rest) := by
  have hlow : n % 256 < 256 := Nat.mod_lt n (by decide)
  have hhigh : n / 256 < 256 := by omega
  simp only [wordBytes, List.cons_append, List.nil_append, readWord,
    UInt8.toNat_ofNat_of_lt' hlow, UInt8.toNat_ofNat_of_lt' hhigh]
  rw [Nat.mod_add_div]

/-- A number that is read is not greater than the one it is read up to. -/
theorem readUpTo_le (max : Nat) (bytes : List UInt8) : (readUpTo max bytes).1 ≤ max :=
  Nat.le_of_lt_succ (Nat.mod_lt _ (Nat.succ_pos max))

/-- A kind takes one byte. -/
theorem readUpTo_lastKind {withMarkers : Bool} {kind : Nat} (h : kind ≤ lastKind withMarkers)
    (rest : List UInt8) : readUpTo (lastKind withMarkers) (.ofNat kind :: rest) = (kind, rest) := by
  have hwidth : byteWidth (lastKind withMarkers) = 1 := by cases withMarkers <;> decide
  have hmax : lastKind withMarkers < 256 := by cases withMarkers <;> decide
  have hkind : kind < 256 := Nat.lt_of_le_of_lt h hmax
  simp [readUpTo, hwidth, bigEndian, UInt8.toNat_ofNat_of_lt' hkind,
    Nat.mod_eq_of_lt (Nat.lt_succ_of_le h)]

/-- A length takes two bytes. -/
theorem readUpTo_maxScriptLength {length : Nat} (h : length ≤ maxScriptLength)
    (rest : List UInt8) :
    readUpTo maxScriptLength ((wordBytes length).reverse ++ rest) = (length, rest) := by
  have hwidth : byteWidth maxScriptLength = 2 := by decide
  have hlt : length < 2 ^ 16 := Nat.lt_of_le_of_lt h (by decide)
  have hlow : length % 256 < 256 := Nat.mod_lt length (by decide)
  have hhigh : length / 256 < 256 := by omega
  simp only [readUpTo, hwidth, wordBytes, bigEndian, List.reverse_cons, List.reverse_nil,
    List.nil_append, List.cons_append, List.take_succ_cons, List.take_zero, List.drop_succ_cons,
    List.drop_zero, List.foldl_cons, List.foldl_nil, UInt8.toNat_ofNat_of_lt' hlow,
    UInt8.toNat_ofNat_of_lt' hhigh]
  rw [Nat.zero_mul, Nat.zero_add, Nat.div_add_mod', Nat.mod_eq_of_lt (Nat.lt_succ_of_le h)]

/-- The bytes of an operation. -/
def Op.write (op : Op) : List UInt8 :=
  wordBytes (op.operand 0) ++ wordBytes (op.operand 1) ++ [.ofNat op.kind]

/-- The bytes of a script. -/
def Script.write (ops : List Op) : List UInt8 :=
  (wordBytes ops.length).reverse ++ ops.flatMap Op.write

/-! ### Reading from bytes -/

/-- A reader that goes on after another one which succeeds. -/
theorem bind_of_ok {σ ε α β : Type} {x : StateT σ (Except ε) α} {s s' : σ} {a : α}
    (h : x s = .ok (a, s')) (f : α → StateT σ (Except ε) β) : (x >>= f) s = f a s' := by
  simp only [bind, StateT.bind, h, Except.bind]

namespace Source

variable {withMarkers : Bool}

/-- What is drawn from bytes for an operation. -/
theorem op_bytes (withMarkers : Bool) (bytes : List UInt8) :
    Source.bytes.op withMarkers bytes =
      let a := readWord bytes
      let b := readWord a.2
      let kind := readUpTo (lastKind withMarkers) b.2
      .ok (Op.ofKind kind.1 a.1 b.1, kind.2) := rfl

/-- Every operation that is drawn from bytes fits. -/
theorem fits_op {bytes rest : List UInt8} {op : Op}
    (h : Source.bytes.op withMarkers bytes = .ok (op, rest)) : op.Fits withMarkers := by
  rw [op_bytes] at h
  cases h
  exact Op.fits_ofKind (readWord_lt _) (readWord_lt _) (readUpTo_le _ _)

/-- Any number of operations can be drawn from bytes, and all of them fit. -/
theorem exists_ops (withMarkers : Bool) (count : Nat) (bytes : List UInt8) :
    ∃ ops rest, Source.bytes.ops withMarkers count bytes = .ok (ops, rest) ∧
      ops.length = count ∧ ∀ op ∈ ops, op.Fits withMarkers := by
  induction count generalizing bytes with
  | zero => exact ⟨[], bytes, rfl, rfl, by simp⟩
  | succ count ih =>
      obtain ⟨op, middle, hop⟩ : ∃ op middle,
        Source.bytes.op withMarkers bytes = .ok (op, middle) := ⟨_, _, rfl⟩
      obtain ⟨ops, rest, hops, hlength, hfits⟩ := ih middle
      refine ⟨op :: ops, rest, ?_, by rw [List.length_cons, hlength], ?_⟩
      · rw [Source.ops, bind_of_ok hop, bind_of_ok hops]
        rfl
      · exact List.forall_mem_cons.2 ⟨fits_op hop, hfits⟩

/-- An operation that fits is read back from its bytes, and the rest is left. -/
theorem op_write {op : Op} (h : op.Fits withMarkers) (rest : List UInt8) :
    Source.bytes.op withMarkers (op.write ++ rest) = .ok (op, rest) := by
  simp only [op_bytes, Op.write, List.append_assoc, List.cons_append, List.nil_append,
    readWord_wordBytes (h.operand_padded_lt _), readUpTo_lastKind h.kind_le, Op.ofKind_kind]

/-- Operations that fit are read back from their bytes, and the rest is left. -/
theorem ops_write {ops : List Op} (h : ∀ op ∈ ops, op.Fits withMarkers) (rest : List UInt8) :
    Source.bytes.ops withMarkers ops.length (ops.flatMap Op.write ++ rest) = .ok (ops, rest) := by
  induction ops with
  | nil => rfl
  | cons op ops ih =>
      obtain ⟨hop, hops⟩ := List.forall_mem_cons.1 h
      rw [List.length_cons, Source.ops, List.flatMap_cons, List.append_assoc,
        bind_of_ok (op_write hop _), bind_of_ok (ih hops)]
      rfl

end Source

namespace Script

variable {withMarkers : Bool}

/-- Reading a script is drawing it from the bytes. -/
theorem script_bytes (withMarkers : Bool) (bytes : List UInt8) :
    Source.bytes.script withMarkers bytes = .ok (read withMarkers bytes) := by
  unfold read
  split
  · assumption
  · contradiction

/-- Every script that is read fits. -/
theorem fits_read (withMarkers : Bool) (bytes : List UInt8) :
    Fits withMarkers (read withMarkers bytes).1 := by
  have hcount : Source.bytes.upTo maxScriptLength bytes = .ok (readUpTo maxScriptLength bytes) :=
    rfl
  obtain ⟨ops, rest, hops, hlength, hfits⟩ :=
    Source.exists_ops withMarkers (readUpTo maxScriptLength bytes).1
      (readUpTo maxScriptLength bytes).2
  have hread : read withMarkers bytes = (ops, rest) := by
    refine Except.ok.inj ((script_bytes withMarkers bytes).symm.trans ?_)
    exact (bind_of_ok hcount _).trans hops
  rw [hread]
  exact ⟨hlength ▸ readUpTo_le _ _, hfits⟩

/-- Every script that fits is read from its bytes, whatever follows them. -/
theorem read_write {ops : List Op} (h : Fits withMarkers ops) (rest : List UInt8) :
    read withMarkers (write ops ++ rest) = (ops, rest) := by
  have hcount : Source.bytes.upTo maxScriptLength (write ops ++ rest) =
      .ok (ops.length, ops.flatMap Op.write ++ rest) := by
    rw [write, List.append_assoc]
    exact congrArg Except.ok (readUpTo_maxScriptLength h.length_le _)
  refine Except.ok.inj ((script_bytes withMarkers _).symm.trans ?_)
  rw [Source.script, bind_of_ok hcount, Source.ops_write h.fits]

/-- Missing bytes of an operand count as zero, and a missing kind as the first one. -/
example : read true [0, 2, 1, 2, 3, 4, 9, 5] = ([.mark 513 1027, .newNode], []) := by decide

end Script

/-! ### Other sources -/

namespace Source

variable {σ ε α β : Type} {source : Source σ ε} {start : List UInt8 → σ} {left : σ → List UInt8}

/-- Drawing from one source never fails, and yields what drawing from the bytes that it has left
does. -/
def Follows (left : σ → List UInt8) (x : StateT σ (Except ε) α)
    (y : StateT (List UInt8) (Except Empty) α) : Prop :=
  ∀ s, ∃ a s', x s = .ok (a, s') ∧ y (left s) = .ok (a, left s')

/-- An answer without reading is followed. -/
theorem Follows.pure (a : α) :
    Follows left (Pure.pure a : StateT σ (Except ε) α) (Pure.pure a) :=
  fun s => ⟨a, s, rfl, rfl⟩

/-- Readers in a row follow readers in a row. -/
theorem Follows.bind {x : StateT σ (Except ε) α} {y : StateT (List UInt8) (Except Empty) α}
    {f : α → StateT σ (Except ε) β} {g : α → StateT (List UInt8) (Except Empty) β}
    (hx : Follows left x y) (hf : ∀ a, Follows left (f a) (g a)) :
    Follows left (x >>= f) (y >>= g) := by
  intro s
  obtain ⟨a, t, hxs, hys⟩ := hx s
  obtain ⟨b, u, hft, hgt⟩ := hf a t
  exact ⟨b, u, by rw [bind_of_ok hxs, hft], by rw [bind_of_ok hys, hgt]⟩

/-- A source draws the numbers that are read from bytes. A number up to a bound takes as many bytes
as the bound needs, the most significant first, and is reduced modulo what the bound allows. A
number of two bytes has the least significant first. Bytes that are missing at the end are no
failure. -/
structure Spells (source : Source σ ε) (start : List UInt8 → σ) (left : σ → List UInt8) :
    Prop where
  /-- At the start all bytes are left. -/
  left_start : ∀ bytes, left (start bytes) = bytes
  /-- Numbers up to a bound that is itself a machine word. -/
  upTo : ∀ max < 2 ^ 31, Follows left (source.upTo max) (Source.bytes.upTo max)
  /-- Numbers of two bytes. -/
  word : Follows left source.word Source.bytes.word

/-- The plain source spells every list of bytes. -/
theorem spells_bytes : Source.bytes.Spells id id where
  left_start _ := rfl
  upTo _ _ _ := ⟨_, _, rfl, rfl⟩
  word _ := ⟨_, _, rfl, rfl⟩

namespace Spells

/-- Drawing an operation from a source follows the reading of its bytes. -/
theorem follows_op (h : source.Spells start left) (withMarkers : Bool) :
    Follows left (source.op withMarkers) (Source.bytes.op withMarkers) := by
  have hkind : lastKind withMarkers < 2 ^ 31 := by cases withMarkers <;> decide
  exact h.word.bind fun a => h.word.bind fun b => (h.upTo _ hkind).bind fun kind => .pure _

/-- Drawing operations from a source follows the reading of its bytes. -/
theorem follows_ops (h : source.Spells start left) (withMarkers : Bool) (count : Nat) :
    Follows left (source.ops withMarkers count) (Source.bytes.ops withMarkers count) := by
  induction count with
  | zero => exact .pure []
  | succ count ih => exact (h.follows_op withMarkers).bind fun op => ih.bind fun ops => .pure _

/-- Drawing a script from a source follows the reading of its bytes. -/
theorem follows_script (h : source.Spells start left) (withMarkers : Bool) :
    Follows left (source.script withMarkers) (Source.bytes.script withMarkers) :=
  (h.upTo maxScriptLength (by decide)).bind (h.follows_ops withMarkers)

/-- Drawing a script from bytes never fails and answers the script that is read from them. The
scripts that are answered are those that fit. -/
theorem draws_exactly (h : source.Spells start left) (withMarkers : Bool) :
    (∀ bytes, ∃ s, source.script withMarkers (start bytes) =
      .ok ((Script.read withMarkers bytes).1, s)) ∧
    ∀ ops, (∃ bytes s, source.script withMarkers (start bytes) = .ok (ops, s)) ↔
      Script.Fits withMarkers ops := by
  have hdraw : ∀ bytes, ∃ s, source.script withMarkers (start bytes) =
      .ok ((Script.read withMarkers bytes).1, s) := by
    intro bytes
    obtain ⟨ops, s, hrun, hread⟩ := h.follows_script withMarkers (start bytes)
    rw [h.left_start, Script.script_bytes] at hread
    exact ⟨s, by rw [hrun, Except.ok.inj hread]⟩
  refine ⟨hdraw, fun ops => ⟨?_, fun hfits => ?_⟩⟩
  · rintro ⟨bytes, s, hrun⟩
    obtain ⟨s', hrun'⟩ := hdraw bytes
    rw [hrun] at hrun'
    obtain rfl : ops = (Script.read withMarkers bytes).1 :=
      congrArg Prod.fst (Except.ok.inj hrun')
    exact Script.fits_read withMarkers bytes
  · obtain ⟨s, hrun⟩ := hdraw (Script.write ops ++ [])
    rw [Script.read_write hfits] at hrun
    exact ⟨_, s, hrun⟩

/-- A string that ends too early is no failure, and greatest operands and the last kind can be
spelt. -/
theorem draws_exactly_truncated :
    Source.bytes.Spells id id ∧
    (∃ s, Source.bytes.script false [0, 2, 1] = .ok ([.newNode, .newNode], s)) ∧
    ∃ bytes s, Source.bytes.script true bytes =
      .ok ([.newEdge 65535 0, .newMarker, .unmark 513 65535], s) := by
  refine ⟨spells_bytes, ?_, ((spells_bytes.draws_exactly true).2 _).2 (by decide)⟩
  have hread : (Script.read false [0, 2, 1]).1 = [.newNode, .newNode] := by decide
  rw [← hread]
  exact (spells_bytes.draws_exactly false).1 [0, 2, 1]

end Spells

end Source

end SlabGraph
