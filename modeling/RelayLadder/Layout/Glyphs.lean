/-
  The drawings of single instructions.

  Each glyph starts with a wire from the instruction's left end and says where its wire goes on at
  the right.  Contacts and coils have a fixed size; a box grows with the number of its operands.
-/
import RelayLadder.Layout.Config
import RelayLadder.Layout.Diagram

namespace RelayLadder.Layout

variable {α : Type} [Scalar α]

/-! ## Building blocks -/

/-- A wire. -/
def wire (x1 y1 x2 y2 : α) : Primitive α := .line ⟨x1, y1, x2, y2, .wire, 2⟩

/-- A connector of a branch. -/
def connector (x1 y1 x2 y2 : α) : Primitive α := .line ⟨x1, y1, x2, y2, .branch, 2⟩

/-- A stroke of a glyph. -/
def stroke (x1 y1 x2 y2 : α) : Primitive α := .line ⟨x1, y1, x2, y2, .glyph, 2⟩

/-- A power rail. -/
def powerRail (x y1 y2 : α) : Primitive α := .line ⟨x, y1, x, y2, .rail, 3⟩

/-- The text of an operand. -/
def operandLabel (x y : α) (text : String) (size : α) : Primitive α :=
  .label ⟨x, y, text, size, .middle, false, true⟩

/-- The text of a mnemonic, or of a letter that stands for it. -/
def titleLabel (x y : α) (text : String) (size : α) : Primitive α :=
  .label ⟨x, y, text, size, .middle, true, false⟩

/-- All operand values in one text. -/
def operandText (i : Instruction) : String := String.intercalate "," i.values

/-! ## Glyphs -/

/-- What is drawn for an instruction, the area that belongs to it, and where its wire goes on. -/
structure Sketch (α : Type) where
  primitives : List (Primitive α)
  bounds : Rect α
  railOut : α

/-- A contact: two bars, with a stroke across them if it is normally closed. -/
def drawContact (i : Instruction) (closed : Bool) (x y : α) : Sketch α where
  primitives :=
    [wire x y (x + 30) y,
     stroke (x + 30) (y - 15) (x + 30) (y + 15),
     stroke (x + 45) (y - 15) (x + 45) (y + 15)] ++
    (if closed then [stroke (x + 30) (y + 15) (x + 45) (y - 15)] else []) ++
    [operandLabel (x + 75 / 2) (y - 25) (operandText i) 11]
  bounds := ⟨x + 25, y - 35, 25, 55⟩
  railOut := x + 45

/-- The letter in a coil that latches or unlatches. -/
def coilLetter : Glyph → Option String
  | .coilLatch => some "L"
  | .coilUnlatch => some "U"
  | _ => none

/-- A coil: a circle between two broken bars, with a letter if it latches or unlatches. -/
def drawCoil (i : Instruction) (glyph : Glyph) (x y : α) : Sketch α where
  primitives :=
    [wire x y (x + 30) y,
     stroke (x + 30) (y - 15) (x + 30) (y - 10),
     stroke (x + 30) (y + 10) (x + 30) (y + 15),
     stroke (x + 45) (y - 15) (x + 45) (y - 10),
     stroke (x + 45) (y + 10) (x + 45) (y + 15),
     .circle ⟨x + 75 / 2, y, 10⟩ .glyph] ++
    ((coilLetter glyph).toList.map fun letter => titleLabel (x + 75 / 2) (y + 4) letter 11) ++
    [operandLabel (x + 75 / 2) (y - 25) (operandText i) 11]
  bounds := ⟨x + 25, y - 35, 25, 55⟩
  railOut := x + 45

/-- The height of a box with `n` operands. -/
def boxHeight (n : Nat) : α := Scalar.greatest 50 (22 + 13 * (n : α))

/-- A box in a cell of the given width: the mnemonic with the operands below it. -/
def drawBox (i : Instruction) (x y cell : α) : Sketch α :=
  let left := x + 20
  let width := cell - 40
  let height : α := boxHeight i.values.length
  let top := y - height / 2
  let center := left + width / 2
  let frame : Rect α := ⟨left, top, width, height⟩
  { primitives :=
      [wire x y left y, .rect frame .glyph, titleLabel center (top + 15) i.mnemonic 12] ++
      i.values.mapIdx fun k value => operandLabel center (top + 29 + 13 * (k : α)) value 11
    bounds := frame
    railOut := left + width }

/-- A small box with the mnemonic, and the operands above it. -/
def drawGeneric (i : Instruction) (x y : α) : Sketch α :=
  let left := x + 20
  let width : α := 70
  let center := left + width / 2
  { primitives :=
      [wire x y left y, .rect ⟨left, y - 15, width, 30⟩ .glyph,
       titleLabel center (y + 5) i.mnemonic 11] ++
      (if i.values.isEmpty then [] else [operandLabel center (y - 25) (operandText i) 10])
    bounds := ⟨left, y - 35, width, 50⟩
    railOut := left + width }

/-! ## Instructions -/

/-- The glyph of an instruction. -/
def glyphOf (i : Instruction) : Glyph := (lookup i.mnemonic).glyph

/-- The width that an instruction takes on its rail. -/
def cellWidth (c : Config α) (i : Instruction) : α :=
  match glyphOf i with
  | .contact | .contactClosed | .coil | .coilLatch | .coilUnlatch => c.contactCell
  | .box => c.boxCell
  | .generic => c.genericCell

/-- Draws an instruction whose left end is at `(x, y)`. -/
def drawInstruction (c : Config α) (i : Instruction) (x y : α) : Sketch α :=
  match glyphOf i with
  | .contact => drawContact i false x y
  | .contactClosed => drawContact i true x y
  | .coil => drawCoil i .coil x y
  | .coilLatch => drawCoil i .coilLatch x y
  | .coilUnlatch => drawCoil i .coilUnlatch x y
  | .box => drawBox i x y (cellWidth c i)
  | .generic => drawGeneric i x y

end RelayLadder.Layout
