import DcpuAsm.Program

/-!
Listings: one line to a statement, in four columns that hold its index, its shape, its canonical text
and the memory it fills. Each column but the last is padded to its widest cell and set apart by one
space. How many columns a text takes is a matter of the terminal that shows it, so the width is a
parameter of a listing, and `CountsSpaces` is all that is known of it.
-/

namespace DcpuAsm

/-- A width of texts under which a space takes one column and keeps what stands around it apart. The
widths of two texts need not add up where one follows the other. -/
structure CountsSpaces (width : String → Nat) : Prop where
  empty : width "" = 0
  append_space : ∀ s t, width (s ++ " " ++ t) = width s + 1 + width t

/-- A line of a listing, before it is aligned. -/
structure Row where
  index : String
  kind : String
  text : String
  size : String
  deriving DecidableEq, Repr

/-- The index of a statement, in hexadecimal with four digits at least. -/
def indexText (i : Nat) : String :=
  "0x" ++ .ofList ((hexNumeral 4 i).map Char.toUpper) ++ ":"

/-- The memory a statement fills. Nothing is said of labels and instructions. -/
def sizeText (s : Statement) : String :=
  match s.dataWords? with
  | some words => toString words ++ " word(s)"
  | none => "-"

def Row.ofStatement (i : Nat) (s : Statement) : Row := ⟨indexText i, s.kind, s.text, sizeText s⟩

/-- The rows of a program, in order. -/
def Program.rows (p : Program) : List Row := p.statements.mapIdx Row.ofStatement

/-- So many spaces. -/
def spaces (n : Nat) : String := .ofList (List.replicate n ' ')

variable (width : String → Nat)

/-- The width of the widest cell of a column. -/
def columnWidth (cell : Row → String) (rows : List Row) : Nat :=
  (rows.map fun r => width (cell r)).foldr max 0

/-- A cell with spaces on its right, up to the width of its column. -/
def padTo (columns : Nat) (cell : String) : String := cell ++ spaces (columns - width cell)

/-- A line of a listing, under the widths of its first three columns. -/
def Row.line (indexWidth kindWidth textWidth : Nat) (r : Row) : String :=
  padTo width indexWidth r.index ++ " " ++ padTo width kindWidth r.kind ++ " " ++
    padTo width textWidth r.text ++ " " ++ r.size ++ "\n"

/-- The listing of a program. Each row ends its line. -/
def Program.listing (p : Program) : String :=
  let rows := p.rows
  .join (rows.map (Row.line width (columnWidth width Row.index rows)
    (columnWidth width Row.kind rows) (columnWidth width Row.text rows)))

end DcpuAsm
