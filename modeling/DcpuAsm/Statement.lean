import DcpuAsm.Expression

/-!
Statements, one to a label, an instruction or a data directive. `Statement.text` is the canonical text
and `Statement.dataWords?` the number of memory words that a data directive fills. A string takes a
word for each character and one more. `Statement.dataWords64?` counts them as a machine of 64 bits
does.
-/

namespace DcpuAsm

/-- One element of a data directive. -/
inductive DataItem where
  /-- Raw text. No character in it is special. -/
  | string (content : String)
  | number (value : UInt16)
  deriving DecidableEq, Repr

/-- The canonical text of a data item. -/
def DataItem.text : DataItem → String
  | .string content => "\"" ++ content ++ "\""
  | .number value => wordText value

/-- The number of memory words of a data item. -/
def DataItem.words : DataItem → Nat
  | .string content => 1 + content.length
  | .number _ => 1

/-- One statement of a source. Mnemonics keep the case they were written in. -/
inductive Statement where
  | label (name : String)
  | unary (mnemonic : String) (operand : Expression)
  | binary (mnemonic : String) (destination source : Expression)
  | data (items : List DataItem)
  deriving DecidableEq, Repr

/-- The name of the shape of a statement. -/
def Statement.kind : Statement → String
  | .label _ => "label"
  | .unary _ _ => "unary"
  | .binary _ _ _ => "binary"
  | .data _ => "data"

/-- The canonical text of a statement. -/
def Statement.text : Statement → String
  | .label name => ":" ++ name
  | .unary mnemonic operand => mnemonic ++ " " ++ operand.text
  | .binary mnemonic destination source =>
    mnemonic ++ " " ++ destination.text ++ ", " ++ source.text
  | .data items => "dat " ++ ", ".intercalate (items.map DataItem.text)

/-- The number of memory words of a data directive. The size of an instruction depends on how its
operands are encoded, which is decided elsewhere. -/
def Statement.dataWords? : Statement → Option Nat
  | .data items => some (items.foldr (fun i n => i.words + n) 0)
  | _ => none

example : (Statement.data [.string "Hi", .number 0]).dataWords? = some 4 := by decide

/-! ### Counting in machine words -/

/-- The sum of two machine words of 64 bits, if it is one. -/
def add64? (m n : UInt64) : Option UInt64 :=
  if m.toNat + n.toNat < UInt64.size then some (m + n) else none

/-- The words of an item, with a check at each addition. -/
def DataItem.words64? : DataItem → Option UInt64
  | .string content => (content.toList.foldlM (fun n _ => add64? n 1) 0).bind (add64? 1)
  | .number _ => some 1

/-- The words of a data directive, added up from the first item on with a check at each addition. -/
def Statement.dataWords64? : Statement → Option UInt64
  | .data items => items.foldlM (fun sum i => i.words64?.bind (add64? sum)) 0
  | _ => none

end DcpuAsm
