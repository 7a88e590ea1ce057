/-!
The mnemonics of the machine and the number of operands each one takes, `arity?`. The case of ASCII
letters does not matter. Main statement: `arity?_eq_some_iff`, a word has an arity if it is in the
table of that arity, and the tables have no word in common. `dat` is no mnemonic of either.
-/

namespace DcpuAsm

/-- The number of operands an instruction takes. -/
inductive Arity where
  | unary
  | binary
  deriving DecidableEq, Repr

/-- The mnemonics with a destination and a source. -/
def binaryMnemonics : List String :=
  ["SET", "ADD", "SUB", "MUL", "MLI", "DIV", "DVI", "MOD", "MDI", "AND", "BOR", "XOR", "SHR", "ASR",
    "SHL", "IFB", "IFC", "IFE", "IFN", "IFG", "IFA", "IFL", "IFU", "ADX", "SBX", "STI", "STD"]

/-- The mnemonics with one operand. -/
def unaryMnemonics : List String :=
  ["JSR", "INT", "IAG", "IAS", "RFI", "IAQ", "HWN", "HWQ", "HWI"]

/-- A word with its ASCII letters in upper case. -/
def upperCase (word : String) : String := .ofList (word.toList.map Char.toUpper)

/-- The arity of a mnemonic in any case, if the word is one. -/
def arity? (word : String) : Option Arity :=
  if upperCase word ∈ binaryMnemonics then some .binary
  else if upperCase word ∈ unaryMnemonics then some .unary
  else none

/-- Is the word the keyword of the data directive? -/
def isDataKeyword (word : String) : Bool := upperCase word == "DAT"

/-! ### Words and tables -/

variable {word : String} {arity : Arity}

/-- The table of an arity. -/
def Arity.mnemonics : Arity → List String
  | .unary => unaryMnemonics
  | .binary => binaryMnemonics

theorem tables_disjoint : ∀ w ∈ unaryMnemonics, w ∉ binaryMnemonics := by decide

theorem arity?_eq_some_iff : arity? word = some arity ↔ upperCase word ∈ arity.mnemonics := by
  rw [arity?]
  cases arity with
  | unary =>
    rw [Arity.mnemonics]
    constructor
    · intro h
      split at h
      · contradiction
      · split at h
        · assumption
        · contradiction
    · intro h
      rw [if_neg (tables_disjoint _ h), if_pos h]
  | binary =>
    rw [Arity.mnemonics]
    constructor
    · intro h
      split at h
      · assumption
      · split at h <;> contradiction
    · intro h
      rw [if_pos h]

theorem arity?_eq_none_iff : arity? word = none ↔
    upperCase word ∉ binaryMnemonics ∧ upperCase word ∉ unaryMnemonics := by
  rw [arity?]
  split
  · next h => simp [h]
  · next h => split <;> simp_all

theorem isDataKeyword_iff : isDataKeyword word = true ↔ upperCase word = "DAT" := beq_iff_eq

/-- The keyword of the data directive is no mnemonic. -/
theorem arity?_eq_none_of_isDataKeyword (h : isDataKeyword word = true) : arity? word = none := by
  rw [arity?, isDataKeyword_iff.1 h]
  decide

example : arity? "IfE" = some .binary ∧ arity? "hwi" = some .unary ∧ arity? "setx" = none := by decide

end DcpuAsm
