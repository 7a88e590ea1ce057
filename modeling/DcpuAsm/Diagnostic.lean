import DcpuAsm.Location

/-!
Why a source is refused. A `Cause` says what is wrong, with its wording in `Cause.message`, and a
`Diagnostic` adds where. While the text is being read a place is known by the text that is left there;
`Fault` is a cause at such a place, and `Fault.diagnose` turns it into a diagnostic of the whole
source.
-/

namespace DcpuAsm

/-- What has to be closed once it is open. -/
inductive Construct where
  | stringLiteral
  | addressOf
  | dataList
  deriving DecidableEq, Repr

def Construct.text : Construct → String
  | .stringLiteral => "string literal"
  | .addressOf => "address-of expression"
  | .dataList => "data list"

/-- What is wrong with a source. -/
inductive Cause where
  /-- Something else stands where a part of the grammar is due. -/
  | unexpected (expected found : String)
  /-- A numeral whose value does not fit in a machine word. -/
  | outOfRange (literal : String)
  /-- A numeral behind `0x` that holds a letter past `f`. -/
  | nonHexDigit (literal : String)
  /-- A word of three letters in neither table. -/
  | unknownMnemonic (word : String)
  | unterminated (construct : Construct) (expected : String)
  /-- Text behind the end of what was to be read. -/
  | trailing (found : String)
  deriving DecidableEq, Repr

/-- The wording of a cause. -/
def Cause.message : Cause → String
  | .unexpected expected found => "expected " ++ expected ++ ", found " ++ found
  | .outOfRange literal =>
    "numeric literal `" ++ literal ++ "` does not fit in 16 bits (expected 0..=65535)"
  | .nonHexDigit literal => "hexadecimal literal `" ++ literal ++ "` contains a non-hex digit"
  | .unknownMnemonic word => "unknown mnemonic `" ++ word ++ "`"
  | .unterminated construct expected =>
    "unterminated " ++ construct.text ++ ": expected " ++ expected
  | .trailing found => "unexpected trailing input: found " ++ found

/-- What is wrong with a source, and where. -/
structure Diagnostic where
  cause : Cause
  location : Location
  deriving DecidableEq, Repr

/-- The line, the column and the wording. -/
def Diagnostic.message (d : Diagnostic) : String := d.location.text ++ ": " ++ d.cause.message

/-! ### Faults -/

/-- A cause together with the text that is left where it lies. -/
structure Fault where
  cause : Cause
  rest : List Char
  deriving DecidableEq, Repr

/-- The front of a text in words: its first character, or what stands for it. -/
def describe : List Char → String
  | [] => "end of input"
  | '\n' :: _ => "newline"
  | c :: _ => "`" ++ .singleton c ++ "`"

theorem describe_of_ne {c : Char} (h : c ≠ '\n') (cs : List Char) :
    describe (c :: cs) = "`" ++ .singleton c ++ "`" := by
  unfold describe
  split
  · next heq => contradiction
  · next heq => exact absurd (List.cons.inj heq).1 h
  · next heq => rw [(List.cons.inj heq).1]

/-- Something else than `expected` stands at the front of the text. -/
def Fault.unexpected (expected : String) (cs : List Char) : Fault :=
  ⟨.unexpected expected (describe cs), cs⟩

/-- A construct is still open at the front of the text. -/
def Fault.unterminated (construct : Construct) (expected : String) (cs : List Char) : Fault :=
  ⟨.unterminated construct expected, cs⟩

/-- The text goes on where it should have ended. -/
def Fault.trailing (cs : List Char) : Fault := ⟨.trailing (describe cs), cs⟩

/-- The location at which the text `rest` is left of a source. -/
def locateRest (src rest : List Char) : Location :=
  locate src (byteLength src - byteLength rest)

/-- A fault as a diagnostic of the whole source. -/
def Fault.diagnose (src : List Char) (f : Fault) : Diagnostic := ⟨f.cause, locateRest src f.rest⟩

example : (Fault.unexpected "an operand" ['\n']).cause.message = "expected an operand, found newline" := by
  decide

end DcpuAsm
