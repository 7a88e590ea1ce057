import DcpuAsm.Diagnostic
import DcpuAsm.Program

/-!
Ways to spell a source differently: all letters in lower case (`lower`), lines that end in a carriage
return and a line feed (`crlf`), and spaces in place of comments (`maskComments`). Each is a function
on text; `lower` also acts on all that holds text of the source.
-/

namespace DcpuAsm

/-! ### Lower case -/

/-- A text with its ASCII letters in lower case. -/
def lower (text : String) : String := .ofList (text.toList.map Char.toLower)

def Expression.lower : Expression → Expression
  | .identifier name => .identifier (DcpuAsm.lower name)
  | .number value => .number value
  | .addressOf inner => .addressOf inner.lower
  | .sum left right => .sum left.lower right.lower

def DataItem.lower : DataItem → DataItem
  | .string content => .string (DcpuAsm.lower content)
  | .number value => .number value

def Statement.lower : Statement → Statement
  | .label name => .label (DcpuAsm.lower name)
  | .unary mnemonic operand => .unary (DcpuAsm.lower mnemonic) operand.lower
  | .binary mnemonic destination source =>
    .binary (DcpuAsm.lower mnemonic) destination.lower source.lower
  | .data items => .data (items.map DataItem.lower)

def Program.lower (p : Program) : Program := ⟨p.statements.map Statement.lower⟩

/-- What was expected is no text of the source, and stays. -/
def Cause.lower : Cause → Cause
  | .unexpected expected found => .unexpected expected (DcpuAsm.lower found)
  | .outOfRange literal => .outOfRange (DcpuAsm.lower literal)
  | .nonHexDigit literal => .nonHexDigit (DcpuAsm.lower literal)
  | .unknownMnemonic word => .unknownMnemonic (DcpuAsm.lower word)
  | .unterminated construct expected => .unterminated construct expected
  | .trailing found => .trailing (DcpuAsm.lower found)

def Diagnostic.lower (d : Diagnostic) : Diagnostic := ⟨d.cause.lower, d.location⟩

/-! ### Line ends -/

/-- A carriage return in front of every line feed. -/
def crlf (cs : List Char) : List Char := cs.flatMap fun c => if c = '\n' then ['\r', '\n'] else [c]

/-- Lines are neither joined nor split. -/
theorem count_newline_crlf (cs : List Char) : (crlf cs).count '\n' = cs.count '\n' := by
  induction cs with
  | nil => rfl
  | cons c cs ih =>
    simp only [crlf, List.flatMap_cons, List.count_append] at ih ⊢
    by_cases h : c = '\n'
    · simp [h, ih, Nat.add_comm]
    · simp [h, ih]

/-! ### Comments -/

mutual

/-- A text with a space for each byte of a comment. Strings are left alone, and so are the line feeds
that end comments. -/
def maskComments : List Char → List Char
  | [] => []
  | c :: cs =>
    if c = ';' then ' ' :: maskComment cs
    else if c = '"' then c :: maskBehindQuote cs
    else c :: maskComments cs

/-- The same inside a comment. -/
def maskComment : List Char → List Char
  | [] => []
  | c :: cs =>
    if c = '\n' then c :: maskComments cs else List.replicate c.utf8Size ' ' ++ maskComment cs

/-- The same inside a string, which ends with its line at the latest. -/
def maskBehindQuote : List Char → List Char
  | [] => []
  | c :: cs => if c = '"' ∨ c = '\n' then c :: maskComments cs else c :: maskBehindQuote cs

end

/-- A semicolon in a string starts no comment. -/
example : maskComments ['"', ';', '"', ';', 'é', '\n'] = ['"', ';', '"', ' ', ' ', ' ', '\n'] := by
  decide

end DcpuAsm
