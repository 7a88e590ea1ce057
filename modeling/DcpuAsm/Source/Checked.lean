import DcpuAsm.Source

/-!
The scanner as it runs on a machine, over byte offsets of 64 bits. Parts are cut out of the text
between offsets: a sum of offsets may be too large, a difference may fall below zero, and a cut may lie
out of range or go through a character. Each of these is a `Trap`, and the computations that may run
into one are `Checked`. Lexemes are found by patterns that tell the length of their match in bytes, as
a pattern engine does. The functions carry the names of those in `Source`, which have no checks.
-/

namespace DcpuAsm

/-- What stops a machine. -/
inductive Trap where
  /-- A sum of offsets that takes more than 64 bits. -/
  | overflow
  /-- A difference of offsets below zero. -/
  | underflow
  /-- A cut that is out of range or goes through a character. -/
  | slice
  deriving DecidableEq, Repr

/-- A computation that may trap. -/
abbrev Checked := Except Trap

/-! ### Patterns -/

/-- A pattern is looked for at the front of a text, and a match is known by its length in bytes. -/
abbrev Pattern := List Char → Option Nat

namespace Pattern

/-- White space and comments. They match everywhere, if only with the empty text. -/
def trivia : Pattern := fun cs => some (byteLength cs - byteLength (skipTrivia cs))

/-- A run of characters of a class, with one at least. -/
def run (p : Char → Bool) : Pattern := fun cs =>
  if (cs.takeWhile p).isEmpty then none else some (byteLength (cs.takeWhile p))

/-- A letter and the letters and digits behind it. -/
def identifier : Pattern
  | c :: cs =>
    if c.isAlpha then some (c.utf8Size + byteLength (cs.takeWhile Char.isAlphanum)) else none
  | [] => none

/-- The mark `0x` and the letters and digits behind it, of which there may be none. -/
def hexNumeral : Pattern
  | '0' :: 'x' :: ds => some (2 + byteLength (ds.takeWhile Char.isAlphanum))
  | _ => none

/-- A text between two quotes on one line. -/
def quoted : Pattern
  | '"' :: cs =>
    match cs.dropWhile isStringChar with
    | '"' :: _ => some (1 + byteLength (cs.takeWhile isStringChar) + 1)
    | _ => none
  | _ => none

end Pattern

/-! ### The scanner with checks -/

namespace Checked

/-- The sum of two offsets. -/
def add (m n : Nat) : Checked Nat := if m + n < UInt64.size then .ok (m + n) else .error .overflow

/-- The difference of two offsets. -/
def sub (m n : Nat) : Checked Nat := if n ≤ m then .ok (m - n) else .error .underflow

/-- The part of a text from one offset up to another. -/
def slice (i j : Nat) (cs : List Char) : Checked (List Char) :=
  if i ≤ j ∧ IsBoundary cs i ∧ IsBoundary cs j then .ok (bytesBetween i j cs) else .error .slice

/-- A character of two bytes is not cut. -/
example : (slice 0 2 ['é', 'x']).toOption = some ['é'] ∧ (slice 1 3 ['é', 'x']).toOption = none := by
  decide

/-- The last boundary up to an offset, found by going back byte by byte. -/
def roundDown (cs : List Char) : Nat → Checked Nat
  | 0 => if IsBoundary cs 0 then .ok 0 else .error .underflow
  | n + 1 => if IsBoundary cs (n + 1) then .ok (n + 1) else roundDown cs n

variable (s : Source) (pos : Nat)

/-- The text from an offset on, or the empty text where it cannot be cut out. -/
def restAt : List Char :=
  match slice pos (byteLength s.chars) s.chars with
  | .ok rest => rest
  | .error _ => []

/-- The character at an offset. -/
def peek? : Option Char := (restAt s pos).head?

/-- Does the text at an offset start with a character? -/
def startsWith (c : Char) : Bool := peek? s pos == some c

/-- What stands at an offset, in words. -/
def describeAt : String :=
  match peek? s pos with
  | none => "end of input"
  | some '\n' => "newline"
  | some c => "`" ++ .singleton c ++ "`"

/-- The location of an offset, which is moved back to a boundary first. -/
def locationAt : Checked Location := do
  let offset ← roundDown s.chars (min pos (byteLength s.chars))
  let before ← slice 0 offset s.chars
  let line ← add (before.count '\n') 1
  let column ← add (before.reverse.takeWhile (· ≠ '\n')).length 1
  return { offset, line, column }

/-- A cause, at the location of an offset. -/
def errorAt (cause : Cause) : Checked Diagnostic := do
  return { cause, location := ← locationAt s pos }

/-- Something else than `expected` stands at an offset. -/
def unexpectedAt (expected : String) : Checked Diagnostic :=
  errorAt s pos (.unexpected expected (describeAt s pos))

/-- The offset behind the trivia at an offset. -/
def skipTriviaAt : Checked Nat :=
  match Pattern.trivia (restAt s pos) with
  | some n => add pos n
  | none => .ok pos

/-- The text of a match at an offset. -/
def matchedAt? (pattern : Pattern) : Checked (Option String) :=
  match pattern (restAt s pos) with
  | some n => do
    let text ← slice 0 n (restAt s pos)
    return some (.ofList text)
  | none => .ok none

/-- The identifier at an offset. -/
def identifierAt? : Checked (Option String) := matchedAt? s pos Pattern.identifier

/-- The word at an offset. -/
def wordAt? : Checked (Option String) := matchedAt? s pos (Pattern.run Char.isAlphanum)

/-- A numeral at an offset whose digits are known to be good. -/
def numeralAt (base : Nat) (literal digits : List Char) :
    Checked (Match Nat Diagnostic UInt16) :=
  match accumulate? base digits with
  | some value => do return .matched value (← add pos (byteLength literal))
  | none => do return .failed (← errorAt s pos (.outOfRange (.ofList literal)))

/-- A numeral at an offset that starts with the mark `0x`. -/
def hexNumberAt (literal digits : List Char) : Checked (Match Nat Diagnostic UInt16) :=
  if digits.isEmpty then do
    let digitsStart ← add pos 2
    return .failed (← unexpectedAt s digitsStart "hexadecimal digits after `0x`")
  else if digits.all Char.isHexDigit then
    numeralAt s pos 16 literal digits
  else do
    return .failed (← errorAt s pos (.nonHexDigit (.ofList literal)))

/-- The number at an offset. -/
def numberAt : Checked (Match Nat Diagnostic UInt16) :=
  match Pattern.hexNumeral (restAt s pos) with
  | some n => do
    let literal ← slice 0 n (restAt s pos)
    let digits ← slice 2 (byteLength literal) literal
    hexNumberAt s pos literal digits
  | none =>
    match Pattern.run Char.isDigit (restAt s pos) with
    | some n => do
      let literal ← slice 0 n (restAt s pos)
      numeralAt s pos 10 literal literal
    | none => .ok .noMatch

/-- The string at an offset. If its closing quote is missing, it is open at the end of the line. -/
def stringLiteralAt : Checked (Match Nat Diagnostic String) :=
  if startsWith s pos '"' then
    match Pattern.quoted (restAt s pos) with
    | some n => do
      let text ← slice 0 n (restAt s pos)
      let last ← sub (byteLength text) 1
      let content ← slice 1 last text
      return .matched (.ofList content) (← add pos n)
    | none => do
      let body ← slice 1 (byteLength (restAt s pos)) (restAt s pos)
      let lineEnd ← add (← add pos 1) (byteLength (body.takeWhile (· ≠ '\n')))
      return .failed (← errorAt s lineEnd
        (.unterminated .stringLiteral "closing `\"` before end of line"))
  else .ok .noMatch

end Checked

end DcpuAsm
