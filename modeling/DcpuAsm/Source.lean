import DcpuAsm.Parse

/-!
A source text seen from byte offsets. `Source.scan` runs a rule of the grammar at an offset and gives
offsets back; the other functions ask what stands there. An offset past the end, or one inside a
character, has no text behind it, so nothing is found there and nothing can go wrong.
-/

namespace DcpuAsm

/-- A source text, to be looked at from byte offsets. -/
structure Source where
  text : String
  deriving DecidableEq, Repr

namespace Source

/-- The characters of the source. -/
def chars (s : Source) : List Char := s.text.toList

/-- The text from an offset on. It is empty past the end and inside a character. -/
def restAt (s : Source) (pos : Nat) : List Char := fromByte pos s.chars

/-- The offset at which a text is left. -/
def offsetOf (s : Source) (rest : List Char) : Nat := byteLength s.chars - byteLength rest

/-- The location of an offset. -/
def locationAt (s : Source) (pos : Nat) : Location := locate s.chars pos

/-- Does the source end at an offset or before it? -/
def isAtEnd (s : Source) (pos : Nat) : Bool := byteLength s.chars ≤ pos

/-- The character at an offset. -/
def peek? (s : Source) (pos : Nat) : Option Char := (s.restAt pos).head?

/-- Does the text at an offset start with a character? -/
def startsWith (s : Source) (pos : Nat) (c : Char) : Bool := s.peek? pos == some c

/-- The offset behind the trivia at an offset, which is the offset itself where there is none. -/
def skipTriviaAt (s : Source) (pos : Nat) : Nat :=
  pos + (byteLength (s.restAt pos) - byteLength (skipTrivia (s.restAt pos)))

/-- The identifier at an offset. -/
def identifierAt? (s : Source) (pos : Nat) : Option String :=
  (identifier? (s.restAt pos)).map Prod.fst

/-- The word at an offset. -/
def wordAt? (s : Source) (pos : Nat) : Option String := (word? (s.restAt pos)).map Prod.fst

/-- What stands at an offset, in words. -/
def describeAt (s : Source) (pos : Nat) : String := describe (s.restAt pos)

/-- Something else than `expected` stands at an offset. -/
def unexpectedAt (s : Source) (pos : Nat) (expected : String) : Diagnostic :=
  ⟨.unexpected expected (s.describeAt pos), s.locationAt pos⟩

/-- Runs a rule at an offset, and gives the offset behind its match or the diagnostic of its fault. -/
def scan {α : Type} (s : Source) (rule : List Char → Attempt α) (pos : Nat) :
    Match Nat Diagnostic α :=
  match rule (s.restAt pos) with
  | .matched value next => .matched value (s.offsetOf next)
  | .noMatch => .noMatch
  | .failed fault => .failed (fault.diagnose s.chars)

/-- The number at an offset. -/
def numberAt (s : Source) (pos : Nat) : Match Nat Diagnostic UInt16 := s.scan number pos

/-- The string at an offset, without its quotes. -/
def stringLiteralAt (s : Source) (pos : Nat) : Match Nat Diagnostic String :=
  s.scan stringLiteral pos

example : (Source.mk "é 0x1F").numberAt 3 = .matched 31 7 := by decide +kernel

/-- Nothing is found inside a character. -/
example : (Source.mk "é").peek? 1 = none ∧ (Source.mk "é").locationAt 1 = ⟨0, 1, 1⟩ := by
  decide +kernel

end Source

end DcpuAsm
