import DcpuAsm.Expression
import DcpuAsm.Reader.Lexeme

/-!
Operands, read from the front of a text. An operand is a term or a sum of two terms, in brackets or
not, and holds no white space. Main statement: `operand_advances`, an operand leaves a proper end of
the text.
-/

namespace DcpuAsm

/-- A single term: an identifier or a number. -/
def term (cs : List Char) : Attempt Expression :=
  match identifier? cs with
  | some (name, next) => .matched (.identifier name) next
  | none => (number cs).map .number

/-- The second term of a sum, behind the plus sign. There is no third. -/
def sumRight (left : Expression) (cs : List Char) : Committed (Expression × List Char) := do
  let (right, next) ← (term cs).required
    (.unexpected "an identifier or number after `+`" cs)
  match next with
  | '+' :: _ => throw (.unexpected "end of expression (sums take exactly two terms)" next)
  | _ => return (.sum left right, next)

/-- A term or the sum of two. -/
def flatExpression (cs : List Char) : Attempt Expression :=
  match term cs with
  | .matched left ('+' :: next) => .ofExcept (sumRight left next)
  | m => m

/-- No term follows an opening bracket. At the end of the line the bracket counts as left open. -/
def missingInBrackets (cs : List Char) : Fault :=
  match cs with
  | [] | '\n' :: _ => .unterminated .addressOf "an identifier or number after `[`" cs
  | _ => .unexpected "an identifier or number after `[`" cs

/-- What stands between brackets, behind the opening one. -/
def bracketed (cs : List Char) : Committed (Expression × List Char) := do
  let (inner, next) ← (flatExpression cs).required (missingInBrackets cs)
  match next with
  | ']' :: rest => return (.addressOf inner, rest)
  | _ => throw (.unterminated .addressOf "`]`" next)

/-- A memory cell, given by its address in brackets. -/
def addressOf : List Char → Attempt Expression
  | '[' :: cs => .ofExcept (bracketed cs)
  | _ => .noMatch

/-- An operand, in brackets or not. -/
def expression (cs : List Char) : Attempt Expression :=
  (addressOf cs).orElse fun _ => flatExpression cs

/-- An operand that has to stand here. -/
def operand (cs : List Char) : Committed (Expression × List Char) :=
  (expression cs).required (.unexpected "an operand" cs)

/-! ### Progress -/

theorem term_advances (cs : List Char) : (term cs).Advances cs := by
  intro v next h
  unfold term at h
  split at h
  · next hid => cases h; exact properEnd_of_identifier? hid
  · exact (number_advances cs).map _ v next h

theorem sumRight_endsIn (left : Expression) (cs : List Char) : EndsIn (sumRight left cs) cs := by
  intro v next h
  obtain ⟨⟨e, mid⟩, he, h⟩ := bind_eq_ok.1 h
  dsimp only at h
  split at h
  · contradiction
  · cases h
    exact ((term_advances cs).required he).1

theorem flatExpression_advances (cs : List Char) : (flatExpression cs).Advances cs := by
  unfold flatExpression
  split
  · next left next ht =>
    have hp := term_advances cs left _ ht
    exact (sumRight_endsIn left next).ofExcept_advances (hp.of_isSuffix (List.suffix_cons _ _))
  · exact term_advances cs

theorem bracketed_endsIn (cs : List Char) : EndsIn (bracketed cs) cs := by
  intro v next h
  obtain ⟨⟨e, mid⟩, he, h⟩ := bind_eq_ok.1 h
  dsimp only at h
  split at h
  · cases h
    exact (List.suffix_cons ']' next).trans ((flatExpression_advances cs).required he).1
  · contradiction

theorem addressOf_advances (cs : List Char) : (addressOf cs).Advances cs := by
  unfold addressOf
  split
  · next ds => exact (bracketed_endsIn ds).ofExcept_advances (properEnd_cons '[' List.suffix_rfl)
  · intro v next h; contradiction

theorem expression_advances (cs : List Char) : (expression cs).Advances cs :=
  (addressOf_advances cs).orElse (flatExpression_advances cs)

theorem properEnd_of_operand {cs next : List Char} {e : Expression}
    (h : operand cs = .ok (e, next)) : ProperEnd next cs :=
  (expression_advances cs).required h

end DcpuAsm
