import DcpuAsm.Text.Numeral
import DcpuAsm.Match

/-!
The words, numbers and strings of the language, each read from the front of a text as far as it goes.
Letters and digits are ASCII. Main statements: a match of `number` or `stringLiteral` leaves a proper
end of the text (`number_advances`, `stringLiteral_advances`), and so does a word.
-/

namespace DcpuAsm

/-! ### Words -/

/-- A non-empty run of letters and digits, and the text behind it. -/
def word? (cs : List Char) : Option (String × List Char) :=
  if (cs.takeWhile Char.isAlphanum).isEmpty then none
  else some (.ofList (cs.takeWhile Char.isAlphanum), cs.dropWhile Char.isAlphanum)

/-- A letter and the run of letters and digits that follows it, and the text behind them. -/
def identifier? : List Char → Option (String × List Char)
  | c :: cs => if c.isAlpha then word? (c :: cs) else none
  | [] => none

/-! ### Numbers -/

/-- A numeral whose digits are known to be good, where its value fits in a machine word. -/
def fitWord (value : Nat) (literal start next : List Char) : Attempt UInt16 :=
  if value < UInt16.size then .matched (.ofNat value) next
  else .failed ⟨.outOfRange (.ofList literal), start⟩

/-- The numeral behind the mark `0x`. It takes all letters and digits there are, so a letter past `f`
spoils it. -/
def hexNumber (cs : List Char) : Attempt UInt16 :=
  let digits := cs.takeWhile Char.isAlphanum
  let literal := '0' :: 'x' :: digits
  if digits.isEmpty then .failed (.unexpected "hexadecimal digits after `0x`" cs)
  else if digits.all Char.isHexDigit then
    fitWord (numeralValue 16 digits) literal ('0' :: 'x' :: cs) (cs.dropWhile Char.isAlphanum)
  else .failed ⟨.nonHexDigit (.ofList literal), '0' :: 'x' :: cs⟩

/-- A run of decimal digits. -/
def decimalNumber (cs : List Char) : Attempt UInt16 :=
  let digits := cs.takeWhile Char.isDigit
  if digits.isEmpty then .noMatch
  else fitWord (numeralValue 10 digits) digits cs (cs.dropWhile Char.isDigit)

/-- A number of 16 bits, in hexadecimal behind `0x` and in decimal otherwise. The mark is in lower
case only: `0X1` is the number zero and a word. -/
def number (cs : List Char) : Attempt UInt16 :=
  match cs with
  | '0' :: 'x' :: ds => hexNumber ds
  | _ => decimalNumber cs

/-! ### Strings -/

/-- May the character stand inside a string? -/
def isStringChar (c : Char) : Bool := c != '"' && c != '\n'

/-- The text between two quotes on one line. Nothing is escaped. -/
def stringLiteral : List Char → Attempt String
  | '"' :: cs =>
    match cs.dropWhile isStringChar with
    | '"' :: next => .matched (.ofList (cs.takeWhile isStringChar)) next
    | rest => .failed (.unterminated .stringLiteral "closing `\"` before end of line" rest)
  | _ => .noMatch

/-! ### Progress -/

/-- A run that is not empty leaves a proper end. -/
theorem properEnd_dropWhile {p : Char → Bool} {cs : List Char}
    (h : (cs.takeWhile p).isEmpty = false) : ProperEnd (cs.dropWhile p) cs := by
  refine ⟨List.dropWhile_suffix _, ?_⟩
  have hlen : (cs.takeWhile p).length ≠ 0 := by simpa using h
  have hsum := congrArg List.length (List.takeWhile_append_dropWhile (p := p) (l := cs))
  simp only [List.length_append] at hsum
  omega

theorem properEnd_of_word? {cs next : List Char} {w : String} (h : word? cs = some (w, next)) :
    ProperEnd next cs := by
  unfold word? at h
  split at h
  · contradiction
  · next hne =>
    cases h
    exact properEnd_dropWhile (by simpa using hne)

theorem properEnd_of_identifier? {cs next : List Char} {w : String}
    (h : identifier? cs = some (w, next)) : ProperEnd next cs := by
  unfold identifier? at h
  split at h
  · split at h
    · exact properEnd_of_word? h
    · contradiction
  · contradiction

theorem next_eq_of_fitWord {value : Nat} {literal start next rest : List Char} {v : UInt16}
    (h : fitWord value literal start next = .matched v rest) : rest = next := by
  unfold fitWord at h
  split at h
  · cases h; rfl
  · contradiction

theorem decimalNumber_advances (cs : List Char) : (decimalNumber cs).Advances cs := by
  intro v next h
  simp only [decimalNumber] at h
  split at h
  · contradiction
  · next hne =>
    rw [next_eq_of_fitWord h]
    exact properEnd_dropWhile (by simpa using hne)

theorem hexNumber_advances (cs : List Char) : (hexNumber cs).Advances cs := by
  intro v next h
  simp only [hexNumber] at h
  split at h
  · contradiction
  · next hne =>
    split at h
    · rw [next_eq_of_fitWord h]
      exact properEnd_dropWhile (by simpa using hne)
    · contradiction

theorem number_advances (cs : List Char) : (number cs).Advances cs := by
  intro v next h
  unfold number at h
  split at h
  · next ds => exact (hexNumber_advances ds v next h).of_suffix ⟨['0', 'x'], rfl⟩
  · exact decimalNumber_advances cs v next h

theorem stringLiteral_advances (cs : List Char) : (stringLiteral cs).Advances cs := by
  intro t next h
  unfold stringLiteral at h
  split at h
  · next ds =>
    split at h
    · next rest hrest =>
      cases h
      have hs : '"' :: next <:+ ds := hrest ▸ List.dropWhile_suffix isStringChar
      exact properEnd_cons '"' ((List.suffix_cons _ _).trans hs)
    · contradiction
  · contradiction

example : number ['0', 'x', '1', 'F', '+'] = .matched 31 ['+'] := by decide

example : number ['0', 'X', '1'] = .matched 0 ['X', '1'] := by decide

end DcpuAsm
