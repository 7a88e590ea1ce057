import DcpuAsm.Mnemonic
import DcpuAsm.Statement
import DcpuAsm.Reader.Expression
import DcpuAsm.Reader.Trivia

/-!
Statements, read from the front of a text: labels, data directives and instructions. The word at the
front decides which it is, and a word that decides for none is refused (`unknownWord`). A data
directive looks past the trivia behind an item for a comma, and leaves that trivia where there is
none. Main statement: `statement_advances`, a statement leaves a proper end of the text.
-/

namespace DcpuAsm

/-- The text behind trivia that has to stand here. -/
def separated (expected : String) (cs : List Char) : Committed (List Char) :=
  if skipTrivia cs = cs then throw (.unexpected expected cs) else return skipTrivia cs

/-! ### Labels -/

/-- A label is a colon and a word, which may start with a digit. -/
def label : List Char → Attempt Statement
  | ':' :: cs =>
    match word? cs with
    | some (name, next) => .matched (.label name) next
    | none => .failed (.unexpected "a label name" cs)
  | _ => .noMatch

/-! ### Data directives -/

/-- One item of a data directive. -/
def dataItem (cs : List Char) : Attempt DataItem :=
  ((stringLiteral cs).map .string).orElse fun _ => (number cs).map .number

theorem dataItem_advances (cs : List Char) : (dataItem cs).Advances cs :=
  ((stringLiteral_advances cs).map _).orElse ((number_advances cs).map _)

/-- A comma leaves a data directive open. -/
def missingAfterComma (cs : List Char) : Fault :=
  .unterminated .dataList "a data item after `,`" cs

/-- The text behind a comma and the trivia on both sides of it. -/
def afterComma? (cs : List Char) : Option (List Char) :=
  match skipTrivia cs with
  | ',' :: rest => some (skipTrivia rest)
  | _ => none

theorem properEnd_of_afterComma? {cs next : List Char} (h : afterComma? cs = some next) :
    ProperEnd next cs := by
  unfold afterComma? at h
  split at h
  · next rest hrest =>
    cases h
    have hs : ',' :: rest <:+ cs := hrest ▸ skipTrivia_suffix cs
    exact (properEnd_cons ',' (skipTrivia_suffix rest)).of_suffix hs
  · contradiction

/-- The items of a data directive, one at least, with the fault for where the first is missing. -/
def dataItems (missing : Fault) (cs : List Char) : Committed (List DataItem × List Char) :=
  match _hitem : dataItem cs with
  | .noMatch => throw missing
  | .failed fault => throw fault
  | .matched item next =>
    match _hcomma : afterComma? next with
    | none => return ([item], next)
    | some rest => do
      let (items, last) ← dataItems (missingAfterComma rest) rest
      return (item :: items, last)
termination_by cs.length
decreasing_by
  exact Nat.lt_trans (properEnd_of_afterComma? _hcomma).2 (dataItem_advances cs item next _hitem).2

/-- What follows the keyword of a data directive. -/
def dataBody (cs : List Char) : Committed (Statement × List Char) := do
  let start ← separated "whitespace after `dat`" cs
  let (items, next) ← dataItems (.unexpected "a string or numeric data item" start) start
  return (.data items, next)

/-- A data directive is the keyword `dat` in any case and its items. -/
def dataDirective (cs : List Char) : Attempt Statement :=
  match identifier? cs with
  | some (word, next) => if isDataKeyword word then .ofExcept (dataBody next) else .noMatch
  | none => .noMatch

/-! ### Instructions -/

/-- The operand of an instruction that takes one. -/
def unaryOperands (mnemonic : String) (cs : List Char) : Committed (Statement × List Char) := do
  let start ← separated "whitespace after mnemonic" cs
  let (target, next) ← operand start
  return (.unary mnemonic target, next)

/-- The operands of an instruction that takes two, with a comma between them. -/
def binaryOperands (mnemonic : String) (cs : List Char) : Committed (Statement × List Char) := do
  let start ← separated "whitespace after mnemonic" cs
  let (destination, next) ← operand start
  match afterComma? next with
  | none => throw (.unexpected "`,` between operands" (skipTrivia next))
  | some rest =>
    let (source, last) ← operand rest
    return (.binary mnemonic destination source, last)

/-- What follows a mnemonic. -/
def operands : Arity → String → List Char → Committed (Statement × List Char)
  | .unary => unaryOperands
  | .binary => binaryOperands

/-- An instruction of the given arity is a mnemonic from its table and the operands. -/
def instruction (arity : Arity) (cs : List Char) : Attempt Statement :=
  match identifier? cs with
  | some (word, next) =>
    if arity? word = some arity then .ofExcept (operands arity word next) else .noMatch
  | none => .noMatch

/-- A word at the start of a statement that is none of the above. -/
def unknownWord (cs : List Char) : Attempt Statement :=
  match identifier? cs with
  | some (word, _) =>
    if word.length = 3 ∧ word.toList.all Char.isAlpha then .failed ⟨.unknownMnemonic word, cs⟩
    else .failed (.unexpected "a three-letter mnemonic" cs)
  | none => .noMatch

/-- One statement. -/
def statement (cs : List Char) : Attempt Statement :=
  (label cs).orElse fun _ => (dataDirective cs).orElse fun _ =>
    (instruction .binary cs).orElse fun _ => (instruction .unary cs).orElse fun _ => unknownWord cs

/-! ### Progress -/

theorem suffix_of_separated {expected : String} {cs next : List Char}
    (h : separated expected cs = .ok next) : next <:+ cs := by
  unfold separated at h
  split at h
  · contradiction
  · cases h; exact skipTrivia_suffix cs

theorem label_advances (cs : List Char) : (label cs).Advances cs := by
  intro s next h
  unfold label at h
  split at h
  · next ds =>
    split at h
    · next hw => cases h; exact properEnd_cons ':' (properEnd_of_word? hw).1
    · contradiction
  · contradiction

theorem dataItems_endsIn (missing : Fault) (cs : List Char) : EndsIn (dataItems missing cs) cs := by
  fun_induction dataItems missing cs with
  | case1 => intro v n h; contradiction
  | case2 => intro v n h; contradiction
  | case3 missing cs item next hitem hcomma =>
    intro v n h
    cases h
    exact (dataItem_advances cs item _ hitem).1
  | case4 missing cs item next hitem rest hcomma ih =>
    intro v n h
    obtain ⟨p, hp, h⟩ := bind_eq_ok.1 h
    cases h
    exact ((ih p.1 p.2 hp).trans (properEnd_of_afterComma? hcomma).1).trans
      (dataItem_advances cs item next hitem).1

theorem dataBody_endsIn (cs : List Char) : EndsIn (dataBody cs) cs := by
  intro s n h
  obtain ⟨start, hstart, h⟩ := bind_eq_ok.1 h
  obtain ⟨p, hp, h⟩ := bind_eq_ok.1 h
  cases h
  exact (dataItems_endsIn _ start p.1 p.2 hp).trans (suffix_of_separated hstart)

theorem dataDirective_advances (cs : List Char) : (dataDirective cs).Advances cs := by
  unfold dataDirective
  split
  · next word next hid =>
    split
    · exact (dataBody_endsIn next).ofExcept_advances (properEnd_of_identifier? hid)
    · intro v n h; contradiction
  · intro v n h; contradiction

theorem unaryOperands_endsIn (mnemonic : String) (cs : List Char) :
    EndsIn (unaryOperands mnemonic cs) cs := by
  intro s n h
  obtain ⟨start, hstart, h⟩ := bind_eq_ok.1 h
  obtain ⟨p, hp, h⟩ := bind_eq_ok.1 h
  cases h
  exact (properEnd_of_operand hp).1.trans (suffix_of_separated hstart)

theorem binaryOperands_endsIn (mnemonic : String) (cs : List Char) :
    EndsIn (binaryOperands mnemonic cs) cs := by
  intro s n h
  obtain ⟨start, hstart, h⟩ := bind_eq_ok.1 h
  obtain ⟨⟨d, mid⟩, hd, h⟩ := bind_eq_ok.1 h
  dsimp only at h
  split at h
  · contradiction
  · next rest hcomma =>
    obtain ⟨q, hq, h⟩ := bind_eq_ok.1 h
    cases h
    exact (((properEnd_of_operand hq).1.trans (properEnd_of_afterComma? hcomma).1).trans
      (properEnd_of_operand hd).1).trans (suffix_of_separated hstart)

theorem instruction_advances (arity : Arity) (cs : List Char) :
    (instruction arity cs).Advances cs := by
  unfold instruction
  split
  · next word next hid =>
    split
    · cases arity with
      | unary =>
        exact (unaryOperands_endsIn word next).ofExcept_advances (properEnd_of_identifier? hid)
      | binary =>
        exact (binaryOperands_endsIn word next).ofExcept_advances (properEnd_of_identifier? hid)
    · intro v n h; contradiction
  · intro v n h; contradiction

theorem unknownWord_advances (cs : List Char) : (unknownWord cs).Advances cs := by
  intro v n h
  unfold unknownWord at h
  split at h
  · split at h <;> contradiction
  · contradiction

theorem statement_advances (cs : List Char) : (statement cs).Advances cs :=
  (label_advances cs).orElse <| (dataDirective_advances cs).orElse <|
    (instruction_advances .binary cs).orElse <| (instruction_advances .unary cs).orElse <|
      unknownWord_advances cs

end DcpuAsm
