import DcpuAsm.Mnemonic
import DcpuAsm.Program
import DcpuAsm.Text.Blank

/-!
The grammar of the language as relations, apart from how text is read. Nothing here is greedy and no
alternative has a rank: a text may be cut in any way that the rules allow. Where what follows matters
(a comment lasts to the end of its line) a rule relates a text to what is left of it. The whole is
`Derives`, which relates a source to its statements.
-/

namespace DcpuAsm.Grammar

/-! ### Words and numbers -/

/-- A non-empty run of letters and digits. -/
def IsWord (w : List Char) : Prop := w ≠ [] ∧ ∀ c ∈ w, c.isAlphanum = true

/-- A letter with letters and digits behind it. -/
def IsIdentifier (w : List Char) : Prop := IsWord w ∧ ∃ c cs, w = c :: cs ∧ c.isAlpha = true

/-- A numeral and the machine word it stands for. A value past 16 bits has no numeral. -/
inductive IsNumber : List Char → UInt16 → Prop where
  | decimal {digits : List Char} {value : UInt16} (hne : digits ≠ [])
      (hdigits : ∀ c ∈ digits, c.isDigit = true)
      (hvalue : numeralValue 10 digits = value.toNat) : IsNumber digits value
  | hexadecimal {digits : List Char} {value : UInt16} (hne : digits ≠ [])
      (hdigits : ∀ c ∈ digits, c.isHexDigit = true)
      (hvalue : numeralValue 16 digits = value.toNat) : IsNumber ('0' :: 'x' :: digits) value

/-! ### Operands -/

/-- A single term. -/
inductive IsTerm : List Char → Expression → Prop where
  | identifier {w : List Char} (h : IsIdentifier w) : IsTerm w (.identifier (.ofList w))
  | number {w : List Char} {value : UInt16} (h : IsNumber w value) : IsTerm w (.number value)

/-- A term, or two of them around a plus sign. -/
inductive IsFlat : List Char → Expression → Prop where
  | term {w : List Char} {e : Expression} (h : IsTerm w e) : IsFlat w e
  | sum {v w : List Char} {l r : Expression} (hl : IsTerm v l) (hr : IsTerm w r) :
      IsFlat (v ++ '+' :: w) (.sum l r)

/-- An operand, in brackets or not. -/
inductive IsOperand : List Char → Expression → Prop where
  | flat {w : List Char} {e : Expression} (h : IsFlat w e) : IsOperand w e
  | addressOf {w : List Char} {e : Expression} (h : IsFlat w e) :
      IsOperand ('[' :: w ++ [']']) (.addressOf e)

/-- One item of a data directive. -/
inductive IsItem : List Char → DataItem → Prop where
  | string {content : List Char} (hquote : '"' ∉ content) (hline : '\n' ∉ content) :
      IsItem ('"' :: content ++ ['"']) (.string (.ofList content))
  | number {w : List Char} {value : UInt16} (h : IsNumber w value) : IsItem w (.number value)

/-! ### Trivia -/

/-- Trivia may stand in front of what is left. A comment lasts up to a line feed or the end. -/
inductive Trivia : List Char → List Char → Prop where
  | none {rest : List Char} : Trivia rest rest
  | blank {c : Char} {cs rest : List Char} (hc : isBlank c = true) (h : Trivia cs rest) :
      Trivia (c :: cs) rest
  | comment {body cs rest : List Char} (hbody : '\n' ∉ body) (hend : cs = [] ∨ cs.head? = some '\n')
      (h : Trivia cs rest) : Trivia (';' :: body ++ cs) rest

/-- Trivia that is not empty. -/
def Gap (cs rest : List Char) : Prop := Trivia cs rest ∧ rest ≠ cs

/-! ### Statements -/

/-- Data items with commas between them, and what is left behind the last. -/
inductive Items : List Char → List DataItem → List Char → Prop where
  | one {w rest : List Char} {i : DataItem} (h : IsItem w i) : Items (w ++ rest) [i] rest
  | more {w a b c rest : List Char} {i : DataItem} {is : List DataItem} (h : IsItem w i)
      (hbefore : Trivia a (',' :: b)) (hafter : Trivia b c) (hs : Items c is rest) :
      Items (w ++ a) (i :: is) rest

/-- A statement at the front of a text, and what is left behind it. Keywords and mnemonics are looked
up in upper case. -/
inductive Line : List Char → Statement → List Char → Prop where
  | label {w rest : List Char} (h : IsWord w) : Line (':' :: w ++ rest) (.label (.ofList w)) rest
  | data {k a b rest : List Char} {is : List DataItem} (hk : upperCase (.ofList k) = "DAT")
      (hgap : Gap a b) (hs : Items b is rest) : Line (k ++ a) (.data is) rest
  | unary {m a w rest : List Char} {e : Expression} (hm : upperCase (.ofList m) ∈ unaryMnemonics)
      (hgap : Gap a (w ++ rest)) (he : IsOperand w e) :
      Line (m ++ a) (.unary (.ofList m) e) rest
  | binary {m a v b c w rest : List Char} {d e : Expression}
      (hm : upperCase (.ofList m) ∈ binaryMnemonics) (hgap : Gap a (v ++ b)) (hd : IsOperand v d)
      (hbefore : Trivia b (',' :: c)) (hafter : Trivia c (w ++ rest)) (he : IsOperand w e) :
      Line (m ++ a) (.binary (.ofList m) d e) rest

/-- Statements one behind the other, with gaps between them. -/
inductive Lines : List Char → List Statement → Prop where
  | nil : Lines [] []
  | last {cs mid : List Char} {s : Statement} (h : Line cs s mid) (htail : Trivia mid []) :
      Lines cs [s]
  | cons {cs mid rest : List Char} {s t : Statement} {ss : List Statement} (h : Line cs s mid)
      (hgap : Gap mid rest) (hs : Lines rest (t :: ss)) : Lines cs (s :: t :: ss)

/-- The same, with the texts that are left where the statements start. -/
inductive LinesAt : List Char → List Statement → List (List Char) → Prop where
  | nil : LinesAt [] [] []
  | last {cs mid : List Char} {s : Statement} (h : Line cs s mid) (htail : Trivia mid []) :
      LinesAt cs [s] [cs]
  | cons {cs mid rest : List Char} {s t : Statement} {ss : List Statement}
      {starts : List (List Char)} (h : Line cs s mid) (hgap : Gap mid rest)
      (hs : LinesAt rest (t :: ss) starts) : LinesAt cs (s :: t :: ss) (cs :: starts)

/-- A source and the statements it stands for. -/
def Derives (src : List Char) (ss : List Statement) : Prop :=
  ∃ rest, Trivia src rest ∧ Lines rest ss

/-! ### Laws of trivia -/

theorem Trivia.suffix {cs rest : List Char} (h : Trivia cs rest) : rest <:+ cs := by
  induction h with
  | none => exact List.suffix_rfl
  | blank _ _ ih => exact ih.trans (List.suffix_cons _ _)
  | @comment body cs rest _ _ _ ih => exact ih.trans ⟨';' :: body, rfl⟩

theorem Trivia.trans {cs mid rest : List Char} (h : Trivia cs mid) (hr : Trivia mid rest) :
    Trivia cs rest := by
  induction h with
  | none => exact hr
  | blank hc _ ih => exact .blank hc (ih hr)
  | comment hbody hend _ ih => exact .comment hbody hend (ih hr)

/-! ### What is left -/

theorem Gap.blank {c : Char} {cs rest : List Char} (hc : isBlank c = true) (h : Trivia cs rest) :
    Gap (c :: cs) rest := by
  refine ⟨.blank hc h, fun heq => ?_⟩
  have hle := h.suffix.length_le
  rw [heq, List.length_cons] at hle
  exact Nat.not_succ_le_self _ hle

theorem Gap.length_lt {cs rest : List Char} (h : Gap cs rest) : rest.length < cs.length :=
  Nat.lt_of_le_of_ne h.1.suffix.length_le fun hlen => h.2 (h.1.suffix.eq_of_length hlen)

/-- A comma may stand between trivia. -/
theorem Trivia.suffix_of_comma {a b c : List Char} (hbefore : Trivia a (',' :: b))
    (hafter : Trivia b c) : c <:+ a :=
  (hafter.suffix.trans (List.suffix_cons ',' b)).trans hbefore.suffix

theorem Items.suffix {cs rest : List Char} {items : List DataItem} (h : Items cs items rest) :
    rest <:+ cs := by
  induction h with
  | one _ => exact List.suffix_append ..
  | more _ hbefore hafter _ ih =>
    exact (ih.trans (hbefore.suffix_of_comma hafter)).trans (List.suffix_append ..)

theorem Line.suffix {cs rest : List Char} {s : Statement} (h : Line cs s rest) : rest <:+ cs := by
  cases h with
  | label _ => exact List.suffix_append ..
  | data _ hgap hs => exact (hs.suffix.trans hgap.1.suffix).trans (List.suffix_append ..)
  | unary _ hgap _ =>
    exact ((List.suffix_append ..).trans hgap.1.suffix).trans (List.suffix_append ..)
  | binary _ hgap _ hbefore hafter _ =>
    have hoperand := (List.suffix_append ..).trans (hbefore.suffix_of_comma hafter)
    exact ((hoperand.trans (List.suffix_append ..)).trans hgap.1.suffix).trans
      (List.suffix_append ..)

/-! ### Places of statements -/

theorem LinesAt.lines {cs : List Char} {ss : List Statement} {starts : List (List Char)}
    (h : LinesAt cs ss starts) : Lines cs ss := by
  induction h with
  | nil => exact .nil
  | last hl htail => exact .last hl htail
  | cons hl hgap _ ih => exact .cons hl hgap ih

end DcpuAsm.Grammar
