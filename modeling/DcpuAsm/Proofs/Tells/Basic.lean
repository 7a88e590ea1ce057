import DcpuAsm.Mnemonic
import DcpuAsm.Grammar
import DcpuAsm.Proofs.Reads.Data
import DcpuAsm.Proofs.Steps

/-!
What a cause says of the place where it lies. `Cause.HoldsAt before rest` spells it out for a place
with `before` in front of it and `rest` behind it, in terms of the text and the grammar alone. A
`Site` is a condition on both sides of a place, `Leads P step Q` says that a step over the text
leads from places of one kind to places of another, and `Tells P faults` that the faults of a text
that starts at such a place hold where they lie. Main statements: faults behind a step tell the
truth if they do where the step leads (`Tells.behind`), and a kind of place that each step keeps is
kept by any number of steps (`Leads.many`).
-/

namespace DcpuAsm

variable {ι : Type} {c : Char} {before cs next rest : List Char}

/-! ### What a cause says -/

/-- The words for what stands at the front of a text: its end, a line feed or another character. -/
structure Describes (found : String) (rest : List Char) : Prop where
  end_iff : found = "end of input" ↔ rest = []
  newline_iff : found = "newline" ↔ rest.head? = some '\n'
  quoted : ∀ c, rest.head? = some c → c ≠ '\n' → found = "`" ++ .singleton c ++ "`"

/-- No word runs across the place. -/
def WordEdge (before rest : List Char) : Prop :=
  Stops Char.isAlphanum before.reverse ∨ Stops Char.isAlphanum rest

/-- The line is over, or the text. -/
def AtLineEnd (rest : List Char) : Prop := rest = [] ∨ rest.head? = some '\n'

/-- There is a quote in front of the place, and no other one or line feed behind that. -/
def InString (before : List Char) : Prop :=
  ∃ front body, before = front ++ '"' :: body ∧ '"' ∉ body ∧ '\n' ∉ body

/-- An opening bracket stands right in front of the place. -/
def BehindBracket (before _rest : List Char) : Prop := ∃ front, before = front ++ ['[']

/-- An opening bracket and a term or a sum stand right in front of the place. -/
def InBrackets (before _rest : List Char) : Prop :=
  ∃ front w e, before = front ++ '[' :: w ∧ Grammar.IsFlat w e

/-- A comma stands in front of the place, with trivia between them at most. -/
def BehindComma (before rest : List Char) : Prop :=
  ∃ front gap, before = front ++ ',' :: gap ∧ Grammar.Trivia (gap ++ rest) rest

/-- A numeral at the front of the text, taken as far as it goes, whose value is past 16 bits. -/
inductive TooLarge : List Char → List Char → Prop where
  | decimal {digits rest : List Char} (hne : digits ≠ [])
      (hrun : rest.takeWhile Char.isDigit = digits) (hbig : 65535 < numeralValue 10 digits) :
      TooLarge digits rest
  | hexadecimal {digits rest : List Char} (hne : digits ≠ [])
      (hrun : rest.takeWhile Char.isAlphanum = digits) (hhex : ∀ c ∈ digits, c.isHexDigit = true)
      (hbig : 65535 < numeralValue 16 digits) :
      TooLarge ('0' :: 'x' :: digits) ('0' :: 'x' :: rest)

/-- A numeral behind the mark `0x` at the front of the text, taken as far as it goes, with a letter in
it that is no digit. -/
def Misspelt (literal rest : List Char) : Prop :=
  ∃ ds, rest = '0' :: 'x' :: ds ∧ literal = '0' :: 'x' :: ds.takeWhile Char.isAlphanum ∧
    ∃ c ∈ ds.takeWhile Char.isAlphanum, c.isAlpha = true ∧ c.isHexDigit = false

/-- The word at the front of the text, taken as far as it goes, is three letters that mean nothing. -/
structure Unknown (word : String) (rest : List Char) : Prop where
  run : rest.takeWhile Char.isAlphanum = word.toList
  three_letters : word.toList.length = 3 ∧ ∀ c ∈ word.toList, c.isAlpha = true
  not_mnemonic : upperCase word ∉ binaryMnemonics ∧ upperCase word ∉ unaryMnemonics
  not_keyword : upperCase word ≠ "DAT"

/-- What a cause says is so at a place of the text. -/
def Cause.HoldsAt (before rest : List Char) : Cause → Prop
  | .unexpected _ found => Describes found rest
  | .outOfRange literal => WordEdge before rest ∧ TooLarge literal.toList rest
  | .nonHexDigit literal => WordEdge before rest ∧ Misspelt literal.toList rest
  | .unknownMnemonic word => WordEdge before rest ∧ Unknown word rest
  | .unterminated .stringLiteral _ => InString before ∧ AtLineEnd rest
  | .unterminated .addressOf _ =>
    (BehindBracket before rest ∧ AtLineEnd rest) ∨
      (InBrackets before rest ∧ Stops (· == ']') rest)
  | .unterminated .dataList _ => BehindComma before rest ∧ Stops startsItem rest
  | .trailing found => Describes found rest

/-- A character in quotation marks is no word of more letters. -/
theorem quoted_ne {s : String} (h : s.length ≠ 3) : "`" ++ String.singleton c ++ "`" ≠ s := by
  rintro rfl
  have hmark : "`".length = 1 := by decide
  exact h (by rw [String.length_append, String.length_append, String.length_singleton, hmark])

theorem describes_describe (cs : List Char) : Describes (describe cs) cs := by
  unfold describe
  split
  · exact ⟨by simp, by simp, by simp⟩
  · exact ⟨by simp, by simp, by simp⟩
  · next c ds hne =>
    have hc : c ≠ '\n' := hne
    refine ⟨⟨fun h => absurd h (quoted_ne (by decide)), nofun⟩,
      ⟨fun h => absurd h (quoted_ne (by decide)), ?_⟩, ?_⟩
    · rw [List.head?_cons, Option.some.injEq]
      exact fun h => absurd h hc
    · rintro d hd -
      obtain rfl : c = d := by simpa using hd
      rfl

/-! ### Places -/

/-- A condition on what stands in front of a place and on what stands behind it. -/
abbrev Site := List Char → List Char → Prop

/-- No condition. -/
def Anywhere : Site := fun _ _ => True

/-- A step over the text leads from places of one kind to places of another. -/
def Leads (P : Site) (step : List Char → List Char → Prop) (Q : Site) : Prop :=
  ∀ ⦃before cs next⦄, P before cs → step cs next → ∃ u, cs = u ++ next ∧ Q (before ++ u) next

/-- The faults of a text that starts at a place of the kind hold where they lie. -/
def Tells (P : Site) (faults : List Char → Fault → Prop) : Prop :=
  ∀ ⦃before cs fault⦄, P before cs → faults cs fault →
    ∃ u, cs = u ++ fault.rest ∧ fault.cause.HoldsAt (before ++ u) fault.rest

variable {P P' Q Q' : Site} {step step₁ step₂ : List Char → List Char → Prop}
variable {faults faults₁ faults₂ : List Char → Fault → Prop}

theorem Leads.mono (h : Leads P step Q) (hP : ∀ {b r}, P' b r → P b r)
    (hQ : ∀ {b r}, Q b r → Q' b r) : Leads P' step Q' :=
  fun _ _ _ hp hs => let ⟨u, hu, hq⟩ := h (hP hp) hs; ⟨u, hu, hQ hq⟩

theorem Leads.comp (h₁ : Leads P step₁ Q) (h₂ : Leads Q step₂ Q') :
    Leads P (fun cs next => ∃ mid, step₁ cs mid ∧ step₂ mid next) Q' := by
  rintro before cs next hp ⟨mid, hs₁, hs₂⟩
  obtain ⟨u, rfl, hq⟩ := h₁ hp hs₁
  obtain ⟨v, rfl, hq'⟩ := h₂ hq hs₂
  exact ⟨u ++ v, by rw [List.append_assoc], by rwa [← List.append_assoc]⟩

theorem Leads.some {step : ι → List Char → List Char → Prop} (h : ∀ i, Leads P (step i) Q) :
    Leads P (fun cs next => ∃ i, step i cs next) Q :=
  fun _ _ _ hp ⟨i, hs⟩ => h i hp hs

/-- What one step keeps any number of steps keeps. -/
theorem Leads.many (h : Leads P step P) : Leads P (Relation.ReflTransGen step) P := by
  intro before cs next hp hs
  induction hs with
  | refl => exact ⟨[], rfl, by rwa [List.append_nil]⟩
  | tail _ hone ih =>
    obtain ⟨u, rfl, hq⟩ := ih
    obtain ⟨v, rfl, hq'⟩ := h hq hone
    exact ⟨u ++ v, by rw [List.append_assoc], by rwa [← List.append_assoc]⟩

theorem Steps.leads (h : Steps step) (P : Site) : Leads P step Anywhere := by
  intro before cs next _ hs
  obtain ⟨u, rfl⟩ := h.suffix hs
  exact ⟨u, rfl, trivial⟩

/-! ### Faults that hold where they lie -/

theorem Tells.congr (h : Tells P faults₁) (hf : ∀ {cs f}, faults₂ cs f ↔ faults₁ cs f) :
    Tells P faults₂ :=
  fun _ _ _ hp hfault => h hp (hf.1 hfault)

theorem Tells.mono (h : Tells P faults) (hP : ∀ {b r}, P' b r → P b r) : Tells P' faults :=
  fun _ _ _ hp hfault => h (hP hp) hfault

theorem Tells.or (h₁ : Tells P faults₁) (h₂ : Tells P faults₂) :
    Tells P fun cs f => faults₁ cs f ∨ faults₂ cs f :=
  fun _ _ _ hp hfault => hfault.elim (h₁ hp) (h₂ hp)

theorem Tells.guard (h : Tells P faults) (applies : List Char → Prop) :
    Tells P fun cs f => applies cs ∧ faults cs f :=
  fun _ _ _ hp hfault => h hp hfault.2

theorem Tells.some {faults : ι → List Char → Fault → Prop} (h : ∀ i, Tells P (faults i)) :
    Tells P fun cs f => ∃ i, faults i cs f :=
  fun _ _ _ hp ⟨i, hfault⟩ => h i hp hfault

/-- Faults behind a step hold if they do where the step leads. -/
theorem Tells.behind (h : Tells Q faults) (hstep : Leads P step Q) :
    Tells P fun cs f => ∃ next, step cs next ∧ faults next f := by
  rintro before cs f hp ⟨next, hs, hfault⟩
  obtain ⟨u, rfl, hq⟩ := hstep hp hs
  obtain ⟨v, rfl, hholds⟩ := h hq hfault
  exact ⟨u ++ v, by rw [List.append_assoc], by rwa [← List.append_assoc]⟩

/-- A fault at the front of the text. -/
theorem Tells.here {applies : List Char → Prop} {fault : List Char → Fault}
    (hrest : ∀ cs, (fault cs).rest = cs)
    (h : ∀ {before cs}, P before cs → applies cs → (fault cs).cause.HoldsAt before cs) :
    Tells P fun cs f => applies cs ∧ f = fault cs := by
  rintro before cs _ hp ⟨ha, rfl⟩
  refine ⟨[], (hrest cs).symm, ?_⟩
  rw [hrest, List.append_nil]
  exact h hp ha

theorem tells_unexpected (P : Site) (applies : List Char → Prop) (expected : String) :
    Tells P fun cs f => applies cs ∧ f = .unexpected expected cs :=
  .here (fun _ => rfl) fun {_ cs} _ _ => describes_describe cs

theorem tells_trailing (P : Site) (applies : List Char → Prop) :
    Tells P fun cs f => applies cs ∧ f = .trailing cs :=
  .here (fun _ => rfl) fun {_ cs} _ _ => describes_describe cs

/-! ### Edges of words -/

theorem wordEdge_nil (before : List Char) : WordEdge before [] := Or.inr stops_nil

theorem wordEdge_start (rest : List Char) : WordEdge [] rest := Or.inl stops_nil

/-- Behind a character that is no letter and no digit no word goes on. -/
theorem wordEdge_append_cons (hc : c.isAlphanum = false) (before : List Char) :
    WordEdge (before ++ [c]) rest := by
  refine Or.inl ?_
  rw [List.reverse_append, List.reverse_singleton, List.singleton_append]
  exact stops_cons.2 hc

theorem BehindBracket.wordEdge (h : BehindBracket before rest) : WordEdge before rest := by
  obtain ⟨front, rfl⟩ := h
  exact wordEdge_append_cons (by decide) front

theorem isAlphanum_eq_false_of_startsTrivia (h : startsTrivia c = true) : c.isAlphanum = false := by
  rw [← Bool.not_eq_true]
  intro hc
  rw [startsTrivia_eq_false_of_isAlphanum hc] at h
  contradiction

/-- Trivia in front of some text ends in white space. -/
theorem Grammar.Trivia.ends (h : Grammar.Trivia cs rest) (hr : Stops startsTrivia rest)
    (hne : rest ≠ []) : cs = rest ∨ ∃ u c, cs = u ++ c :: rest ∧ isBlank c = true := by
  induction h with
  | none => exact Or.inl rfl
  | @blank c cs rest hc _ ih =>
    rcases ih hr hne with rfl | ⟨u, d, rfl, hd⟩
    · exact Or.inr ⟨[], c, rfl, hc⟩
    · exact Or.inr ⟨c :: u, d, rfl, hd⟩
  | @comment body cs rest _ hend htrivia ih =>
    rcases ih hr hne with rfl | ⟨u, d, rfl, hd⟩
    · -- Behind the comment a line feed would be left.
      rcases hend with hnil | hhead
      · exact absurd hnil hne
      · obtain ⟨ds, rfl⟩ := List.head?_eq_some_iff.1 hhead
        exact absurd (stops_cons.1 hr) (by decide)
    · exact Or.inr ⟨';' :: body ++ u, d, by simp, hd⟩

theorem leads_skipTrivia : Leads WordEdge (fun cs next => skipTrivia cs = next) WordEdge := by
  rintro before cs _ hedge rfl
  obtain ⟨u, hu⟩ := skipTrivia_suffix cs
  refine ⟨u, hu.symm, ?_⟩
  by_cases hne : skipTrivia cs = []
  · rw [hne]
    exact wordEdge_nil _
  · rcases (trivia_skipTrivia cs).ends (stops_skipTrivia cs) hne with hself | ⟨v, c, hcs, hc⟩
    · obtain rfl : u = [] := by simpa [← hself] using hu
      rwa [List.append_nil, ← hself]
    · obtain rfl : u = v ++ [c] :=
        List.append_cancel_right (hu.trans (hcs.trans (by rw [List.append_assoc]; rfl)))
      rw [← List.append_assoc]
      refine wordEdge_append_cons (isAlphanum_eq_false_of_startsTrivia ?_) _
      rw [startsTrivia, hc, Bool.true_or]

theorem leads_separated (expected : String) :
    Leads WordEdge (fun cs next => separated expected cs = .ok next) WordEdge :=
  fun _ _ _ hedge hs => leads_skipTrivia hedge (separated_eq_ok_iff.1 hs).1

/-- Behind a comma and its trivia. -/
def NextItem : Site := fun before rest => WordEdge before rest ∧ BehindComma before rest

theorem leads_afterComma? : Leads Anywhere (fun cs next => afterComma? cs = some next) NextItem := by
  intro before cs next _ hs
  obtain ⟨ds, hds, hnext⟩ := afterComma?_eq_some_iff.1 hs
  obtain ⟨q, hq⟩ := skipTrivia_suffix cs
  rw [hds] at hq
  have hcomma : WordEdge (before ++ (q ++ [','])) ds := by
    rw [← List.append_assoc]
    exact wordEdge_append_cons (by decide) _
  obtain ⟨gap, rfl, hedge⟩ := leads_skipTrivia hcomma hnext
  refine ⟨q ++ ',' :: gap, by rw [← hq, List.append_assoc, List.cons_append], ?_, ?_⟩
  · simpa only [List.append_assoc, List.cons_append, List.nil_append] using hedge
  · refine ⟨before ++ q, gap, by rw [List.append_assoc], ?_⟩
    have htrivia := trivia_skipTrivia (gap ++ next)
    rwa [hnext] at htrivia

theorem leads_identifier? (word : String) :
    Leads Anywhere (fun cs next => identifier? cs = some (word, next)) WordEdge := by
  intro before cs next _ hs
  obtain ⟨rfl, _, hstop⟩ := identifier?_eq_some_iff.1 hs
  exact ⟨word.toList, rfl, Or.inr hstop⟩

end DcpuAsm
