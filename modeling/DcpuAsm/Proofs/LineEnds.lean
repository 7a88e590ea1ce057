import DcpuAsm.Respelling
import DcpuAsm.Proofs.Exactness
import DcpuAsm.Proofs.Respelled

/-!
Line ends. A carriage return in front of a line feed is white space between statements and part of a
comment inside one, and no line feed stands inside a string, so a source in either style is read in
lockstep with the other (`lockstep_crlf`). A string that its line leaves open fails behind the
carriage return and brackets that it leaves open fail in front of it, on the same line. Main
statement: `parse_ignores_line_ends`, where also all text in a program is text of the source as it was.
-/

namespace DcpuAsm

open Grammar (IsTerm IsFlat IsOperand IsItem Items Line Lines)

variable {p : Char → Bool} {c : Char} {cs w r next : List Char}

/-- A source whose lines all end in a carriage return and a line feed. -/
def crlfEnded (src : String) : String := .ofList (crlf src.toList)

/-- The style of line ends does not count: with carriage returns in front of all line feeds the same
is read, or something is wrong on the same line. -/
structure IgnoresLineEnds {α : Type} (parse : String → Except Diagnostic α) (src : String) : Prop where
  ok_iff : ∀ r, parse (crlfEnded src) = .ok r ↔ parse src = .ok r
  error : ∀ d, parse src = .error d → ∃ d', parse (crlfEnded src) = .error d' ∧
    d'.location.line = d.location.line

/-! ### The front of the text -/

theorem crlf_append (w r : List Char) : crlf (w ++ r) = crlf w ++ crlf r := List.flatMap_append

theorem crlf_newline : crlf ('\n' :: cs) = '\r' :: '\n' :: crlf cs := rfl

theorem crlf_cons (hc : c ≠ '\n') : crlf (c :: cs) = c :: crlf cs := by
  rw [crlf, List.flatMap_cons, if_neg hc]
  rfl

theorem crlf_of_not_mem (hw : '\n' ∉ w) : crlf w = w := by
  induction w with
  | nil => rfl
  | cons c w ih =>
    rw [List.mem_cons, not_or] at hw
    rw [crlf_cons (Ne.symm hw.1), ih hw.2]

theorem crlf_eq_nil_iff : crlf cs = [] ↔ cs = [] := by
  cases cs with
  | nil => exact Iff.rfl
  | cons c cs =>
    by_cases hc : c = '\n'
    · rw [hc, crlf_newline]; simp
    · rw [crlf_cons hc]; simp

/-- A class that does not tell a carriage return from a line feed does not tell the texts apart. -/
theorem stops_crlf_iff (hp : p '\r' = p '\n') : Stops p (crlf cs) ↔ Stops p cs := by
  cases cs with
  | nil => exact Iff.rfl
  | cons c cs =>
    by_cases hc : c = '\n'
    · rw [hc, crlf_newline, stops_cons, stops_cons, hp]
    · rw [crlf_cons hc, stops_cons, stops_cons]

theorem keepsWords_crlf : KeepsWords crlf where
  append hw := by
    rw [crlf_append, crlf_of_not_mem]
    exact fun hmem => absurd (hw _ hmem) (by decide)
  stops := (stops_crlf_iff (by decide)).2

/-! ### Trivia -/

mutual

/-- What is left behind trivia is left behind it in the other style too. -/
theorem skipTrivia_crlf : ∀ cs, skipTrivia (crlf cs) = crlf (skipTrivia cs)
  | [] => by rw [skipTrivia]; exact skipTrivia.eq_1
  | c :: cs => by
    by_cases hc : c = '\n'
    · rw [hc, crlf_newline, skipTrivia_cons_of_blank (by decide), skipTrivia_newline,
        skipTrivia_newline]
      exact skipTrivia_crlf cs
    · rw [crlf_cons hc, skipTrivia, skipTrivia]
      split
      · exact skipComment_crlf cs
      · split
        · exact skipTrivia_crlf cs
        · exact (crlf_cons hc).symm

/-- A carriage return inside a comment belongs to it. -/
theorem skipComment_crlf : ∀ cs, skipComment (crlf cs) = crlf (skipComment cs)
  | [] => by rw [skipComment]; exact skipComment.eq_1
  | c :: cs => by
    by_cases hc : c = '\n'
    · rw [hc, crlf_newline, skipComment, if_neg (by decide), skipComment, if_pos rfl, skipComment,
        if_pos rfl]
      exact skipTrivia_crlf cs
    · rw [crlf_cons hc, skipComment, if_neg hc, skipComment, if_neg hc]
      exact skipComment_crlf cs

end

/-! ### Lockstep -/

/-- Faults with as many lines left behind them. -/
def SameLinesLeft (f g : Fault) : Prop := g.rest.count '\n' = f.rest.count '\n'

theorem sameLinesLeft_crlf (cause cause' : Cause) (cs : List Char) :
    SameLinesLeft ⟨cause, cs⟩ ⟨cause', crlf cs⟩ :=
  count_newline_crlf cs

theorem stringLiteral_crlf (cs : List Char) :
    Match.InStep Eq (fun r r' => r' = crlf r) SameLinesLeft (stringLiteral cs)
      (stringLiteral (crlf cs)) := by
  cases hs : stringLiteral cs with
  | matched content next =>
    obtain ⟨rfl, hall⟩ := stringLiteral_eq_matched_iff.1 hs
    have hkept : crlf ('"' :: content.toList) = '"' :: content.toList :=
      crlf_of_not_mem (by simpa using (forall_isStringChar_iff.1 hall).2)
    rw [crlf_append, hkept, crlf_cons (by decide), stringLiteral_eq_matched_iff.2 ⟨rfl, hall⟩]
    exact .matched rfl rfl
  | noMatch =>
    rw [stringLiteral_reads.noMatch_iff.2
      ((stops_crlf_iff (by decide)).2 (stringLiteral_reads.noMatch_iff.1 hs))]
    exact .noMatch
  | failed fault =>
    obtain ⟨body, rest, ⟨rfl, hbody⟩, ⟨hrest, hquote⟩, rfl⟩ := stringLiteral_eq_failed_iff.1 hs
    have hkept : crlf ('"' :: body) = '"' :: body :=
      crlf_of_not_mem (by simpa using (forall_isStringChar_iff.1 hbody).2)
    cases rest with
    | nil =>
      have hfailed : stringLiteral ('"' :: body) = .failed (openString []) :=
        stringLiteral_eq_failed_iff.2
          ⟨body, [], ⟨(List.append_nil _).symm, hbody⟩, ⟨stops_nil, stops_nil⟩, rfl⟩
      rw [List.append_nil, hkept, hfailed]
      exact .failed rfl
    | cons c rest =>
      have hne : c ≠ '"' := by simpa using hquote
      obtain rfl : c = '\n' := by simpa [isStringChar, hne] using hrest
      -- The open string takes in the carriage return, so the fault lies behind it.
      have hbody' : ∀ d ∈ body ++ ['\r'], isStringChar d = true :=
        List.forall_mem_append.2 ⟨hbody, List.forall_mem_singleton.2 (by decide)⟩
      have hsplit : crlf ('"' :: body ++ '\n' :: rest) =
          '"' :: (body ++ ['\r']) ++ '\n' :: crlf rest := by
        rw [crlf_append, hkept, crlf_newline]
        simp
      have hfailed : stringLiteral (crlf ('"' :: body ++ '\n' :: rest)) =
          .failed (openString ('\n' :: crlf rest)) :=
        stringLiteral_eq_failed_iff.2 ⟨_, _, ⟨hsplit, hbody'⟩, ⟨hrest, hquote⟩, rfl⟩
      have hlines : ('\n' :: crlf rest).count '\n' = ('\n' :: rest).count '\n' := by
        rw [List.count_cons_self, count_newline_crlf, List.count_cons_self]
      rw [hfailed]
      exact .failed hlines

theorem lockstep_crlf : Lockstep Eq (fun r r' => r' = crlf r) SameLinesLeft where
  nil_iff := by
    rintro cs _ rfl
    exact crlf_eq_nil_iff.symm
  mark := by
    rintro cs _ m hm rfl
    have hmark : ∀ m ∈ marks, m ≠ '\n' ∧ ('\r' == m) = ('\n' == m) := by simp [marks]
    obtain ⟨hline, hclass⟩ := hmark m hm
    rcases eq_cons_or_stops m cs with ⟨cs, rfl⟩ | hs
    · exact Or.inl ⟨cs, _, rfl, crlf_cons hline, rfl⟩
    · exact Or.inr ⟨hs, (stops_crlf_iff hclass).2 hs⟩
  trivia_iff := by
    rintro cs _ rfl
    exact (stops_crlf_iff (by decide)).symm
  skipped := by
    rintro cs _ rfl
    exact skipTrivia_crlf cs
  word := by
    rintro cs _ rfl
    exact keepsWords_crlf.word? cs
  identifier := by
    rintro cs _ rfl
    exact keepsWords_crlf.identifier? cs
  number := by
    rintro cs _ rfl
    exact keepsWords_crlf.number (fun _ cs => sameLinesLeft_crlf _ _ cs)
      (fun cs _ => sameLinesLeft_crlf _ _ cs) cs
  stringLiteral := by
    rintro cs _ rfl
    exact stringLiteral_crlf cs
  keyword_eq := by rintro a _ rfl; rfl
  arity_eq := by rintro a _ rfl; rfl
  letters_iff := by rintro a _ rfl; rfl
  unexpected := by
    rintro cs _ expected rfl
    exact sameLinesLeft_crlf _ _ cs
  unterminated := by
    rintro cs _ construct expected rfl
    exact sameLinesLeft_crlf _ _ cs
  trailing := by
    rintro cs _ rfl
    exact sameLinesLeft_crlf _ _ cs
  missingInBrackets := by
    rintro cs _ rfl
    rw [SameLinesLeft, rest_missingInBrackets, rest_missingInBrackets, count_newline_crlf]
  unknownMnemonic := by
    rintro cs _ a _ rfl rfl
    exact sameLinesLeft_crlf _ _ cs

/-! ### Texts -/

/-- The names in an operand. -/
def Expression.texts : Expression → List String
  | .identifier name => [name]
  | .number _ => []
  | .addressOf inner => inner.texts
  | .sum left right => left.texts ++ right.texts

def DataItem.texts : DataItem → List String
  | .string content => [content]
  | .number _ => []

/-- The names, the mnemonic and the strings of a statement. -/
def Statement.texts : Statement → List String
  | .label name => [name]
  | .unary mnemonic operand => mnemonic :: operand.texts
  | .binary mnemonic destination source => mnemonic :: (destination.texts ++ source.texts)
  | .data items => items.flatMap DataItem.texts

/-- All text of the source that a program holds. -/
def Program.texts (p : Program) : List String := p.statements.flatMap Statement.texts

/-- The texts stand in the source, each in one piece. -/
def StandIn (texts : List String) (cs : List Char) : Prop := ∀ t ∈ texts, t.toList <:+: cs

section

variable {texts texts' : List String} {e : Expression} {i : DataItem} {s : Statement}

theorem StandIn.mono (h : StandIn texts w) (hw : w <:+: cs) : StandIn texts cs :=
  fun t ht => (h t ht).trans hw

theorem StandIn.append (h : StandIn texts cs) (h' : StandIn texts' cs) :
    StandIn (texts ++ texts') cs :=
  List.forall_mem_append.2 ⟨h, h'⟩

theorem StandIn.cons {w : List Char} (hw : w <:+: cs) (h : StandIn texts cs) :
    StandIn (.ofList w :: texts) cs :=
  List.forall_mem_cons.2 ⟨by rwa [String.toList_ofList], h⟩

theorem standIn_nil : StandIn [] cs := nofun

theorem Grammar.IsTerm.standIn (h : IsTerm w e) : StandIn e.texts w := by
  cases h with
  | identifier _ => exact .cons List.infix_rfl standIn_nil
  | number _ => exact standIn_nil

theorem Grammar.IsFlat.standIn (h : IsFlat w e) : StandIn e.texts w := by
  cases h with
  | term h => exact h.standIn
  | sum hl hr =>
    exact (hl.standIn.mono (List.prefix_append ..).isInfix).append
      (hr.standIn.mono ((List.suffix_cons ..).trans (List.suffix_append ..)).isInfix)

theorem Grammar.IsOperand.standIn (h : IsOperand w e) : StandIn e.texts w := by
  cases h with
  | flat h => exact h.standIn
  | addressOf h => exact h.standIn.mono ⟨['['], [']'], rfl⟩

theorem Grammar.IsItem.standIn (h : IsItem w i) : StandIn i.texts w := by
  cases h with
  | string _ _ => exact .cons ⟨['"'], ['"'], rfl⟩ standIn_nil
  | number _ => exact standIn_nil

theorem Grammar.Items.standIn {items : List DataItem} (h : Items cs items next) :
    StandIn (items.flatMap DataItem.texts) cs := by
  induction h with
  | one h =>
    rw [List.flatMap_singleton]
    exact h.standIn.mono (List.prefix_append ..).isInfix
  | more h hbefore hafter _ ih =>
    have hlater := ih.mono (hbefore.suffix_of_comma hafter).isInfix
    exact (h.standIn.mono (List.prefix_append ..).isInfix).append
      (hlater.mono (List.suffix_append ..).isInfix)

theorem Grammar.Line.standIn (h : Line cs s next) : StandIn s.texts cs := by
  cases h with
  | @label w _ _ => exact .cons ⟨[':'], next, rfl⟩ standIn_nil
  | data _ hgap hs => exact hs.standIn.mono (hgap.1.suffix.trans (List.suffix_append ..)).isInfix
  | unary _ hgap he =>
    have hoperand := (List.prefix_append ..).isInfix.trans hgap.1.suffix.isInfix
    exact .cons (List.prefix_append ..).isInfix
      ((he.standIn.mono hoperand).mono (List.suffix_append ..).isInfix)
  | binary _ hgap hd hbefore hafter he =>
    have hdestination := (List.prefix_append ..).isInfix.trans hgap.1.suffix.isInfix
    have hsource := (hbefore.suffix_of_comma hafter).trans
      ((List.suffix_append ..).trans hgap.1.suffix)
    have hboth := (hd.standIn.mono hdestination).append
      (he.standIn.mono ((List.prefix_append ..).isInfix.trans hsource.isInfix))
    exact .cons (List.prefix_append ..).isInfix (hboth.mono (List.suffix_append ..).isInfix)

theorem Grammar.Lines.standIn {ss : List Statement} (h : Lines cs ss) :
    StandIn (ss.flatMap Statement.texts) cs := by
  induction h with
  | nil => exact standIn_nil
  | last h _ =>
    rw [List.flatMap_singleton]
    exact h.standIn
  | cons h hgap _ ih =>
    exact h.standIn.append (ih.mono (hgap.1.suffix.trans h.suffix).isInfix)

end

theorem standIn_of_programParse {src : String} {p : Program} (h : Program.parse src = .ok p) :
    StandIn p.texts src.toList := by
  obtain ⟨rest, htrivia, hlines⟩ := programParse_eq_ok_iff.1 h
  exact hlines.standIn.mono htrivia.suffix.isInfix

/-! ### Whole sources -/

/-- A rule that reads both texts in lockstep ignores line ends. -/
theorem ignoresLineEnds_of_inStep {α : Type} {rule : List Char → Committed α}
    {accepts : List Char → Prop} (hfails : Fails (fun cs f => rule cs = .error f) accepts)
    (hstep : ∀ cs, Committed.InStep Eq SameLinesLeft (rule cs) (rule (crlf cs))) (src : String) :
    IgnoresLineEnds (fun src => diagnosed src.toList (rule src.toList)) src := by
  have hsrc : (crlfEnded src).toList = crlf src.toList := String.toList_ofList
  have hboth := hstep src.toList
  rw [← hsrc] at hboth
  obtain ⟨hok, herror⟩ := answers_of_inStep hfails hboth
  refine ⟨fun a => (hok a).symm, fun d hd => ?_⟩
  obtain ⟨f, g, before, before', hlines, hbefore, hbefore', rfl, hd'⟩ := herror d hd
  refine ⟨_, hd', congrArg (· + 1) ?_⟩
  have hcount := count_newline_crlf src.toList
  rw [← hsrc, hbefore', hbefore, List.count_append, List.count_append, hlines] at hcount
  exact Nat.add_right_cancel hcount

/-- The style of line ends counts neither in programs nor in single statements. No name and no string
of a program holds a carriage return that is not in the source, for all of them stand there. -/
theorem parse_ignores_line_ends (src : String) :
    IgnoresLineEnds Program.parse src ∧ IgnoresLineEnds Statement.parse src ∧
      ∀ p, Program.parse (crlfEnded src) = .ok p → StandIn p.texts src.toList := by
  have hprogram : IgnoresLineEnds Program.parse src :=
    ignoresLineEnds_of_inStep program_fails
      (fun _ => (lockstep_crlf.program rfl).mono fun _ _ => Program.InStep.eq) src
  refine ⟨hprogram, ignoresLineEnds_of_inStep statementOnly_fails
      (fun _ => (lockstep_crlf.statementOnly rfl).mono fun _ _ => Statement.InStep.eq) src, ?_⟩
  exact fun p hp => standIn_of_programParse ((hprogram.ok_iff p).1 hp)

end DcpuAsm
