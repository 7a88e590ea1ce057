import DcpuAsm.Respelling
import DcpuAsm.Proofs.Respelled

/-!
Comments are white space. `maskComments` goes over a source once, without the grammar, and writes a
space for each byte of a comment. The reader skips these spaces where it skipped the comment
(`skipTrivia_maskComments`) and finds every word, number and string as before, so it reads both texts
in lockstep (`lockstep_maskComments`). Main statement: `parse_ignores_comments`, a program or a
statement is read from the masked source just as from the source, and an error stays at its byte and
line and says the same, save that a semicolon is no longer there to be found.
-/

namespace DcpuAsm

variable {p : Char → Bool} {c : Char} {cs ds w r : List Char} {fault : Fault}

/-- A source with spaces in place of its comments. -/
def masked (src : String) : String := .ofList (maskComments src.toList)

/-- What is found where a comment started is now a space. -/
def maskedFound (found : String) : String := if found = "`;`" then "` `" else found

/-- A cause as the masked source shows it. -/
def Cause.masked : Cause → Cause
  | .unexpected expected found => .unexpected expected (maskedFound found)
  | .trailing found => .trailing (maskedFound found)
  | cause => cause

/-- Comments do not count: with spaces in their place the same is read, or the same is wrong at the
same byte and line. -/
structure IgnoresComments {α : Type} (parse : String → Except Diagnostic α) (src : String) : Prop where
  ok_iff : ∀ r, parse src = .ok r ↔ parse (masked src) = .ok r
  error : ∀ d, parse src = .error d → ∃ d', parse (masked src) = .error d' ∧
    d'.location.offset = d.location.offset ∧ d'.location.line = d.location.line ∧
      d'.cause = d.cause.masked

/-! ### The front of the text -/

theorem maskComments_nil : maskComments [] = [] := by rw [maskComments]

theorem maskComments_cons (hsemi : c ≠ ';') (hquote : c ≠ '"') :
    maskComments (c :: cs) = c :: maskComments cs := by
  rw [maskComments, if_neg hsemi, if_neg hquote]

theorem maskComments_semicolon : maskComments (';' :: cs) = ' ' :: maskComment cs := by
  rw [maskComments, if_pos rfl]

theorem maskComments_quote : maskComments ('"' :: cs) = '"' :: maskBehindQuote cs := by
  rw [maskComments, if_neg (by decide), if_pos rfl]

/-- A character in front stays there, save a semicolon. -/
theorem exists_maskComments_cons (c : Char) (cs : List Char) :
    ∃ ds, maskComments (c :: cs) = (if c = ';' then ' ' else c) :: ds := by
  rw [maskComments]
  split
  · exact ⟨_, rfl⟩
  · split <;> exact ⟨_, rfl⟩

theorem maskComments_eq_nil_iff : maskComments cs = [] ↔ cs = [] := by
  cases cs with
  | nil => rw [maskComments_nil]
  | cons c cs =>
    obtain ⟨ds, hds⟩ := exists_maskComments_cons c cs
    simp [hds]

/-- A class that does not tell a space from a semicolon does not tell the texts apart. -/
theorem stops_maskComments_iff (hp : p ' ' = p ';') :
    Stops p (maskComments cs) ↔ Stops p cs := by
  cases cs with
  | nil => rw [maskComments_nil]
  | cons c cs =>
    obtain ⟨ds, hds⟩ := exists_maskComments_cons c cs
    rw [hds, stops_cons, stops_cons]
    split
    · next hc => rw [hc, hp]
    · rfl

theorem head?_maskComments_cons (hsemi : c ≠ ';') : (maskComments (c :: cs)).head? = some c := by
  obtain ⟨ds, hds⟩ := exists_maskComments_cons c cs
  rw [hds, if_neg hsemi, List.head?_cons]

/-! ### Trivia -/

mutual

/-- What is left behind trivia is left, masked, behind the masked trivia. -/
theorem skipTrivia_maskComments : ∀ cs, skipTrivia (maskComments cs) = maskComments (skipTrivia cs)
  | [] => by rw [maskComments_nil, skipTrivia, maskComments_nil]
  | c :: cs => by
    by_cases hsemi : c = ';'
    · rw [hsemi, maskComments_semicolon, skipTrivia_cons_of_blank (by decide), skipTrivia_semicolon]
      exact skipTrivia_maskComment cs
    · by_cases hblank : isBlank c = true
      · have hquote : c ≠ '"' := by rintro rfl; exact absurd hblank (by decide)
        rw [maskComments_cons hsemi hquote, skipTrivia_cons_of_blank hblank,
          skipTrivia_cons_of_blank hblank]
        exact skipTrivia_maskComments cs
      · have hstops : Stops startsTrivia (c :: cs) := by simpa [startsTrivia, hsemi] using hblank
        rw [skipTrivia_of_stops hstops,
          skipTrivia_of_stops ((stops_maskComments_iff (by decide)).2 hstops)]

theorem skipTrivia_maskComment : ∀ cs, skipTrivia (maskComment cs) = maskComments (skipComment cs)
  | [] => by rw [maskComment, skipTrivia, skipComment, maskComments_nil]
  | c :: cs => by
    rw [maskComment, skipComment]
    split
    · next hc => rw [hc, skipTrivia_newline]; exact skipTrivia_maskComments cs
    · rw [skipTrivia_spaces]; exact skipTrivia_maskComment cs

end

/-! ### Words and numbers -/

theorem keepsWords_maskComments : KeepsWords maskComments where
  append := by
    intro w r hw
    induction w with
    | nil => rfl
    | cons c w ih =>
      rw [List.forall_mem_cons] at hw
      have hsemi : c ≠ ';' := by rintro rfl; exact absurd hw.1 (by decide)
      have hquote : c ≠ '"' := by rintro rfl; exact absurd hw.1 (by decide)
      rw [List.cons_append, maskComments_cons hsemi hquote, ih hw.2, List.cons_append]
  stops := (stops_maskComments_iff (by decide)).2

/-- What spoils a number lies in its first word and holds no comment. -/
theorem SpoilsNumber.masked_eq {cause : Cause} (h : SpoilsNumber w cause) : cause.masked = cause := by
  cases h <;> rfl

/-! ### Strings -/

theorem maskBehindQuote_append (hw : ∀ c ∈ w, isStringChar c = true) :
    maskBehindQuote (w ++ r) = w ++ maskBehindQuote r := by
  induction w with
  | nil => rfl
  | cons c w ih =>
    rw [List.forall_mem_cons] at hw
    have hin : ¬ (c = '"' ∨ c = '\n') := by
      rintro (rfl | rfl)
      · exact absurd hw.1 (by decide)
      · exact absurd hw.1 (by decide)
    rw [List.cons_append, maskBehindQuote, if_neg hin, ih hw.2, List.cons_append]

theorem maskBehindQuote_quote : maskBehindQuote ('"' :: r) = '"' :: maskComments r := by
  rw [maskBehindQuote, if_pos (Or.inl rfl)]

/-- Where a string ends without a quote, the text behind it is outside strings again. -/
theorem maskBehindQuote_of_stops (hr : Stops isStringChar r) (hquote : Stops (· == '"') r) :
    maskBehindQuote r = maskComments r := by
  cases r with
  | nil => rw [maskBehindQuote, maskComments_nil]
  | cons c r =>
    have hne : c ≠ '"' := by simpa using hquote
    obtain rfl : c = '\n' := by simpa [isStringChar, hne] using hr
    rw [maskBehindQuote, if_pos (Or.inr rfl), maskComments_cons (by decide) hne]

/-! ### Faults -/

/-- The fault of the masked text, at the same place. -/
def Fault.masked (fault : Fault) : Fault := ⟨fault.cause.masked, maskComments fault.rest⟩

/-- Only a semicolon is described as one. -/
theorem describe_ne_semicolon (hsemi : c ≠ ';') (cs : List Char) : describe (c :: cs) ≠ "`;`" := by
  by_cases hc : c = '\n'
  · have hname : "newline" ≠ "`;`" := by decide
    rw [hc]
    exact hname
  · rw [describe_of_ne hc]
    intro h
    have hsplit : "`;`" = "`" ++ String.singleton ';' ++ "`" := by decide
    rw [hsplit, String.append_left_inj, String.append_right_inj, String.singleton_inj] at h
    exact hsemi h

theorem describe_maskComments : describe (maskComments cs) = maskedFound (describe cs) := by
  cases cs with
  | nil => rw [maskComments_nil]; decide
  | cons c cs =>
    by_cases hsemi : c = ';'
    · have hfront : describe (' ' :: maskComment cs) = describe [' '] := describe_congr rfl
      have hfront' : describe (';' :: cs) = describe [';'] := describe_congr rfl
      rw [hsemi, maskComments_semicolon, hfront, hfront']
      decide
    · have hfront : describe (maskComments (c :: cs)) = describe (c :: cs) :=
        describe_congr (head?_maskComments_cons hsemi)
      rw [hfront, maskedFound, if_neg (describe_ne_semicolon hsemi cs)]

theorem masked_unexpected (expected : String) (cs : List Char) :
    (Fault.unexpected expected cs).masked = .unexpected expected (maskComments cs) := by
  rw [Fault.unexpected, Fault.unexpected, describe_maskComments]
  rfl

theorem masked_trailing (cs : List Char) : (Fault.trailing cs).masked = .trailing (maskComments cs) := by
  rw [Fault.trailing, Fault.trailing, describe_maskComments]
  rfl

theorem masked_missingInBrackets (cs : List Char) :
    (missingInBrackets cs).masked = missingInBrackets (maskComments cs) := by
  cases cs with
  | nil => rw [maskComments_nil]; rfl
  | cons c cs =>
    by_cases hline : c = '\n'
    · rw [hline, maskComments_cons (by decide) (by decide)]
      rfl
    · have hfront : (if c = ';' then ' ' else c) ≠ '\n' := by
        split
        · decide
        · exact hline
      obtain ⟨ds, hds⟩ := exists_maskComments_cons c cs
      rw [missingInBrackets_of_ne hline, masked_unexpected, hds, missingInBrackets_of_ne hfront]

/-! ### Lockstep -/

theorem stringLiteral_maskComments :
    Match.InStep Eq (fun r r' => r' = maskComments r) (fun f g => g = f.masked) (stringLiteral cs)
      (stringLiteral (maskComments cs)) := by
  cases hs : stringLiteral cs with
  | matched content next =>
    obtain ⟨rfl, hall⟩ := stringLiteral_eq_matched_iff.1 hs
    rw [List.cons_append, maskComments_quote, maskBehindQuote_append hall, maskBehindQuote_quote,
      ← List.cons_append, stringLiteral_eq_matched_iff.2 ⟨rfl, hall⟩]
    exact .matched rfl rfl
  | noMatch =>
    rw [stringLiteral_reads.noMatch_iff.2
      ((stops_maskComments_iff (by decide)).2 (stringLiteral_reads.noMatch_iff.1 hs))]
    exact .noMatch
  | failed fault =>
    obtain ⟨body, rest, ⟨rfl, hbody⟩, ⟨hrest, hquote⟩, rfl⟩ := stringLiteral_eq_failed_iff.1 hs
    have hfailed : stringLiteral ('"' :: body ++ maskComments rest) =
        .failed (openString (maskComments rest)) :=
      stringLiteral_eq_failed_iff.2 ⟨body, _, ⟨rfl, hbody⟩,
        ⟨(stops_maskComments_iff (by decide)).2 hrest,
          (stops_maskComments_iff (by decide)).2 hquote⟩, rfl⟩
    rw [List.cons_append, maskComments_quote, maskBehindQuote_append hbody,
      maskBehindQuote_of_stops hrest hquote, ← List.cons_append, hfailed]
    exact .failed rfl

theorem lockstep_maskComments :
    Lockstep Eq (fun r r' => r' = maskComments r) fun f g => g = f.masked where
  nil_iff := by
    rintro cs _ rfl
    exact maskComments_eq_nil_iff.symm
  mark := by
    rintro cs _ m hm rfl
    have hmark : ∀ m ∈ marks, m ≠ ';' ∧ m ≠ '"' ∧ m ≠ ' ' := by simp [marks]
    obtain ⟨hsemi, hquote, hspace⟩ := hmark m hm
    rcases eq_cons_or_stops m cs with ⟨cs, rfl⟩ | hs
    · exact Or.inl ⟨cs, _, rfl, maskComments_cons hsemi hquote, rfl⟩
    · exact Or.inr ⟨hs, (stops_maskComments_iff (by simp [hsemi.symm, hspace.symm])).2 hs⟩
  trivia_iff := by
    rintro cs _ rfl
    exact (stops_maskComments_iff (by decide)).symm
  skipped := by
    rintro cs _ rfl
    exact skipTrivia_maskComments cs
  word := by
    rintro cs _ rfl
    exact keepsWords_maskComments.word? cs
  identifier := by
    rintro cs _ rfl
    exact keepsWords_maskComments.identifier? cs
  number := by
    rintro cs _ rfl
    refine keepsWords_maskComments.number (fun _ cs => (masked_unexpected _ cs).symm) ?_ cs
    intro w cause cs hspoils
    rw [Fault.masked, hspoils.masked_eq]
  stringLiteral := by
    rintro cs _ rfl
    exact stringLiteral_maskComments
  keyword_eq := by rintro a _ rfl; rfl
  arity_eq := by rintro a _ rfl; rfl
  letters_iff := by rintro a _ rfl; rfl
  unexpected := by
    rintro cs _ expected rfl
    exact (masked_unexpected expected cs).symm
  unterminated := by
    rintro cs _ construct expected rfl
    rfl
  trailing := by
    rintro cs _ rfl
    exact (masked_trailing cs).symm
  missingInBrackets := by
    rintro cs _ rfl
    exact (masked_missingInBrackets cs).symm
  unknownMnemonic := by
    rintro cs _ a _ rfl rfl
    rfl

/-! ### Places -/

/-- Texts of as many bytes and as many lines. -/
structure SameExtent (cs ds : List Char) : Prop where
  byteLength_eq : byteLength ds = byteLength cs
  count_eq : ds.count '\n' = cs.count '\n'

theorem SameExtent.append {as bs : List Char} (h : SameExtent as bs) (h' : SameExtent cs ds) :
    SameExtent (as ++ cs) (bs ++ ds) where
  byteLength_eq := by rw [byteLength_append, byteLength_append, h.byteLength_eq, h'.byteLength_eq]
  count_eq := by rw [List.count_append, List.count_append, h.count_eq, h'.count_eq]

theorem SameExtent.cons (c : Char) (h : SameExtent cs ds) : SameExtent (c :: cs) (c :: ds) :=
  have hone : SameExtent [c] [c] := ⟨rfl, rfl⟩
  hone.append h

theorem SameExtent.cancel_right {as bs : List Char} (h : SameExtent (as ++ cs) (bs ++ ds))
    (h' : SameExtent cs ds) : SameExtent as bs where
  byteLength_eq := by
    have hsum := h.byteLength_eq
    rw [byteLength_append, byteLength_append, h'.byteLength_eq] at hsum
    exact Nat.add_right_cancel hsum
  count_eq := by
    have hsum := h.count_eq
    rw [List.count_append, List.count_append, h'.count_eq] at hsum
    exact Nat.add_right_cancel hsum

theorem byteLength_spaces (n : Nat) : byteLength (List.replicate n ' ') = n := by
  induction n with
  | zero => rfl
  | succ n ih => rw [List.replicate_succ, byteLength_cons, ih, Nat.add_comm]; rfl

/-- A character is masked by a space for each of its bytes. -/
theorem sameExtent_spaces (hc : c ≠ '\n') : SameExtent [c] (List.replicate c.utf8Size ' ') where
  byteLength_eq := by rw [byteLength_spaces]; rfl
  count_eq := by
    rw [List.count_replicate, if_neg (by decide), List.count_cons_of_ne hc, List.count_nil]

mutual

theorem sameExtent_maskComments : ∀ cs, SameExtent cs (maskComments cs)
  | [] => by rw [maskComments_nil]; exact ⟨rfl, rfl⟩
  | c :: cs => by
    rw [maskComments]
    split
    · next hsemi =>
      rw [hsemi]
      exact (sameExtent_spaces (by decide)).append (sameExtent_maskComment cs)
    · split
      · exact (sameExtent_maskBehindQuote cs).cons c
      · exact (sameExtent_maskComments cs).cons c

theorem sameExtent_maskComment : ∀ cs, SameExtent cs (maskComment cs)
  | [] => by rw [maskComment]; exact ⟨rfl, rfl⟩
  | c :: cs => by
    rw [maskComment]
    split
    · exact (sameExtent_maskComments cs).cons c
    · next hc => exact (sameExtent_spaces hc).append (sameExtent_maskComment cs)

theorem sameExtent_maskBehindQuote : ∀ cs, SameExtent cs (maskBehindQuote cs)
  | [] => by rw [maskBehindQuote]; exact ⟨rfl, rfl⟩
  | c :: cs => by
    rw [maskBehindQuote]
    split
    · exact (sameExtent_maskComments cs).cons c
    · exact (sameExtent_maskBehindQuote cs).cons c

end

/-! ### Whole sources -/

/-- A rule that reads both texts in lockstep ignores comments, wherever its faults lie. -/
theorem ignoresComments_of_inStep {α : Type} {rule : List Char → Committed α}
    {accepts : List Char → Prop} (hfails : Fails (fun cs f => rule cs = .error f) accepts)
    (hstep : ∀ cs, Committed.InStep Eq (fun f g => g = f.masked) (rule cs) (rule (maskComments cs)))
    (src : String) : IgnoresComments (fun src => diagnosed src.toList (rule src.toList)) src := by
  have hsrc : (masked src).toList = maskComments src.toList := String.toList_ofList
  have hboth := hstep src.toList
  rw [← hsrc] at hboth
  obtain ⟨hok, herror⟩ := answers_of_inStep hfails hboth
  refine ⟨hok, fun d hd => ?_⟩
  obtain ⟨fault, _, before, before', rfl, hbefore, hbefore', rfl, hd'⟩ := herror d hd
  have hwhole : SameExtent src.toList (masked src).toList :=
    hsrc ▸ sameExtent_maskComments src.toList
  rw [hbefore, hbefore'] at hwhole
  have hextent : SameExtent before before' :=
    hwhole.cancel_right (sameExtent_maskComments fault.rest)
  exact ⟨_, hd', hextent.byteLength_eq, congrArg (· + 1) hextent.count_eq, rfl⟩

/-- Comments are exactly white space, in programs and in single statements. -/
theorem parse_ignores_comments (src : String) :
    IgnoresComments Program.parse src ∧ IgnoresComments Statement.parse src := by
  have hlockstep := lockstep_maskComments
  exact ⟨ignoresComments_of_inStep program_fails
      (fun _ => (hlockstep.program rfl).mono fun _ _ => Program.InStep.eq) src,
    ignoresComments_of_inStep statementOnly_fails
      (fun _ => (hlockstep.statementOnly rfl).mono fun _ _ => Statement.InStep.eq) src⟩

end DcpuAsm
