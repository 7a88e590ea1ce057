import DcpuAsm.Proofs.Exactness
import DcpuAsm.Proofs.Fails.Program
import DcpuAsm.Proofs.Position

/-!
One statement against a whole program. Both go through the same trivia, statement and boundary, one
of them once and the other in a loop. They differ where there is no statement at all (`NothingRead`)
and where the text goes on behind the first one (`GoesOn`): the program then has more statements, or
an error of its own further on. Main statement: `statementParse_agrees_programParse`, on every source
they agree or differ in one of these two ways.
-/

namespace DcpuAsm

variable {cs rest p : List Char} {s : Statement} {fault : Fault} {found : String} {a b c : Prop}

/-- One of three things is so, and no two of them are. -/
structure ExactlyOne (a b c : Prop) : Prop where
  one : a ∨ b ∨ c
  not_first_second : ¬ (a ∧ b)
  not_first_third : ¬ (a ∧ c)
  not_second_third : ¬ (b ∧ c)

/-- The source is read as the empty program, and a statement is missed at its end. -/
structure NothingRead (src : String) (d : Diagnostic) : Prop where
  empty : Program.parse src = .ok ∅
  cause_eq : d.cause = .unexpected "a label, instruction or data directive" "end of input"
  at_end : d.location.offset = byteLength src.toList

/-- The text up to the diagnostic is the one statement `s`. A program goes on behind it, with more
statements or with another error. -/
structure GoesOnBehind (src : String) (d : Diagnostic) (s : Statement) (before rest : String) :
    Prop where
  split : src = before ++ rest
  trailing : ∃ found, d.cause = .trailing found
  offset_eq : d.location.offset = byteLength before.toList
  one : Program.parse before = .ok ⟨[s]⟩
  program : (∃ t ts, Program.parse src = .ok ⟨s :: t :: ts⟩) ∨
    ∃ d', Program.parse src = .error d' ∧ d' ≠ d ∧ d.location.offset ≤ d'.location.offset

/-- The source goes on behind its first statement. -/
def GoesOn (src : String) (d : Diagnostic) : Prop :=
  ∃ s before rest, GoesOnBehind src d s before rest

/-! ### Trailing text -/

theorem wordCause_ne_trailing (w : List Char) : wordCause w ≠ .trailing found := by
  unfold wordCause
  split <;> exact nofun

theorem length_of_body?_eq_some {word : String} {mid : List Char}
    {body : Committed (Statement × List Char)} (h : body? word mid = some body) :
    word.toList.length = 3 := by
  rcases body?_eq_some_iff.1 h with ⟨hk, _⟩ | ⟨ha, _⟩ | ⟨ha, _⟩
  · exact (three_letters_of_dat hk).1
  · exact (three_letters_of_mnemonic (Or.inr ha)).1
  · exact (three_letters_of_mnemonic (Or.inl ha)).1

/-- No statement reports trailing text where it starts. Such a fault would show in the first character
alone, and one character is too short for a body. -/
theorem statement_ne_failed_trailing : statement cs ≠ .failed ⟨.trailing found, cs⟩ := by
  intro h
  cases cs with
  | nil => rw [statement_eq_noMatch_iff.2 stops_nil] at h; contradiction
  | cons c cs =>
    have hone : statement [c] = .failed ⟨.trailing found, [c]⟩ :=
      statement_fails.stable (p := []) h ⟨rfl, nofun⟩
    rcases statement_eq_failed_iff.1 hone with hl | ⟨word, mid, hid, hb⟩ | ⟨word, mid, hid, _, hu⟩
    · obtain ⟨_, _, _, hfault⟩ := label_eq_failed_iff.1 hl
      cases hfault
    · have hsplit := congrArg List.length (identifier?_eq_some_iff.1 hid).1
      rw [List.length_append, length_of_body?_eq_some hb, List.length_singleton] at hsplit
      omega
    · rw [unknownWord_eq_wordCause hid] at hu
      exact wordCause_ne_trailing _ (congrArg Fault.cause (Match.failed.inj hu))

theorem statementAt_ne_error_trailing : statementAt cs ≠ .error ⟨.trailing found, cs⟩ := by
  intro h
  rcases statementAt_eq_error_iff.1 h with ⟨_, hfault⟩ | hfailed | ⟨s, next, hs, _, hfault⟩
  · cases hfault
  · exact statement_ne_failed_trailing hfailed
  · obtain rfl : cs = next := congrArg Fault.rest hfault
    exact absurd (statement_advances _ _ _ hs).2 (Nat.lt_irrefl _)

/-- The loop never stops with trailing text where it started. -/
theorem fault_statements_ne_trailing : (statements rest).fault ≠ some ⟨.trailing found, rest⟩ := by
  intro h
  obtain ⟨next, hsteps, -, hat⟩ := fault_statements_eq_some_iff.1 h
  have hsuffix : next <:+ rest := (Steps.some steps_lineStep).suffix_of_many hsteps
  obtain ⟨p, -, hp, -⟩ := statementAt_fails.completable hat
  obtain rfl : next = rest := hsuffix.eq_of_length_le (by simp [hp])
  exact statementAt_ne_error_trailing hat

/-! ### The source up to the second statement -/

/-- The text up to where the second statement is due is the first statement. -/
theorem statementOnly_of_lineStep (hskip : skipTrivia cs = p ++ rest) (hs : LineStep s (p ++ rest) rest)
    (hne : rest ≠ []) : ∃ q, cs = q ++ (p ++ rest) ∧ statementOnly (q ++ p) = .ok s := by
  obtain ⟨q, hq⟩ := skipTrivia_suffix cs
  rw [hskip] at hq
  obtain ⟨mid, hmid, hnil⟩ : LineStep s p [] := by
    simpa using lineStep_exchange hs hne stops_nil fun _ _ => stops_nil
  have hp : p ≠ [] := by
    rintro rfl
    exact absurd (properEnd_of_statementAt hmid).2 (Nat.not_lt_zero _)
  have hhead : p.head? = (p ++ rest).head? := by
    have hsplit : (p ++ []).head? = (p ++ rest).head? := head?_append_of_ne_nil hp
    rwa [List.append_nil] at hsplit
  refine ⟨q, hq.symm, statementOnly_eq_ok_iff_reads.2 ⟨mid, ?_, hnil⟩⟩
  have hskip' : skipTrivia (q ++ (p ++ rest)) = p ++ rest := by rw [hq, hskip]
  rw [steps_skipTrivia.exchange hskip' hhead]
  exact hmid

/-- What the program makes of the text behind its first statement. -/
theorem programParse_behind {src : String} {before : List Char} (hsrc : src.toList = before ++ rest)
    (hs : LineStep s (skipTrivia src.toList) rest) (hne : rest ≠ []) :
    (∃ t ts, Program.parse src = .ok ⟨s :: t :: ts⟩) ∨
      ∃ d', Program.parse src = .error d' ∧ d' ≠ (Fault.trailing rest).diagnose src.toList ∧
        ((Fault.trailing rest).diagnose src.toList).location.offset ≤ d'.location.offset := by
  have hread := read_statements_of_lineStep hs
  have hfault := fault_statements_of_lineStep hs
  cases hrest : (statements rest).fault with
  | none =>
    -- The text that is left holds a statement, as it is not empty.
    obtain ⟨t, ts, hts⟩ : ∃ t ts, (statements rest).read = t :: ts := by
      have hlines := lines_of_statements rest hrest
      generalize (statements rest).read = ss at hlines
      cases hlines with
      | nil => exact absurd rfl hne
      | last => exact ⟨_, _, rfl⟩
      | cons => exact ⟨_, _, rfl⟩
    refine Or.inl ⟨t, ts, diagnosed_eq_ok_iff.2 (result_eq_ok_iff.2 ?_)⟩
    rw [Reading.ofSource, hfault, hread, hts]
    exact ⟨hrest, rfl⟩
  | some fault =>
    obtain ⟨p, -, rfl, -⟩ := statements_fails.completable hrest
    have hdiagnose : fault.diagnose src.toList = ⟨fault.cause, .after (before ++ p)⟩ := by
      rw [hsrc, ← List.append_assoc, diagnose_append]
    have htrailing : (Fault.trailing (p ++ fault.rest)).diagnose src.toList =
        ⟨.trailing (describe (p ++ fault.rest)), .after before⟩ := by
      rw [hsrc]
      exact diagnose_append before (.trailing (p ++ fault.rest))
    refine Or.inr ⟨fault.diagnose src.toList, diagnosed_eq_error_iff.2 ⟨fault, ?_, rfl⟩, ?_, ?_⟩
    · rw [result_eq_error_iff, Reading.ofSource, hfault, hrest]
    · rw [hdiagnose, htrailing]
      intro h
      obtain ⟨hcause, hlocation⟩ := Diagnostic.mk.inj h
      have hoffset : byteLength (before ++ p) = byteLength before :=
        congrArg Location.offset hlocation
      rw [byteLength_append] at hoffset
      obtain rfl := eq_nil_of_byteLength_eq_zero (x := p) (by omega)
      rw [List.nil_append] at hrest hcause
      have hnot : (statements fault.rest).fault ≠ some ⟨.trailing (describe fault.rest), fault.rest⟩ :=
        fault_statements_ne_trailing
      rw [← hcause] at hnot
      exact hnot hrest
    · rw [hdiagnose, htrailing]
      show byteLength before ≤ byteLength (before ++ p)
      rw [byteLength_append]
      exact Nat.le_add_right ..

/-! ### Both entry points -/

theorem goesOn_of_lineStep {src : String} (hs : LineStep s (skipTrivia src.toList) rest)
    (hne : rest ≠ []) : GoesOn src ((Fault.trailing rest).diagnose src.toList) := by
  obtain ⟨p, hp⟩ := (steps_lineStep s).suffix hs
  obtain ⟨q, hq, hone⟩ := statementOnly_of_lineStep hp.symm (hp ▸ hs) hne
  rw [← List.append_assoc] at hq
  refine ⟨s, .ofList (q ++ p), .ofList rest, ?_, ⟨_, rfl⟩, ?_, ?_, programParse_behind hq hs hne⟩
  · rw [← String.ofList_append, ← hq, String.ofList_toList]
  · rw [hq, String.toList_ofList]
    exact congrArg (·.location.offset) (diagnose_append (q ++ p) (.trailing rest))
  · rw [programParse_eq_ok_iff, String.toList_ofList]
    exact statementOnly_eq_ok_iff.1 hone

theorem nothingRead_of_skipTrivia {src : String} (h : skipTrivia src.toList = []) :
    NothingRead src
      ((Fault.unexpected "a label, instruction or data directive" []).diagnose src.toList) where
  empty := by
    refine diagnosed_eq_ok_iff.2 (result_eq_ok_iff.2 ?_)
    rw [Reading.ofSource, h, statements_nil]
    exact ⟨rfl, rfl⟩
  cause_eq := rfl
  at_end := by
    have hlies := diagnose_append src.toList (.unexpected "a label, instruction or data directive" [])
    rw [Fault.unexpected, List.append_nil] at hlies
    rw [Fault.unexpected, hlies]
    rfl

/-- The loop finds the fault of its first statement. -/
theorem programParse_of_statementAt {src : String} (hne : skipTrivia src.toList ≠ [])
    (h : statementAt (skipTrivia src.toList) = .error fault) :
    Program.parse src = .error (fault.diagnose src.toList) := by
  refine diagnosed_eq_error_iff.2 ⟨fault, result_eq_error_iff.2 ?_, rfl⟩
  rw [Reading.ofSource, statements_of_error hne h]

theorem statementParse_error_cases {src : String} {d : Diagnostic}
    (h : Statement.parse src = .error d) :
    Program.parse src = .error d ∨ NothingRead src d ∨ GoesOn src d := by
  obtain ⟨fault, hfault, rfl⟩ := diagnosed_eq_error_iff.1 h
  rcases statementOnly_eq_error_iff.1 hfault with hat | ⟨s, mid, hat, hne, rfl⟩
  · by_cases hnil : skipTrivia src.toList = []
    · rw [hnil] at hat
      cases hat
      exact Or.inr (Or.inl (nothingRead_of_skipTrivia hnil))
    · exact Or.inl (programParse_of_statementAt hnil hat)
  · exact Or.inr (Or.inr (goesOn_of_lineStep ⟨mid, hat, rfl⟩ hne))

/-- A source is one statement just where it is a program of that statement alone. Any other source has
the same error in both readings, or holds no statement, or goes on behind its first one. -/
theorem statementParse_agrees_programParse (src : String) :
    (∀ s, Statement.parse src = .ok s ↔ Program.parse src = .ok ⟨[s]⟩) ∧
      ∀ d, Statement.parse src = .error d →
        ExactlyOne (Program.parse src = .error d) (NothingRead src d) (GoesOn src d) := by
  refine ⟨fun s => statementParse_eq_ok_iff.trans programParse_eq_ok_iff.symm, fun d h => ?_⟩
  refine ⟨statementParse_error_cases h, ?_, ?_, ?_⟩
  · rintro ⟨herror, hnothing⟩
    rw [hnothing.empty] at herror
    contradiction
  · rintro ⟨herror, s, before, rest, hgoes⟩
    rcases hgoes.program with ⟨t, ts, hok⟩ | ⟨d', herror', hne, _⟩
    · rw [hok] at herror
      contradiction
    · rw [herror'] at herror
      exact hne (Except.error.inj herror)
  · rintro ⟨hnothing, s, before, rest, hgoes⟩
    obtain ⟨found, htrailing⟩ := hgoes.trailing
    rw [hnothing.cause_eq] at htrailing
    contradiction

end DcpuAsm
