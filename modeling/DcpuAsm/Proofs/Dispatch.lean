import DcpuAsm.Proofs.Fails.Statement
import DcpuAsm.Proofs.Offsets

/-!
Which rule reads what stands at an offset. Wherever the grammar has alternatives no two of them apply
at the same place, so their order is no matter and an error in one of them stands
(`Match.Chooses`). A statement is known by its first character and, where that is a letter, by the
whole word there: `OpensStatement` are the words that one of the rules takes, and any other is
refused as a word. Main statement: `dispatch_exact`.
-/

namespace DcpuAsm

open Grammar (IsIdentifier)

/-! ### Choices -/

namespace Match

variable {π ε α : Type} {m fallback answer : Match π ε α} {ms ns : List (Match π ε α)}

/-- Ordered choice between outcomes: the first that applies. -/
def firstOf : List (Match π ε α) → Match π ε α
  | [] => noMatch
  | m :: ms => m.orElse fun _ => firstOf ms

/-- No two of the outcomes apply. -/
def Exclusive (ms : List (Match π ε α)) : Prop :=
  ms.Pairwise fun m n => m = noMatch ∨ n = noMatch

/-- A choice whose order is no matter. At most one of the outcomes applies. Tried in any order, with
the fallback last, they give the answer, and the one that applies is the answer even if it is an
error. -/
structure Chooses (ms : List (Match π ε α)) (fallback answer : Match π ε α) : Prop where
  exclusive : Exclusive ms
  anyOrder : ∀ ns, ns.Perm ms → firstOf (ns ++ [fallback]) = answer
  committed : ∀ m ∈ ms, m ≠ noMatch → answer = m

theorem orElse_noMatch (m : Match π ε α) : (m.orElse fun _ => noMatch) = m := by cases m <;> rfl

/-- Where none of the outcomes applies, those behind them decide. -/
theorem firstOf_append_of_forall (h : ∀ m ∈ ms, m = noMatch) (ns : List (Match π ε α)) :
    firstOf (ms ++ ns) = firstOf ns := by
  induction ms with
  | nil => rfl
  | cons m ms ih =>
    rw [List.forall_mem_cons] at h
    rw [List.cons_append, firstOf, h.1, noMatch_orElse, ih h.2]

/-- The one outcome that applies is the first that does, wherever it stands. -/
theorem Exclusive.firstOf_append_eq (h : Exclusive ms) (hm : m ∈ ms) (hne : m ≠ noMatch)
    (ns : List (Match π ε α)) : firstOf (ms ++ ns) = m := by
  induction ms with
  | nil => contradiction
  | cons n ms ih =>
    obtain ⟨hhead, htail⟩ := List.pairwise_cons.1 h
    rw [List.cons_append, firstOf]
    rcases List.mem_cons.1 hm with rfl | hmem
    · exact orElse_of_ne_noMatch hne _
    · rw [(hhead m hmem).resolve_right hne, noMatch_orElse, ih htail hmem]

theorem Exclusive.perm (h : Exclusive ms) (hp : ns.Perm ms) : Exclusive ns :=
  (hp.pairwise_iff fun {_ _} hor => hor.symm).2 h

/-- Outcomes of which no two apply may be tried in any order. -/
theorem Exclusive.chooses (h : Exclusive ms) (hanswer : firstOf (ms ++ [fallback]) = answer) :
    Chooses ms fallback answer where
  exclusive := h
  anyOrder ns hp := by
    rw [← hanswer]
    by_cases hall : ∀ m ∈ ms, m = noMatch
    · rw [firstOf_append_of_forall hall, firstOf_append_of_forall]
      exact fun m hm => hall m (hp.subset hm)
    · obtain ⟨m, hm, hne⟩ : ∃ m ∈ ms, m ≠ noMatch := by simpa using hall
      rw [h.firstOf_append_eq hm hne, (h.perm hp).firstOf_append_eq (hp.symm.subset hm) hne]
  committed m hm hne := hanswer.symm.trans (h.firstOf_append_eq hm hne _)

/-- The same of two outcomes, one behind the other. -/
theorem chooses_pair {n : Match π ε α} (h : m = noMatch ∨ n = noMatch) :
    Chooses [m, n] noMatch (m.orElse fun _ => n) := by
  refine Exclusive.chooses (List.pairwise_pair.2 h) ?_
  simp only [List.cons_append, List.nil_append, firstOf, orElse_noMatch]

end Match

/-! ### The rules for statements -/

section

variable {cs : List Char} {arity : Arity}

theorem dataDirective_eq_noMatch_iff : dataDirective cs = .noMatch ↔
    ∀ word mid, identifier? cs = some (word, mid) → isDataKeyword word = false := by
  rw [dataDirective]
  split
  · next word mid h => simp [h]
  · next h => simp [h]

theorem instruction_eq_noMatch_iff : instruction arity cs = .noMatch ↔
    ∀ word mid, identifier? cs = some (word, mid) → arity? word ≠ some arity := by
  rw [instruction]
  split
  · next word mid h => simp [h]
  · next h => simp [h]

/-- At a colon there is no word for the other rules. -/
theorem identifier?_eq_none_of_label (h : label cs ≠ .noMatch) : identifier? cs = none := by
  obtain ⟨ds, rfl⟩ := (eq_cons_or_stops ':' cs).resolve_right (mt label_eq_noMatch_iff.2 h)
  exact identifier?_eq_none_iff.2 (stops_cons.2 (by decide))

theorem label_or_dataDirective (cs : List Char) :
    label cs = .noMatch ∨ dataDirective cs = .noMatch := by
  refine (Decidable.em (label cs = .noMatch)).imp_right fun h => ?_
  rw [dataDirective_eq_noMatch_iff, identifier?_eq_none_of_label h]
  exact nofun

theorem label_or_instruction (arity : Arity) (cs : List Char) :
    label cs = .noMatch ∨ instruction arity cs = .noMatch := by
  refine (Decidable.em (label cs = .noMatch)).imp_right fun h => ?_
  rw [instruction_eq_noMatch_iff, identifier?_eq_none_of_label h]
  exact nofun

/-- The keyword of data directives is no mnemonic. -/
theorem dataDirective_or_instruction (arity : Arity) (cs : List Char) :
    dataDirective cs = .noMatch ∨ instruction arity cs = .noMatch := by
  rw [dataDirective_eq_noMatch_iff, instruction_eq_noMatch_iff]
  cases identifier? cs with
  | none => exact Or.inl nofun
  | some p =>
    cases hdata : isDataKeyword p.1 with
    | false => exact Or.inl (by rintro _ _ ⟨⟩; exact hdata)
    | true =>
      refine Or.inr ?_
      rintro _ _ ⟨⟩
      rw [arity?_eq_none_of_isDataKeyword hdata]
      exact nofun

/-- A mnemonic has one arity. -/
theorem instruction_or_instruction (cs : List Char) :
    instruction .binary cs = .noMatch ∨ instruction .unary cs = .noMatch := by
  rw [instruction_eq_noMatch_iff, instruction_eq_noMatch_iff]
  cases identifier? cs with
  | none => exact Or.inl nofun
  | some p =>
    cases harity : arity? p.1 with
    | none => exact Or.inl (by rintro _ _ ⟨⟩; simp [harity])
    | some a =>
      cases a with
      | unary => exact Or.inl (by rintro _ _ ⟨⟩; simp [harity])
      | binary => exact Or.inr (by rintro _ _ ⟨⟩; simp [harity])

end

/-! ### The rules for items, operands and terms -/

section

variable {α β : Type} {rule : List Char → Attempt α} {later : List Char → Attempt β}
variable {p q goesOn goesOn' : Char → Bool}

/-- A text does not start with characters of two classes that share none. -/
theorem stops_or_stops (h : ∀ c, q c = true → p c = false) (cs : List Char) :
    Stops p cs ∨ Stops q cs := by
  cases cs with
  | nil => exact Or.inl stops_nil
  | cons c cs =>
    cases hq : q c with
    | true => exact Or.inl (h c hq)
    | false => exact Or.inr hq

theorem Reads.noMatch_or {Is : List Char → α → Prop} {Is' : List Char → β → Prop}
    (h : Reads rule Is p goesOn) (h' : Reads later Is' q goesOn')
    (hdisj : ∀ c, q c = true → p c = false) (cs : List Char) :
    rule cs = .noMatch ∨ later cs = .noMatch := by
  rw [h.noMatch_iff, h'.noMatch_iff]
  exact stops_or_stops hdisj cs

/-- A term that is an identifier. -/
def nameTerm (cs : List Char) : Attempt Expression :=
  match identifier? cs with
  | some (name, next) => .matched (.identifier name) next
  | none => .noMatch

theorem nameTerm_eq_noMatch_iff {cs : List Char} :
    nameTerm cs = .noMatch ↔ Stops Char.isAlpha cs := by
  rw [← identifier?_eq_none_iff, nameTerm]
  split
  · next h => simp [h]
  · next h => simp [h]

theorem term_eq_orElse : term = fun cs => (nameTerm cs).orElse fun _ => (number cs).map .number := by
  funext cs
  cases h : identifier? cs with
  | some p => simp [term, nameTerm, h, Match.orElse]
  | none => simp [term, nameTerm, h]

end

/-! ### Words -/

/-- Three ASCII letters. -/
def IsThreeLetters (word : String) : Prop :=
  word.length = 3 ∧ ∀ c ∈ word.toList, c.isAlpha = true

/-- The word opens a statement: it is the keyword of data directives in some case, or three letters
that are in one of the tables in upper case. -/
def OpensStatement (word : String) : Prop :=
  upperCase word = "DAT" ∨
    IsThreeLetters word ∧ (upperCase word ∈ binaryMnemonics ∨ upperCase word ∈ unaryMnemonics)

section

variable {word : String} {mid cs : List Char} {fault : Fault}

theorem isThreeLetters_iff :
    IsThreeLetters word ↔ word.length = 3 ∧ word.toList.all Char.isAlpha = true := by
  rw [IsThreeLetters, List.all_eq_true]

/-- The tables hold words of three letters only, so the test for them changes nothing. -/
theorem not_opensStatement_iff : ¬ OpensStatement word ↔
    upperCase word ≠ "DAT" ∧ upperCase word ∉ binaryMnemonics ∧ upperCase word ∉ unaryMnemonics := by
  have hletters (h : upperCase word ∈ binaryMnemonics ∨ upperCase word ∈ unaryMnemonics) :
      IsThreeLetters word := by
    rw [IsThreeLetters, ← String.length_toList]
    exact three_letters_of_mnemonic h
  rw [OpensStatement, and_iff_right_of_imp hletters, not_or, not_or]

theorem body?_eq_none_iff_not_opens (mid : List Char) :
    body? word mid = none ↔ ¬ OpensStatement word := by
  rw [body?_eq_none_iff, not_opensStatement_iff]

/-- What is wrong behind a word that opens a statement lies behind the word. -/
theorem suffix_of_body? (h : body? word mid = some (.error fault)) : fault.rest <:+ mid := by
  obtain ⟨p, _, hp, _⟩ := (body?_fails word).completable h
  exact ⟨p, hp.symm⟩

end

namespace Source

variable {α : Type} {s : Source} {pos : Nat} {rule later : List Char → Attempt α} {word : String}
variable {mid : List Char}

/-- What the rules for statements find at an offset, but for the one that refuses words. -/
def starters (s : Source) (pos : Nat) : List (Match Nat Diagnostic Statement) :=
  [s.scan label pos, s.scan dataDirective pos, s.scan (instruction .binary) pos,
    s.scan (instruction .unary) pos]

/-- The text at an offset starts with the word, a letter and all the letters and digits behind it. -/
def StartsWithWord (s : Source) (pos : Nat) (word : String) : Prop :=
  ∃ rest, s.restAt pos = word.toList ++ rest ∧ IsIdentifier word.toList ∧ Stops Char.isAlphanum rest

/-- A word decides whether it is refused as such, which is so unless it opens a statement. Three
letters are refused as a mnemonic and other words as none. -/
structure DecidesByWord (s : Source) (pos : Nat) (word : String) : Prop where
  reached_iff : (∀ m ∈ s.starters pos, m = .noMatch) ↔ ¬ OpensStatement word
  answers_iff : s.scan statement pos = s.scan unknownWord pos ↔ ¬ OpensStatement word
  threeLetters : IsThreeLetters word →
    s.scan unknownWord pos = .failed ⟨.unknownMnemonic word, s.locationAt pos⟩
  otherWord : ¬ IsThreeLetters word →
    s.scan unknownWord pos = .failed (s.unexpectedAt pos "a three-letter mnemonic")

/-! ### Rules at an offset -/

theorem scan_eq_noMatch_iff : s.scan rule pos = .noMatch ↔ rule (s.restAt pos) = .noMatch := by
  unfold scan
  split <;> simp_all

theorem scan_orElse (rule later : List Char → Attempt α) :
    (s.scan rule pos).orElse (fun _ => s.scan later pos) =
      s.scan (fun cs => (rule cs).orElse fun _ => later cs) pos := by
  simp only [scan]
  cases rule (s.restAt pos) <;> rfl

theorem scan_map {β : Type} (rule : List Char → Attempt α) (f : α → β) :
    (s.scan rule pos).map f = s.scan (fun cs => (rule cs).map f) pos := by
  simp only [scan]
  cases rule (s.restAt pos) <;> rfl

/-! ### Statements -/

theorem firstOf_starters : Match.firstOf (s.starters pos ++ [s.scan unknownWord pos]) =
    s.scan statement pos := by
  simp only [starters, List.cons_append, List.nil_append, Match.firstOf, Match.orElse_noMatch,
    scan_orElse]
  rfl

theorem exclusive_starters (s : Source) (pos : Nat) : Match.Exclusive (s.starters pos) := by
  have hone := label_or_dataDirective (s.restAt pos)
  have htwo (arity : Arity) := label_or_instruction arity (s.restAt pos)
  have hthree (arity : Arity) := dataDirective_or_instruction arity (s.restAt pos)
  have hfour := instruction_or_instruction (s.restAt pos)
  simp [Match.Exclusive, starters, scan_eq_noMatch_iff, hone, htwo, hthree, hfour]

theorem scan_statement_eq_noMatch_iff : s.scan statement pos = .noMatch ↔
    ∀ c, s.peek? pos = some c → c ≠ ':' ∧ c.isAlpha = false := by
  rw [scan_eq_noMatch_iff, statement_eq_noMatch_iff, peek?]
  cases s.restAt pos with
  | nil => simp
  | cons c cs => simp [startsStatement]

/-- No rule takes a word that opens no statement, and one takes a word that does. -/
theorem forall_starters_iff (h : identifier? (s.restAt pos) = some (word, mid)) :
    (∀ m ∈ s.starters pos, m = .noMatch) ↔ ¬ OpensStatement word := by
  have hlabel := label_eq_noMatch_of_identifier? h
  have hdata : dataDirective (s.restAt pos) = .noMatch ↔ upperCase word ≠ "DAT" := by
    simp [dataDirective_eq_noMatch_iff, h, ← isDataKeyword_iff]
  have hinstruction (arity : Arity) :
      instruction arity (s.restAt pos) = .noMatch ↔ upperCase word ∉ arity.mnemonics := by
    simp [instruction_eq_noMatch_iff, h, ← arity?_eq_some_iff]
  simp only [starters, List.forall_mem_cons, scan_eq_noMatch_iff, hlabel, hdata, hinstruction,
    not_opensStatement_iff, Arity.mnemonics]
  simp

/-- An error behind the first word does not lie at the word. -/
theorem diagnose_ne_of_suffix {fault : Fault} {cause : Cause}
    (h : identifier? (s.restAt pos) = some (word, mid)) (hfault : fault.rest <:+ mid) :
    fault.diagnose s.chars ≠ ⟨cause, s.locationAt pos⟩ := by
  have hend : ProperEnd fault.rest (s.restAt pos) := (properEnd_of_identifier? h).of_isSuffix hfault
  obtain ⟨hplace, hbehind, hlt⟩ := leaves_of_properEnd hend
  rw [hbehind.diagnose_eq, Ne, Diagnostic.mk.injEq, not_and]
  intro _ hlocation
  have hoffset := congrArg Location.offset hlocation
  rw [hbehind.offset_locationAt, hplace.offset_locationAt] at hoffset
  exact absurd hoffset (Nat.ne_of_gt hlt)

/-- The rule for what stands behind a word does not answer what the refusal of the word does. -/
theorem scan_statement_ne {body : Committed (Statement × List Char)}
    (h : identifier? (s.restAt pos) = some (word, mid)) (hbody : body? word mid = some body) :
    s.scan statement pos ≠ s.scan unknownWord pos := by
  have hstatement := statement_of_identifier? h
  rw [hbody] at hstatement
  have hplace := (leaves_of_properEnd (properEnd_of_identifier? h)).1
  rw [scan_of_failed (unknownWord_eq_wordCause h), hplace.diagnose_eq]
  cases body with
  | ok p =>
    rw [scan_of_matched hstatement]
    exact nofun
  | error fault =>
    rw [scan_of_failed hstatement, Ne, Match.failed.injEq]
    exact diagnose_ne_of_suffix h (suffix_of_body? hbody)

theorem decidesByWord (h : identifier? (s.restAt pos) = some (word, mid)) :
    s.DecidesByWord pos word where
  reached_iff := forall_starters_iff h
  answers_iff := by
    refine ⟨fun hsame => ?_, fun hopens => ?_⟩
    · rw [← body?_eq_none_iff_not_opens mid, Option.eq_none_iff_forall_ne_some]
      exact fun body hbody => scan_statement_ne h hbody hsame
    · rw [← firstOf_starters, Match.firstOf_append_of_forall ((forall_starters_iff h).2 hopens)]
      exact Match.orElse_noMatch _
  threeLetters hletters := by
    have hunknown := unknownWord_eq h
    rw [if_pos (isThreeLetters_iff.1 hletters)] at hunknown
    rw [scan_of_failed hunknown, (leaves_of_properEnd (properEnd_of_identifier? h)).1.diagnose_eq]
  otherWord hletters := by
    have hunknown := unknownWord_eq h
    rw [if_neg (mt isThreeLetters_iff.2 hletters)] at hunknown
    rw [scan_of_failed hunknown,
      (leaves_of_properEnd (properEnd_of_identifier? h)).1.diagnose_unexpected]

/-! ### Items, operands and terms -/

/-- Two rules that never both apply, one behind the other. -/
theorem chooses_scan (h : ∀ cs, rule cs = .noMatch ∨ later cs = .noMatch) (s : Source) (pos : Nat) :
    Match.Chooses [s.scan rule pos, s.scan later pos] .noMatch
      (s.scan (fun cs => (rule cs).orElse fun _ => later cs) pos) := by
  rw [← scan_orElse]
  refine Match.chooses_pair ?_
  rw [scan_eq_noMatch_iff, scan_eq_noMatch_iff]
  exact h _

theorem chooses_dataItem (s : Source) (pos : Nat) :
    Match.Chooses [(s.scan stringLiteral pos).map .string, (s.scan number pos).map .number] .noMatch
      (s.scan dataItem pos) := by
  rw [scan_map, scan_map]
  refine chooses_scan (fun cs => ?_) s pos
  rw [Match.map_eq_noMatch, Match.map_eq_noMatch]
  exact stringLiteral_reads.noMatch_or number_reads (fun _ => ne_quote_of_isDigit) cs

theorem chooses_expression (s : Source) (pos : Nat) :
    Match.Chooses [s.scan addressOf pos, s.scan flatExpression pos] .noMatch
      (s.scan expression pos) :=
  chooses_scan (addressOf_reads.noMatch_or flatExpression_reads fun _ => ne_bracket_of_isAlphanum)
    s pos

theorem chooses_term (s : Source) (pos : Nat) :
    Match.Chooses [s.scan nameTerm pos, (s.scan number pos).map .number] .noMatch
      (s.scan term pos) := by
  rw [scan_map, term_eq_orElse]
  refine chooses_scan (fun cs => ?_) s pos
  rw [nameTerm_eq_noMatch_iff, Match.map_eq_noMatch, number_reads.noMatch_iff]
  exact stops_or_stops (fun _ => isAlpha_eq_false_of_isDigit) cs

/-! ### All choices -/

/-- At every offset of every source the alternatives of the grammar exclude each other, so that their
order is no matter and no error of one gives way to another. A statement is missed just where neither
a colon nor a letter stands, and a word there is refused just where it opens no statement. -/
theorem dispatch_exact (s : Source) (pos : Nat) :
    Match.Chooses (s.starters pos) (s.scan unknownWord pos) (s.scan statement pos) ∧
    (s.scan statement pos = .noMatch ↔ ∀ c, s.peek? pos = some c → c ≠ ':' ∧ c.isAlpha = false) ∧
    (∀ word, s.StartsWithWord pos word → s.DecidesByWord pos word) ∧
    Match.Chooses [(s.scan stringLiteral pos).map .string, (s.scan number pos).map .number] .noMatch
      (s.scan dataItem pos) ∧
    Match.Chooses [s.scan addressOf pos, s.scan flatExpression pos] .noMatch
      (s.scan expression pos) ∧
    Match.Chooses [s.scan nameTerm pos, (s.scan number pos).map .number] .noMatch
      (s.scan term pos) := by
  refine ⟨(s.exclusive_starters pos).chooses firstOf_starters, scan_statement_eq_noMatch_iff, ?_,
    s.chooses_dataItem pos, s.chooses_expression pos, s.chooses_term pos⟩
  rintro word ⟨rest, hword⟩
  exact decidesByWord (identifier?_eq_some_iff.2 hword)

end Source

end DcpuAsm
