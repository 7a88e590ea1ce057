import DcpuAsm.Respelling
import DcpuAsm.Proofs.Exactness
import DcpuAsm.Proofs.Fails.Program
import DcpuAsm.Proofs.Lockstep
import DcpuAsm.Proofs.Position

/-!
The case of letters. A source in lower case stands for the same program, in lower case: the grammar
tells letters apart nowhere but in the mark `0x`, which it wants in lower case already
(`Grammar.Derives.lower`). Only where `0X` stands can the two sources be read differently, and apart
from that the reader goes through both in lockstep (`lockstep_lower`) and comes to the same errors.
Main statement: `parse_lower`.
-/

namespace DcpuAsm

open Grammar (IsWord IsIdentifier IsNumber IsTerm IsFlat IsOperand IsItem Trivia Gap Items Line Lines
  Derives)

variable {α : Type} {p : Char → Bool} {c m : Char} {cs ds w next rest : List Char}
variable {a b name : String} {d e : Expression} {i j : DataItem} {s t : Statement}
variable {ss : List Statement} {fault : Fault}

/-- An answer about a source, in lower case. -/
def loweredAnswer : Except Diagnostic Program → Except Diagnostic Program
  | .ok p => .ok p.lower
  | .error d => .error d.lower

/-- A name and the same name in lower case. -/
def IsLowerOf (a b : String) : Prop := b = lower a

/-! ### Characters -/

/-- The function does not tell a letter from its lower case. -/
def IgnoresCase (f : Char → α) : Prop := ∀ c : Char, f c.toLower = f c

/-- Only ASCII characters have another character in lower case. -/
theorem toLower_of_le (h : 128 ≤ c.toNat) : c.toLower = c := by
  unfold Char.toLower
  split
  · next hc =>
    have hz : c.toNat ≤ 'Z'.toNat := UInt32.le_iff_toNat_le.1 hc.2
    exact absurd (Nat.le_trans h hz) (by decide)
  · rfl

theorem ignoresCase_of_ascii {f : Char → α}
    (h : ∀ n < 128, f (Char.ofNat n).toLower = f (.ofNat n)) : IgnoresCase f := by
  intro c
  by_cases hc : c.toNat < 128
  · exact of_ascii (P := fun c => f c.toLower = f c) h hc
  · rw [toLower_of_le (Nat.le_of_not_lt hc)]

theorem ignoresCase_isAlpha : IgnoresCase Char.isAlpha := ignoresCase_of_ascii (by decide)

theorem ignoresCase_isDigit : IgnoresCase Char.isDigit := ignoresCase_of_ascii (by decide)

theorem ignoresCase_isAlphanum : IgnoresCase Char.isAlphanum := ignoresCase_of_ascii (by decide)

theorem ignoresCase_isHexDigit : IgnoresCase Char.isHexDigit := ignoresCase_of_ascii (by decide)

theorem ignoresCase_digitValue : IgnoresCase digitValue := ignoresCase_of_ascii (by decide)

theorem ignoresCase_toUpper : IgnoresCase Char.toUpper := ignoresCase_of_ascii (by decide)

theorem ignoresCase_utf8Size : IgnoresCase Char.utf8Size := ignoresCase_of_ascii (by decide)

theorem ignoresCase_isBlank : IgnoresCase isBlank := ignoresCase_of_ascii (by decide)

theorem ignoresCase_startsTrivia : IgnoresCase startsTrivia := ignoresCase_of_ascii (by decide)

theorem ignoresCase_isStringChar : IgnoresCase isStringChar := ignoresCase_of_ascii (by decide)

theorem toLower_of_not_isAlpha (h : c.isAlpha = false) : c.toLower = c := by
  unfold Char.toLower
  split
  · next hc =>
    unfold Char.isAlpha Char.isUpper at h
    rw [Bool.or_eq_false_iff, decide_eq_false_iff_not] at h
    exact absurd hc h.1
  · rfl

/-- What is no letter is the lower case of itself only. -/
theorem ignoresCase_beq (hm : m.isAlpha = false) : IgnoresCase (· == m) := by
  intro c
  dsimp only
  cases hc : c.isAlpha with
  | true =>
    have hne : ∀ d : Char, d.isAlpha = true → (d == m) = false := by
      intro d hd
      rw [beq_eq_false_iff_ne]
      rintro rfl
      rw [hm] at hd
      contradiction
    rw [hne c hc, hne _ ((ignoresCase_isAlpha c).trans hc)]
  | false => rw [toLower_of_not_isAlpha hc]

theorem toLower_eq_iff (hm : IgnoresCase (· == m)) : c.toLower = m ↔ c = m := by
  have hc : (c.toLower == m) = (c == m) := hm c
  rw [← beq_iff_eq, hc, beq_iff_eq]

theorem ignoresCase_newline : IgnoresCase (· == '\n') := ignoresCase_beq (by decide)

theorem ignoresCase_mark (hm : m ∈ marks) : IgnoresCase (· == m) := by
  have hmarks : ∀ m ∈ marks, m.isAlpha = false := by simp [marks]
  exact ignoresCase_beq (hmarks m hm)

/-! ### Texts -/

theorem lower_ofList (w : List Char) : lower (.ofList w) = .ofList (w.map Char.toLower) := by
  rw [lower, String.toList_ofList]

theorem toList_lower (text : String) : (lower text).toList = text.toList.map Char.toLower := by
  rw [lower, String.toList_ofList]

theorem lower_append (a b : String) : lower (a ++ b) = lower a ++ lower b := by
  rw [lower, String.toList_append, List.map_append, String.ofList_append]
  rfl

theorem lower_singleton (c : Char) : lower (.singleton c) = .singleton c.toLower := by
  rw [lower, String.toList_singleton, List.map_singleton, ← String.singleton_eq_ofList]

theorem stops_lower_iff (hp : IgnoresCase p) : Stops p (cs.map Char.toLower) ↔ Stops p cs := by
  cases cs with
  | nil => exact Iff.rfl
  | cons c cs => rw [List.map_cons, stops_cons, stops_cons, hp]

theorem takeWhile_lower (hp : IgnoresCase p) (cs : List Char) :
    (cs.map Char.toLower).takeWhile p = (cs.takeWhile p).map Char.toLower := by
  rw [List.takeWhile_map, show p ∘ Char.toLower = p from funext hp]

theorem dropWhile_lower (hp : IgnoresCase p) (cs : List Char) :
    (cs.map Char.toLower).dropWhile p = (cs.dropWhile p).map Char.toLower := by
  rw [List.dropWhile_map, show p ∘ Char.toLower = p from funext hp]

theorem forall_mem_lower (hp : IgnoresCase p) (h : ∀ c ∈ w, p c = true) :
    ∀ c ∈ w.map Char.toLower, p c = true := by
  rw [List.forall_mem_map]
  exact fun c hc => (hp c).trans (h c hc)

theorem mem_lower_iff (hm : IgnoresCase (· == m)) : m ∈ cs.map Char.toLower ↔ m ∈ cs := by
  simp only [List.mem_map, toLower_eq_iff hm, exists_eq_right]

theorem upperCase_lower (word : String) : upperCase (lower word) = upperCase word := by
  rw [upperCase, toList_lower, List.map_map, show Char.toUpper ∘ Char.toLower = Char.toUpper from
    funext ignoresCase_toUpper, upperCase]

theorem arity?_lower (word : String) : arity? (lower word) = arity? word := by
  rw [arity?, arity?, upperCase_lower]

theorem isDataKeyword_lower (word : String) : isDataKeyword (lower word) = isDataKeyword word := by
  rw [isDataKeyword, isDataKeyword, upperCase_lower]

theorem numeralValue_lower (base : Nat) (ds : List Char) :
    numeralValue base (ds.map Char.toLower) = numeralValue base ds := by
  rw [numeralValue, List.foldl_map]
  simp only [ignoresCase_digitValue _, numeralValue]

/-! ### Derivations -/

theorem Grammar.IsWord.lower (h : IsWord w) : IsWord (w.map Char.toLower) :=
  ⟨mt List.map_eq_nil_iff.1 h.1, forall_mem_lower ignoresCase_isAlphanum h.2⟩

theorem Grammar.IsIdentifier.lower (h : IsIdentifier w) : IsIdentifier (w.map Char.toLower) := by
  obtain ⟨hw, c, cs, rfl, hc⟩ := h
  exact ⟨hw.lower, _, _, List.map_cons, (ignoresCase_isAlpha c).trans hc⟩

theorem Grammar.IsNumber.lower {v : UInt16} (h : IsNumber w v) : IsNumber (w.map Char.toLower) v := by
  cases h with
  | decimal hne hdigits hvalue =>
    exact .decimal (mt List.map_eq_nil_iff.1 hne) (forall_mem_lower ignoresCase_isDigit hdigits)
      ((numeralValue_lower 10 w).trans hvalue)
  | hexadecimal hne hdigits hvalue =>
    exact .hexadecimal (mt List.map_eq_nil_iff.1 hne) (forall_mem_lower ignoresCase_isHexDigit hdigits)
      ((numeralValue_lower 16 _).trans hvalue)

theorem Grammar.IsTerm.lower (h : IsTerm w e) : IsTerm (w.map Char.toLower) e.lower := by
  cases h with
  | identifier hw =>
    rw [Expression.lower, lower_ofList]
    exact .identifier hw.lower
  | number hw => exact .number hw.lower

theorem Grammar.IsFlat.lower (h : IsFlat w e) : IsFlat (w.map Char.toLower) e.lower := by
  cases h with
  | term ht => exact .term ht.lower
  | sum hl hr =>
    rw [List.map_append, List.map_cons]
    exact .sum hl.lower hr.lower

theorem Grammar.IsOperand.lower (h : IsOperand w e) : IsOperand (w.map Char.toLower) e.lower := by
  cases h with
  | flat hf => exact .flat hf.lower
  | addressOf hf =>
    rw [List.map_append, List.map_cons]
    exact .addressOf hf.lower

theorem Grammar.IsItem.lower (h : IsItem w i) : IsItem (w.map Char.toLower) i.lower := by
  cases h with
  | string hquote hline =>
    rw [DataItem.lower, lower_ofList, List.map_append, List.map_cons]
    exact .string (mt (mem_lower_iff (ignoresCase_beq (by decide))).1 hquote)
      (mt (mem_lower_iff ignoresCase_newline).1 hline)
  | number hw => exact .number hw.lower

theorem Grammar.Trivia.lower (h : Trivia cs rest) :
    Trivia (cs.map Char.toLower) (rest.map Char.toLower) := by
  induction h with
  | none => exact .none
  | blank hc _ ih => exact .blank ((ignoresCase_isBlank _).trans hc) ih
  | comment hbody hend _ ih =>
    rw [List.map_append, List.map_cons]
    refine .comment (mt (mem_lower_iff ignoresCase_newline).1 hbody) ?_ ih
    refine hend.imp (fun hnil => by rw [hnil, List.map_nil]) fun hhead => ?_
    rw [List.head?_map, hhead]
    rfl

theorem Grammar.Gap.lower (h : Gap cs rest) : Gap (cs.map Char.toLower) (rest.map Char.toLower) := by
  refine ⟨h.1.lower, fun heq => h.2 (h.1.suffix.eq_of_length ?_)⟩
  simpa using congrArg List.length heq

theorem Grammar.Items.lower {items : List DataItem} (h : Items cs items rest) :
    Items (cs.map Char.toLower) (items.map DataItem.lower) (rest.map Char.toLower) := by
  induction h with
  | one hi =>
    rw [List.map_append]
    exact .one hi.lower
  | more hi hbefore hafter _ ih =>
    rw [List.map_append]
    exact .more hi.lower hbefore.lower hafter.lower ih

theorem Grammar.Line.lower (h : Line cs s rest) :
    Line (cs.map Char.toLower) s.lower (rest.map Char.toLower) := by
  cases h with
  | label hw =>
    rw [Statement.lower, lower_ofList, List.map_append, List.map_cons]
    exact .label hw.lower
  | data hk hgap hs =>
    rw [List.map_append]
    refine .data ?_ hgap.lower hs.lower
    rwa [← lower_ofList, upperCase_lower]
  | unary hm hgap he =>
    rw [Statement.lower, lower_ofList, List.map_append]
    refine .unary ?_ ?_ he.lower
    · rwa [← lower_ofList, upperCase_lower]
    · rw [← List.map_append]
      exact hgap.lower
  | binary hm hgap hd hbefore hafter he =>
    rw [Statement.lower, lower_ofList, List.map_append]
    refine .binary ?_ ?_ hd.lower hbefore.lower ?_ he.lower
    · rwa [← lower_ofList, upperCase_lower]
    · rw [← List.map_append]
      exact hgap.lower
    · rw [← List.map_append]
      exact hafter.lower

theorem Grammar.Lines.lower (h : Lines cs ss) :
    Lines (cs.map Char.toLower) (ss.map Statement.lower) := by
  induction h with
  | nil => exact .nil
  | last hl htail => exact .last hl.lower htail.lower
  | cons hl hgap _ ih => exact .cons hl.lower hgap.lower ih

/-- What a source derives it derives in lower case, as the same statements in lower case. -/
theorem Grammar.Derives.lower (h : Derives cs ss) :
    Derives (cs.map Char.toLower) (ss.map Statement.lower) :=
  let ⟨_, htrivia, hlines⟩ := h
  ⟨_, htrivia.lower, hlines.lower⟩

/-! ### Trivia and words -/

mutual

/-- What is left behind trivia is left, in lower case, behind the trivia in lower case. -/
theorem skipTrivia_lower : ∀ cs, skipTrivia (cs.map Char.toLower) = (skipTrivia cs).map Char.toLower
  | [] => by rw [List.map_nil, skipTrivia, List.map_nil]
  | c :: cs => by
    rw [List.map_cons, skipTrivia, skipTrivia]
    simp only [toLower_eq_iff (ignoresCase_beq (m := ';') (by decide)), ignoresCase_isBlank c]
    split
    · exact skipComment_lower cs
    · split
      · exact skipTrivia_lower cs
      · rw [List.map_cons]

theorem skipComment_lower : ∀ cs, skipComment (cs.map Char.toLower) = (skipComment cs).map Char.toLower
  | [] => by rw [List.map_nil, skipComment, List.map_nil]
  | c :: cs => by
    rw [List.map_cons, skipComment, skipComment]
    simp only [toLower_eq_iff ignoresCase_newline]
    split
    · exact skipTrivia_lower cs
    · exact skipComment_lower cs

end

theorem word?_lower (cs : List Char) :
    word? (cs.map Char.toLower) = (word? cs).map fun q => (lower q.1, q.2.map Char.toLower) := by
  rw [word?, word?, takeWhile_lower ignoresCase_isAlphanum, dropWhile_lower ignoresCase_isAlphanum,
    List.isEmpty_map]
  split
  · rfl
  · rw [Option.map_some, lower_ofList]

theorem identifier?_lower (cs : List Char) : identifier? (cs.map Char.toLower) =
    (identifier? cs).map fun q => (lower q.1, q.2.map Char.toLower) := by
  cases cs with
  | nil => rfl
  | cons c cs =>
    rw [List.map_cons, identifier?, identifier?, ignoresCase_isAlpha c]
    split
    · exact word?_lower (c :: cs)
    · rfl

/-! ### Faults -/

/-- The fault of the source in lower case, at the same place. -/
def Fault.lower (fault : Fault) : Fault := ⟨fault.cause.lower, fault.rest.map Char.toLower⟩

theorem lower_describe (cs : List Char) : lower (describe cs) = describe (cs.map Char.toLower) := by
  cases cs with
  | nil => decide
  | cons c cs =>
    by_cases hc : c = '\n'
    · have hname : lower "newline" = "newline" := by decide
      rw [hc]
      exact hname
    · have hc' : c.toLower ≠ '\n' := mt (toLower_eq_iff ignoresCase_newline).1 hc
      rw [List.map_cons, describe_of_ne hc, describe_of_ne hc', lower_append, lower_append,
        lower_singleton]
      rfl

theorem lower_unexpected (expected : String) (cs : List Char) :
    (Fault.unexpected expected cs).lower = .unexpected expected (cs.map Char.toLower) := by
  rw [Fault.unexpected, Fault.unexpected, ← lower_describe]
  rfl

theorem lower_trailing (cs : List Char) :
    (Fault.trailing cs).lower = .trailing (cs.map Char.toLower) := by
  rw [Fault.trailing, Fault.trailing, ← lower_describe]
  rfl

theorem lower_missingInBrackets (cs : List Char) :
    (missingInBrackets cs).lower = missingInBrackets (cs.map Char.toLower) := by
  cases cs with
  | nil => rfl
  | cons c cs =>
    by_cases hc : c = '\n'
    · rw [hc]
      rfl
    · have hc' : c.toLower ≠ '\n' := mt (toLower_eq_iff ignoresCase_newline).1 hc
      rw [missingInBrackets_of_ne hc, lower_unexpected, List.map_cons, missingInBrackets_of_ne hc']

/-! ### Numbers and strings -/

/-- The mark of hexadecimal numerals stands nowhere with its letter in upper case. -/
def NoUpperMark (cs : List Char) : Prop := ¬ ['0', 'X'] <:+: cs

theorem NoUpperMark.of_suffix (h : NoUpperMark cs) (hs : next <:+ cs) : NoUpperMark next :=
  fun hm => h (hm.trans hs.isInfix)

/-- The texts that are left of a source and of the source in lower case. -/
def Lowered (cs ds : List Char) : Prop := ds = cs.map Char.toLower ∧ NoUpperMark cs

/-- A rule that matches in lower case as it did leaves less of the source, in lower case. -/
theorem Match.InStep.lowered {V : α → α → Prop} {E : Fault → Fault → Prop} {m n : Attempt α}
    (h : Match.InStep V (fun r r' => r' = r.map Char.toLower) E m n) (hm : m.Advances cs)
    (hno : NoUpperMark cs) : Match.InStep V Lowered E m n := by
  cases h with
  | matched hv hr => exact .matched hv ⟨hr, hno.of_suffix (hm _ _ rfl).1⟩
  | noMatch => exact .noMatch
  | failed he => exact .failed he

theorem fitWord_lower (value : Nat) (literal start next : List Char) :
    Match.InStep Eq (fun r r' => r' = r.map Char.toLower) (fun f g => g = f.lower)
      (fitWord value literal start next)
      (fitWord value (literal.map Char.toLower) (start.map Char.toLower) (next.map Char.toLower)) := by
  rw [fitWord, fitWord]
  split
  · exact .matched rfl rfl
  · refine .failed ?_
    rw [Fault.lower, Cause.lower, lower_ofList]

theorem decimalNumber_lower (cs : List Char) :
    Match.InStep Eq (fun r r' => r' = r.map Char.toLower) (fun f g => g = f.lower)
      (decimalNumber cs) (decimalNumber (cs.map Char.toLower)) := by
  simp only [decimalNumber, takeWhile_lower ignoresCase_isDigit, dropWhile_lower ignoresCase_isDigit,
    List.isEmpty_map, numeralValue_lower]
  split
  · exact .noMatch
  · exact fitWord_lower ..

theorem hexNumber_lower (cs : List Char) :
    Match.InStep Eq (fun r r' => r' = r.map Char.toLower) (fun f g => g = f.lower)
      (hexNumber cs) (hexNumber (cs.map Char.toLower)) := by
  simp only [hexNumber, takeWhile_lower ignoresCase_isAlphanum,
    dropWhile_lower ignoresCase_isAlphanum, List.isEmpty_map, List.all_map, numeralValue_lower,
    show Char.isHexDigit ∘ Char.toLower = Char.isHexDigit from funext ignoresCase_isHexDigit]
  split
  · exact .failed (lower_unexpected ..).symm
  · split
    · exact fitWord_lower ..
    · refine .failed ?_
      rw [Fault.lower, Cause.lower, lower_ofList]
      rfl

theorem eq_or_eq_of_toLower (h : c.toLower = 'x') : c = 'x' ∨ c = 'X' := by
  by_cases hc : c.toNat < 128
  · exact of_ascii (P := fun c => c.toLower = 'x' → c = 'x' ∨ c = 'X') (by decide) hc h
  · rw [toLower_of_le (Nat.le_of_not_lt hc)] at h
    exact Or.inl h

/-- Without an `X` behind a zero, hexadecimal numerals are marked in the same places. -/
theorem hexMarked_lower_iff (h : NoUpperMark cs) : HexMarked (cs.map Char.toLower) ↔ HexMarked cs := by
  constructor
  · rintro ⟨es, hes⟩
    obtain ⟨c, cs, rfl, hc, htail⟩ := List.map_eq_cons_iff.1 hes
    obtain ⟨d, ds, rfl, hd, -⟩ := List.map_eq_cons_iff.1 htail
    obtain rfl := (toLower_eq_iff (ignoresCase_beq (by decide))).1 hc
    rcases eq_or_eq_of_toLower hd with rfl | rfl
    · exact ⟨ds, rfl⟩
    · exact absurd (List.prefix_append ['0', 'X'] ds).isInfix h
  · rintro ⟨es, rfl⟩
    exact ⟨es.map Char.toLower, rfl⟩

theorem number_lower (h : NoUpperMark cs) :
    Match.InStep Eq (fun r r' => r' = r.map Char.toLower) (fun f g => g = f.lower)
      (number cs) (number (cs.map Char.toLower)) := by
  by_cases hmark : HexMarked cs
  · obtain ⟨ds, rfl⟩ := hmark
    exact hexNumber_lower ds
  · rw [number_of_not_hexMarked hmark, number_of_not_hexMarked (mt (hexMarked_lower_iff h).1 hmark)]
    exact decimalNumber_lower cs

theorem stringLiteral_lower (cs : List Char) :
    Match.InStep IsLowerOf (fun r r' => r' = r.map Char.toLower)
      (fun f g => g = f.lower) (stringLiteral cs) (stringLiteral (cs.map Char.toLower)) := by
  cases hs : stringLiteral cs with
  | matched content next =>
    obtain ⟨rfl, hall⟩ := stringLiteral_eq_matched_iff.1 hs
    have hlower : stringLiteral (('"' :: content.toList ++ '"' :: next).map Char.toLower) =
        .matched (lower content) (next.map Char.toLower) := by
      refine stringLiteral_eq_matched_iff.2 ⟨?_, ?_⟩
      · rw [toList_lower, List.map_append]
        rfl
      · rw [toList_lower]
        exact forall_mem_lower ignoresCase_isStringChar hall
    rw [hlower]
    exact .matched rfl rfl
  | noMatch =>
    rw [stringLiteral_reads.noMatch_iff.2
      ((stops_lower_iff (ignoresCase_beq (by decide))).2 (stringLiteral_reads.noMatch_iff.1 hs))]
    exact .noMatch
  | failed fault =>
    obtain ⟨body, rest, ⟨rfl, hbody⟩, ⟨hrest, hquote⟩, rfl⟩ := stringLiteral_eq_failed_iff.1 hs
    have hlower : stringLiteral (('"' :: body ++ rest).map Char.toLower) =
        .failed (openString (rest.map Char.toLower)) := by
      refine stringLiteral_eq_failed_iff.2 ⟨body.map Char.toLower, _, ⟨?_, ?_⟩, ⟨?_, ?_⟩, rfl⟩
      · rw [List.map_append]
        rfl
      · exact forall_mem_lower ignoresCase_isStringChar hbody
      · exact (stops_lower_iff ignoresCase_isStringChar).2 hrest
      · exact (stops_lower_iff (ignoresCase_beq (by decide))).2 hquote
    rw [hlower]
    exact .failed rfl

/-! ### Lockstep -/

theorem length_lower (a : String) : (lower a).length = a.length := by
  rw [← String.length_toList, toList_lower, List.length_map, String.length_toList]

/-- Without an `X` behind a zero, the reader does the same on the source in lower case. -/
theorem lockstep_lower :
    Lockstep IsLowerOf Lowered fun f g => g = f.lower where
  nil_iff := by
    rintro cs _ ⟨rfl, -⟩
    exact List.map_eq_nil_iff.symm
  mark := by
    rintro cs _ m hm ⟨rfl, hno⟩
    rcases eq_cons_or_stops m cs with ⟨cs, rfl⟩ | hs
    · refine Or.inl ⟨cs, cs.map Char.toLower, rfl, ?_, rfl, hno.of_suffix (List.suffix_cons m cs)⟩
      rw [List.map_cons, (toLower_eq_iff (ignoresCase_mark hm)).2 rfl]
    · exact Or.inr ⟨hs, (stops_lower_iff (ignoresCase_mark hm)).2 hs⟩
  trivia_iff := by
    rintro cs _ ⟨rfl, -⟩
    exact (stops_lower_iff ignoresCase_startsTrivia).symm
  skipped := by
    rintro cs _ ⟨rfl, hno⟩
    exact ⟨skipTrivia_lower cs, hno.of_suffix (skipTrivia_suffix cs)⟩
  word := by
    rintro cs _ ⟨rfl, hno⟩
    rw [word?_lower]
    cases hw : word? cs with
    | none => exact .none
    | some q => exact .some ⟨rfl, rfl, hno.of_suffix (properEnd_of_word? hw).1⟩
  identifier := by
    rintro cs _ ⟨rfl, hno⟩
    rw [identifier?_lower]
    cases hw : identifier? cs with
    | none => exact .none
    | some q => exact .some ⟨rfl, rfl, hno.of_suffix (properEnd_of_identifier? hw).1⟩
  number := by
    rintro cs _ ⟨rfl, hno⟩
    exact (number_lower hno).lowered (number_advances cs) hno
  stringLiteral := by
    rintro cs _ ⟨rfl, hno⟩
    exact (stringLiteral_lower cs).lowered (stringLiteral_advances cs) hno
  keyword_eq := by
    rintro a _ rfl
    exact isDataKeyword_lower a
  arity_eq := by
    rintro a _ rfl
    exact arity?_lower a
  letters_iff := by
    rintro a _ rfl
    rw [length_lower, toList_lower, List.all_map,
      show Char.isAlpha ∘ Char.toLower = Char.isAlpha from funext ignoresCase_isAlpha]
  unexpected := by
    rintro cs _ expected ⟨rfl, -⟩
    exact (lower_unexpected expected cs).symm
  unterminated := by
    rintro cs _ construct expected ⟨rfl, -⟩
    rfl
  trailing := by
    rintro cs _ ⟨rfl, -⟩
    exact (lower_trailing cs).symm
  missingInBrackets := by
    rintro cs _ ⟨rfl, -⟩
    exact (lower_missingInBrackets cs).symm
  unknownMnemonic := by
    rintro cs _ a _ ⟨rfl, -⟩ rfl
    rfl

/-! ### Trees -/

theorem Expression.InStep.eq_lower (h : Expression.InStep IsLowerOf d e) :
    e = d.lower := by
  induction h with
  | identifier h => rw [h, Expression.lower]
  | number value => rfl
  | addressOf _ ih => rw [ih, Expression.lower]
  | sum _ _ ihl ihr => rw [ihl, ihr, Expression.lower]

theorem DataItem.InStep.eq_lower (h : DataItem.InStep IsLowerOf i j) : j = i.lower := by
  cases h with
  | string h => rw [h, DataItem.lower]
  | number value => rfl

theorem eq_map_of_forall₂ {S : α → α → Prop} {f : α → α} {as bs : List α} (h : List.Forall₂ S as bs)
    (hS : ∀ a b, S a b → b = f a) : bs = as.map f := by
  induction h with
  | nil => rfl
  | cons hab _ ih => rw [List.map_cons, hS _ _ hab, ih]

theorem Statement.InStep.eq_lower (h : Statement.InStep IsLowerOf s t) :
    t = s.lower := by
  cases h with
  | label h => rw [h, Statement.lower]
  | unary h ho => rw [h, ho.eq_lower, Statement.lower]
  | binary h hd hs => rw [h, hd.eq_lower, hs.eq_lower, Statement.lower]
  | data h => rw [eq_map_of_forall₂ h fun _ _ => DataItem.InStep.eq_lower, Statement.lower]

theorem Program.InStep.eq_lower {p q : Program} (h : Program.InStep IsLowerOf p q) :
    q = p.lower :=
  congrArg Program.mk (eq_map_of_forall₂ h fun _ _ => Statement.InStep.eq_lower)

/-! ### Places -/

theorem byteLength_lower (cs : List Char) : byteLength (cs.map Char.toLower) = byteLength cs := by
  induction cs with
  | nil => rfl
  | cons c cs ih => rw [List.map_cons, byteLength_cons, byteLength_cons, ih, ignoresCase_utf8Size c]

theorem count_newline_lower (cs : List Char) : (cs.map Char.toLower).count '\n' = cs.count '\n' := by
  induction cs with
  | nil => rfl
  | cons c cs ih =>
    have hc : (c.toLower == '\n') = (c == '\n') := ignoresCase_newline c
    rw [List.map_cons, List.count_cons, List.count_cons, ih, hc]

/-- A place has the same offset, line and column in both sources. -/
theorem Location.after_lower (before : List Char) :
    Location.after (before.map Char.toLower) = .after before := by
  have hline : IgnoresCase fun c => decide (c ≠ '\n') := ignoresCase_of_ascii (by decide)
  rw [Location.after, Location.after, byteLength_lower, count_newline_lower, ← List.map_reverse,
    takeWhile_lower hline, List.length_map]

theorem diagnose_lower (before : List Char) (fault : Fault) :
    fault.lower.diagnose ((before ++ fault.rest).map Char.toLower) =
      (fault.diagnose (before ++ fault.rest)).lower := by
  have hsplit : (before ++ fault.rest).map Char.toLower =
      before.map Char.toLower ++ fault.lower.rest := List.map_append
  rw [hsplit, diagnose_append, diagnose_append, Location.after_lower]
  rfl

/-! ### Whole sources -/

/-- A source that is accepted is accepted in lower case. -/
theorem programParse_lower_of_ok {src : String} {p : Program} (h : Program.parse src = .ok p) :
    Program.parse (lower src) = .ok p.lower := by
  rw [programParse_eq_ok_iff] at h ⊢
  rw [toList_lower]
  exact h.lower

/-- Without an `X` behind a zero, the answer is the same in lower case, whatever it is. -/
theorem programParse_lower {src : String} (h : NoUpperMark src.toList) :
    Program.parse (lower src) = loweredAnswer (Program.parse src) := by
  have hboth := lockstep_lower.program ⟨toList_lower src, h⟩
  rw [Program.parse, Program.parse]
  generalize hm : (Reading.ofSource src.toList).result = m,
    hn : (Reading.ofSource (lower src).toList).result = n at hboth
  cases hboth with
  | ok hp => rw [hp.eq_lower]; rfl
  | @error fault _ hf =>
    obtain ⟨before, _, hbefore, _⟩ := program_fails.completable hm
    have hlies := diagnose_lower before fault
    rw [← hbefore, ← toList_lower] at hlies
    rw [hf]
    exact congrArg Except.error hlies

/-- A source in lower case is read as the source is, in lower case: an accepted source always, and
any source as long as no `X` stands behind a zero. -/
theorem parse_lower (src : String) :
    (∀ p, Program.parse src = .ok p → Program.parse (lower src) = .ok p.lower) ∧
      (¬ ['0', 'X'] <:+: src.toList →
        Program.parse (lower src) = loweredAnswer (Program.parse src) ∧
          ((∃ p, Program.parse src = .ok p) ↔ ∃ p, Program.parse (lower src) = .ok p)) ∧
      ∀ other p q, lower other = lower src → Program.parse src = .ok p →
        Program.parse other = .ok q → q.lower = p.lower := by
  refine ⟨fun p h => programParse_lower_of_ok h, fun h => ?_, fun other p q heq hp hq => ?_⟩
  · have hanswer := programParse_lower h
    refine ⟨hanswer, ⟨fun ⟨p, hp⟩ => ⟨p.lower, programParse_lower_of_ok hp⟩, ?_⟩⟩
    rintro ⟨p, hp⟩
    rw [hanswer] at hp
    cases hsrc : Program.parse src with
    | ok q => exact ⟨q, rfl⟩
    | error d => rw [hsrc] at hp; contradiction
  · have hp' := programParse_lower_of_ok hp
    have hq' := programParse_lower_of_ok hq
    rw [heq, hp'] at hq'
    exact (Except.ok.inj hq').symm

/-- The hexadecimal digits of a numeral may be of either case, and so may the keyword in front of it. -/
theorem parse_lower_out_of_range :
    ¬ ['0', 'X'] <:+: "DAT 0x1FFFF".toList ∧
      Program.parse "DAT 0x1FFFF" = .error ⟨.outOfRange "0x1FFFF", ⟨4, 1, 5⟩⟩ ∧
      Program.parse (lower "DAT 0x1FFFF") = .error ⟨.outOfRange "0x1ffff", ⟨4, 1, 5⟩⟩ := by
  have hmark : ¬ ['0', 'X'] <:+: "DAT 0x1FFFF".toList := by decide +kernel
  have hsrc : Program.parse "DAT 0x1FFFF" = .error ⟨.outOfRange "0x1FFFF", ⟨4, 1, 5⟩⟩ := by
    refine diagnosed_eq_error_iff.2 ⟨⟨.outOfRange "0x1FFFF", "0x1FFFF".toList⟩, ?_, by decide⟩
    exact result_eq_error_iff.2 (by decide +kernel)
  have hlower := ((parse_lower "DAT 0x1FFFF").2.1 hmark).1
  rw [hsrc] at hlower
  exact ⟨hmark, hsrc, hlower⟩

end DcpuAsm
