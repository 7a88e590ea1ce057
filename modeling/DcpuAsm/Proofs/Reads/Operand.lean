import DcpuAsm.Reader.Expression
import DcpuAsm.Proofs.Reads.Lexeme

/-!
What operands the reader finds. Each rule has a lemma that says when it answers what
(`flatExpression_eq_matched_iff`, `bracketed_eq_ok_iff` and so on), from which all else follows
without a look at the rule. Main statement: `expression_reads`, operands are read as the grammar has
them, up to a character that is no letter, no digit and no plus sign.
-/

namespace DcpuAsm

open Grammar (IsTerm IsFlat IsOperand)

variable {cs next : List Char} {e left : Expression} {fault : Fault}

/-- May a term or a sum go on with this character? -/
def continuesSum (c : Char) : Bool := c.isAlphanum || c == '+'

theorem continuesSum_of_isAlphanum (c : Char) (h : c.isAlphanum = true) : continuesSum c = true := by
  rw [continuesSum, h, Bool.true_or]

theorem continuesSum_of_plus (c : Char) (h : (c == '+') = true) : continuesSum c = true := by
  rw [continuesSum, h, Bool.or_true]

/-! ### Terms -/

theorem term_eq_matched_iff : term cs = .matched e next ↔
    (∃ name, identifier? cs = some (name, next) ∧ e = .identifier name) ∨
      identifier? cs = none ∧ ∃ v, number cs = .matched v next ∧ e = .number v := by
  unfold term
  split
  · next name mid hid =>
    rw [hid]
    refine ⟨fun h => ?_, ?_⟩
    · cases h; exact Or.inl ⟨name, rfl, rfl⟩
    · rintro (⟨_, h, rfl⟩ | ⟨h, _⟩)
      · cases h; rfl
      · contradiction
  · next hid => simp [hid, eq_comm]

theorem term_eq_failed_iff : term cs = .failed fault ↔
    identifier? cs = none ∧ number cs = .failed fault := by
  unfold term
  split
  · next hid => simp [hid]
  · next hid => simp [hid]

theorem stops_isAlphanum_iff :
    Stops Char.isAlphanum cs ↔ Stops Char.isAlpha cs ∧ Stops Char.isDigit cs := by
  cases cs with
  | nil => simp
  | cons c cs => simp only [stops_cons, Char.isAlphanum, Bool.or_eq_false_iff]

/-- A text that starts with a digit starts with no identifier. -/
theorem identifier?_eq_none_of_isDigit {c : Char} (hc : c.isDigit = true) (cs : List Char) :
    identifier? (c :: cs) = none :=
  identifier?_eq_none_iff.2 (isAlpha_eq_false_of_isDigit hc)

theorem term_reads : Reads term IsTerm Char.isAlphanum Char.isAlphanum where
  sound := by
    intro cs next e h
    rcases term_eq_matched_iff.1 h with ⟨name, hid, rfl⟩ | ⟨_, v, hnum, rfl⟩
    · obtain ⟨rfl, hname, _⟩ := identifier?_eq_some_iff.1 hid
      refine ⟨name.toList, rfl, ?_⟩
      have ht := IsTerm.identifier hname
      rwa [String.ofList_toList] at ht
    · obtain ⟨w, rfl, hw⟩ := number_reads.sound hnum
      exact ⟨w, rfl, .number hw⟩
  complete := by
    intro w r e hw hs
    cases hw with
    | identifier hid =>
      refine term_eq_matched_iff.2 (Or.inl ⟨_, identifier?_eq_some_iff.2 ?_, rfl⟩)
      rw [String.toList_ofList]
      exact ⟨rfl, hid, hs⟩
    | number hnum =>
      obtain ⟨c, ds, rfl, hc⟩ := number_reads.starts_of hnum
      exact term_eq_matched_iff.2 (Or.inr
        ⟨identifier?_eq_none_of_isDigit hc _, _, number_reads.complete hnum hs, rfl⟩)
  exchange := by
    intro w r r' e h hs
    rcases term_eq_matched_iff.1 h with ⟨name, hid, rfl⟩ | ⟨_, v, hnum, rfl⟩
    · obtain ⟨hw, hname, hstop⟩ := identifier?_eq_some_iff.1 hid
      obtain rfl : w = name.toList := List.append_cancel_right hw
      exact term_eq_matched_iff.2 (Or.inl
        ⟨name, identifier?_eq_some_iff.2 ⟨rfl, hname, hs.stops hstop⟩, rfl⟩)
    · have hnum' := number_reads.exchange hnum hs
      obtain ⟨v, hv, hw⟩ := number_reads.sound hnum
      obtain rfl : w = v := List.append_cancel_right hv
      obtain ⟨c, ds, rfl, hc⟩ := number_reads.starts_of hw
      exact term_eq_matched_iff.2 (Or.inr
        ⟨identifier?_eq_none_of_isDigit hc _, _, hnum', rfl⟩)
  noMatch_iff := by
    intro cs
    rw [stops_isAlphanum_iff, ← identifier?_eq_none_iff, ← number_reads.noMatch_iff]
    unfold term
    split
    · next hid => simp [hid]
    · next hid => simp [hid]

/-! ### Sums -/

theorem sumRight_eq_ok_iff : sumRight left cs = .ok (e, next) ↔
    ∃ right, term cs = .matched right next ∧ Stops (· == '+') next ∧ e = .sum left right := by
  rw [sumRight, bind_eq_ok]
  constructor
  · rintro ⟨⟨right, mid⟩, hr, h⟩
    dsimp only at h
    split at h
    · contradiction
    · next hplus =>
      cases h
      refine ⟨right, Match.required_eq_ok.1 hr, (eq_cons_or_stops '+' next).resolve_left ?_, rfl⟩
      exact fun ⟨ds, hds⟩ => hplus ds hds
  · rintro ⟨right, hr, hs, rfl⟩
    refine ⟨(right, next), Match.required_eq_ok.2 hr, ?_⟩
    dsimp only
    split
    · exact absurd hs (by simp)
    · rfl

theorem sumRight_eq_error_iff : sumRight left cs = .error fault ↔
    (term cs = .noMatch ∧ fault = .unexpected "an identifier or number after `+`" cs) ∨
      term cs = .failed fault ∨
      ∃ right next, term cs = .matched right next ∧ ¬ Stops (· == '+') next ∧
        fault = .unexpected "end of expression (sums take exactly two terms)" next := by
  rw [sumRight, bind_eq_error, Match.required_eq_error, or_assoc, eq_comm (a := fault)]
  refine or_congr_right (or_congr_right ?_)
  constructor
  · rintro ⟨⟨right, next⟩, hr, h⟩
    dsimp only at h
    split at h
    · cases h; exact ⟨right, _, Match.required_eq_ok.1 hr, by simp, rfl⟩
    · contradiction
  · rintro ⟨right, next, hr, hplus, rfl⟩
    obtain ⟨c, rest, rfl, hc⟩ := not_stops_iff.1 hplus
    obtain rfl := beq_iff_eq.1 hc
    exact ⟨(right, '+' :: rest), Match.required_eq_ok.2 hr, rfl⟩

theorem flatExpression_eq_matched_iff : flatExpression cs = .matched e next ↔
    (term cs = .matched e next ∧ Stops (· == '+') next) ∨
      ∃ left mid, term cs = .matched left ('+' :: mid) ∧
        sumRight left mid = .ok (e, next) := by
  unfold flatExpression
  split
  · next left mid ht =>
    rw [ht, Match.ofExcept_eq_matched]
    constructor
    · exact fun h => Or.inr ⟨left, mid, rfl, h⟩
    · rintro (⟨h, hs⟩ | ⟨_, _, h, hsum⟩)
      · cases h; exact absurd hs (by simp)
      · cases h; exact hsum
  · next hne =>
    refine ⟨fun h => ?_, ?_⟩
    · refine Or.inl ⟨h, (eq_cons_or_stops '+' next).resolve_left ?_⟩
      rintro ⟨ds, rfl⟩
      exact hne e ds h
    · rintro (⟨h, _⟩ | ⟨left, mid, h, _⟩)
      · exact h
      · exact absurd h (hne left mid)

theorem flatExpression_eq_failed_iff : flatExpression cs = .failed fault ↔
    term cs = .failed fault ∨
      ∃ left mid, term cs = .matched left ('+' :: mid) ∧ sumRight left mid = .error fault := by
  unfold flatExpression
  split
  · next left mid ht =>
    rw [ht, Match.ofExcept_eq_failed]
    constructor
    · exact fun h => Or.inr ⟨left, mid, rfl, h⟩
    · rintro (h | ⟨_, _, h, hsum⟩)
      · contradiction
      · cases h; exact hsum
  · next hne =>
    constructor
    · exact Or.inl
    · rintro (h | ⟨left, mid, h, _⟩)
      · exact h
      · exact absurd h (hne left mid)

theorem flatExpression_eq_noMatch_iff : flatExpression cs = .noMatch ↔ term cs = .noMatch := by
  unfold flatExpression
  split
  · next ht => simp [ht]
  · exact Iff.rfl

theorem flatExpression_reads : Reads flatExpression IsFlat Char.isAlphanum continuesSum where
  sound := by
    intro cs next e h
    rcases flatExpression_eq_matched_iff.1 h with ⟨ht, _⟩ | ⟨left, mid, hl, hsum⟩
    · obtain ⟨w, rfl, hw⟩ := term_reads.sound ht
      exact ⟨w, rfl, .term hw⟩
    · obtain ⟨right, hr, _, rfl⟩ := sumRight_eq_ok_iff.1 hsum
      obtain ⟨v, rfl, hv⟩ := term_reads.sound hl
      obtain ⟨w, rfl, hw⟩ := term_reads.sound hr
      exact ⟨v ++ '+' :: w, by simp, .sum hv hw⟩
  complete := by
    intro w r e hw hs
    have halnum := hs.mono continuesSum_of_isAlphanum
    have hplus := hs.mono continuesSum_of_plus
    cases hw with
    | term ht => exact flatExpression_eq_matched_iff.2 (Or.inl ⟨term_reads.complete ht halnum, hplus⟩)
    | @sum v w l r' hl hr =>
      rw [List.append_assoc, List.cons_append]
      refine flatExpression_eq_matched_iff.2 (Or.inr ⟨l, w ++ r, ?_, ?_⟩)
      · exact term_reads.complete hl (stops_cons.2 (by decide))
      · exact sumRight_eq_ok_iff.2 ⟨r', term_reads.complete hr halnum, hplus, rfl⟩
  exchange := by
    intro w r r' e h hs
    have halnum := hs.mono continuesSum_of_isAlphanum
    have hplus := hs.mono continuesSum_of_plus
    rcases flatExpression_eq_matched_iff.1 h with ⟨ht, hstop⟩ | ⟨left, mid, hl, hsum⟩
    · exact flatExpression_eq_matched_iff.2
        (Or.inl ⟨term_reads.exchange ht halnum, hplus.stops hstop⟩)
    · obtain ⟨right, hr, hstop, rfl⟩ := sumRight_eq_ok_iff.1 hsum
      obtain ⟨v, hv, _⟩ := term_reads.sound hl
      obtain ⟨u, rfl, _⟩ := term_reads.sound hr
      obtain rfl : w = v ++ '+' :: u := by
        refine List.append_cancel_right (?_ : _ ++ r = _ ++ r)
        rw [hv]; simp
      rw [List.append_assoc, List.cons_append] at hl ⊢
      refine flatExpression_eq_matched_iff.2 (Or.inr ⟨left, u ++ r', ?_, ?_⟩)
      · exact term_reads.exchange hl (.of_head?_eq rfl)
      · exact sumRight_eq_ok_iff.2
          ⟨right, term_reads.exchange hr halnum, hplus.stops hstop, rfl⟩
  noMatch_iff := flatExpression_eq_noMatch_iff.trans term_reads.noMatch_iff

/-! ### Brackets -/

theorem rest_missingInBrackets (cs : List Char) : (missingInBrackets cs).rest = cs := by
  unfold missingInBrackets
  split <;> rfl

theorem missingInBrackets_of_ne {c : Char} (hc : c ≠ '\n') (cs : List Char) :
    missingInBrackets (c :: cs) = .unexpected "an identifier or number after `[`" (c :: cs) := by
  unfold missingInBrackets
  split
  · next h => contradiction
  · next h => exact absurd (List.cons.inj h).1 hc
  · rfl

theorem bracketed_eq_ok_iff : bracketed cs = .ok (e, next) ↔
    ∃ inner, flatExpression cs = .matched inner (']' :: next) ∧ e = .addressOf inner := by
  rw [bracketed, bind_eq_ok]
  constructor
  · rintro ⟨⟨inner, mid⟩, hi, h⟩
    dsimp only at h
    split at h
    · cases h; exact ⟨inner, Match.required_eq_ok.1 hi, rfl⟩
    · contradiction
  · rintro ⟨inner, hi, rfl⟩
    exact ⟨(inner, ']' :: next), Match.required_eq_ok.2 hi, rfl⟩

theorem bracketed_eq_error_iff : bracketed cs = .error fault ↔
    (flatExpression cs = .noMatch ∧ fault = missingInBrackets cs) ∨
      flatExpression cs = .failed fault ∨
      ∃ inner rest, flatExpression cs = .matched inner rest ∧ Stops (· == ']') rest ∧
        fault = .unterminated .addressOf "`]`" rest := by
  rw [bracketed, bind_eq_error, Match.required_eq_error, or_assoc, eq_comm (a := fault)]
  refine or_congr_right (or_congr_right ?_)
  constructor
  · rintro ⟨⟨inner, rest⟩, hi, h⟩
    dsimp only at h
    split at h
    · contradiction
    · next hne =>
      cases h
      refine ⟨inner, rest, Match.required_eq_ok.1 hi, (eq_cons_or_stops ']' rest).resolve_left ?_, rfl⟩
      exact fun ⟨ds, hds⟩ => hne ds hds
  · rintro ⟨inner, rest, hi, hs, rfl⟩
    refine ⟨(inner, rest), Match.required_eq_ok.2 hi, ?_⟩
    dsimp only
    split
    · exact absurd hs (by simp)
    · rfl

/-- A term or a sum in brackets. -/
def IsBracketed (w : List Char) (e : Expression) : Prop :=
  ∃ v inner, w = '[' :: v ++ [']'] ∧ IsFlat v inner ∧ e = .addressOf inner

theorem addressOf_eq_matched_iff : addressOf cs = .matched e next ↔
    ∃ ds, cs = '[' :: ds ∧ bracketed ds = .ok (e, next) := by
  unfold addressOf
  split
  · next ds => simp
  · next hne => simpa using fun ds h => absurd h (hne ds)

theorem addressOf_eq_failed_iff : addressOf cs = .failed fault ↔
    ∃ ds, cs = '[' :: ds ∧ bracketed ds = .error fault := by
  unfold addressOf
  split
  · next ds => simp
  · next hne => simpa using fun ds h => absurd h (hne ds)

theorem addressOf_eq_noMatch_iff : addressOf cs = .noMatch ↔ Stops (· == '[') cs := by
  unfold addressOf
  split
  · next ds => simp
  · next hne =>
    cases cs with
    | nil => simp
    | cons c cs => simpa using fun h => hne cs (by rw [h])

theorem addressOf_reads : Reads addressOf IsBracketed (· == '[') (fun _ => false) where
  sound := by
    intro cs next e h
    obtain ⟨ds, rfl, hb⟩ := addressOf_eq_matched_iff.1 h
    obtain ⟨inner, hf, rfl⟩ := bracketed_eq_ok_iff.1 hb
    obtain ⟨v, rfl, hv⟩ := flatExpression_reads.sound hf
    exact ⟨'[' :: v ++ [']'], by simp, v, inner, rfl, hv, rfl⟩
  complete := by
    rintro w r e ⟨v, inner, rfl, hv, rfl⟩ _
    refine addressOf_eq_matched_iff.2
      ⟨v ++ ']' :: r, by simp, bracketed_eq_ok_iff.2 ⟨inner, ?_, rfl⟩⟩
    exact flatExpression_reads.complete hv (stops_cons.2 (by decide))
  exchange := by
    intro w r r' e h _
    obtain ⟨ds, hw, hb⟩ := addressOf_eq_matched_iff.1 h
    obtain ⟨inner, hf, rfl⟩ := bracketed_eq_ok_iff.1 hb
    obtain ⟨v, rfl, _⟩ := flatExpression_reads.sound hf
    obtain rfl : w = '[' :: v ++ [']'] := by
      refine List.append_cancel_right (?_ : _ ++ r = _ ++ r)
      rw [hw]; simp
    refine addressOf_eq_matched_iff.2
      ⟨v ++ ']' :: r', by simp, bracketed_eq_ok_iff.2 ⟨inner, ?_, rfl⟩⟩
    exact flatExpression_reads.exchange hf (.of_head?_eq rfl)
  noMatch_iff := addressOf_eq_noMatch_iff

/-! ### Operands -/

theorem isOperand_iff {w : List Char} : IsBracketed w e ∨ IsFlat w e ↔ IsOperand w e := by
  constructor
  · rintro (⟨v, inner, rfl, hv, rfl⟩ | h)
    · exact .addressOf hv
    · exact .flat h
  · intro h
    cases h with
    | flat h => exact Or.inr h
    | addressOf h => exact Or.inl ⟨_, _, rfl, h, rfl⟩

/-- May an operand start with this character? -/
def startsOperand (c : Char) : Bool := c == '[' || c.isAlphanum

theorem ne_bracket_of_isAlphanum {c : Char} (h : c.isAlphanum = true) : (c == '[') = false := by
  rw [beq_eq_false_iff_ne]
  rintro rfl
  exact absurd h (by decide)

theorem expression_reads : Reads expression IsOperand startsOperand continuesSum :=
  ((addressOf_reads.mono fun _ h => absurd h nofun).orElse flatExpression_reads
    fun _ => ne_bracket_of_isAlphanum).congr isOperand_iff

/-- An operand that has to stand somewhere stands there. -/
theorem operand_eq_ok_iff : operand cs = .ok (e, next) ↔ expression cs = .matched e next :=
  Match.required_eq_ok

theorem operand_eq_error_iff : operand cs = .error fault ↔
    (expression cs = .noMatch ∧ fault = .unexpected "an operand" cs) ∨
      expression cs = .failed fault := by
  rw [operand, Match.required_eq_error, eq_comm (a := fault)]

end DcpuAsm
