import DcpuAsm.Proofs.Reads.Lexeme
import DcpuAsm.Proofs.Fails.Basic
import Mathlib.Data.List.TakeWhile

/-!
Where numbers and strings fail. A number fails behind a lonely mark `0x`, or as a whole word that is
no machine word (`number_eq_failed_iff`), and a string fails where its line ends
(`stringLiteral_eq_failed_iff`). Main statements: `number_fails` and `stringLiteral_fails`.
-/

namespace DcpuAsm

variable {cs ds next w : List Char} {fault : Fault} {cause : Cause}

/-! ### Numbers -/

/-- A word that starts a numeral and is no machine word, and what is wrong with it. -/
inductive SpoilsNumber : List Char → Cause → Prop where
  | nonHexDigit {ds : List Char} (hne : ds ≠ []) (hbad : ds.all Char.isHexDigit = false) :
      SpoilsNumber ('0' :: 'x' :: ds) (.nonHexDigit (.ofList ('0' :: 'x' :: ds)))
  | hexadecimal {ds : List Char} (hne : ds ≠ []) (hhex : ds.all Char.isHexDigit = true)
      (hbig : UInt16.size ≤ numeralValue 16 ds) :
      SpoilsNumber ('0' :: 'x' :: ds) (.outOfRange (.ofList ('0' :: 'x' :: ds)))
  | decimal {w : List Char} (hmark : ¬ HexMarked w) (hne : w.takeWhile Char.isDigit ≠ [])
      (hbig : UInt16.size ≤ numeralValue 10 (w.takeWhile Char.isDigit)) :
      SpoilsNumber w (.outOfRange (.ofList (w.takeWhile Char.isDigit)))

theorem not_spoilsNumber_nil : ¬ SpoilsNumber [] cause := by
  rintro (_ | _ | ⟨_, hne, _⟩)
  exact hne rfl

theorem SpoilsNumber.onWord (h : SpoilsNumber w cause) : cause.onWord = true := by
  cases h <;> rfl

theorem fitWord_eq_failed_iff {value : Nat} {literal start : List Char} :
    fitWord value literal start next = .failed fault ↔
      UInt16.size ≤ value ∧ fault = ⟨.outOfRange (.ofList literal), start⟩ := by
  rw [fitWord]
  split
  · next hlt =>
    refine ⟨fun h => ?_, fun h => absurd hlt (Nat.not_lt.2 h.1)⟩
    contradiction
  · next hge =>
    refine ⟨fun h => ?_, fun h => by rw [h.2]⟩
    cases h
    exact ⟨Nat.not_lt.1 hge, rfl⟩

theorem decimalNumber_eq_failed_iff : decimalNumber cs = .failed fault ↔
    cs.takeWhile Char.isDigit ≠ [] ∧ UInt16.size ≤ numeralValue 10 (cs.takeWhile Char.isDigit) ∧
      fault = ⟨.outOfRange (.ofList (cs.takeWhile Char.isDigit)), cs⟩ := by
  simp only [decimalNumber]
  split
  · next h => simp [List.isEmpty_iff.1 h]
  · next h => rw [fitWord_eq_failed_iff, ← List.isEmpty_eq_false_iff]; simp [h]

theorem hexNumber_eq_failed_iff : hexNumber cs = .failed fault ↔
    (Stops Char.isAlphanum cs ∧ fault = .unexpected "hexadecimal digits after `0x`" cs) ∨
      ∃ cause, SpoilsNumber ('0' :: 'x' :: cs.takeWhile Char.isAlphanum) cause ∧
        fault = ⟨cause, '0' :: 'x' :: cs⟩ := by
  rw [← takeWhile_eq_nil_iff]
  simp only [hexNumber]
  refine ⟨fun h => ?_, ?_⟩
  · split at h
    · next hnil => cases h; exact Or.inl ⟨List.isEmpty_iff.1 hnil, rfl⟩
    · next hne =>
      rw [List.isEmpty_iff] at hne
      split at h
      · next hhex =>
        obtain ⟨hbig, rfl⟩ := fitWord_eq_failed_iff.1 h
        exact Or.inr ⟨_, .hexadecimal hne hhex hbig, rfl⟩
      · next hbad =>
        cases h
        exact Or.inr ⟨_, .nonHexDigit hne (Bool.not_eq_true _ ▸ hbad), rfl⟩
  · rintro (⟨hnil, rfl⟩ | ⟨cause, hspoils, rfl⟩)
    · simp [hnil]
    · cases hspoils with
      | nonHexDigit hne hbad => simp [hne, hbad]
      | hexadecimal hne hhex hbig =>
        rw [if_neg (by simpa using hne), if_pos hhex]
        exact fitWord_eq_failed_iff.2 ⟨hbig, rfl⟩
      | decimal hmark => exact absurd ⟨_, rfl⟩ hmark

theorem takeWhile_isAlphanum_mark :
    ('0' :: 'x' :: ds).takeWhile Char.isAlphanum = '0' :: 'x' :: ds.takeWhile Char.isAlphanum := by
  rw [List.takeWhile_cons_of_pos (by decide), List.takeWhile_cons_of_pos (by decide)]

/-- The mark lies in the first word. -/
theorem hexMarked_takeWhile_iff : HexMarked (cs.takeWhile Char.isAlphanum) ↔ HexMarked cs := by
  constructor
  · rintro ⟨ds, hds⟩
    refine ⟨ds ++ cs.dropWhile Char.isAlphanum, ?_⟩
    rw [← List.cons_append, ← List.cons_append, ← hds, List.takeWhile_append_dropWhile]
  · rintro ⟨ds, rfl⟩
    exact ⟨_, takeWhile_isAlphanum_mark⟩

/-- The digits lie in the first word. -/
theorem takeWhile_isDigit_word :
    (cs.takeWhile Char.isAlphanum).takeWhile Char.isDigit = cs.takeWhile Char.isDigit := by
  rw [List.takeWhile_takeWhile]
  congr 1
  funext c
  rw [Bool.decide_and, Bool.decide_coe, Bool.decide_coe]
  cases hc : c.isDigit with
  | false => rfl
  | true => rw [isAlphanum_of_isDigit hc]; rfl

theorem number_eq_failed_iff : number cs = .failed fault ↔
    (∃ ds, cs = '0' :: 'x' :: ds ∧ Stops Char.isAlphanum ds ∧
        fault = .unexpected "hexadecimal digits after `0x`" ds) ∨
      ∃ cause, SpoilsNumber (cs.takeWhile Char.isAlphanum) cause ∧ fault = ⟨cause, cs⟩ := by
  by_cases hmark : HexMarked cs
  · obtain ⟨es, rfl⟩ := hmark
    rw [takeWhile_isAlphanum_mark]
    refine hexNumber_eq_failed_iff.trans (or_congr_left ?_)
    simp
  · rw [number_of_not_hexMarked hmark, decimalNumber_eq_failed_iff]
    constructor
    · rintro ⟨hne, hbig, rfl⟩
      rw [← takeWhile_isDigit_word] at hne hbig ⊢
      exact Or.inr ⟨_, .decimal (mt hexMarked_takeWhile_iff.1 hmark) hne hbig, rfl⟩
    · rintro (⟨ds, rfl, _⟩ | ⟨cause, hspoils, rfl⟩)
      · exact absurd ⟨ds, rfl⟩ hmark
      · generalize hw : cs.takeWhile Char.isAlphanum = w at hspoils
        cases hspoils with
        | nonHexDigit => exact absurd (hexMarked_takeWhile_iff.1 ⟨_, hw⟩) hmark
        | hexadecimal => exact absurd (hexMarked_takeWhile_iff.1 ⟨_, hw⟩) hmark
        | decimal _ hne hbig =>
          subst hw
          rw [takeWhile_isDigit_word] at hne hbig ⊢
          exact ⟨hne, hbig, rfl⟩

theorem number_fails :
    Fails (fun cs f => number cs = .failed f) (fun w => ∃ v, number w = .matched v []) := by
  have hdigits : Fails (fun cs f => Stops Char.isAlphanum cs ∧
      f = .unexpected "hexadecimal digits after `0x`" cs) (· = ['0']) :=
    .here (onChar_unexpected (by decide)) (fun h hs => hs.of_head?_eq h) rfl
  have hmark : Resumes (fun cs next => cs = ['0', 'x'] ++ next) (· = ['0'])
      fun w => ∃ v, number w = .matched v [] :=
    Resumes.text (by rintro _ rfl; exact ⟨0, by decide⟩)
  have hzero : ∃ v, number ['0'] = .matched v [] := ⟨0, by decide⟩
  exact ((hdigits.behind (.text _) hmark).or
    (.word not_spoilsNumber_nil SpoilsNumber.onWord hzero)).congr number_eq_failed_iff

/-! ### Strings -/

/-- A string that is open at the front of the text. -/
def openString : List Char → Fault :=
  .unterminated .stringLiteral "closing `\"` before end of line"

theorem stringLiteral_eq_failed_iff : stringLiteral cs = .failed fault ↔
    ∃ body rest, (cs = ('"' :: body) ++ rest ∧ ∀ c ∈ body, isStringChar c = true) ∧
      (Stops isStringChar rest ∧ Stops (· == '"') rest) ∧ fault = openString rest := by
  refine ⟨fun h => ?_, ?_⟩
  · unfold stringLiteral at h
    split at h
    · next ds =>
      split at h
      · contradiction
      · next hne =>
        cases h
        refine ⟨ds.takeWhile isStringChar, ds.dropWhile isStringChar,
          ⟨?_, List.all_eq_true.1 List.all_takeWhile⟩, ⟨stops_dropWhile _ ds, ?_⟩, rfl⟩
        · rw [List.cons_append, List.takeWhile_append_dropWhile]
        · by_contra hquote
          obtain ⟨c, es, hes, hc⟩ := not_stops_iff.1 hquote
          exact hne es (by rw [hes, beq_iff_eq.1 hc])
    · contradiction
  · rintro ⟨body, rest, ⟨rfl, hbody⟩, ⟨hstops, hquote⟩, rfl⟩
    rw [List.cons_append, stringLiteral, dropWhile_append_of_stops hbody hstops]
    split
    · exact absurd hquote (by simp)
    · rfl

theorem stringLiteral_fails : Fails (fun cs f => stringLiteral cs = .failed f)
    (fun w => ∃ v, stringLiteral w = .matched v []) := by
  have hopen : Fails (fun cs f => (Stops isStringChar cs ∧ Stops (· == '"') cs) ∧
      f = openString cs) (· = ['"']) :=
    .here (onChar_unterminated _ _) (fun h hs => ⟨hs.1.of_head?_eq h, hs.2.of_head?_eq h⟩) rfl
  refine (Fails.some fun body => hopen.behind ?_ ?_).congr stringLiteral_eq_failed_iff
  · exact ⟨fun hs => (Steps.text _).suffix hs.1,
      fun hs hhead => ⟨(Steps.text _).exchange hs.1 hhead, hs.2⟩⟩
  · rintro u p r t ⟨hs, hbody⟩ ht
    obtain rfl : u = '"' :: body := List.append_cancel_right hs
    refine ⟨t, .ofList body, stringLiteral_eq_matched_iff.2 ?_⟩
    rw [ht, String.toList_ofList]
    exact ⟨rfl, hbody⟩

end DcpuAsm
