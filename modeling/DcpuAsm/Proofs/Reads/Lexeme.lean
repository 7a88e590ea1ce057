import DcpuAsm.Grammar
import DcpuAsm.Reader.Lexeme
import DcpuAsm.Reader.Trivia
import DcpuAsm.Proofs.Reads.Basic

/-!
What words, numbers and strings the reader finds: those of the grammar, cut where the next character
does not go on with them. Main statements: `word?_eq_some_iff` and `identifier?_eq_some_iff` say
exactly when a word is found, and `number_reads` and `stringLiteral_reads` that numbers and strings
are read as the grammar has them.
-/

namespace DcpuAsm

open Grammar (IsWord IsIdentifier IsNumber)

variable {c : Char} {cs ds next w r r' : List Char} {name : String} {v : UInt16}

/-! ### Classes of characters -/

theorem toNat_lt_of_isAlphanum (h : c.isAlphanum = true) : c.toNat < 128 := by
  have hz : c.val ≤ 'z'.val := by
    unfold Char.isAlphanum Char.isAlpha Char.isUpper Char.isLower Char.isDigit at h
    simp only [Bool.or_eq_true, Bool.and_eq_true, decide_eq_true_eq] at h
    rcases h with (h | h) | h
    · exact UInt32.le_trans h.2 (by decide)
    · exact h.2
    · exact UInt32.le_trans h.2 (by decide)
  exact Nat.lt_of_le_of_lt (UInt32.le_iff_toNat_le.1 hz) (by decide)

/-- What holds of the first 128 characters holds of every ASCII character. -/
theorem of_ascii {P : Char → Prop} (h : ∀ n < 128, P (.ofNat n)) (hc : c.toNat < 128) : P c := by
  rw [← Char.ofNat_toNat c]
  exact h c.toNat hc

theorem isAlphanum_of_isAlpha (h : c.isAlpha = true) : c.isAlphanum = true := by
  rw [Char.isAlphanum, h, Bool.true_or]

theorem isAlphanum_of_isDigit (h : c.isDigit = true) : c.isAlphanum = true := by
  rw [Char.isAlphanum, h, Bool.or_true]

theorem isAlphanum_of_isHexDigit (h : c.isHexDigit = true) : c.isAlphanum = true := by
  unfold Char.isHexDigit at h
  unfold Char.isAlphanum Char.isAlpha Char.isUpper Char.isLower
  simp only [Bool.or_eq_true, Bool.and_eq_true, decide_eq_true_eq] at h ⊢
  rcases h with (h | h) | h
  · exact Or.inr h
  · exact Or.inl (Or.inr ⟨h.1, UInt32.le_trans h.2 (by decide)⟩)
  · exact Or.inl (Or.inl ⟨h.1, UInt32.le_trans h.2 (by decide)⟩)

theorem isAlpha_eq_false_of_isDigit (h : c.isDigit = true) : c.isAlpha = false :=
  of_ascii (P := fun c => c.isDigit = true → c.isAlpha = false) (by decide)
    (toNat_lt_of_isAlphanum (isAlphanum_of_isDigit h)) h

theorem startsTrivia_eq_false_of_isAlphanum (h : c.isAlphanum = true) : startsTrivia c = false :=
  of_ascii (P := fun c => c.isAlphanum = true → startsTrivia c = false) (by decide)
    (toNat_lt_of_isAlphanum h) h

/-! ### Words -/

theorem word?_eq_none_iff : word? cs = none ↔ Stops Char.isAlphanum cs := by
  rw [word?, ← takeWhile_eq_nil_iff]
  split
  · next h => simpa using h
  · next h => simpa using h

/-- A word is found where one stands, up to a character that is no letter or digit. -/
theorem word?_eq_some_iff : word? cs = some (name, next) ↔
    cs = name.toList ++ next ∧ IsWord name.toList ∧ Stops Char.isAlphanum next := by
  refine ⟨fun h => ?_, ?_⟩
  · rw [word?] at h
    split at h
    · contradiction
    · next hne =>
      cases h
      rw [String.toList_ofList]
      refine ⟨List.takeWhile_append_dropWhile.symm, ⟨by simpa using hne, ?_⟩, stops_dropWhile _ cs⟩
      exact List.all_eq_true.1 List.all_takeWhile
  · rintro ⟨rfl, ⟨hne, hall⟩, hs⟩
    rw [word?, takeWhile_append_of_stops hall hs, dropWhile_append_of_stops hall hs,
      if_neg (by simpa using hne), String.ofList_toList]

theorem identifier?_eq_none_iff : identifier? cs = none ↔ Stops Char.isAlpha cs := by
  cases cs with
  | nil => simp [identifier?]
  | cons c cs =>
    rw [identifier?, stops_cons]
    split
    · next hc => simp [word?_eq_none_iff, isAlphanum_of_isAlpha hc, hc]
    · next hc => simpa using hc

/-- An identifier is a word that starts with a letter. -/
theorem identifier?_eq_some_iff : identifier? cs = some (name, next) ↔
    cs = name.toList ++ next ∧ IsIdentifier name.toList ∧ Stops Char.isAlphanum next := by
  refine ⟨fun h => ?_, ?_⟩
  · cases cs with
    | nil => simp [identifier?] at h
    | cons c cs =>
      rw [identifier?] at h
      split at h
      · next hc =>
        obtain ⟨hcs, hword, hs⟩ := word?_eq_some_iff.1 h
        obtain ⟨d, ds, hd⟩ := List.exists_cons_of_ne_nil hword.1
        rw [hd] at hcs
        obtain rfl : c = d := (List.cons.inj hcs).1
        exact ⟨hd ▸ hcs, ⟨hword, c, ds, hd, hc⟩, hs⟩
      · contradiction
  · rintro ⟨rfl, ⟨hword, c, ds, hc, halpha⟩, hs⟩
    have h := word?_eq_some_iff.2 ⟨rfl, hword, hs⟩
    rw [hc] at h ⊢
    rw [List.cons_append, identifier?, if_pos halpha]
    exact h

/-! ### Numbers -/

theorem fitWord_eq_matched_iff {value : Nat} {literal start rest : List Char} :
    fitWord value literal start next = .matched v rest ↔ value = v.toNat ∧ next = rest := by
  rw [fitWord]
  refine ⟨fun h => ?_, ?_⟩
  · split at h
    · next hlt => cases h; exact ⟨(UInt16.toNat_ofNat_of_lt' hlt).symm, rfl⟩
    · contradiction
  · rintro ⟨rfl, rfl⟩
    rw [if_pos v.toNat_lt, UInt16.ofNat_toNat]

theorem fitWord_ne_noMatch {value : Nat} {literal start : List Char} :
    fitWord value literal start next ≠ .noMatch := by
  rw [fitWord]
  split <;> exact nofun

/-- A hexadecimal numeral takes all the letters and digits there are. -/
theorem hexNumber_eq_matched_iff : hexNumber cs = .matched v next ↔
    ∃ ds, cs = ds ++ next ∧ ds ≠ [] ∧ (∀ c ∈ ds, c.isHexDigit = true) ∧
      numeralValue 16 ds = v.toNat ∧ Stops Char.isAlphanum next := by
  refine ⟨fun h => ?_, ?_⟩
  · simp only [hexNumber] at h
    split at h
    · contradiction
    · next hne =>
      split at h
      · next hhex =>
        obtain ⟨hval, rfl⟩ := fitWord_eq_matched_iff.1 h
        exact ⟨_, List.takeWhile_append_dropWhile.symm, by simpa using hne,
          List.all_eq_true.1 hhex, hval, stops_dropWhile _ cs⟩
      · contradiction
  · rintro ⟨ds, rfl, hne, hhex, hval, hs⟩
    have hall : ∀ c ∈ ds, c.isAlphanum = true := fun c hc => isAlphanum_of_isHexDigit (hhex c hc)
    simp only [hexNumber]
    rw [takeWhile_append_of_stops hall hs, dropWhile_append_of_stops hall hs,
      if_neg (by simpa using hne), if_pos (List.all_eq_true.2 hhex)]
    exact fitWord_eq_matched_iff.2 ⟨hval, rfl⟩

/-- A decimal numeral takes the digits there are. -/
theorem decimalNumber_eq_matched_iff : decimalNumber cs = .matched v next ↔
    ∃ ds, cs = ds ++ next ∧ ds ≠ [] ∧ (∀ c ∈ ds, c.isDigit = true) ∧
      numeralValue 10 ds = v.toNat ∧ Stops Char.isDigit next := by
  refine ⟨fun h => ?_, ?_⟩
  · simp only [decimalNumber] at h
    split at h
    · contradiction
    · next hne =>
      obtain ⟨hval, rfl⟩ := fitWord_eq_matched_iff.1 h
      exact ⟨_, List.takeWhile_append_dropWhile.symm, by simpa using hne,
        List.all_eq_true.1 List.all_takeWhile, hval, stops_dropWhile _ cs⟩
  · rintro ⟨ds, rfl, hne, hall, hval, hs⟩
    simp only [decimalNumber]
    rw [takeWhile_append_of_stops hall hs, dropWhile_append_of_stops hall hs,
      if_neg (by simpa using hne)]
    exact fitWord_eq_matched_iff.2 ⟨hval, rfl⟩

theorem hexNumber_ne_noMatch : hexNumber cs ≠ .noMatch := by
  intro h
  simp only [hexNumber] at h
  split at h
  · contradiction
  · split at h
    · exact fitWord_ne_noMatch h
    · contradiction

theorem decimalNumber_eq_noMatch_iff : decimalNumber cs = .noMatch ↔ Stops Char.isDigit cs := by
  rw [← takeWhile_eq_nil_iff]
  simp only [decimalNumber]
  split
  · next h => simpa using h
  · next h => simpa [fitWord_ne_noMatch] using h

/-- The text starts with the mark of hexadecimal numerals. -/
def HexMarked (cs : List Char) : Prop := ∃ ds, cs = '0' :: 'x' :: ds

theorem number_of_not_hexMarked (h : ¬ HexMarked cs) : number cs = decimalNumber cs := by
  unfold number
  split
  · next ds => exact absurd ⟨ds, rfl⟩ h
  · rfl

/-- A text that starts with a run of digits is not marked, as long as `x` does not follow. -/
theorem not_hexMarked_append (hne : ds ≠ []) (hall : ∀ c ∈ ds, c.isDigit = true)
    (hs : Stops Char.isAlphanum r) : ¬ HexMarked (ds ++ r) := by
  rintro ⟨es, h⟩
  match ds with
  | [] => exact hne rfl
  | [c] =>
    rw [List.singleton_append, List.cons.injEq] at h
    rw [h.2, stops_cons] at hs
    exact absurd hs (by decide)
  | c :: d :: ds =>
    simp only [List.cons_append, List.cons.injEq] at h
    have hd := hall d (by simp)
    rw [h.2.1] at hd
    exact absurd hd (by decide)

/-- The mark does not depend on what comes after a seam behind some text. -/
theorem HexMarked.of_seam (hw : w ≠ []) (hall : ∀ c ∈ w, c.isDigit = true)
    (hs : Seam Char.isAlphanum r r') (h : HexMarked (w ++ r')) : HexMarked (w ++ r) := by
  rcases hs with hhead | hstop
  · obtain ⟨es, h⟩ := h
    match w with
    | [] => exact absurd rfl hw
    | [c] =>
      rw [List.singleton_append, List.cons.injEq] at h
      rw [h.2, List.head?_cons, eq_comm, List.head?_eq_some_iff] at hhead
      obtain ⟨fs, rfl⟩ := hhead
      exact ⟨fs, by rw [h.1]; rfl⟩
    | c :: d :: w =>
      simp only [List.cons_append, List.cons.injEq] at h
      exact ⟨w ++ r, by rw [h.1, h.2.1]; rfl⟩
  · exact absurd h (not_hexMarked_append hw hall hstop)

/-- A numeral is a run of letters and digits. -/
theorem Grammar.IsNumber.isAlphanum (h : IsNumber w v) :
    ∀ c ∈ w, c.isAlphanum = true := by
  cases h with
  | decimal _ hdigits _ => exact fun c hc => isAlphanum_of_isDigit (hdigits c hc)
  | hexadecimal _ hdigits _ =>
    rw [List.forall_mem_cons, List.forall_mem_cons]
    exact ⟨by decide, by decide, fun c hc => isAlphanum_of_isHexDigit (hdigits c hc)⟩

theorem number_reads : Reads number IsNumber Char.isDigit Char.isAlphanum where
  sound := by
    intro cs next v h
    by_cases hmark : HexMarked cs
    · obtain ⟨es, rfl⟩ := hmark
      obtain ⟨ds, rfl, hne, hhex, hval, _⟩ := hexNumber_eq_matched_iff.1 h
      exact ⟨'0' :: 'x' :: ds, rfl, .hexadecimal hne hhex hval⟩
    · rw [number_of_not_hexMarked hmark] at h
      obtain ⟨ds, rfl, hne, hall, hval, _⟩ := decimalNumber_eq_matched_iff.1 h
      exact ⟨ds, rfl, .decimal hne hall hval⟩
  complete := by
    intro w r v hw hs
    cases hw with
    | decimal hne hall hval =>
      rw [number_of_not_hexMarked (not_hexMarked_append hne hall hs)]
      exact decimalNumber_eq_matched_iff.2
        ⟨w, rfl, hne, hall, hval, hs.mono fun _ => isAlphanum_of_isDigit⟩
    | @hexadecimal ds _ hne hhex hval =>
      exact hexNumber_eq_matched_iff.2 ⟨ds, rfl, hne, hhex, hval, hs⟩
  exchange := by
    intro w r r' v h hs
    by_cases hmark : HexMarked (w ++ r)
    · obtain ⟨es, he⟩ := hmark
      rw [he] at h
      obtain ⟨ds, rfl, hne, hhex, hval, hstop⟩ := hexNumber_eq_matched_iff.1 h
      obtain rfl : w = '0' :: 'x' :: ds := List.append_cancel_right he
      exact hexNumber_eq_matched_iff.2 ⟨ds, rfl, hne, hhex, hval, hs.stops hstop⟩
    · rw [number_of_not_hexMarked hmark] at h
      obtain ⟨ds, he, hne, hall, hval, hstop⟩ := decimalNumber_eq_matched_iff.1 h
      obtain rfl : w = ds := List.append_cancel_right he
      rw [number_of_not_hexMarked fun hm => hmark (hm.of_seam hne hall hs)]
      exact decimalNumber_eq_matched_iff.2
        ⟨w, rfl, hne, hall, hval, (hs.mono fun _ => isAlphanum_of_isDigit).stops hstop⟩
  noMatch_iff := by
    intro cs
    by_cases hmark : HexMarked cs
    · obtain ⟨ds, rfl⟩ := hmark
      simp [number, hexNumber_ne_noMatch, Char.isDigit]
    · rw [number_of_not_hexMarked hmark, decimalNumber_eq_noMatch_iff]

/-! ### Strings -/

/-- A text in quotes on one line. -/
def IsQuoted (w : List Char) (content : String) : Prop :=
  w = '"' :: content.toList ++ ['"'] ∧ '"' ∉ content.toList ∧ '\n' ∉ content.toList

theorem forall_isStringChar_iff :
    (∀ c ∈ cs, isStringChar c = true) ↔ '"' ∉ cs ∧ '\n' ∉ cs := by
  refine ⟨fun h => ?_, ?_⟩
  · exact ⟨fun hm => absurd (h _ hm) (by decide), fun hm => absurd (h _ hm) (by decide)⟩
  · rintro ⟨hquote, hline⟩ c hc
    have h₁ : c ≠ '"' := fun h => hquote (h ▸ hc)
    have h₂ : c ≠ '\n' := fun h => hline (h ▸ hc)
    simp [isStringChar, h₁, h₂]

/-- A string is found between a quote and the next quote on the same line. -/
theorem stringLiteral_eq_matched_iff {content : String} :
    stringLiteral cs = .matched content next ↔
      cs = '"' :: content.toList ++ '"' :: next ∧ ∀ c ∈ content.toList, isStringChar c = true := by
  refine ⟨fun h => ?_, ?_⟩
  · unfold stringLiteral at h
    split at h
    · next cs =>
      split at h
      · next rest hrest =>
        cases h
        rw [String.toList_ofList]
        refine ⟨?_, List.all_eq_true.1 List.all_takeWhile⟩
        rw [List.cons_append, ← hrest, List.takeWhile_append_dropWhile]
      · contradiction
    · contradiction
  · rintro ⟨rfl, hall⟩
    have hs : Stops isStringChar ('"' :: next) := stops_cons.2 (by decide)
    rw [List.cons_append, stringLiteral]
    simp only [dropWhile_append_of_stops hall hs, takeWhile_append_of_stops hall hs,
      String.ofList_toList]

theorem stringLiteral_reads :
    Reads stringLiteral IsQuoted (· == '"') (fun _ => false) where
  sound := by
    intro cs next content h
    obtain ⟨rfl, hall⟩ := stringLiteral_eq_matched_iff.1 h
    exact ⟨'"' :: content.toList ++ ['"'], by simp, rfl, forall_isStringChar_iff.1 hall⟩
  complete := by
    rintro w r content ⟨rfl, hall⟩ _
    exact stringLiteral_eq_matched_iff.2 ⟨by simp, forall_isStringChar_iff.2 hall⟩
  exchange := by
    intro w r r' content h _
    obtain ⟨hw, hall⟩ := stringLiteral_eq_matched_iff.1 h
    obtain rfl : w = '"' :: content.toList ++ ['"'] := by
      refine List.append_cancel_right (?_ : _ ++ r = _ ++ r)
      rw [hw]; simp
    exact stringLiteral_eq_matched_iff.2 ⟨by simp, hall⟩
  noMatch_iff := by
    intro cs
    cases cs with
    | nil => simp [stringLiteral]
    | cons c cs =>
      by_cases hc : c = '"'
      · subst hc
        rw [stringLiteral]
        split <;> simp
      · simp [stringLiteral, hc]

end DcpuAsm
