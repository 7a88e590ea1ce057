import DcpuAsm.Proofs.Fails.Lexeme
import DcpuAsm.Proofs.Offsets
import Mathlib.Order.Bounds.Basic

/-!
Strings at an offset, delimited exactly. A string that opens there may end at the quotes and line
feeds behind it and at the end of the source (`Source.stringEnds`), the first of these places is where
its run of characters is over (`Source.isLeast_stringEnds`), and it is whole just where a quote stands
there. `Source.FindsString` says what is found at an offset by the text that is left. Main statement:
`stringLiteralAt_exact`.
-/

namespace DcpuAsm

variable {content rest : List Char} {c : Char}

/-- What ends a run of string characters is a quote or a line feed. -/
theorem isStringChar_eq_false_iff : isStringChar c = false ↔ c = '"' ∨ c = '\n' := by
  rw [isStringChar, Bool.and_eq_false_iff, bne_eq_false_iff_eq, bne_eq_false_iff_eq]

theorem byteLength_inQuotes (content : List Char) :
    byteLength ('"' :: content ++ ['"']) = byteLength content + 2 := by
  have hone : ('"').utf8Size = 1 := by decide
  simp only [List.cons_append, byteLength_cons, byteLength_append, byteLength_nil, hone]
  omega

namespace Source

variable {s : Source} {pos : Nat} {found : Match Nat Diagnostic String}

/-- Where a string that opens at an offset may end: at a quote or a line feed further on, and at the
end of the source. -/
def stringEnds (s : Source) (pos : Nat) : Set Nat :=
  {m | pos < m ∧ (s.peek? m = some '"' ∨ s.peek? m = some '\n' ∨ m = byteLength s.chars)}

/-- A string is still open at an offset. -/
def openStringAt (s : Source) (pos : Nat) : Diagnostic :=
  ⟨.unterminated .stringLiteral "closing `\"` before end of line", s.locationAt pos⟩

/-- What comes of the string at an offset is decided by the characters in it and behind it. None is
found without a quote. From a quote on, the first place where a string may end decides: if another
quote stands there, the text in front of it is the string, and else the string is open there. A string
that is found holds neither a quote nor a line feed, and stands in quotes in the source. -/
structure DelimitsString (s : Source) (pos : Nat) : Prop where
  noMatch_iff : s.stringLiteralAt pos = .noMatch ↔ s.peek? pos ≠ some '"'
  ends : s.peek? pos = some '"' → ∃ m, IsLeast (s.stringEnds pos) m ∧
    (s.peek? m = some '"' →
      s.stringLiteralAt pos = .matched (.ofList (bytesBetween (pos + 1) m s.chars)) (m + 1)) ∧
    (s.peek? m = some '\n' ∨ m = byteLength s.chars →
      s.stringLiteralAt pos = .failed (s.openStringAt m) ∧ (s.locationAt m).offset = m)
  quoted : ∀ text next, s.stringLiteralAt pos = .matched text next →
    '"' ∉ text.toList ∧ '\n' ∉ text.toList ∧
      bytesBetween pos next s.chars = '"' :: text.toList ++ ['"']

/-! ### What is found -/

/-- What is to be found at an offset: a string up to a quote, one that is open where its run of
characters is over, or none without a quote. -/
inductive FindsString (s : Source) (pos : Nat) : Match Nat Diagnostic String → Prop where
  | closed {content next : List Char} (h : s.Leaves pos ('"' :: content ++ '"' :: next))
      (hcontent : ∀ c ∈ content, isStringChar c = true) :
      FindsString s pos (.matched (.ofList content) (pos + 1 + byteLength content + 1))
  | unclosed {content rest : List Char} (h : s.Leaves pos ('"' :: content ++ rest))
      (hcontent : ∀ c ∈ content, isStringChar c = true) (hstops : Stops isStringChar rest)
      (hquote : Stops (· == '"') rest) :
      FindsString s pos (.failed (s.openStringAt (pos + 1 + byteLength content)))
  | nothing (hs : Stops (· == '"') (s.restAt pos)) : FindsString s pos .noMatch

/-- There is something to be found everywhere. -/
theorem exists_findsString (s : Source) (pos : Nat) : ∃ found, s.FindsString pos found := by
  rcases eq_cons_or_stops '"' (s.restAt pos) with ⟨cs, hrest⟩ | hs
  · have hplace : s.Leaves pos ('"' :: cs) := leaves_of_restAt_eq hrest (List.cons_ne_nil _ _)
    have hcontent : ∀ c ∈ cs.takeWhile isStringChar, isStringChar c = true :=
      List.all_eq_true.1 List.all_takeWhile
    rw [← List.takeWhile_append_dropWhile (p := isStringChar) (l := cs)] at hplace
    rcases eq_cons_or_stops '"' (cs.dropWhile isStringChar) with ⟨next, hnext⟩ | hquote
    · rw [hnext] at hplace
      exact ⟨_, .closed hplace hcontent⟩
    · exact ⟨_, .unclosed hplace hcontent (stops_dropWhile isStringChar cs) hquote⟩
  · exact ⟨_, .nothing hs⟩

theorem peek?_ne_of_stops (hs : Stops (· == c) (s.restAt pos)) : s.peek? pos ≠ some c := by
  intro hhead
  obtain ⟨next, hnext⟩ := List.head?_eq_some_iff.1 hhead
  rw [hnext, stops_cons, beq_self_eq_true] at hs
  contradiction

/-- Behind a quote the content of a string is left, and what follows it behind the content. -/
theorem Leaves.behind_quote (h : s.Leaves pos ('"' :: content ++ rest)) :
    s.Leaves (pos + 1) (content ++ rest) ∧ s.Leaves (pos + 1 + byteLength content) rest := by
  have hone : byteLength ['"'] = 1 := by decide
  have hcontent : s.Leaves (pos + 1) (content ++ rest) := hone ▸ Leaves.append ['"'] h
  exact ⟨hcontent, hcontent.append content⟩

theorem FindsString.stringLiteralAt_eq (h : s.FindsString pos found) :
    s.stringLiteralAt pos = found := by
  cases h with
  | @closed content next h hcontent =>
    have hone : byteLength ['"'] = 1 := by decide
    have hnext : s.Leaves (pos + 1 + byteLength content + 1) next :=
      hone ▸ Leaves.append ['"'] h.behind_quote.2
    have hstring : stringLiteral (s.restAt pos) = .matched (.ofList content) next := by
      rw [h.restAt_eq, stringLiteral_eq_matched_iff, String.toList_ofList]
      exact ⟨rfl, hcontent⟩
    rw [stringLiteralAt, scan_of_matched hstring, hnext.offsetOf_eq]
  | @unclosed content rest h hcontent hstops hquote =>
    have hstring : stringLiteral (s.restAt pos) = .failed (openString rest) := by
      rw [h.restAt_eq, stringLiteral_eq_failed_iff]
      exact ⟨content, rest, ⟨rfl, hcontent⟩, ⟨hstops, hquote⟩, rfl⟩
    rw [stringLiteralAt, scan_of_failed hstring]
    exact congrArg _ (h.behind_quote.2.diagnose_eq _)
  | nothing hs => exact scan_of_noMatch (stringLiteral_reads.noMatch_iff.2 hs)

/-! ### Where strings end -/

/-- The first place where a string may end is behind its run of characters. -/
theorem isLeast_stringEnds (h : s.Leaves pos ('"' :: content ++ rest))
    (hcontent : ∀ c ∈ content, isStringChar c = true) (hstops : Stops isStringChar rest) :
    IsLeast (s.stringEnds pos) (pos + 1 + byteLength content) := by
  obtain ⟨hinside, hend⟩ := h.behind_quote
  refine ⟨⟨by omega, ?_⟩, ?_⟩
  · rw [hend.peek?_eq]
    cases rest with
    | nil => exact Or.inr (Or.inr hend.add_byteLength)
    | cons c rest =>
      rcases isStringChar_eq_false_iff.1 hstops with rfl | rfl
      · exact Or.inl rfl
      · exact Or.inr (Or.inl rfl)
  · rintro m ⟨hlt, hm⟩
    by_contra hbefore
    have hne : m ≠ byteLength s.chars := by
      rintro rfl
      exact hbefore hend.isBoundary.le
    have hquote : ∃ c, s.peek? m = some c ∧ isStringChar c = false := by
      rcases hm with hm | hm | hm
      · exact ⟨_, hm, by decide⟩
      · exact ⟨_, hm, by decide⟩
      · exact absurd hm hne
    -- All that stands between the quote and the end of the run may stand inside a string.
    obtain ⟨c, hpeek, hc⟩ := hquote
    obtain ⟨d, hd, hpeek'⟩ := hinside.exists_mem_peek? (isBoundary_of_peek? hpeek) hlt
      (Nat.lt_of_not_le hbefore)
    rw [hpeek, Option.some_inj] at hpeek'
    rw [hpeek', hcontent d hd] at hc
    contradiction

theorem FindsString.delimitsString (h : s.FindsString pos found) : s.DelimitsString pos := by
  have heq := h.stringLiteralAt_eq
  cases h with
  | @closed content next h hcontent =>
    have hpeek : s.peek? pos = some '"' := h.peek?_eq
    have hleast := isLeast_stringEnds h hcontent (stops_cons.2 (by decide))
    obtain ⟨hinside, hend⟩ := h.behind_quote
    refine ⟨iff_of_false (heq ▸ nofun) (not_not_intro hpeek), fun _ => ⟨_, hleast, ?_, ?_⟩, ?_⟩
    · rw [hinside.bytesBetween_eq]
      exact fun _ => heq
    · rw [hend.peek?_eq]
      rintro (hline | hlast)
      · exact absurd (Option.some.inj hline) (by decide)
      · have hsum := hend.add_byteLength
        have hpos := Char.utf8Size_pos '"'
        rw [byteLength_cons] at hsum
        omega
    · intro text after htext
      rw [heq] at htext
      cases htext
      rw [String.toList_ofList]
      obtain ⟨hquote, hline⟩ := forall_isStringChar_iff.1 hcontent
      refine ⟨hquote, hline, ?_⟩
      have hsize : pos + 1 + byteLength content + 1 = pos + byteLength ('"' :: content ++ ['"']) := by
        rw [byteLength_inQuotes]
        omega
      have hquoted : s.Leaves pos (('"' :: content ++ ['"']) ++ next) := by rwa [List.append_assoc]
      rw [hsize, hquoted.bytesBetween_eq]
  | @unclosed content rest h hcontent hstops hquote =>
    have hpeek : s.peek? pos = some '"' := h.peek?_eq
    have hend := h.behind_quote.2
    refine ⟨iff_of_false (heq ▸ nofun) (not_not_intro hpeek),
      fun _ => ⟨_, isLeast_stringEnds h hcontent hstops, ?_, ?_⟩, ?_⟩
    · rw [hend.peek?_eq]
      intro hhead
      obtain ⟨next, rfl⟩ := List.head?_eq_some_iff.1 hhead
      contradiction
    · exact fun _ => ⟨heq, hend.offset_locationAt⟩
    · intro text after htext
      rw [heq] at htext
      contradiction
  | nothing hs =>
    have hpeek := peek?_ne_of_stops hs
    refine ⟨iff_of_true heq hpeek, fun hquote => absurd hquote hpeek, ?_⟩
    intro text after htext
    rw [heq] at htext
    contradiction

/-- A text in quotes is found as it is, whatever stands behind it. -/
theorem stringLiteralAt_quoted {text : String} (hquote : '"' ∉ text.toList)
    (hline : '\n' ∉ text.toList) (later : String) :
    (Source.mk ("\"" ++ text ++ "\"" ++ later)).stringLiteralAt 0 =
      .matched text (byteLength text.toList + 2) := by
  have hchars : (Source.mk ("\"" ++ text ++ "\"" ++ later)).chars =
      '"' :: text.toList ++ '"' :: later.toList := by
    simp [chars]
  have hfound := FindsString.closed (hchars ▸ leaves_start _) (forall_isStringChar_iff.2 ⟨hquote, hline⟩)
  rw [hfound.stringLiteralAt_eq, String.ofList_toList]
  congr 1
  omega

/-- At every offset a string is found just where it stands in quotes with no quote and no line feed in
it, and it is open at the first place where it has to end without a quote. A text that holds neither
is found again between quotes, whatever stands behind them. -/
theorem stringLiteralAt_exact :
    (∀ (s : Source) (pos : Nat), s.DelimitsString pos) ∧
    ∀ text later : String, '"' ∉ text.toList → '\n' ∉ text.toList →
      (Source.mk ("\"" ++ text ++ "\"" ++ later)).stringLiteralAt 0 =
        .matched text (byteLength text.toList + 2) := by
  refine ⟨fun s pos => ?_, fun text later hquote hline => stringLiteralAt_quoted hquote hline later⟩
  obtain ⟨found, hfound⟩ := s.exists_findsString pos
  exact hfound.delimitsString

end Source

end DcpuAsm
