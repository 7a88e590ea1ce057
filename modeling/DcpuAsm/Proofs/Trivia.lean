import DcpuAsm.Grammar
import DcpuAsm.Reader.Trivia
import DcpuAsm.Proofs.Seam

/-!
Laws of skipping. `skipTrivia` takes off all the trivia at the front of a text and nothing else: it
is the one way to cut trivia off so that no more is left (`trivia_skipTrivia`,
`Trivia.skipTrivia_eq`). Main statements: what stands behind trivia may be replaced
(`skipTrivia_exchange`), and where trivia runs up to the end of a text a line feed closes the
comment that may be open there (`skipTrivia_append_newline`).
-/

namespace DcpuAsm

open Grammar (Trivia)

variable {c : Char} {cs x q s rest : List Char}

/-! ### Single steps -/

theorem skipTrivia_cons_of_blank (hc : isBlank c = true) :
    skipTrivia (c :: cs) = skipTrivia cs := by
  have hsemi : c ≠ ';' := by rintro rfl; exact absurd hc (by decide)
  rw [skipTrivia, if_neg hsemi, if_pos hc]

theorem skipTrivia_spaces (n : Nat) (cs : List Char) :
    skipTrivia (List.replicate n ' ' ++ cs) = skipTrivia cs := by
  induction n with
  | zero => rfl
  | succ n ih =>
    rw [List.replicate_succ, List.cons_append, skipTrivia_cons_of_blank (by decide), ih]

theorem skipTrivia_newline (cs : List Char) : skipTrivia ('\n' :: cs) = skipTrivia cs :=
  skipTrivia_cons_of_blank isBlank_newline

theorem skipTrivia_semicolon (cs : List Char) : skipTrivia (';' :: cs) = skipComment cs := by
  rw [skipTrivia, if_pos rfl]

/-- Nothing is skipped where no trivia starts. -/
theorem skipTrivia_of_stops (h : Stops startsTrivia cs) : skipTrivia cs = cs := by
  cases cs with
  | nil => rw [skipTrivia]
  | cons c cs =>
    obtain ⟨hblank, hsemi⟩ : isBlank c = false ∧ c ≠ ';' := by simpa [startsTrivia] using h
    rw [skipTrivia, if_neg hsemi, if_neg (by simp [hblank])]

theorem skipTrivia_ne_cons (c : Char) (cs : List Char) (h : startsTrivia c = true) :
    skipTrivia (c :: cs) ≠ c :: cs := by
  intro he
  have hlt : (skipTrivia (c :: cs)).length ≤ cs.length := by
    rw [skipTrivia]
    split
    · exact (skipComment_suffix cs).length_le
    · next hsemi =>
      rw [if_pos (by simpa [startsTrivia, hsemi] using h)]
      exact (skipTrivia_suffix cs).length_le
  rw [he, List.length_cons] at hlt
  omega

/-- A text stays as it is just where no trivia starts. -/
theorem skipTrivia_eq_self_iff : skipTrivia cs = cs ↔ Stops startsTrivia cs := by
  refine ⟨fun h => ?_, skipTrivia_of_stops⟩
  cases cs with
  | nil => exact stops_nil
  | cons c cs =>
    rw [stops_cons, ← Bool.not_eq_true]
    exact fun hc => skipTrivia_ne_cons c cs hc h

/-! ### All trivia, and only trivia -/

mutual

/-- Skipping stops at a character that starts no trivia, or at the end. -/
theorem stops_skipTrivia : ∀ cs, Stops startsTrivia (skipTrivia cs)
  | [] => by rw [skipTrivia]; exact stops_nil
  | c :: cs => by
    rw [skipTrivia]
    split
    · exact stops_skipComment cs
    · split
      · exact stops_skipTrivia cs
      · next hsemi hblank => simpa [startsTrivia, hsemi] using hblank

theorem stops_skipComment : ∀ cs, Stops startsTrivia (skipComment cs)
  | [] => by rw [skipComment]; exact stops_nil
  | c :: cs => by
    rw [skipComment]
    split
    · exact stops_skipTrivia cs
    · exact stops_skipComment cs

end

@[simp] theorem skipTrivia_skipTrivia (cs : List Char) :
    skipTrivia (skipTrivia cs) = skipTrivia cs :=
  skipTrivia_of_stops (stops_skipTrivia cs)

mutual

/-- What is skipped is trivia. -/
theorem trivia_skipTrivia : ∀ cs, Trivia cs (skipTrivia cs)
  | [] => by rw [skipTrivia]; exact .none
  | c :: cs => by
    rw [skipTrivia]
    split
    · next hsemi =>
      obtain ⟨body, tail, rfl, hbody, hend, h⟩ := trivia_skipComment cs
      exact hsemi ▸ .comment hbody hend h
    · split
      · next hblank => exact .blank hblank (trivia_skipTrivia cs)
      · exact .none

/-- Inside a comment, its body is skipped and the trivia behind it. -/
theorem trivia_skipComment : ∀ cs, ∃ body tail, cs = body ++ tail ∧ '\n' ∉ body ∧
    (tail = [] ∨ tail.head? = some '\n') ∧ Trivia tail (skipComment cs)
  | [] => ⟨[], [], rfl, List.not_mem_nil, Or.inl rfl, by rw [skipComment]; exact .none⟩
  | c :: cs => by
    rw [skipComment]
    split
    · next hc =>
      refine ⟨[], c :: cs, rfl, List.not_mem_nil, Or.inr (by rw [hc]; rfl), ?_⟩
      exact .blank (hc ▸ isBlank_newline) (trivia_skipTrivia cs)
    · next hc =>
      obtain ⟨body, tail, rfl, hbody, hend, h⟩ := trivia_skipComment cs
      refine ⟨c :: body, tail, rfl, ?_, hend, h⟩
      rw [List.mem_cons]
      rintro (rfl | hmem)
      · exact hc rfl
      · exact hbody hmem

end

theorem skipComment_append (hbody : '\n' ∉ x) (cs : List Char) :
    skipComment (x ++ cs) = skipComment cs := by
  induction x with
  | nil => rfl
  | cons c x ih =>
    rw [List.mem_cons, not_or] at hbody
    rw [List.cons_append, skipComment, if_neg (Ne.symm hbody.1), ih hbody.2]

/-- Whatever trivia is cut off in front, skipping ends at the same place. -/
theorem Grammar.Trivia.skipTrivia_eq (h : Trivia cs rest) : skipTrivia cs = skipTrivia rest := by
  induction h with
  | none => rfl
  | blank hc _ ih => rw [skipTrivia_cons_of_blank hc, ih]
  | @comment body tail rest hbody hend _ ih =>
    rw [List.cons_append, skipTrivia_semicolon, skipComment_append hbody, ← ih]
    cases tail with
    | nil => rw [skipComment, skipTrivia]
    | cons c tail =>
      obtain rfl : c = '\n' := by simpa using hend
      rw [skipComment, if_pos rfl, skipTrivia_newline]

/-- Trivia in front of what starts no trivia is all that is skipped. -/
theorem Grammar.Trivia.skipTrivia_eq_rest (h : Trivia cs rest) (hr : Stops startsTrivia rest) :
    skipTrivia cs = rest :=
  h.skipTrivia_eq.trans (skipTrivia_of_stops hr)

/-! ### More text behind -/

mutual

/-- Where something is left, it is left in front of more text. -/
theorem skipTrivia_append : ∀ cs, skipTrivia cs ≠ [] →
    skipTrivia (cs ++ x) = skipTrivia cs ++ x
  | [], h => absurd (by rw [skipTrivia]) h
  | c :: cs, h => by
    rw [List.cons_append, skipTrivia]
    rw [skipTrivia] at h
    split
    · next hsemi =>
      rw [if_pos hsemi] at h
      rw [skipTrivia, if_pos hsemi, skipComment_append_of_ne cs h]
    · next hsemi =>
      rw [if_neg hsemi] at h
      rw [skipTrivia, if_neg hsemi]
      split
      · next hblank => rw [if_pos hblank] at h; exact skipTrivia_append cs h
      · rfl

theorem skipComment_append_of_ne : ∀ cs, skipComment cs ≠ [] →
    skipComment (cs ++ x) = skipComment cs ++ x
  | [], h => absurd (by rw [skipComment]) h
  | c :: cs, h => by
    rw [List.cons_append, skipComment]
    rw [skipComment] at h
    split
    · next hc => rw [if_pos hc] at h; rw [skipComment, if_pos hc, skipTrivia_append cs h]
    · next hc => rw [if_neg hc] at h; rw [skipComment, if_neg hc, skipComment_append_of_ne cs h]

end

mutual

/-- A line feed closes what may be open behind trivia. -/
theorem skipTrivia_append_newline : ∀ cs, skipTrivia cs = [] →
    skipTrivia (cs ++ '\n' :: x) = skipTrivia x
  | [], _ => skipTrivia_newline x
  | c :: cs, h => by
    rw [List.cons_append, skipTrivia]
    rw [skipTrivia] at h
    split
    · next hsemi => rw [if_pos hsemi] at h; exact skipComment_append_newline cs h
    · next hsemi =>
      rw [if_neg hsemi] at h
      split
      · next hblank => rw [if_pos hblank] at h; exact skipTrivia_append_newline cs h
      · next hblank => rw [if_neg hblank] at h; contradiction

theorem skipComment_append_newline : ∀ cs, skipComment cs = [] →
    skipComment (cs ++ '\n' :: x) = skipTrivia x
  | [], _ => by rw [List.nil_append, skipComment, if_pos rfl]
  | c :: cs, h => by
    rw [List.cons_append, skipComment]
    rw [skipComment] at h
    split
    · next hc => rw [if_pos hc] at h; exact skipTrivia_append_newline cs h
    · next hc => rw [if_neg hc] at h; exact skipComment_append_newline cs h

end

/-- Trivia in front makes no difference to what is left behind a line feed. -/
theorem skipTrivia_append_newline_congr (cs x : List Char) :
    skipTrivia (cs ++ '\n' :: x) = skipTrivia (skipTrivia cs ++ '\n' :: x) := by
  by_cases h : skipTrivia cs = []
  · rw [skipTrivia_append_newline cs h, h, List.nil_append, skipTrivia_newline]
  · have h' : skipTrivia (skipTrivia cs) ≠ [] := by rwa [skipTrivia_skipTrivia]
    rw [skipTrivia_append cs h, skipTrivia_append _ h', skipTrivia_skipTrivia]

/-! ### Other text behind -/

mutual

/-- Trivia that ends before some text is trivia in front of any other. -/
theorem skipTrivia_exchange : ∀ q, skipTrivia (q ++ s) = s → s ≠ [] → ∀ x,
    skipTrivia (q ++ x) = skipTrivia x
  | [], _, _, _ => rfl
  | c :: q, h, hs, x => by
    rw [List.cons_append, skipTrivia] at h
    rw [List.cons_append, skipTrivia]
    split
    · next hsemi => rw [if_pos hsemi] at h; exact skipComment_exchange q h hs x
    · next hsemi =>
      rw [if_neg hsemi] at h
      split
      · next hblank => rw [if_pos hblank] at h; exact skipTrivia_exchange q h hs x
      · next hblank =>
        -- The text would be left behind itself.
        rw [if_neg hblank] at h
        have := congrArg List.length h
        simp only [List.length_cons, List.length_append] at this
        omega

theorem skipComment_exchange : ∀ q, skipComment (q ++ s) = s → s ≠ [] → ∀ x,
    skipComment (q ++ x) = skipTrivia x
  | [], h, hs, _ => by
    obtain ⟨c, cs, rfl⟩ := List.exists_cons_of_ne_nil hs
    rw [List.nil_append, skipComment] at h
    have hle : (c :: cs).length ≤ cs.length := by
      split at h
      · exact h ▸ (skipTrivia_suffix cs).length_le
      · exact h ▸ (skipComment_suffix cs).length_le
    rw [List.length_cons] at hle
    omega
  | c :: q, h, hs, x => by
    rw [List.cons_append, skipComment] at h
    rw [List.cons_append, skipComment]
    split
    · next hc => rw [if_pos hc] at h; exact skipTrivia_exchange q h hs x
    · next hc => rw [if_neg hc] at h; exact skipComment_exchange q h hs x

end

/-- Behind trivia and a first part of the text left over, the text may go on in any way that starts
no trivia. Only where nothing was left a line feed may be needed. -/
theorem exists_resume {p r t : List Char} (h : skipTrivia (q ++ (p ++ r)) = p ++ r)
    (ht : Stops startsTrivia (p ++ t)) : ∃ t', skipTrivia (q ++ (p ++ t')) = p ++ t := by
  by_cases hnil : p ++ r = []
  · obtain ⟨rfl, rfl⟩ := List.append_eq_nil_iff.1 hnil
    refine ⟨'\n' :: t, ?_⟩
    rw [List.append_nil, List.append_nil] at h
    rw [List.nil_append, skipTrivia_append_newline q h]
    exact skipTrivia_of_stops ht
  · exact ⟨t, by rw [skipTrivia_exchange q h hnil, skipTrivia_of_stops ht]⟩

end DcpuAsm
