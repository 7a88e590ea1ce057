import DcpuAsm.Proofs.Offsets
import DcpuAsm.Proofs.Trivia
import Mathlib.Logic.Relation

/-!
Where the trivia at an offset ends. Text splits into trivia if white space and whole comments lead
from the one offset to the other (`Source.SplitsBetween`), which is what `Grammar.Trivia` says of the
texts that are left there (`Source.splitsBetween_iff`). Each piece leaves the end of the trivia where
it is, and a boundary that lies inside no comment is passed between two pieces
(`Source.SplitsBetween.from_boundary`), so skipping may start at any of them. Main statement:
`skipTriviaAt_exact`.
-/

namespace DcpuAsm

open Grammar (Trivia)

namespace Source

variable {s : Source} {pos i j m r : Nat} {cs rest next : List Char}

/-- A character of white space stands between the offsets. -/
def BlankBetween (s : Source) (i j : Nat) : Prop :=
  ∃ c rest, isBlank c = true ∧ s.Leaves i (c :: rest) ∧ s.Leaves j rest

/-- A comment stands between the offsets, from its semicolon up to a line feed or the end of the
source. -/
def CommentBetween (s : Source) (i j : Nat) : Prop :=
  ∃ body rest, '\n' ∉ body ∧ (rest = [] ∨ rest.head? = some '\n') ∧
    s.Leaves i (';' :: body ++ rest) ∧ s.Leaves j rest

/-- The text between the offsets splits into characters of white space and whole comments. -/
def SplitsBetween (s : Source) : Nat → Nat → Prop :=
  Relation.ReflTransGen fun i j => s.BlankBetween i j ∨ s.CommentBetween i j

/-- The trivia at an offset ends at another: all text up to there is trivia, and no trivia starts
there. -/
structure EndsTrivia (s : Source) (pos r : Nat) : Prop where
  le : pos ≤ r
  isBoundary : IsBoundary s.chars r
  splits : s.SplitsBetween pos r
  stops : ∀ c, s.peek? r = some c → isBlank c = false ∧ c ≠ ';'

/-- The offset lies inside a comment of the trivia between two others, behind the semicolon and in
front of the end of the comment. -/
def InsideComment (s : Source) (pos r m : Nat) : Prop :=
  ∃ i j, s.SplitsBetween pos i ∧ s.CommentBetween i j ∧ s.SplitsBetween j r ∧ i < m ∧ m < j

/-! ### Pieces -/

/-- A piece of trivia is some text between two places. -/
theorem exists_piece (h : s.BlankBetween i j ∨ s.CommentBetween i j) :
    ∃ cs rest, s.Leaves i cs ∧ s.Leaves j rest ∧ Trivia cs rest ∧ i < j := by
  rcases h with ⟨c, rest, hc, hi, hj⟩ | ⟨body, rest, hbody, hend, hi, hj⟩
  · refine ⟨_, rest, hi, hj, .blank hc .none, ?_⟩
    have hlt := Char.utf8Size_pos c
    have hsum := hi.add_byteLength
    have hrest := hj.add_byteLength
    rw [byteLength_cons] at hsum
    omega
  · refine ⟨_, rest, hi, hj, .comment hbody hend .none, ?_⟩
    have hsemicolon : (';').utf8Size = 1 := by decide
    have hsum := hi.add_byteLength
    have hrest := hj.add_byteLength
    rw [List.cons_append, byteLength_cons, byteLength_append] at hsum
    omega

theorem SplitsBetween.le (h : s.SplitsBetween i j) : i ≤ j := by
  induction h with
  | refl => exact Nat.le_refl i
  | tail _ hpiece ih =>
    obtain ⟨_, _, _, _, _, hlt⟩ := exists_piece hpiece
    omega

/-- Text splits into trivia just where trivia stands between the texts that are left. -/
theorem splitsBetween_iff (hi : s.Leaves i cs) (hj : s.Leaves j rest) :
    s.SplitsBetween i j ↔ Trivia cs rest := by
  constructor
  · intro h
    induction h using Relation.ReflTransGen.head_induction_on generalizing cs with
    | refl =>
      rw [← hi.restAt_eq, ← hj.restAt_eq]
      exact .none
    | head hpiece _ ih =>
      obtain ⟨cs', mid, hi', hmid, htrivia, _⟩ := exists_piece hpiece
      obtain rfl : cs' = cs := hi'.restAt_eq.symm.trans hi.restAt_eq
      exact htrivia.trans (ih hmid)
  · intro h
    induction h generalizing i with
    | none =>
      obtain rfl : i = j := hi.offsetOf_eq.symm.trans hj.offsetOf_eq
      exact .refl
    | @blank c mid rest hc _ ih =>
      have hmid := Leaves.append [c] hi
      exact .head (.inl ⟨c, mid, hc, hi, hmid⟩) (ih hmid hj)
    | @comment body mid rest hbody hend _ ih =>
      have hmid := Leaves.append (';' :: body) hi
      exact .head (.inr ⟨body, mid, hbody, hend, hi, hmid⟩) (ih hmid hj)

/-- The end of the trivia is the same from all places that lead to one another. -/
theorem SplitsBetween.skipTriviaAt_eq (h : s.SplitsBetween i j) :
    s.skipTriviaAt i = s.skipTriviaAt j := by
  induction h with
  | refl => rfl
  | tail _ hpiece ih =>
    obtain ⟨cs, rest, hi, hj, htrivia, _⟩ := exists_piece hpiece
    rw [ih, ← hi.skipTriviaAt.offsetOf_eq, htrivia.skipTrivia_eq, hj.skipTriviaAt.offsetOf_eq]

/-! ### Ends -/

theorem skipTriviaAt_of_not_isBoundary (h : ¬ IsBoundary s.chars pos) : s.skipTriviaAt pos = pos := by
  rw [Source.skipTriviaAt, restAt, fromByte_of_not_isBoundary h]
  rfl

theorem isBoundary_skipTriviaAt (h : IsBoundary s.chars pos) :
    IsBoundary s.chars (s.skipTriviaAt pos) :=
  (leaves_of_isBoundary h).skipTriviaAt.isBoundary

theorem splitsBetween_skipTriviaAt (h : IsBoundary s.chars pos) :
    s.SplitsBetween pos (s.skipTriviaAt pos) := by
  have hplace := leaves_of_isBoundary h
  exact (splitsBetween_iff hplace hplace.skipTriviaAt).2 (trivia_skipTrivia _)

theorem Leaves.skipTriviaAt_eq_self_iff (h : s.Leaves pos rest) : s.skipTriviaAt pos = pos ↔
    ∀ c, s.peek? pos = some c → isBlank c = false ∧ c ≠ ';' := by
  rw [peek?, h.restAt_eq]
  have hskip := h.skipTriviaAt
  have hself : s.skipTriviaAt pos = pos ↔ skipTrivia rest = rest := by
    refine ⟨fun heq => ?_, fun heq => ?_⟩
    · rw [heq] at hskip
      exact hskip.restAt_eq.symm.trans h.restAt_eq
    · rw [← hskip.offsetOf_eq, heq, h.offsetOf_eq]
  rw [hself, skipTrivia_eq_self_iff]
  cases rest with
  | nil => simp
  | cons c rest => simp [startsTrivia]

theorem endsTrivia_iff (h : IsBoundary s.chars pos) :
    s.EndsTrivia pos r ↔ r = s.skipTriviaAt pos := by
  constructor
  · intro hend
    have hself := (leaves_of_isBoundary hend.isBoundary).skipTriviaAt_eq_self_iff.2 hend.stops
    rw [hend.splits.skipTriviaAt_eq, hself]
  · rintro rfl
    have hsplits := splitsBetween_skipTriviaAt h
    have hplace := leaves_of_isBoundary (isBoundary_skipTriviaAt h)
    refine ⟨hsplits.le, isBoundary_skipTriviaAt h, hsplits, ?_⟩
    exact hplace.skipTriviaAt_eq_self_iff.1 hsplits.skipTriviaAt_eq.symm

/-! ### Starting later -/

/-- A comment stands on one line. -/
theorem not_insideComment_of_newline (h : s.peek? m = some '\n') : ¬ s.InsideComment pos r m := by
  rintro ⟨i, j, -, ⟨body, rest, hbody, -, hi, hj⟩, -, hlt, hmj⟩
  have hend := (Leaves.append (';' :: body) hi).offsetOf_eq.symm.trans hj.offsetOf_eq
  obtain ⟨c, hc, hpeek⟩ :=
    hi.exists_mem_peek? (isBoundary_of_peek? h) (Nat.le_of_lt hlt) (hend ▸ hmj)
  rw [h, Option.some_inj] at hpeek
  subst hpeek
  rcases List.mem_cons.1 hc with hsemicolon | hmem
  · contradiction
  · exact hbody hmem

/-- A piece of trivia ends up to a boundary further on, unless it is a comment around the boundary. -/
theorem le_of_piece (h : s.BlankBetween i j ∨ s.CommentBetween i j) (hm : IsBoundary s.chars m)
    (hlt : i < m) (hout : s.CommentBetween i j → ¬ m < j) : j ≤ m := by
  rcases h with ⟨c, rest, _, hi, hj⟩ | hcomment
  · obtain ⟨w, next, hw, hnext, rfl⟩ := hi.exists_append hm (Nat.le_of_lt hlt)
    cases w with
    | nil => exact absurd hlt (Nat.lt_irrefl i)
    | cons d w =>
      obtain ⟨rfl, rfl⟩ := List.cons.inj hw
      have hsum := hi.add_byteLength
      have hrest := hj.add_byteLength
      rw [byteLength_cons] at hsum ⊢
      omega
  · exact Nat.le_of_not_lt (hout hcomment)

/-- Trivia splits from any of its boundaries on that lies inside no comment. -/
theorem SplitsBetween.from_boundary (h : s.SplitsBetween pos r) (hm : IsBoundary s.chars m)
    (hle : pos ≤ m) (hmr : m ≤ r) (hout : ¬ s.InsideComment pos r m) : s.SplitsBetween m r := by
  induction h using Relation.ReflTransGen.head_induction_on with
  | refl =>
    obtain rfl : m = r := Nat.le_antisymm hmr hle
    exact .refl
  | @head i j hpiece hlater ih =>
    rcases Nat.eq_or_lt_of_le hle with rfl | hlt
    · exact .head hpiece hlater
    · have hj : j ≤ m := le_of_piece hpiece hm hlt fun hcomment hmj =>
        hout ⟨i, j, .refl, hcomment, hlater, hlt, hmj⟩
      refine ih hj fun ⟨k, l, hk, hcomment, hl, hkm, hml⟩ => ?_
      exact hout ⟨k, l, .head hpiece hk, hcomment, hl, hkm, hml⟩

/-- From a boundary of the source, skipping leads to the one offset where the trivia there ends. It
leads no further from there, and from each boundary on the way that lies inside no comment it leads
to the same offset. -/
theorem skipTriviaAt_exact (h : IsBoundary s.chars pos) :
    (∀ r, s.EndsTrivia pos r ↔ r = s.skipTriviaAt pos) ∧
    s.skipTriviaAt (s.skipTriviaAt pos) = s.skipTriviaAt pos ∧
    ∀ m, IsBoundary s.chars m → pos ≤ m → m ≤ s.skipTriviaAt pos →
      ¬ s.InsideComment pos (s.skipTriviaAt pos) m → s.skipTriviaAt m = s.skipTriviaAt pos := by
  have hsplits := splitsBetween_skipTriviaAt h
  refine ⟨fun r => endsTrivia_iff h, hsplits.skipTriviaAt_eq.symm, fun m hm hle hmr hout => ?_⟩
  exact (hsplits.from_boundary hm hle hmr hout).skipTriviaAt_eq.trans hsplits.skipTriviaAt_eq.symm

/-- A comment that holds a semicolon, white space and a character of two bytes is skipped as a whole,
and the line feed behind it too. Skipping may start at that line feed. -/
theorem skipTriviaAt_exact_comment : IsBoundary (Source.mk "a ;é; b\n\tc").chars 1 ∧
    (Source.mk "a ;é; b\n\tc").EndsTrivia 1 10 ∧ (Source.mk "a ;é; b\n\tc").skipTriviaAt 8 = 10 := by
  have h : IsBoundary (Source.mk "a ;é; b\n\tc").chars 1 := by decide +kernel
  have hend : (Source.mk "a ;é; b\n\tc").skipTriviaAt 1 = 10 := by decide +kernel
  obtain ⟨hends, -, hlater⟩ := skipTriviaAt_exact h
  refine ⟨h, (hends 10).2 hend.symm, ?_⟩
  rw [hlater 8 (by decide +kernel) (by decide) (by rw [hend]; decide)
    (not_insideComment_of_newline (by decide +kernel)), hend]

end Source

end DcpuAsm
