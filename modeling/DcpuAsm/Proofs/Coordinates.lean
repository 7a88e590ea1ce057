import DcpuAsm.Proofs.Offsets
import Mathlib.Algebra.Ring.Nat
import Mathlib.Order.Bounds.Defs
import Mathlib.Order.Monotone.Defs

/-!
Lines and columns against byte offsets. A location names a line of the source and a place in it, and
the bytes in front of that place are those of the whole lines above, each with its line feed, and of
the front of the line (`Location.Points`): line and column give the offset back. Main statement:
`locate_exact`, the location of an offset stands on the last boundary up to it and points there, and
the order of offsets is that of lines and columns.
-/

namespace DcpuAsm

variable {before rest src : List Char} {n : Nat}

/-- The lines of a source, without the line feeds between them. There is one at least. -/
def sourceLines (src : List Char) : List (List Char) := src.splitOn '\n'

/-- The line and the column name a place in the source, and the offset counts the bytes in front of
it. -/
structure Location.Points (l : Location) (src : List Char) : Prop where
  line_pos : 0 < l.line
  column_pos : 0 < l.column
  place : ∃ line, (sourceLines src)[l.line - 1]? = some line ∧ l.column - 1 ≤ line.length ∧
    l.offset = (((sourceLines src).take (l.line - 1)).map fun above => byteLength above + 1).sum +
      byteLength (line.take (l.column - 1))

/-! ### Lines -/

theorem length_sourceLines (src : List Char) :
    (sourceLines src).length = src.count '\n' + 1 := by
  induction src with
  | nil => simp [sourceLines]
  | cons c src ih =>
    simp only [sourceLines, List.splitOn_cons_eq_if_modifyHead] at ih ⊢
    split
    · next h => simp [ih, beq_iff_eq.1 h]
    · next h => simp_all

/-- All lines with their line feeds are the source and one line feed more. -/
theorem sum_sourceLines (src : List Char) :
    ((sourceLines src).map fun line => byteLength line + 1).sum = byteLength src + 1 := by
  have hsize : ('\n').utf8Size = 1 := by decide
  induction src with
  | nil => simp [sourceLines]
  | cons c src ih =>
    simp only [sourceLines, List.splitOn_cons_eq_if_modifyHead] at ih ⊢
    split
    · next h =>
      rw [beq_iff_eq] at h
      subst h
      simp only [List.map_cons, List.sum_cons, ih, byteLength_nil, byteLength_cons, hsize]
      omega
    · obtain ⟨line, below, hlines⟩ := List.exists_cons_of_ne_nil (List.splitOn_ne_nil '\n' src)
      rw [hlines] at ih ⊢
      simp only [List.modifyHead_cons, List.map_cons, List.sum_cons, byteLength_cons] at ih ⊢
      omega

/-- Text without a line feed stands at the front of the first line. -/
theorem sourceLines_append (h : '\n' ∉ before) (rest : List Char) :
    ∃ back below, sourceLines (before ++ rest) = (before ++ back) :: below := by
  induction before with
  | nil => exact List.exists_cons_of_ne_nil (List.splitOn_ne_nil '\n' rest)
  | cons c before ih =>
    rw [List.mem_cons, not_or] at h
    obtain ⟨back, below, hlines⟩ := ih h.2
    refine ⟨back, below, ?_⟩
    rw [sourceLines] at hlines
    rw [List.cons_append, sourceLines, List.splitOn_cons_eq_if_modifyHead, hlines,
      if_neg (by simpa using Ne.symm h.1)]
    rfl

/-! ### Places -/

/-- A place keeps its column under more lines, and lies further down by their number. -/
theorem Location.Points.below {b : List Char} (h : (Location.after b).Points (b ++ rest))
    (a : List Char) : (Location.after (a ++ '\n' :: b)).Points (a ++ '\n' :: b ++ rest) := by
  obtain ⟨hline, hcolumn, line, hget, hle, hoffset⟩ := h
  have hlines : sourceLines (a ++ '\n' :: b ++ rest) = sourceLines a ++ sourceLines (b ++ rest) := by
    rw [List.append_assoc, List.cons_append]
    exact List.splitOn_append_cons_self a (b ++ rest)
  have hindex : (Location.after b).line + a.count '\n' + 1 - 1 =
      (sourceLines a).length + ((Location.after b).line - 1) := by
    rw [length_sourceLines]
    omega
  rw [Location.after_append_newline]
  refine ⟨Nat.succ_pos _, hcolumn, line, ?_, hle, ?_⟩
  · rw [hlines, hindex, List.getElem?_append_right (Nat.le_add_right ..), Nat.add_sub_cancel_left,
      hget]
  · simp only [hlines, hindex, List.take_length_add_append, List.map_append, List.sum_append,
      sum_sourceLines]
    omega

/-- The place between two parts of a source is where its location says. -/
theorem Location.points_after (before rest : List Char) :
    (Location.after before).Points (before ++ rest) := by
  induction hn : before.length using Nat.strongRecOn generalizing before with
  | _ n ih =>
    by_cases h : '\n' ∈ before
    · obtain ⟨a, b, rfl⟩ := List.append_of_mem h
      have hshort : b.length < n := by
        rw [← hn, List.length_append, List.length_cons]
        omega
      exact (ih b.length hshort b rfl).below a
    · obtain ⟨back, below, hlines⟩ := sourceLines_append h rest
      rw [Location.after_of_not_mem h]
      refine ⟨Nat.one_pos, Nat.succ_pos _, before ++ back, ?_, ?_, ?_⟩
      · rw [hlines]
        rfl
      · simp
      · simp

/-! ### Offsets -/

theorem isBoundary_locate (src : List Char) (n : Nat) : IsBoundary src (locate src n).offset := by
  obtain ⟨rest, hrest⟩ := takeBytes_prefix n src
  exact ⟨_, rest, hrest.symm, rfl⟩

/-- A boundary up to the offset lies no further on than the location does. -/
theorem IsBoundary.le_offset_locate {b : Nat} (h : IsBoundary src b) (hb : b ≤ n) :
    b ≤ (locate src n).offset := by
  obtain ⟨before, rest, rfl, rfl⟩ := h
  exact byteLength_le_of_infix (prefix_takeBytes hb rest).isInfix

theorem isGreatest_offset_locate (src : List Char) (n : Nat) :
    IsGreatest {b | IsBoundary src b ∧ b ≤ min n (byteLength src)} (locate src n).offset := by
  have hboundary := isBoundary_locate src n
  refine ⟨⟨hboundary, le_min (offset_locate_le src n) hboundary.le⟩, ?_⟩
  rintro b ⟨hb, hle⟩
  exact hb.le_offset_locate (le_trans hle (min_le_left ..))

theorem points_locate (src : List Char) (n : Nat) : (locate src n).Points src := by
  obtain ⟨rest, hrest⟩ := takeBytes_prefix n src
  have h := Location.points_after (takeBytes n src) rest
  rwa [hrest] at h

/-- Of two boundaries the later one comes later in the order of lines and columns. -/
theorem before_locate {o₁ o₂ : Nat} (h₁ : IsBoundary src o₁) (h₂ : IsBoundary src o₂)
    (hlt : o₁ < o₂) : (locate src o₁).Before (locate src o₂) := by
  obtain ⟨front, rest₁, rfl, rfl⟩ := h₁
  obtain ⟨before, rest, hsrc, rfl⟩ := h₂
  obtain ⟨u, rfl⟩ : front <+: before := by
    have h := prefix_takeBytes (Nat.le_of_lt hlt) rest₁
    rwa [hsrc, takeBytes_byteLength] at h
  have hu : u ≠ [] := by
    rintro rfl
    simp at hlt
  rw [locate_byteLength, hsrc, locate_byteLength]
  exact Location.before_after_append front hu

/-- The location of an offset stands on the last boundary up to the offset and the end of the source,
and points there. Later boundaries come later in the order of lines and columns, a location is the
location of its own offset, and locations keep the order of the offsets they are of. -/
theorem locate_exact (src : List Char) :
    (∀ n, IsGreatest {b | IsBoundary src b ∧ b ≤ min n (byteLength src)} (locate src n).offset ∧
      (locate src n).Points src) ∧
    (∀ o₁ o₂, IsBoundary src o₁ → IsBoundary src o₂ → o₁ < o₂ →
      (locate src o₁).Before (locate src o₂)) ∧
    (∀ n, locate src (locate src n).offset = locate src n) ∧
    Monotone fun n => (locate src n).offset := by
  refine ⟨fun n => ⟨isGreatest_offset_locate src n, points_locate src n⟩,
    fun o₁ o₂ => before_locate, fun n => ?_, fun x y hxy => ?_⟩
  · obtain ⟨rest, hrest⟩ := takeBytes_prefix n src
    have h := locate_byteLength (takeBytes n src) rest
    rwa [hrest] at h
  · exact (isBoundary_locate src x).le_offset_locate (le_trans (offset_locate_le src x) hxy)

end DcpuAsm
