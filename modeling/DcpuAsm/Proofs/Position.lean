import DcpuAsm.Diagnostic
import Mathlib.Data.List.TakeWhile

/-!
Where a place in a text lies. While the text is being read a place is known by what is left there,
and `locateRest` finds its byte offset, line and column again. Main statements: the place between
two parts of a text is located just behind the first (`locateRest_append`), what stands further on in
it lies behind (`Location.before_after_append`), and a text put on lines of its own in front moves a
location down and leaves its column (`Location.after_append_newline`).
-/

namespace DcpuAsm

variable {c : Char} {a b x y before rest src : List Char} {p : Char → Bool}

/-! ### Offsets -/

theorem eq_nil_of_byteLength_eq_zero (h : byteLength x = 0) : x = [] :=
  List.eq_nil_of_length_eq_zero (Nat.le_zero.1 (h ▸ length_le_byteLength x))

theorem locate_byteLength (before rest : List Char) :
    locate (before ++ rest) (byteLength before) = .after before := by
  rw [locate, takeBytes_byteLength]

/-- The place where a part of the text is left lies behind what stands in front of it. -/
theorem locateRest_append (before rest : List Char) :
    locateRest (before ++ rest) rest = .after before := by
  rw [locateRest, byteLength_append, Nat.add_sub_cancel_right, locate_byteLength]

theorem diagnose_append (before : List Char) (fault : Fault) :
    fault.diagnose (before ++ fault.rest) = ⟨fault.cause, .after before⟩ := by
  rw [Fault.diagnose, locateRest_append]

/-! ### Lines -/

theorem takeWhile_append_cons_of_neg (hc : p c = false) :
    (x ++ c :: y).takeWhile p = x.takeWhile p := by
  induction x with
  | nil => simp [hc]
  | cons d x ih =>
    rw [List.cons_append, List.takeWhile_cons, List.takeWhile_cons, ih]

/-- On the first line the column counts all characters in front of a place. -/
theorem Location.after_of_not_mem (h : '\n' ∉ before) :
    Location.after before = ⟨byteLength before, 1, before.length + 1⟩ := by
  have hline : before.reverse.takeWhile (· ≠ '\n') = before.reverse := by
    rw [List.takeWhile_eq_self_iff]
    rintro c hc
    rw [decide_eq_true_eq]
    rintro rfl
    exact h (List.mem_reverse.1 hc)
  rw [Location.after, hline, List.count_eq_zero.2 h, List.length_reverse]

/-- Lines in front of a place move it down, and its column stays. -/
theorem Location.after_append_newline (a b : List Char) :
    Location.after (a ++ '\n' :: b) =
      { offset := (Location.after b).offset + byteLength a + 1
        line := (Location.after b).line + a.count '\n' + 1
        column := (Location.after b).column } := by
  have hsize : ('\n').utf8Size = 1 := by decide
  have hcolumn : (a ++ '\n' :: b).reverse.takeWhile (· ≠ '\n') = b.reverse.takeWhile (· ≠ '\n') := by
    rw [List.reverse_append, List.reverse_cons, List.append_assoc, List.singleton_append]
    exact takeWhile_append_cons_of_neg (by decide)
  simp only [Location.after, hcolumn, byteLength_append, byteLength_cons, hsize, List.count_append,
    List.count_cons_self, Location.mk.injEq, and_true]
  omega

/-! ### Order -/

/-- The order of lines, and of columns on one line. -/
def Location.Before (l m : Location) : Prop :=
  l.line < m.line ∨ l.line = m.line ∧ l.column < m.column

/-- What is further on in a text comes later in the order of lines and columns. -/
theorem Location.before_after_append (before : List Char) {u : List Char} (hu : u ≠ []) :
    (Location.after before).Before (.after (before ++ u)) := by
  have hcount : (before ++ u).count '\n' = before.count '\n' + u.count '\n' := List.count_append
  by_cases hline : '\n' ∈ u
  · have hpos : 0 < u.count '\n' := List.count_pos_iff.2 hline
    refine Or.inl ?_
    simp only [Location.after]
    omega
  · have hzero : u.count '\n' = 0 := List.count_eq_zero.2 hline
    have hall : ∀ c ∈ u.reverse, (c ≠ '\n') := by
      rintro _ hc rfl
      exact hline (List.mem_reverse.1 hc)
    have hcolumn : (before ++ u).reverse.takeWhile (· ≠ '\n') =
        u.reverse ++ before.reverse.takeWhile (· ≠ '\n') := by
      rw [List.reverse_append, List.takeWhile_append_of_pos (by simpa using hall)]
    have hlength : 0 < u.length := List.length_pos_iff.2 hu
    refine Or.inr ⟨?_, ?_⟩
    · simp only [Location.after]
      omega
    · simp only [Location.after, hcolumn, List.length_append, List.length_reverse]
      omega

end DcpuAsm
