import DcpuAsm.Source
import DcpuAsm.Proofs.Position

/-!
Offsets of a source. Bytes are counted, so an offset may cut a character; those that cut none are
boundaries (`IsBoundary`). `Source.Leaves` ties a boundary to the text that is left there, which is
how the rules of the reader know a place. Main statements: there is text behind an offset only if it
is a boundary (`Source.leaves_of_restAt_ne_nil`), and where a rule that advances matches at an
offset, text is left at one further on (`Source.leaves_of_scan`).
-/

namespace DcpuAsm

variable {α : Type} {before rest next src : List Char} {n m pos : Nat} {c : Char}

/-! ### Boundaries -/

theorem IsBoundary.le (h : IsBoundary src n) : n ≤ byteLength src := by
  obtain ⟨before, rest, rfl, rfl⟩ := h
  rw [byteLength_append]
  exact Nat.le_add_right ..

/-- A front part that fits in the bytes is part of the longest one that does. -/
theorem prefix_takeBytes (h : byteLength before ≤ n) (rest : List Char) :
    before <+: takeBytes n (before ++ rest) := by
  induction before generalizing n with
  | nil => exact List.nil_prefix
  | cons c before ih =>
    rw [byteLength_cons] at h
    rw [List.cons_append, takeBytes, if_pos (by omega), List.cons_prefix_cons]
    exact ⟨rfl, ih (by omega)⟩

/-- The longest front part that fits in the bytes fits in fewer, if it takes no more. -/
theorem takeBytes_eq_of_le (hle : m ≤ n) (h : byteLength (takeBytes n cs) ≤ m) :
    takeBytes n cs = takeBytes m cs := by
  obtain ⟨x, hx⟩ := takeBytes_prefix n cs
  obtain ⟨y, hy⟩ := takeBytes_prefix m cs
  have hfront : takeBytes n cs <+: takeBytes m cs := by
    have hprefix := prefix_takeBytes h x
    rwa [hx] at hprefix
  have hback : takeBytes m cs <+: takeBytes n cs := by
    have hprefix := prefix_takeBytes (le_trans (byteLength_takeBytes_le m cs) hle) y
    rwa [hy] at hprefix
  exact hfront.eq_of_length_le hback.length_le

theorem byteLength_le_of_infix (h : next <:+: src) : byteLength next ≤ byteLength src := by
  obtain ⟨before, rest, rfl⟩ := h
  rw [byteLength_append, byteLength_append]
  omega

theorem byteLength_lt_of_properEnd (h : ProperEnd next src) : byteLength next < byteLength src := by
  obtain ⟨w, rfl⟩ := h.1
  have hw : byteLength w ≠ 0 := mt eq_nil_of_byteLength_eq_zero (ne_nil_of_properEnd h)
  rw [byteLength_append]
  omega

/-! ### The text that is left -/

theorem fromByte_append (before rest : List Char) :
    fromByte (byteLength before) (before ++ rest) = rest := by
  rw [fromByte, takeBytes_byteLength, if_pos rfl, List.drop_left]

theorem fromByte_of_not_isBoundary (h : ¬ IsBoundary src n) : fromByte n src = [] :=
  if_neg (mt isBoundary_iff.2 h)

theorem bytesBetween_append (before middle rest : List Char) :
    bytesBetween (byteLength before) (byteLength before + byteLength middle)
      (before ++ (middle ++ rest)) = middle := by
  rw [bytesBetween, fromByte_append, Nat.add_sub_cancel_left, takeBytes_byteLength]

namespace Source

variable {s : Source} {rule : List Char → Attempt α} {value : α}

/-- The offset is a boundary of the source, and the text is what is left there. -/
def Leaves (s : Source) (pos : Nat) (rest : List Char) : Prop :=
  ∃ before, s.chars = before ++ rest ∧ byteLength before = pos

theorem leaves_start (s : Source) : s.Leaves 0 s.chars := ⟨[], rfl, rfl⟩

theorem leaves_of_isBoundary (h : IsBoundary s.chars pos) : s.Leaves pos (s.restAt pos) := by
  obtain ⟨before, rest, hsrc, rfl⟩ := h
  rw [restAt, hsrc, fromByte_append]
  exact ⟨before, hsrc, rfl⟩

/-- Text is found at boundaries only. -/
theorem leaves_of_restAt_ne_nil (h : s.restAt pos ≠ []) : s.Leaves pos (s.restAt pos) := by
  refine leaves_of_isBoundary (Classical.byContradiction fun hcut => ?_)
  exact h (fromByte_of_not_isBoundary hcut)

theorem isBoundary_of_peek? (h : s.peek? pos = some c) : IsBoundary s.chars pos := by
  refine Classical.byContradiction fun hcut => ?_
  rw [peek?, restAt, fromByte_of_not_isBoundary hcut] at h
  contradiction

theorem leaves_of_restAt_eq (h : s.restAt pos = rest) (hne : rest ≠ []) : s.Leaves pos rest := by
  subst h
  exact leaves_of_restAt_ne_nil hne

/-- What is left of a source has a place in it. -/
theorem leaves_of_suffix (h : rest <:+ s.chars) : s.Leaves (s.offsetOf rest) rest := by
  obtain ⟨before, hsrc⟩ := h
  refine ⟨before, hsrc.symm, ?_⟩
  rw [offsetOf, ← hsrc, byteLength_append, Nat.add_sub_cancel_right]

namespace Leaves

theorem restAt_eq (h : s.Leaves pos rest) : s.restAt pos = rest := by
  obtain ⟨before, hsrc, rfl⟩ := h
  rw [restAt, hsrc, fromByte_append]

theorem suffix (h : s.Leaves pos rest) : rest <:+ s.chars :=
  let ⟨before, hsrc, _⟩ := h
  ⟨before, hsrc.symm⟩

theorem isBoundary (h : s.Leaves pos rest) : IsBoundary s.chars pos :=
  let ⟨before, hsrc, hpos⟩ := h
  ⟨before, rest, hsrc, hpos⟩

theorem add_byteLength (h : s.Leaves pos rest) : pos + byteLength rest = byteLength s.chars := by
  obtain ⟨before, hsrc, rfl⟩ := h
  rw [hsrc, byteLength_append]

theorem offsetOf_eq (h : s.Leaves pos rest) : s.offsetOf rest = pos := by
  have := h.add_byteLength
  rw [offsetOf]
  omega

/-- Behind a front part of what is left, the later part is left. -/
theorem append (before : List Char) (h : s.Leaves pos (before ++ rest)) :
    s.Leaves (pos + byteLength before) rest := by
  obtain ⟨front, hsrc, rfl⟩ := h
  exact ⟨front ++ before, by rw [hsrc, List.append_assoc], byteLength_append ..⟩

theorem isAtEnd_iff (h : s.Leaves pos rest) : s.isAtEnd pos = true ↔ rest = [] := by
  have hsum := h.add_byteLength
  rw [isAtEnd, decide_eq_true_iff]
  refine ⟨fun hend => eq_nil_of_byteLength_eq_zero (by omega), ?_⟩
  rintro rfl
  rw [byteLength_nil] at hsum
  omega

/-- At a boundary further on a later part is left, behind the bytes in between. -/
theorem exists_append (h : s.Leaves pos rest) (hm : IsBoundary s.chars m) (hle : pos ≤ m) :
    ∃ w next, rest = w ++ next ∧ s.Leaves m next ∧ m = pos + byteLength w := by
  obtain ⟨front, hfront, rfl⟩ := h
  obtain ⟨before, next, hbefore, rfl⟩ := hm
  obtain ⟨w, rfl⟩ : front <+: before := by
    have hprefix := prefix_takeBytes hle rest
    rwa [← hfront, hbefore, takeBytes_byteLength] at hprefix
  refine ⟨w, next, ?_, ⟨front ++ w, hbefore, rfl⟩, byteLength_append ..⟩
  rw [hfront, List.append_assoc] at hbefore
  exact List.append_cancel_left hbefore

theorem bytesBetween_eq {w : List Char} (h : s.Leaves pos (w ++ next)) :
    bytesBetween pos (pos + byteLength w) s.chars = w := by
  obtain ⟨before, hsrc, rfl⟩ := h
  rw [hsrc, bytesBetween_append]

theorem peek?_eq (h : s.Leaves pos rest) : s.peek? pos = rest.head? := by
  rw [peek?, h.restAt_eq]

/-- Inside a front part of what is left, a character of that part is found. -/
theorem exists_mem_peek? {w : List Char} (h : s.Leaves pos (w ++ rest))
    (hm : IsBoundary s.chars m) (hle : pos ≤ m) (hlt : m < pos + byteLength w) :
    ∃ c ∈ w, s.peek? m = some c := by
  obtain ⟨u, next, happend, hnext, rfl⟩ := h.exists_append hm hle
  rcases List.append_eq_append_iff.1 happend with ⟨v, rfl, -⟩ | ⟨v, rfl, rfl⟩
  · rw [byteLength_append] at hlt
    omega
  · cases v with
    | nil =>
      rw [List.append_nil] at hlt
      exact absurd hlt (Nat.lt_irrefl _)
    | cons c v =>
      refine ⟨c, List.mem_append_right u (List.mem_cons_self ..), ?_⟩
      rw [hnext.peek?_eq]
      rfl

/-- A later part of what is left lies further on, by the bytes in between. -/
theorem of_suffix (h : s.Leaves pos rest) (hnext : next <:+ rest) :
    s.Leaves (pos + (byteLength rest - byteLength next)) next := by
  obtain ⟨w, rfl⟩ := hnext
  rw [byteLength_append, Nat.add_sub_cancel_right]
  exact h.append w

theorem skipTriviaAt (h : s.Leaves pos rest) : s.Leaves (s.skipTriviaAt pos) (skipTrivia rest) := by
  rw [Source.skipTriviaAt, h.restAt_eq]
  exact h.of_suffix (skipTrivia_suffix rest)

theorem startsWith_iff (h : s.Leaves pos rest) (c : Char) :
    s.startsWith pos c = true ↔ rest.head? = some c := by
  rw [startsWith, h.peek?_eq, beq_iff_eq]

theorem locationAt_eq (h : s.Leaves pos rest) : s.locationAt pos = locateRest s.chars rest := by
  obtain ⟨before, hsrc, rfl⟩ := h
  rw [locationAt, hsrc, locateRest_append, locate_byteLength]

theorem offset_locationAt (h : s.Leaves pos rest) : (s.locationAt pos).offset = pos := by
  obtain ⟨before, hsrc, rfl⟩ := h
  rw [locationAt, hsrc, locate_byteLength]
  rfl

/-- A fault where a text is left lies at its offset. -/
theorem diagnose_eq (h : s.Leaves pos rest) (cause : Cause) :
    Fault.diagnose s.chars ⟨cause, rest⟩ = ⟨cause, s.locationAt pos⟩ := by
  rw [Fault.diagnose, h.locationAt_eq]

theorem diagnose_unexpected (h : s.Leaves pos rest) (expected : String) :
    (Fault.unexpected expected rest).diagnose s.chars = s.unexpectedAt pos expected := by
  rw [Fault.unexpected, h.diagnose_eq, unexpectedAt, describeAt, h.restAt_eq]

end Leaves

/-! ### Rules at an offset -/

theorem scan_of_matched (h : rule (s.restAt pos) = .matched value next) :
    s.scan rule pos = .matched value (s.offsetOf next) := by
  rw [scan, h]

theorem scan_of_noMatch (h : rule (s.restAt pos) = .noMatch) : s.scan rule pos = .noMatch := by
  rw [scan, h]

theorem scan_of_failed {fault : Fault} (h : rule (s.restAt pos) = .failed fault) :
    s.scan rule pos = .failed (fault.diagnose s.chars) := by
  rw [scan, h]

/-- Text that comes to a proper end is found at a boundary, and its end lies further on. -/
theorem leaves_of_properEnd (h : ProperEnd next (s.restAt pos)) :
    s.Leaves pos (s.restAt pos) ∧ s.Leaves (s.offsetOf next) next ∧ pos < s.offsetOf next := by
  have hplace : s.Leaves pos (s.restAt pos) := by
    refine leaves_of_restAt_ne_nil fun hnil => ?_
    rw [hnil] at h
    exact absurd h.2 (Nat.not_lt_zero _)
  have hnext := leaves_of_suffix (h.1.trans hplace.suffix)
  refine ⟨hplace, hnext, ?_⟩
  have hlt := byteLength_lt_of_properEnd h
  have hpos := hplace.add_byteLength
  have hsum := hnext.add_byteLength
  omega

/-- Where a rule matches that advances, text is left further on. -/
theorem leaves_of_scan (hrule : ∀ cs, (rule cs).Advances cs)
    (h : s.scan rule pos = .matched value m) :
    ∃ next, rule (s.restAt pos) = .matched value next ∧ s.Leaves m next ∧ pos < m := by
  unfold scan at h
  split at h
  · next v next hmatch =>
    cases h
    exact ⟨next, hmatch, (leaves_of_properEnd (hrule _ _ _ hmatch)).2⟩
  · contradiction
  · contradiction

end Source

end DcpuAsm
