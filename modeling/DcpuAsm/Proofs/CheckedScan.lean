import DcpuAsm.Proofs.Coordinates
import DcpuAsm.Proofs.Numbers
import DcpuAsm.Proofs.Progress
import DcpuAsm.Proofs.Skipping
import DcpuAsm.Proofs.Strings
import DcpuAsm.Source.Checked

/-!
The scanner on a machine comes to its answers. Each cut that it makes falls between two parts of the
text that are known by what was found (`Checked.slice_append`), and each sum of offsets is an offset of
the source, so no check fails. Main statement: `Checked.scanner_never_traps`, in a source of less than
2 ^ 63 bytes every function gives the answer of the scanner without checks, at every offset a machine
has.
-/

namespace DcpuAsm

variable {cs ds w rest next : List Char} {m n : Nat}

/-! ### Sums, differences and cuts -/

namespace Checked

variable {s : Source} {pos base : Nat} {pattern : Pattern}

theorem ok_bind {α β : Type} (value : α) (f : α → Checked β) : (Except.ok value >>= f) = f value := rfl

theorem add_eq (h : m + n < 2 ^ 64) : add m n = .ok (m + n) := if_pos h

theorem sub_eq (h : n ≤ m) : sub m n = .ok (m - n) := if_pos h

/-- The middle of three parts of a text is cut out without a trap. -/
theorem slice_append (before middle rest : List Char) :
    slice (byteLength before) (byteLength before + byteLength middle) (before ++ (middle ++ rest)) =
      .ok middle := by
  have hi : IsBoundary (before ++ (middle ++ rest)) (byteLength before) := ⟨before, _, rfl, rfl⟩
  have hj : IsBoundary (before ++ (middle ++ rest)) (byteLength before + byteLength middle) :=
    ⟨before ++ middle, rest, (List.append_assoc ..).symm, byteLength_append ..⟩
  rw [slice, if_pos ⟨Nat.le_add_right .., hi, hj⟩, bytesBetween_append]

theorem slice_front (w rest : List Char) : slice 0 (byteLength w) (w ++ rest) = .ok w := by
  have h := slice_append [] w rest
  rwa [byteLength_nil, Nat.zero_add] at h

theorem slice_back (before rest : List Char) :
    slice (byteLength before) (byteLength (before ++ rest)) (before ++ rest) = .ok rest := by
  have h := slice_append before rest []
  rwa [List.append_nil, ← byteLength_append] at h

/-- A text is cut out just where the scanner finds one. -/
theorem restAt_eq (s : Source) (pos : Nat) : restAt s pos = s.restAt pos := by
  by_cases h : IsBoundary s.chars pos
  · obtain ⟨before, rest, hsrc, rfl⟩ := h
    rw [restAt, Source.restAt, hsrc, slice_back, fromByte_append]
  · have hslice : slice pos (byteLength s.chars) s.chars = .error .slice :=
      if_neg fun hcut => h hcut.2.1
    rw [restAt, Source.restAt, hslice, fromByte_of_not_isBoundary h]

theorem peek?_eq (s : Source) (pos : Nat) : peek? s pos = s.peek? pos := by
  rw [peek?, restAt_eq, Source.peek?]

theorem startsWith_eq (s : Source) (pos : Nat) (c : Char) :
    startsWith s pos c = s.startsWith pos c := by
  rw [startsWith, peek?_eq, Source.startsWith]

theorem describeAt_eq (s : Source) (pos : Nat) : describeAt s pos = s.describeAt pos := by
  rw [describeAt, Source.describeAt, peek?_eq, Source.peek?]
  cases s.restAt pos with
  | nil => rfl
  | cons c cs =>
    by_cases hc : c = '\n'
    · subst hc
      rfl
    · rw [describe_of_ne hc, List.head?_cons]
      split
      · contradiction
      · next heq => exact absurd (Option.some.inj heq) hc
      · next heq => rw [Option.some.inj heq]

/-! ### Locations -/

/-- Going back ends at a boundary before it would fall below zero. -/
theorem roundDown_eq (cs : List Char) (n : Nat) :
    roundDown cs n = .ok (byteLength (takeBytes n cs)) := by
  induction n with
  | zero =>
    have hzero : byteLength (takeBytes 0 cs) = 0 := Nat.le_zero.1 (byteLength_takeBytes_le 0 cs)
    rw [roundDown, if_pos (isBoundary_iff.2 hzero), hzero]
  | succ n ih =>
    rw [roundDown]
    split
    · next hboundary => rw [isBoundary_iff.1 hboundary]
    · next hcut =>
      -- The cut here is shorter than the offset, so it is the cut one byte earlier.
      have hlt : byteLength (takeBytes (n + 1) cs) < n + 1 :=
        Nat.lt_of_le_of_ne (byteLength_takeBytes_le ..) (mt isBoundary_iff.2 hcut)
      rw [ih, takeBytes_eq_of_le (Nat.le_succ n) (Nat.le_of_lt_succ hlt)]

theorem locationAt_eq (hlen : byteLength s.chars ≤ 2 ^ 63 - 1) (pos : Nat) :
    locationAt s pos = .ok (s.locationAt pos) := by
  have hprefix := takeBytes_prefix pos s.chars
  have hle := byteLength_le_of_infix hprefix.isInfix
  have hmin := le_min (byteLength_takeBytes_le pos s.chars) hle
  obtain ⟨rest, hsrc⟩ := hprefix
  rw [locationAt, roundDown_eq, ← takeBytes_eq_of_le (min_le_left ..) hmin, Source.locationAt, locate]
  generalize takeBytes pos s.chars = before at hsrc hle
  have hsize := length_le_byteLength before
  have hline : before.count '\n' ≤ before.length := List.count_le_length
  have hcolumn : (before.reverse.takeWhile (· ≠ '\n')).length ≤ before.length := by
    have hsublist := (List.takeWhile_sublist (l := before.reverse) (· ≠ '\n')).length_le
    rwa [List.length_reverse] at hsublist
  have hslice : slice 0 (byteLength before) s.chars = .ok before := hsrc ▸ slice_front before rest
  rw [ok_bind, hslice, ok_bind, add_eq (by omega), ok_bind, add_eq (by omega), ok_bind]
  rfl

theorem errorAt_eq (hlen : byteLength s.chars ≤ 2 ^ 63 - 1) (pos : Nat) (cause : Cause) :
    errorAt s pos cause = .ok ⟨cause, s.locationAt pos⟩ := by
  rw [errorAt, locationAt_eq hlen]
  rfl

theorem unexpectedAt_eq (hlen : byteLength s.chars ≤ 2 ^ 63 - 1) (pos : Nat) (expected : String) :
    unexpectedAt s pos expected = .ok (s.unexpectedAt pos expected) := by
  rw [unexpectedAt, errorAt_eq hlen, describeAt_eq, Source.unexpectedAt]

/-! ### Words and trivia -/

theorem skipTriviaAt_eq (hlen : byteLength s.chars ≤ 2 ^ 63 - 1) (hpos : pos < 2 ^ 64) :
    skipTriviaAt s pos = .ok (s.skipTriviaAt pos) := by
  have hlt : s.skipTriviaAt pos < 2 ^ 64 := by
    -- Off the boundaries nothing is added, and from a boundary the sum stays in the source.
    by_cases h : IsBoundary s.chars pos
    · have hle := (Source.isBoundary_skipTriviaAt h).le
      omega
    · rwa [Source.skipTriviaAt_of_not_isBoundary h]
  rw [skipTriviaAt, restAt_eq]
  exact add_eq hlt

theorem matchedAt?_eq_none (h : pattern (s.restAt pos) = none) :
    matchedAt? s pos pattern = .ok none := by
  rw [matchedAt?, restAt_eq, h]

theorem matchedAt?_eq_some (hrest : s.restAt pos = w ++ rest)
    (h : pattern (s.restAt pos) = some (byteLength w)) :
    matchedAt? s pos pattern = .ok (some (.ofList w)) := by
  rw [matchedAt?, restAt_eq, h, hrest]
  simp only [slice_front, ok_bind]
  rfl

theorem wordAt?_eq (s : Source) (pos : Nat) : wordAt? s pos = .ok (s.wordAt? pos) := by
  rw [wordAt?, Source.wordAt?, word?]
  split
  · next hnil =>
    exact matchedAt?_eq_none (if_pos hnil)
  · next hne =>
    exact matchedAt?_eq_some List.takeWhile_append_dropWhile.symm (if_neg hne)

theorem identifierAt?_eq (s : Source) (pos : Nat) :
    identifierAt? s pos = .ok (s.identifierAt? pos) := by
  rw [identifierAt?, Source.identifierAt?]
  cases hrest : s.restAt pos with
  | nil =>
    refine matchedAt?_eq_none ?_
    rw [hrest]
    rfl
  | cons c cs =>
    rw [identifier?]
    split
    · next hc =>
      have hword : (c :: cs).takeWhile Char.isAlphanum = c :: cs.takeWhile Char.isAlphanum :=
        List.takeWhile_cons_of_pos (by rw [Char.isAlphanum, hc, Bool.true_or])
      have hfront : s.restAt pos =
          c :: cs.takeWhile Char.isAlphanum ++ cs.dropWhile Char.isAlphanum := by
        rw [hrest, List.cons_append, List.takeWhile_append_dropWhile]
      rw [word?, hword]
      refine matchedAt?_eq_some hfront ?_
      rw [hrest]
      exact if_pos hc
    · next hc =>
      refine matchedAt?_eq_none ?_
      rw [hrest]
      exact if_neg hc

/-! ### Numbers -/

theorem hexNumeral_append (hword : ∀ c ∈ ds, c.isAlphanum = true) (hs : Stops Char.isAlphanum next) :
    Pattern.hexNumeral ('0' :: 'x' :: (ds ++ next)) = some (byteLength ('0' :: 'x' :: ds)) := by
  have hmark : byteLength ('0' :: 'x' :: ds) = 2 + byteLength ds := byteLength_append ['0', 'x'] ds
  rw [Pattern.hexNumeral, takeWhile_append_of_stops hword hs, hmark]

theorem hexNumeral_eq_none (hmark : ¬ HexMarked cs) : Pattern.hexNumeral cs = none := by
  unfold Pattern.hexNumeral
  split
  · next ds => exact absurd ⟨ds, rfl⟩ hmark
  · rfl

/-- A numeral in the source is read as the word of its value, or refused where it starts. -/
theorem numeralAt_eq (hlen : byteLength s.chars ≤ 2 ^ 63 - 1) (hbase : 0 < base) (mark : List Char)
    (h : s.Leaves pos (mark ++ ds ++ next)) (hnarrow : ∀ c ∈ mark ++ ds, IsNarrow c) :
    numeralAt s pos base (mark ++ ds) ds = .ok (s.wordAt pos base mark ds) := by
  have hle := (h.append (mark ++ ds)).isBoundary.le
  rw [numeralAt, accumulate?_eq hbase, Source.wordAt]
  by_cases hfits : digitsValue base ds ≤ 65535
  · rw [if_pos hfits, if_pos hfits, ← byteLength_eq_length hnarrow]
    simp only [add_eq (show pos + byteLength (mark ++ ds) < 2 ^ 64 by omega), ok_bind]
    rfl
  · rw [if_neg hfits, if_neg hfits]
    simp only [errorAt_eq hlen, ok_bind]
    rfl

/-- The literal and the digits behind its mark are cut out without a trap. -/
theorem numberAt_of_mark (ds : List Char) (hrest : s.restAt pos = '0' :: 'x' :: (ds ++ next))
    (hword : ∀ c ∈ ds, c.isAlphanum = true) (hs : Stops Char.isAlphanum next) :
    numberAt s pos = hexNumberAt s pos ('0' :: 'x' :: ds) ds := by
  have hliteral : slice 0 (byteLength ('0' :: 'x' :: ds)) ('0' :: 'x' :: (ds ++ next)) =
      .ok ('0' :: 'x' :: ds) := slice_front ('0' :: 'x' :: ds) next
  have hdigits : slice 2 (byteLength ('0' :: 'x' :: ds)) ('0' :: 'x' :: ds) = .ok ds :=
    slice_back ['0', 'x'] ds
  rw [numberAt, restAt_eq, hrest, hexNumeral_append hword hs]
  simp only [hliteral, ok_bind, hdigits]

theorem numberAt_eq (hlen : byteLength s.chars ≤ 2 ^ 63 - 1) (pos : Nat) :
    numberAt s pos = .ok (s.numberAt pos) := by
  -- What is found tells the parts of the text, and every cut falls between two of them.
  obtain ⟨found, hfound⟩ := s.exists_findsNumber pos (s.restAt pos)
  rw [hfound.numberAt_eq]
  generalize hrest : s.restAt pos = rest at hfound
  have hplace : rest ≠ [] → s.Leaves pos rest := Source.leaves_of_restAt_eq hrest
  cases hfound with
  | @noDigits next hs =>
    have hleft := hplace (List.cons_ne_nil _ _)
    have hlt : pos + 2 < 2 ^ 64 := by
      have hle : pos + 2 ≤ byteLength s.chars := (Source.Leaves.append ['0', 'x'] hleft).isBoundary.le
      omega
    rw [numberAt_of_mark [] hrest nofun hs, hexNumberAt, if_pos List.isEmpty_nil, add_eq hlt, ok_bind,
      unexpectedAt_eq hlen]
    rfl
  | @nonHexDigit ds next hrun hs hbad =>
    have hne : ¬ ds.isEmpty = true := mt List.isEmpty_iff.1 hrun.1
    have hall : ¬ ds.all Char.isHexDigit = true := by simpa using hbad
    rw [numberAt_of_mark ds hrest hrun.2 hs, hexNumberAt, if_neg hne, if_neg hall, errorAt_eq hlen]
    rfl
  | @hexadecimal ds next hne hhex hs =>
    have hleft := hplace (List.cons_ne_nil _ _)
    have hword : ∀ c ∈ ds, c.isAlphanum = true := fun c hc => isAlphanum_of_isHexDigit (hhex c hc)
    have hnarrow : ∀ c ∈ ['0', 'x'] ++ ds, IsNarrow c := by
      simp only [List.cons_append, List.nil_append, List.forall_mem_cons]
      exact ⟨by decide, by decide, fun c hc => isNarrow_of_isAlphanum (hword c hc)⟩
    rw [numberAt_of_mark ds hrest hword hs, hexNumberAt, if_neg (mt List.isEmpty_iff.1 hne),
      if_pos (List.all_eq_true.2 hhex)]
    exact numeralAt_eq hlen (by decide) ['0', 'x'] hleft hnarrow
  | @decimal ds next hmark hne hdigits hs =>
    have hleft := hplace (List.append_ne_nil_of_left_ne_nil hne next)
    have hrun : Pattern.run Char.isDigit (ds ++ next) = some (byteLength ds) := by
      rw [Pattern.run, takeWhile_append_of_stops hdigits hs, if_neg (mt List.isEmpty_iff.1 hne)]
    rw [numberAt, restAt_eq, hrest, hexNumeral_eq_none hmark, hrun]
    simp only [slice_front, ok_bind]
    exact numeralAt_eq hlen (by decide) [] hleft
      fun c hc => isNarrow_of_isAlphanum (isAlphanum_of_isDigit (hdigits c hc))
  | nothing hs =>
    have hmark : ¬ HexMarked rest := by
      rintro ⟨ds, rfl⟩
      contradiction
    have hrun : Pattern.run Char.isDigit rest = none := by
      rw [Pattern.run, takeWhile_eq_nil_iff.2 hs]
      rfl
    rw [numberAt, restAt_eq, hrest, hexNumeral_eq_none hmark, hrun]

/-! ### Strings -/

theorem quoted_closed (hcontent : ∀ c ∈ w, isStringChar c = true) (next : List Char) :
    Pattern.quoted ('"' :: w ++ '"' :: next) = some (byteLength ('"' :: w ++ ['"'])) := by
  have hs : Stops isStringChar ('"' :: next) := stops_cons.2 (by decide)
  rw [byteLength_inQuotes]
  simp only [List.cons_append, Pattern.quoted, takeWhile_append_of_stops hcontent hs,
    dropWhile_append_of_stops hcontent hs, Option.some.injEq]
  omega

theorem quoted_unclosed (hcontent : ∀ c ∈ w, isStringChar c = true) (hstops : Stops isStringChar rest)
    (hquote : Stops (· == '"') rest) : Pattern.quoted ('"' :: w ++ rest) = none := by
  rw [List.cons_append, Pattern.quoted, dropWhile_append_of_stops hcontent hstops]
  split
  · contradiction
  · rfl

/-- The content of a string in quotes is cut out of it. -/
theorem slice_inQuotes (w : List Char) :
    slice 1 (byteLength ('"' :: w ++ ['"']) - 1) ('"' :: w ++ ['"']) = .ok w := by
  have hone : byteLength ['"'] = 1 := by decide
  have hcut := slice_append ['"'] w ['"']
  rwa [hone, Nat.add_comm, ← Nat.add_sub_cancel (byteLength w + 1) 1, ← byteLength_inQuotes] at hcut

/-- A string without a closing quote goes up to the end of its line. -/
theorem takeWhile_unclosed (hcontent : ∀ c ∈ w, isStringChar c = true)
    (hstops : Stops isStringChar rest) (hquote : Stops (· == '"') rest) :
    (w ++ rest).takeWhile (· ≠ '\n') = w := by
  refine takeWhile_append_of_stops ?_ ?_
  · intro c hc
    rw [decide_eq_true_eq]
    rintro rfl
    exact (forall_isStringChar_iff.1 hcontent).2 hc
  · cases rest with
    | nil => exact stops_nil
    | cons c rest =>
      rcases isStringChar_eq_false_iff.1 hstops with rfl | rfl
      · contradiction
      · exact stops_cons.2 (by decide)

theorem stringLiteralAt_eq (hlen : byteLength s.chars ≤ 2 ^ 63 - 1) (pos : Nat) :
    stringLiteralAt s pos = .ok (s.stringLiteralAt pos) := by
  obtain ⟨found, hfound⟩ := s.exists_findsString pos
  rw [hfound.stringLiteralAt_eq, stringLiteralAt, startsWith_eq, restAt_eq]
  cases hfound with
  | @closed content next h hcontent =>
    have hstart : s.startsWith pos '"' = true := (h.startsWith_iff '"').2 rfl
    have hwhole : '"' :: content ++ '"' :: next = ('"' :: content ++ ['"']) ++ next :=
      List.append_cons ..
    have hle : pos + byteLength ('"' :: content ++ ['"']) ≤ byteLength s.chars := by
      rw [hwhole] at h
      exact (h.append _).isBoundary.le
    have htext : slice 0 (byteLength ('"' :: content ++ ['"'])) ('"' :: content ++ '"' :: next) =
        .ok ('"' :: content ++ ['"']) := by
      rw [hwhole, slice_front]
    -- With the quotes there are two bytes at least, so the last one can be taken off.
    have hsize := byteLength_inQuotes content
    have hnext : pos + byteLength ('"' :: content ++ ['"']) = pos + 1 + byteLength content + 1 := by
      omega
    rw [hstart, if_pos rfl, h.restAt_eq, quoted_closed hcontent]
    simp only [htext, ok_bind, sub_eq (show 1 ≤ byteLength ('"' :: content ++ ['"']) by omega),
      slice_inQuotes, add_eq (show pos + byteLength ('"' :: content ++ ['"']) < 2 ^ 64 by omega), hnext]
    rfl
  | @unclosed content rest h hcontent hstops hquote =>
    have hstart : s.startsWith pos '"' = true := (h.startsWith_iff '"').2 rfl
    have hle := h.behind_quote.2.isBoundary.le
    have hbody : slice 1 (byteLength ('"' :: content ++ rest)) ('"' :: content ++ rest) =
        .ok (content ++ rest) := slice_back ['"'] (content ++ rest)
    rw [hstart, if_pos rfl, h.restAt_eq, quoted_unclosed hcontent hstops hquote]
    simp only [hbody, ok_bind, takeWhile_unclosed hcontent hstops hquote,
      add_eq (show pos + 1 < 2 ^ 64 by omega),
      add_eq (show pos + 1 + byteLength content < 2 ^ 64 by omega), errorAt_eq hlen]
    rfl
  | nothing hs =>
    have hstart : ¬ s.startsWith pos '"' = true := mt beq_iff_eq.1 (Source.peek?_ne_of_stops hs)
    rw [if_neg hstart]

end Checked

/-! ### The whole scanner -/

namespace Source

variable {s : Source} {pos : Nat}

/-- The diagnostic lies at a boundary of the source. -/
def LiesInside (s : Source) (d : Diagnostic) : Prop :=
  IsBoundary s.chars d.location.offset ∧ d.location.offset ≤ byteLength s.chars

/-- The offsets that the scanner gives back are boundaries of the source. Numbers and strings end
further on, and trivia are skipped from boundaries only. -/
structure StaysInside (s : Source) (pos : Nat) : Prop where
  number : ∀ value next, s.numberAt pos = .matched value next →
    pos < next ∧ next ≤ byteLength s.chars ∧ IsBoundary s.chars next
  stringLiteral : ∀ text next, s.stringLiteralAt pos = .matched text next →
    pos < next ∧ next ≤ byteLength s.chars ∧ IsBoundary s.chars next
  skipTrivia_outside : ¬ IsBoundary s.chars pos → s.skipTriviaAt pos = pos
  skipTrivia : IsBoundary s.chars pos → IsBoundary s.chars (s.skipTriviaAt pos) ∧
    pos ≤ s.skipTriviaAt pos ∧ s.skipTriviaAt pos ≤ byteLength s.chars
  number_failed : ∀ d, s.numberAt pos = .failed d → s.LiesInside d
  stringLiteral_failed : ∀ d, s.stringLiteralAt pos = .failed d → s.LiesInside d
  unexpected : ∀ expected, s.LiesInside (s.unexpectedAt pos expected)

theorem liesInside_locate (s : Source) (cause : Cause) (n : Nat) :
    s.LiesInside ⟨cause, locate s.chars n⟩ :=
  ⟨isBoundary_locate s.chars n, (isBoundary_locate s.chars n).le⟩

theorem liesInside_of_scan {α : Type} {rule : List Char → Attempt α} {d : Diagnostic}
    (h : s.scan rule pos = .failed d) : s.LiesInside d := by
  unfold scan at h
  split at h
  · contradiction
  · contradiction
  · cases h
    exact liesInside_locate ..

theorem staysInside (s : Source) (pos : Nat) : s.StaysInside pos where
  number := IsRule.number.movesOn s pos
  stringLiteral := IsRule.stringLiteral.movesOn s pos
  skipTrivia_outside := skipTriviaAt_of_not_isBoundary
  skipTrivia h := by
    have hnext := isBoundary_skipTriviaAt h
    exact ⟨hnext, s.le_skipTriviaAt pos, hnext.le⟩
  number_failed _ := liesInside_of_scan
  stringLiteral_failed _ := liesInside_of_scan
  unexpected _ := liesInside_locate ..

end Source

namespace Checked

variable {s : Source} {pos : Nat}

/-- At the offset no function of the scanner traps, and each gives its answer. -/
structure NeverTraps (s : Source) (pos : Nat) : Prop where
  skipTrivia : skipTriviaAt s pos = .ok (s.skipTriviaAt pos)
  identifier : identifierAt? s pos = .ok (s.identifierAt? pos)
  word : wordAt? s pos = .ok (s.wordAt? pos)
  number : numberAt s pos = .ok (s.numberAt pos)
  stringLiteral : stringLiteralAt s pos = .ok (s.stringLiteralAt pos)
  peek : peek? s pos = s.peek? pos
  startsWith : ∀ c, startsWith s pos c = s.startsWith pos c
  describe : describeAt s pos = s.describeAt pos
  location : locationAt s pos = .ok (s.locationAt pos)
  unexpected : ∀ expected, unexpectedAt s pos expected = .ok (s.unexpectedAt pos expected)

theorem neverTraps (hlen : byteLength s.chars ≤ 2 ^ 63 - 1) (hpos : pos < 2 ^ 64) :
    NeverTraps s pos where
  skipTrivia := skipTriviaAt_eq hlen hpos
  identifier := identifierAt?_eq s pos
  word := wordAt?_eq s pos
  number := numberAt_eq hlen pos
  stringLiteral := stringLiteralAt_eq hlen pos
  peek := peek?_eq s pos
  startsWith := startsWith_eq s pos
  describe := describeAt_eq s pos
  location := locationAt_eq hlen pos
  unexpected := unexpectedAt_eq hlen pos

/-- At every offset of a machine, on a boundary or not and in the source or behind it, the scanner
comes to its answers without a trap, and the offsets it gives back lie in the source. -/
theorem scanner_never_traps (hlen : byteLength s.chars ≤ 2 ^ 63 - 1) (hpos : pos < 2 ^ 64) :
    NeverTraps s pos ∧ s.StaysInside pos :=
  ⟨neverTraps hlen hpos, s.staysInside pos⟩

/-- Also at the last offset of all, to which nothing can be added. -/
theorem scanner_never_traps_last : byteLength (Source.mk "é 0x1F").chars ≤ 2 ^ 63 - 1 ∧
    2 ^ 64 - 1 < 2 ^ 64 ∧ NeverTraps ⟨"é 0x1F"⟩ (2 ^ 64 - 1) ∧
    (Source.mk "é 0x1F").StaysInside (2 ^ 64 - 1) := by
  have hlen : byteLength (Source.mk "é 0x1F").chars ≤ 2 ^ 63 - 1 := by decide +kernel
  have hpos : 2 ^ 64 - 1 < 2 ^ 64 := by decide
  exact ⟨hlen, hpos, scanner_never_traps hlen hpos⟩

end Checked

end DcpuAsm
