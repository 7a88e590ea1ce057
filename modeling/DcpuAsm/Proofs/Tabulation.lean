import DcpuAsm.Listing
import DcpuAsm.Proofs.Coordinates
import DcpuAsm.Proofs.Exactness
import DcpuAsm.Proofs.Narrow
import DcpuAsm.Proofs.RoundTrip
import DcpuAsm.Terminal.Width
import Mathlib.Data.List.Basic

/-!
Listings as tables. A line of a listing holds the four cells of its row with spaces between them, and
each cell but the first starts at the same column on all lines (`Row.Aligned`), under every width that
counts spaces. The text of a statement may hold spaces of its own, or what looks like another cell, so
a line is not cut at its spaces: behind the second cell the reader itself finds the statement again,
and stops in front of the spaces that set the last cell apart (`listedStatement_content`). Main
statement: `listing_tabulates`.
-/

namespace DcpuAsm

open Grammar (IsItem)

variable {width : String → Nat} {r : Row} {rows : List Row} {s : Statement} {p q : Program}
variable {c : Char} {ds rest : List Char} {size : String} {words? : Option Nat}
variable {i base least indexWidth kindWidth textWidth : Nat}

/-! ### Tables -/

/-- The digits of a number: so many at least, and no more of them than the number takes. -/
structure IsNumeral (base least n : Nat) (ds : List Char) : Prop where
  value : numeralValue base ds = n
  least_le : least ≤ ds.length
  length_le : ∀ k, least ≤ k → n < base ^ k → ds.length ≤ k

/-- A hexadecimal digit in upper case. -/
def isUpperHexDigit (c : Char) : Bool := c.isDigit || decide ('A' ≤ c ∧ c ≤ 'F')

/-- The cell of an index: the mark `0x`, digits in upper case and a colon. There are four digits, or
as many more as the index takes. -/
def IsIndexCell (i : Nat) (cell : String) : Prop :=
  ∃ ds : List Char, cell = "0x" ++ .ofList ds ++ ":" ∧ (∀ c ∈ ds, isUpperHexDigit c = true) ∧
    IsNumeral 16 4 i ds

/-- The cell of a size: the number of words in decimal, or a dash where nothing is said of it. -/
def IsSizeCell (words? : Option Nat) (cell : String) : Prop :=
  match words? with
  | some words => ∃ ds : List Char, cell = .ofList ds ++ " word(s)" ∧
      (∀ c ∈ ds, c.isDigit = true) ∧ IsNumeral 10 1 words ds
  | none => cell = "-"

/-- The four cells of a row on one line, with spaces between them. In front of each cell but the
first the line is as wide as its column says. -/
def Row.Aligned (width : String → Nat) (r : Row) (kindColumn textColumn sizeColumn : Nat)
    (line : String) : Prop :=
  ∃ a b c,
    let toKind := r.index ++ spaces (a + 1)
    let toText := toKind ++ r.kind ++ spaces (b + 1)
    let toSize := toText ++ r.text ++ spaces (c + 1)
    line = toSize ++ r.size ∧ width toKind = kindColumn ∧ width toText = textColumn ∧
      width toSize = sizeColumn

/-- A text is the table of a program under a width: each line feed ends the line of a statement, in
order, and the columns are the same on all lines. -/
structure Program.Tabulated (width : String → Nat) (p : Program) (table : String) : Prop where
  newlines : table.toList.count '\n' = p.size
  lines : ∃ (lines : List String) (kindColumn textColumn sizeColumn : Nat),
    table = .join (lines.map (· ++ "\n")) ∧ lines.length = p.size ∧
      ∀ i line s, lines[i]? = some line → p.statements[i]? = some s → ∃ index size,
        IsIndexCell i index ∧ IsSizeCell s.dataWords? size ∧
          Row.Aligned width ⟨index, s.kind, s.text, size⟩ kindColumn textColumn sizeColumn line

/-! ### Cells of a line -/

@[simp] theorem toList_spaces (n : Nat) : (spaces n).toList = List.replicate n ' ' := by
  simp [spaces]

theorem spaces_succ (n : Nat) : spaces (n + 1) = spaces n ++ " " := by
  rw [← String.toList_inj]
  simp [List.replicate_succ']

theorem padTo_append_space (width : String → Nat) (columns : Nat) (cell : String) :
    padTo width columns cell ++ " " = cell ++ spaces (columns - width cell + 1) := by
  rw [spaces_succ, ← String.append_assoc]
  rfl

/-- Spaces behind a text take a column each. -/
theorem CountsSpaces.append_spaces (h : CountsSpaces width) (s : String) (n : Nat) :
    width (s ++ spaces n) = width s + n := by
  induction n with
  | zero => exact congrArg width String.append_empty
  | succ n ih =>
    have hlast := h.append_space (s ++ spaces n) ""
    rw [String.append_empty, h.empty, ih] at hlast
    rw [spaces_succ, ← String.append_assoc, hlast]
    rfl

/-- Spaces keep the texts around them apart, and take a column each. -/
theorem CountsSpaces.append_spaces_append (h : CountsSpaces width) (s : String) (n : Nat)
    (t : String) : width (s ++ spaces (n + 1) ++ t) = width s + (n + 1) + width t := by
  rw [spaces_succ, ← String.append_assoc, h.append_space, h.append_spaces]
  omega

/-- A line of a listing without its line feed. -/
def Row.content (width : String → Nat) (indexWidth kindWidth textWidth : Nat) (r : Row) : String :=
  r.index ++ spaces (indexWidth - width r.index + 1) ++
    r.kind ++ spaces (kindWidth - width r.kind + 1) ++
    r.text ++ spaces (textWidth - width r.text + 1) ++ r.size

theorem Row.line_eq (width : String → Nat) (indexWidth kindWidth textWidth : Nat) (r : Row) :
    r.line width indexWidth kindWidth textWidth =
      r.content width indexWidth kindWidth textWidth ++ "\n" := by
  simp only [Row.line, Row.content, String.append_assoc, ← padTo_append_space]

/-- In columns that are wide enough the cells start where the columns do. -/
theorem Row.aligned_content (h : CountsSpaces width) (hindex : width r.index ≤ indexWidth)
    (hkind : width r.kind ≤ kindWidth) (htext : width r.text ≤ textWidth) :
    r.Aligned width (indexWidth + 1) (indexWidth + 1 + (kindWidth + 1))
      (indexWidth + 1 + (kindWidth + 1) + (textWidth + 1))
      (r.content width indexWidth kindWidth textWidth) := by
  refine ⟨_, _, _, rfl, ?_, ?_, ?_⟩
  · rw [h.append_spaces]
    omega
  · rw [h.append_spaces, h.append_spaces_append]
    omega
  · rw [h.append_spaces, h.append_spaces_append, h.append_spaces_append]
    omega

theorem le_columnWidth (width : String → Nat) (cell : Row → String) (h : r ∈ rows) :
    width (cell r) ≤ columnWidth width cell rows := by
  induction rows with
  | nil => contradiction
  | cons r' rows ih =>
    rw [columnWidth, List.map_cons, List.foldr_cons]
    rcases List.mem_cons.1 h with rfl | h
    · exact Nat.le_max_left ..
    · exact Nat.le_trans (ih h) (Nat.le_max_right ..)

/-! ### Numbers in cells -/

theorem isNumeral_toDigits (hbase : 1 < base) (hdigits : base ≤ 16) (n : Nat) :
    IsNumeral base 1 n (Nat.toDigits base n) where
  value := numeralValue_toDigits hbase hdigits n
  least_le := List.length_pos_iff.2 Nat.toDigits_ne_nil
  length_le _ hk hn := (Nat.length_toDigits_le_iff hbase hk).2 hn

theorem isNumeral_hexNumeral (hleast : 0 < least) (n : Nat) :
    IsNumeral 16 least n (hexNumeral least n) where
  value := numeralValue_hexNumeral least n
  least_le := by
    rw [length_hexNumeral]
    exact Nat.le_max_left ..
  length_le k hk hn := by
    rw [length_hexNumeral]
    exact Nat.max_le.2 ⟨hk, (Nat.length_toDigits_le_iff (by decide) (by omega)).2 hn⟩

/-- Digits may be written in another way as long as they keep their values. -/
theorem IsNumeral.map {n : Nat} {f : Char → Char} (h : IsNumeral base least n ds)
    (hf : ∀ c ∈ ds, digitValue (f c) = digitValue c) : IsNumeral base least n (ds.map f) where
  value := by
    rw [← h.value, numeralValue, numeralValue, List.foldl_map]
    exact List.foldl_ext _ _ 0 fun value c hc => by rw [hf c hc]
  least_le := by
    rw [List.length_map]
    exact h.least_le
  length_le k hk hn := by
    rw [List.length_map]
    exact h.length_le k hk hn

/-- A hexadecimal digit in upper case is a digit still, of the same value. -/
theorem toUpper_of_isHexDigit (h : c.isHexDigit = true) : isUpperHexDigit c.toUpper = true ∧
    c.toUpper.isAlphanum = true ∧ digitValue c.toUpper = digitValue c :=
  of_ascii (P := fun c => c.isHexDigit = true → isUpperHexDigit c.toUpper = true ∧
    c.toUpper.isAlphanum = true ∧ digitValue c.toUpper = digitValue c) (by decide)
    (toNat_lt_of_isAlphanum (isAlphanum_of_isHexDigit h)) h

theorem isIndexCell_indexText (i : Nat) : IsIndexCell i (indexText i) := by
  have hdigit : ∀ c ∈ hexNumeral 4 i, isUpperHexDigit c.toUpper = true ∧
      c.toUpper.isAlphanum = true ∧ digitValue c.toUpper = digitValue c :=
    fun c hc => toUpper_of_isHexDigit (isHexDigit_hexNumeral 4 i c hc)
  refine ⟨(hexNumeral 4 i).map Char.toUpper, rfl, ?_, ?_⟩
  · rw [List.forall_mem_map]
    exact fun c hc => (hdigit c hc).1
  · exact (isNumeral_hexNumeral (by decide) i).map fun c hc => (hdigit c hc).2.2

theorem isSizeCell_sizeText (s : Statement) : IsSizeCell s.dataWords? (sizeText s) := by
  rw [sizeText]
  split
  · next words hwords =>
    rw [hwords]
    refine ⟨Nat.toDigits 10 words, rfl, fun c hc => ?_, isNumeral_toDigits (by decide) (by decide) _⟩
    exact Nat.isDigit_of_mem_toDigits (by decide) (by decide) hc
  · next hwords =>
    rw [hwords]
    rfl

/-- The last cell starts with a dash or a digit and stands on one line. -/
theorem IsSizeCell.starts (h : IsSizeCell words? size) : '\n' ∉ size.toList ∧
    ∃ c cs, size.toList = c :: cs ∧ (c = '-' ∨ c.isDigit = true) := by
  cases words? with
  | some words =>
    obtain ⟨ds, rfl, hdigits, hnumeral⟩ := h
    obtain ⟨c, cs, rfl⟩ := List.exists_cons_of_ne_nil (List.length_pos_iff.1 hnumeral.least_le)
    have hnewline : '\n' ∉ c :: cs := fun hc => absurd (hdigits _ hc) (by decide)
    refine ⟨by simpa using hnewline, c, cs ++ " word(s)".toList, by simp, Or.inr ?_⟩
    exact hdigits c List.mem_cons_self
  | none =>
    obtain rfl : size = "-" := h
    exact ⟨by decide, '-', [], rfl, Or.inl rfl⟩

theorem startsTrivia_of_mem_indexText (i : Nat) :
    ∀ c ∈ (indexText i).toList, startsTrivia c = false := by
  have hdigits : ∀ c ∈ (hexNumeral 4 i).map Char.toUpper, startsTrivia c = false := by
    rw [List.forall_mem_map]
    intro c hc
    have hdigit := toUpper_of_isHexDigit (isHexDigit_hexNumeral 4 i c hc)
    exact startsTrivia_eq_false_of_isAlphanum hdigit.2.1
  have htext : (indexText i).toList =
      '0' :: 'x' :: ((hexNumeral 4 i).map Char.toUpper ++ [':']) := by
    simp [indexText]
  rw [htext]
  simp only [List.forall_mem_cons, List.forall_mem_append]
  exact ⟨by decide, by decide, hdigits, by decide, List.forall_mem_nil _⟩

/-- The name of a shape is not empty, and no trivia starts in it. -/
theorem kind_spec (s : Statement) : s.kind.toList ≠ [] ∧
    ∀ c ∈ s.kind.toList, startsTrivia c = false := by
  have hall : ["label", "unary", "binary", "data"].all (fun kind => !kind.toList.isEmpty &&
      kind.toList.all fun c => !startsTrivia c) = true := by decide
  have hmem : s.kind ∈ ["label", "unary", "binary", "data"] := by
    cases s <;> simp [Statement.kind]
  simpa using List.all_eq_true.1 hall _ hmem

/-! ### Lines without line feeds -/

theorem Grammar.IsItem.not_mem_newline {w : List Char} {item : DataItem} (h : IsItem w item) :
    '\n' ∉ w := by
  cases h with
  | string _ hline => simpa using hline
  | number hv =>
    exact DcpuAsm.not_mem_newline fun c hc => isNarrow_of_isAlphanum (hv.isAlphanum c hc)

theorem not_mem_newline_intercalate {texts : List String} (h : ∀ t ∈ texts, '\n' ∉ t.toList) :
    '\n' ∉ (", ".intercalate texts).toList := by
  induction texts with
  | nil => simp
  | cons t texts ih =>
    rw [List.forall_mem_cons] at h
    cases texts with
    | nil => simpa using h.1
    | cons u texts =>
      rw [String.intercalate_cons_cons]
      simpa [h.1] using ih h.2

/-- The canonical text of a statement stands on one line. -/
theorem Statement.WellFormed.not_mem_newline (h : s.WellFormed) : '\n' ∉ s.text.toList := by
  have hword {word : String}
      (hm : upperCase word ∈ binaryMnemonics ∨ upperCase word ∈ unaryMnemonics) :
      '\n' ∉ word.toList :=
    DcpuAsm.not_mem_newline fun c hc =>
      isNarrow_of_isAlphanum (isAlphanum_of_isAlpha ((three_letters_of_mnemonic hm).2 c hc))
  have hoperand {e : Expression} (he : e.WellFormed) : '\n' ∉ e.text.toList :=
    DcpuAsm.not_mem_newline he.derived.narrow
  cases s with
  | label name =>
    have hname := DcpuAsm.not_mem_newline fun c hc => isNarrow_of_isAlphanum (h.2 c hc)
    simpa [Statement.text] using hname
  | unary mnemonic operand => simp [Statement.text, hword (Or.inr h.1), hoperand h.2]
  | binary mnemonic destination source =>
    simp [Statement.text, hword (Or.inl h.1), hoperand h.2.1, hoperand h.2.2]
  | data items =>
    have hitems : '\n' ∉ (", ".intercalate (items.map DataItem.text)).toList := by
      refine not_mem_newline_intercalate (List.forall_mem_map.2 fun item hitem => ?_)
      exact (h.2 item hitem).derived.not_mem_newline
    simpa [Statement.text] using hitems

theorem Row.not_mem_newline_content (width : String → Nat) (h : s.WellFormed)
    (indexWidth kindWidth textWidth i : Nat) :
    '\n' ∉ ((Row.ofStatement i s).content width indexWidth kindWidth textWidth).toList := by
  have hindex : '\n' ∉ (indexText i).toList := fun hc =>
    absurd (startsTrivia_of_mem_indexText i _ hc) (by decide)
  have hkind : '\n' ∉ s.kind.toList := fun hc => absurd ((kind_spec s).2 _ hc) (by decide)
  simp [Row.content, Row.ofStatement, hindex, hkind, h.not_mem_newline,
    (isSizeCell_sizeText s).starts.1]

/-! ### Reading a line -/

/-- The text of a line behind its first cell and the spaces that follow. -/
def nextCell (line : List Char) : List Char := (line.dropWhile (· != ' ')).dropWhile (· == ' ')

/-- The statement that the reader finds in the third cell of a line. -/
def listedStatement (line : List Char) : Committed Statement :=
  (statementAt (nextCell (nextCell line))).map Prod.fst

theorem nextCell_append {cell : List Char} (hcell : ' ' ∉ cell) (n : Nat)
    (hrest : Stops (· == ' ') rest) :
    nextCell (cell ++ (List.replicate (n + 1) ' ' ++ rest)) = rest := by
  have hsolid : ∀ c ∈ cell, (c != ' ') = true := by
    intro c hc
    rw [bne_iff_ne]
    rintro rfl
    exact hcell hc
  have hspaces : ∀ c ∈ List.replicate (n + 1) ' ', (c == ' ') = true :=
    fun c hc => beq_iff_eq.2 (List.eq_of_mem_replicate hc)
  rw [nextCell, dropWhile_append_of_stops hsolid, dropWhile_append_of_stops hspaces hrest]
  rw [List.replicate_succ, List.cons_append, stops_cons]
  decide

/-- In front of spaces and the last cell the reader stops. -/
theorem statementAt_text (h : s.WellFormed) (n : Nat) (hsize : IsSizeCell words? size) :
    statementAt (s.text.toList ++ (List.replicate (n + 1) ' ' ++ size.toList)) =
      .ok (s, List.replicate (n + 1) ' ' ++ size.toList) := by
  obtain ⟨_, c, cs, hstart, hc⟩ := hsize.starts
  have htrivia : startsTrivia c = false := by
    rcases hc with rfl | hc
    · decide
    · exact startsTrivia_eq_false_of_isAlphanum (isAlphanum_of_isDigit hc)
  -- Neither trivia nor a comma starts the last cell, so the items of a directive end here as well.
  refine (h.derived _).statementAt_eq ?_ ?_
  · exact mayEnd_iff.2 (Or.inr (not_stops_iff.2 ⟨' ', _, rfl, by decide⟩))
  · rw [afterComma?_eq_none_iff, skipTrivia_spaces, hstart,
      skipTrivia_of_stops (stops_cons.2 htrivia), stops_cons, beq_eq_false_iff_ne]
    rintro rfl
    rcases hc with hc | hc
    · exact absurd hc (by decide)
    · exact absurd hc (by decide)

theorem listedStatement_content (width : String → Nat) (h : s.WellFormed)
    (indexWidth kindWidth textWidth i : Nat) :
    listedStatement ((Row.ofStatement i s).content width indexWidth kindWidth textWidth).toList =
      .ok s := by
  have hindex : ' ' ∉ (indexText i).toList := fun hc =>
    absurd (startsTrivia_of_mem_indexText i _ hc) (by decide)
  have hkind : ' ' ∉ s.kind.toList := fun hc => absurd ((kind_spec s).2 _ hc) (by decide)
  have hstops {cs : List Char} (hcs : Stops startsTrivia cs) : Stops (· == ' ') cs :=
    hcs.mono fun c hc => by rw [beq_iff_eq.1 hc]; decide
  simp only [Row.content, Row.ofStatement, String.toList_append, toList_spaces, List.append_assoc]
  rw [listedStatement, nextCell_append hindex, nextCell_append hkind,
    statementAt_text h _ (isSizeCell_sizeText s)]
  · rfl
  · exact hstops (h.derived _).stops
  · obtain ⟨hne, hall⟩ := kind_spec s
    obtain ⟨c, cs, hkind⟩ := List.exists_cons_of_ne_nil hne
    rw [hkind] at hall ⊢
    exact hstops (stops_cons.2 (hall c List.mem_cons_self))

/-! ### The lines of a listing -/

/-- The lines of a listing, without their line feeds. -/
def Program.listingLines (width : String → Nat) (p : Program) : List String :=
  p.rows.map (Row.content width (columnWidth width Row.index p.rows)
    (columnWidth width Row.kind p.rows) (columnWidth width Row.text p.rows))

theorem listing_eq_join (width : String → Nat) (p : Program) :
    p.listing width = .join ((p.listingLines width).map (· ++ "\n")) := by
  rw [Program.listing, Program.listingLines, List.map_map]
  exact congrArg String.join (List.map_congr_left fun r _ => r.line_eq width _ _ _)

theorem length_listingLines (width : String → Nat) (p : Program) :
    (p.listingLines width).length = p.size := by
  simp [Program.listingLines, Program.rows, Program.size]

/-- A line shows the statement of its index. -/
theorem getElem?_listingLines (width : String → Nat) (p : Program) (i : Nat) :
    (p.listingLines width)[i]? = (p.statements[i]?).map fun s =>
      (Row.ofStatement i s).content width (columnWidth width Row.index p.rows)
        (columnWidth width Row.kind p.rows) (columnWidth width Row.text p.rows) := by
  rw [Program.listingLines, List.getElem?_map, Program.rows, List.getElem?_mapIdx, Option.map_map]
  rfl

theorem mem_rows (h : p.statements[i]? = some s) : Row.ofStatement i s ∈ p.rows := by
  refine List.mem_of_getElem? (i := i) ?_
  rw [Program.rows, List.getElem?_mapIdx, h]
  rfl

theorem not_mem_newline_listingLines (width : String → Nat) (h : p.WellFormed) :
    ∀ line ∈ (p.listingLines width).map String.toList, '\n' ∉ line := by
  rw [List.forall_mem_map]
  intro line hline
  obtain ⟨i, hi⟩ := List.mem_iff_getElem?.1 hline
  rw [getElem?_listingLines, Option.map_eq_some_iff] at hi
  obtain ⟨s, hs, rfl⟩ := hi
  exact Row.not_mem_newline_content width (h s (List.mem_of_getElem? hs)) _ _ _ _

/-- Lines that each end in a line feed are the lines of the whole, with an empty one at the end. -/
theorem sourceLines_flatMap {lines : List (List Char)} (h : ∀ line ∈ lines, '\n' ∉ line) :
    sourceLines (lines.flatMap (· ++ ['\n'])) = lines ++ [[]] := by
  induction lines with
  | nil => rfl
  | cons line lines ih =>
    rw [List.forall_mem_cons] at h
    rw [List.flatMap_cons, List.append_assoc, List.singleton_append, sourceLines,
      List.splitOn_append_cons_self_of_not_mem h.1]
    exact congrArg (line :: ·) (ih h.2)

theorem sourceLines_listing (width : String → Nat) (h : p.WellFormed) :
    sourceLines (p.listing width).toList = (p.listingLines width).map String.toList ++ [[]] := by
  rw [← sourceLines_flatMap (not_mem_newline_listingLines width h), listing_eq_join,
    String.toList_join]
  simp [List.flatMap_map]

/-- The statements of a program are those that the reader finds in the lines of its listing. -/
theorem map_listedStatement (width : String → Nat) (h : p.WellFormed) :
    (sourceLines (p.listing width).toList).dropLast.map listedStatement =
      p.statements.map .ok := by
  rw [sourceLines_listing width h, List.dropLast_concat, List.map_map]
  refine List.ext_getElem? fun i => ?_
  rw [List.getElem?_map, getElem?_listingLines, List.getElem?_map]
  cases hs : p.statements[i]? with
  | none => rfl
  | some s =>
    simp only [Option.map_some, Function.comp_apply, Option.some.injEq]
    exact listedStatement_content width (h s (List.mem_of_getElem? hs)) _ _ _ _

theorem tabulated_listing (hwidth : CountsSpaces width) (h : p.WellFormed) :
    p.Tabulated width (p.listing width) where
  newlines := by
    have hlines := congrArg List.length (sourceLines_listing width h)
    rw [length_sourceLines, List.length_append, List.length_map, length_listingLines] at hlines
    exact Nat.succ.inj hlines
  lines := by
    refine ⟨p.listingLines width, columnWidth width Row.index p.rows + 1,
      columnWidth width Row.index p.rows + 1 + (columnWidth width Row.kind p.rows + 1),
      columnWidth width Row.index p.rows + 1 + (columnWidth width Row.kind p.rows + 1) +
        (columnWidth width Row.text p.rows + 1), listing_eq_join width p,
      length_listingLines width p, ?_⟩
    intro i line s hline hs
    rw [getElem?_listingLines, hs] at hline
    cases hline
    have hmem := mem_rows hs
    refine ⟨indexText i, sizeText s, isIndexCell_indexText i, isSizeCell_sizeText s, ?_⟩
    exact Row.aligned_content hwidth (le_columnWidth width Row.index hmem)
      (le_columnWidth width Row.kind hmem) (le_columnWidth width Row.text hmem)

/-- Programs that are read are told apart by their listings, whatever the width. -/
theorem eq_of_listing_eq (hp : p.WellFormed) (hq : q.WellFormed)
    (h : p.listing width = q.listing width) : p = q := by
  have hmap : p.statements.map Except.ok = q.statements.map (Except.ok (ε := Fault)) := by
    rw [← map_listedStatement width hp, ← map_listedStatement width hq, h]
  have hinj : Function.Injective (Except.ok : Statement → Committed Statement) :=
    fun _ _ => Except.ok.inj
  have hstatements := hinj.list_map hmap
  cases p
  cases q
  exact congrArg Program.mk hstatements

theorem wellFormed_of_parse {src : String} (h : Program.parse src = .ok p) : p.WellFormed :=
  (programParse_eq_ok_iff.1 h).wellFormed

/-- Where spaces take a column each, the listing of a program that was read is its table, and no
other such program has it. -/
theorem listing_tabulates (hwidth : CountsSpaces width) :
    (∀ src p, Program.parse src = .ok p → p.Tabulated width (p.listing width)) ∧
    ∀ src src' p p', Program.parse src = .ok p → Program.parse src' = .ok p' →
      p.listing width = p'.listing width → p = p' :=
  ⟨fun _ _ h => tabulated_listing hwidth (wellFormed_of_parse h),
    fun _ _ _ _ h h' => eq_of_listing_eq (wellFormed_of_parse h) (wellFormed_of_parse h')⟩

/-- Kana take two columns each, an accent that combines takes none, and a string that looks like the
last cell is no matter. -/
theorem listing_tabulates_wide : CountsSpaces displayWidth ∧
    ∃ p, Program.parse ":a\ndat \"ねこe\u0301 3 word(s)\", 1\n" = .ok p ∧
      p.listing displayWidth =
        "0x0000: label :a                            -\n" ++
          "0x0001: data  dat \"ねこe\u0301 3 word(s)\", 0x0001 16 word(s)\n" ∧
      p.Tabulated displayWidth (p.listing displayWidth) := by
  have hwidth := countsSpaces_displayWidth
  have hparse : Program.parse ":a\ndat \"ねこe\u0301 3 word(s)\", 1\n" =
      .ok ⟨[.label "a", .data [.string "ねこe\u0301 3 word(s)", .number 1]]⟩ :=
    diagnosed_eq_ok_iff.2 (by decide +kernel)
  exact ⟨hwidth, _, hparse, by decide +kernel, (listing_tabulates hwidth).1 _ _ hparse⟩

end DcpuAsm
