import DcpuAsm.Proofs.SingleStatement
import Mathlib.Algebra.Ring.Nat

/-!
Lists of data items one behind the other. Behind an item the reader looks past the trivia for a comma,
over line feeds and comments, so a list goes on where the comma stands on the next line: with a comma
behind its trivia a list is read as its items and then whatever is found there
(`dataItems_append`). Main statement: `data_lists_join`. A comma joins two lists to one, two keywords
keep them apart, and a comma with no item behind it leaves the list open just there.
-/

namespace DcpuAsm

open Grammar (Trivia Gap Items Line Lines)

variable {cs mid rest start a b : List Char} {items : List DataItem} {s : Statement}

/-- The text consists of the items, with trivia around them. -/
def ListsItems (cs : List Char) (items : List DataItem) : Prop :=
  ∃ start mid, Trivia cs start ∧ Items start items mid ∧ Trivia mid []

/-- What the items `xs` of the text `x` and the items `ys` of `y` make together. -/
structure JoinLists (x y : String) (xs ys : List DataItem) : Prop where
  /-- Behind a comma on the next line the list goes on. -/
  comma : Statement.parse ("dat " ++ x ++ "\n," ++ y) = .ok (.data (xs ++ ys))
  words : ∃ m n, (Statement.data xs).dataWords? = some m ∧ (Statement.data ys).dataWords? = some n ∧
    (Statement.data (xs ++ ys)).dataWords? = some (m + n)
  keyword : Program.parse ("dat " ++ x ++ "\ndat " ++ y) = .ok ⟨[.data xs, .data ys]⟩

/-- The list of `x` is open behind the comma on the next line, where `rest` is left of `z`. -/
def BreaksOff (x z : String) (rest : List Char) : Prop :=
  ∃ front, ("dat " ++ x ++ "\n," ++ z).toList = front ++ rest ∧
    Program.parse ("dat " ++ x ++ "\n," ++ z) =
      .error ⟨.unterminated .dataList "a data item after `,`", .after front⟩

/-! ### A line feed behind a list -/

/-- A line feed behind the text ends the comment that may be open there. -/
theorem Grammar.Trivia.append_newline (h : Trivia cs rest) (b : List Char) :
    Trivia (cs ++ '\n' :: b) (rest ++ '\n' :: b) := by
  induction h with
  | none => exact .none
  | blank hc _ ih => exact .blank hc ih
  | @comment body cs rest hbody hend _ ih =>
    rw [List.append_assoc]
    refine .comment hbody (Or.inr ?_) ih
    rcases hend with rfl | hhead
    · rfl
    · rw [List.head?_append, hhead]
      rfl

/-- Trivia up to the end of a text leads on to the next line. -/
theorem Grammar.Trivia.nextLine (h : Trivia cs []) (b : List Char) : Trivia (cs ++ '\n' :: b) b :=
  (h.append_newline b).trans (.blank isBlank_newline .none)

theorem Grammar.Items.append_newline (h : Items cs items rest) (b : List Char) :
    Items (cs ++ '\n' :: b) items (rest ++ '\n' :: b) := by
  induction h with
  | one h =>
    rw [List.append_assoc]
    exact .one h
  | more h hbefore hafter _ ih =>
    rw [List.append_assoc]
    exact .more h (hbefore.append_newline b) (hafter.append_newline b) ih

/-! ### Lists that go on -/

/-- With a comma behind them, items are read and then what stands behind the comma. -/
theorem dataItems_append (h : Items cs items mid) (hcomma : afterComma? mid = some rest)
    (missing : Fault) : dataItems missing cs =
      (dataItems (missingAfterComma rest) rest).map fun p => (items ++ p.1, p.2) := by
  -- The fault for a missing item is another one behind each comma, so it has to be general.
  induction h generalizing missing with
  | one hw =>
    have hitem := dataItem_reads.complete hw (stops_isAlphanum_of_afterComma? hcomma)
    rw [dataItems_eq, hitem]
    simp only [hcomma]
    rfl
  | more hw hbefore hafter hs ih =>
    have hc := hbefore.afterComma?_eq hafter hs.stops
    have hitem := dataItem_reads.complete hw (stops_isAlphanum_of_afterComma? hc)
    rw [dataItems_eq, hitem]
    simp only [hc, ih hcomma]
    cases dataItems (missingAfterComma rest) rest <;> rfl

/-- A data directive is read as the items that stand behind the trivia behind its keyword. -/
theorem statement_dat (htrivia : Trivia cs start) (hstart : Stops startsTrivia start) :
    statement ("dat".toList ++ ' ' :: cs) = .ofExcept
      ((dataItems (.unexpected "a string or numeric data item" start) start).map fun p =>
        (.data p.1, p.2)) := by
  have hgap : Gap (' ' :: cs) start := .blank (by decide) htrivia
  have hbody : dataBody (' ' :: cs) =
      (dataItems (.unexpected "a string or numeric data item" start) start).map fun p =>
        (.data p.1, p.2) := by
    simp only [dataBody, hgap.separated_eq hstart, bind, Except.bind]
    cases dataItems (.unexpected "a string or numeric data item" start) start <;> rfl
  have hkeyword : upperCase "dat" = "DAT" := by decide
  exact statement_of_gap (isIdentifier_of_three_letters (three_letters_of_dat hkeyword))
    (hgap.not_stops hstart) (body?_eq_some_iff.2 (Or.inl ⟨hkeyword, hbody.symm⟩))

/-- The same where a list stands behind the keyword and the text goes on with a comma on the next
line. -/
theorem statement_dat_comma (h : ListsItems a items) (hb : Trivia b rest)
    (hrest : Stops startsTrivia rest) : statement ("dat".toList ++ ' ' :: (a ++ '\n' :: ',' :: b)) =
      .ofExcept ((dataItems (missingAfterComma rest) rest).map fun p =>
        (.data (items ++ p.1), p.2)) := by
  obtain ⟨start, mid, hstart, hitems, hmid⟩ := h
  have hlist : Items (start ++ '\n' :: ',' :: b) items (mid ++ '\n' :: ',' :: b) :=
    hitems.append_newline _
  have hcomma := (hmid.nextLine (',' :: b)).afterComma?_eq hb hrest
  rw [statement_dat (hstart.append_newline _) hlist.stops, dataItems_append hlist hcomma]
  cases dataItems (missingAfterComma rest) rest <;> rfl

/-! ### Data directives -/

/-- A data directive starts with its keyword. -/
theorem stops_dat (cs : List Char) : Stops startsTrivia ("dat".toList ++ cs) :=
  stops_cons.2 (by decide)

theorem line_dat (htrivia : Trivia cs start) (hitems : Items start items rest) :
    Line ("dat".toList ++ ' ' :: cs) (.data items) rest := by
  have hkeyword : upperCase (.ofList "dat".toList) = "DAT" := by decide
  exact .data hkeyword (.blank (by decide) htrivia) hitems

/-- Behind the keyword `dat` and a space a text is a statement if it is a list of items. -/
theorem statementParse_dat_iff {x : String} : Statement.parse ("dat " ++ x) = .ok s ↔
    ∃ items, s = .data items ∧ ListsItems x.toList items := by
  have hsrc : ("dat " ++ x).toList = "dat".toList ++ ' ' :: x.toList := String.toList_append
  constructor
  · intro h
    obtain ⟨mid, hs, hmid⟩ := statementOnly_eq_ok_iff_reads.1 (diagnosed_eq_ok_iff.1 h)
    rw [hsrc, skipTrivia_of_stops (stops_dat _), statementAt_eq_ok_iff,
      statement_dat (trivia_skipTrivia _) (stops_skipTrivia _), Match.ofExcept_eq_matched] at hs
    generalize hitems : dataItems _ (skipTrivia x.toList) = r at hs
    cases r with
    | error => exact absurd hs.1 nofun
    | ok p =>
      cases hs.1
      exact ⟨p.1, rfl, _, _, trivia_skipTrivia _, dataItems_sound hitems, hmid ▸ trivia_skipTrivia _⟩
  · rintro ⟨items, rfl, start, mid, htrivia, hitems, hmid⟩
    exact statementParse_eq_ok_iff.2 ⟨_, .none, hsrc ▸ .last (line_dat htrivia hitems) hmid⟩

theorem dataWords?_data (items : List DataItem) :
    (Statement.data items).dataWords? = some (items.map DataItem.words).sum := by
  rw [Statement.dataWords?, List.sum, List.foldr_map]

theorem dataWords?_append (is js : List DataItem) : ∃ m n, (Statement.data is).dataWords? = some m ∧
    (Statement.data js).dataWords? = some n ∧
    (Statement.data (is ++ js)).dataWords? = some (m + n) := by
  refine ⟨_, _, dataWords?_data is, dataWords?_data js, ?_⟩
  rw [dataWords?_data, List.map_append, List.sum_append]

section

variable {x y z : String} {xs ys : List DataItem}

theorem toList_comma (x y : String) : ("dat " ++ x ++ "\n," ++ y).toList =
    "dat".toList ++ ' ' :: (x.toList ++ '\n' :: ',' :: y.toList) := by
  simp

/-- A comma on the next line joins two lists. -/
theorem statementParse_comma (hx : ListsItems x.toList xs) (hy : ListsItems y.toList ys) :
    Statement.parse ("dat " ++ x ++ "\n," ++ y) = .ok (.data (xs ++ ys)) := by
  obtain ⟨start, mid, hstart, hitems, hmid⟩ := hy
  have hskip : skipTrivia mid = [] := hmid.skipTrivia_eq_rest stops_nil
  have hend := mayEnd_of_skipTrivia hskip
  have hcomma := afterComma?_eq_none_of_skipTrivia hskip
  have hstop : Stops Char.isAlphanum mid :=
    (hend.follows (s := .data ys) hcomma).1.mono continuesSum_of_isAlphanum
  -- Up to the comma the second list is all that is left, and it is read as it is alone.
  have hs := statement_dat_comma hx hstart hitems.stops
  rw [dataItems_complete hitems hstop hcomma] at hs
  refine diagnosed_eq_ok_iff.2 (statementOnly_eq_ok_iff_reads.2 ⟨mid, ?_, hskip⟩)
  rw [toList_comma, skipTrivia_of_stops (stops_dat _)]
  exact statementAt_eq_ok_iff.2 ⟨hs, hend⟩

/-- A keyword on the next line keeps two lists apart. -/
theorem programParse_keyword (hx : ListsItems x.toList xs) (hy : ListsItems y.toList ys) :
    Program.parse ("dat " ++ x ++ "\ndat " ++ y) = .ok ⟨[.data xs, .data ys]⟩ := by
  obtain ⟨start, mid, hstart, hitems, hmid⟩ := hx
  obtain ⟨start', mid', hstart', hitems', hmid'⟩ := hy
  have hsrc : ("dat " ++ x ++ "\ndat " ++ y).toList =
      "dat".toList ++ ' ' :: (x.toList ++ '\n' :: ("dat".toList ++ ' ' :: y.toList)) := by
    simp
  have hend : MayEnd (mid ++ '\n' :: ("dat".toList ++ ' ' :: y.toList)) :=
    (mayEnd_of_skipTrivia (hmid.skipTrivia_eq_rest stops_nil)).append_cons (by decide) _
  have hline := line_dat hstart' hitems'
  exact programParse_eq_ok_iff.2 ⟨_, .none, hsrc ▸
    .cons (line_dat (hstart.append_newline _) (hitems.append_newline _))
      (hend.gap (hmid.nextLine _) hline) (.last hline hmid')⟩

/-- A comma on the next line with no item behind it leaves a list open. -/
theorem breaksOff_of_stops {rest : List Char} (hx : ListsItems x.toList xs)
    (hz : Trivia z.toList rest) (htrivia : Stops startsTrivia rest) (hitem : Stops startsItem rest) :
    BreaksOff x z rest := by
  have hs := statement_dat_comma hx hz htrivia
  rw [dataItems_eq_error_iff.2 (Or.inl ⟨dataItem_reads.noMatch_iff.2 hitem, rfl⟩),
    ← toList_comma] at hs
  have hstart : Stops startsTrivia ("dat " ++ x ++ "\n," ++ z).toList :=
    toList_comma x z ▸ stops_dat _
  have hat : statementAt (skipTrivia ("dat " ++ x ++ "\n," ++ z).toList) =
      .error (missingAfterComma rest) := by
    rw [skipTrivia_of_stops hstart]
    exact statementAt_eq_error_iff.2 (Or.inr (Or.inl hs))
  have hne : skipTrivia ("dat " ++ x ++ "\n," ++ z).toList ≠ [] := by
    rw [skipTrivia_of_stops hstart, toList_comma]
    exact List.cons_ne_nil _ _
  obtain ⟨before, hbefore⟩ := hz.suffix
  have hfront : ("dat " ++ x ++ "\n," ++ z).toList =
      "dat".toList ++ ' ' :: (x.toList ++ '\n' :: ',' :: before) ++ rest := by
    rw [toList_comma, ← hbefore]
    simp
  refine ⟨_, hfront, ?_⟩
  rw [programParse_of_statementAt hne hat, hfront]
  exact congrArg Except.error (diagnose_append _ (missingAfterComma rest))

end

/-! ### Both ways -/

/-- Lists of data items concatenate: over a comma on the next line to one list with the words of both,
and over a keyword to two. Behind such a comma only a quote or a digit may stand, past the trivia
there, and anything else is where the list is found to be open. -/
theorem data_lists_join :
    (∀ x y xs ys, Statement.parse ("dat " ++ x) = .ok (.data xs) →
      Statement.parse ("dat " ++ y) = .ok (.data ys) → JoinLists x y xs ys) ∧
    ∀ x s z rest, Statement.parse ("dat " ++ x) = .ok s → Trivia z.toList rest →
      Stops startsTrivia rest → Stops startsItem rest → BreaksOff x z rest := by
  refine ⟨fun x y xs ys hx hy => ?_, fun x s z rest hx hz htrivia hitem => ?_⟩
  · obtain ⟨_, ⟨⟩, hx⟩ := statementParse_dat_iff.1 hx
    obtain ⟨_, ⟨⟩, hy⟩ := statementParse_dat_iff.1 hy
    exact ⟨statementParse_comma hx hy, dataWords?_append xs ys, programParse_keyword hx hy⟩
  · obtain ⟨_, _, hx⟩ := statementParse_dat_iff.1 hx
    exact breaksOff_of_stops hx hz htrivia hitem

/-- The comma of the second line ends the comment of the first, and the commas in the string and in
the comment do not count. -/
theorem data_lists_join_behind_comment :
    JoinLists "\"a,;\" ; b," "2" [.string "a,;"] [.number 2] ∧
      BreaksOff "\"a,;\" ; b," " ; c\n]" [']'] := by
  have hx : Statement.parse ("dat " ++ "\"a,;\" ; b,") = .ok (.data [.string "a,;"]) :=
    diagnosed_eq_ok_iff.2 (by decide +kernel)
  have hy : Statement.parse ("dat " ++ "2") = .ok (.data [.number 2]) :=
    diagnosed_eq_ok_iff.2 (by decide +kernel)
  have hz : Trivia " ; c\n]".toList [']'] := by
    have hskip : skipTrivia " ; c\n]".toList = [']'] := by decide
    exact hskip ▸ trivia_skipTrivia _
  exact ⟨data_lists_join.1 _ _ _ _ hx hy,
    data_lists_join.2 _ _ _ _ hx hz (stops_cons.2 (by decide)) (stops_cons.2 (by decide))⟩

end DcpuAsm
