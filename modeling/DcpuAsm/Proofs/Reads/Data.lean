import DcpuAsm.Reader.Statement
import DcpuAsm.Proofs.Reads.Lexeme
import DcpuAsm.Proofs.Trivia

/-!
What gaps, commas and lists of data items the reader finds. Where trivia is skipped the text behind
it may change, so long as it starts no trivia itself (`separated_exchange`, `afterComma?_exchange`).
Main statements: `dataItems_sound` and `dataItems_complete`, a list of items is read as the grammar
has it, up to a text with no comma behind its trivia, and `dataItems_exchange`, nothing else behind
the list matters.
-/

namespace DcpuAsm

open Grammar (IsItem Items Gap Trivia)

variable {expected : String} {cs start next rest a q s x p r r' t : List Char} {fault missing : Fault}
variable {items : List DataItem}

/-! ### Gaps -/

theorem separated_eq_ok_iff :
    separated expected cs = .ok start ↔ skipTrivia cs = start ∧ ¬ Stops startsTrivia cs := by
  rw [separated, ← skipTrivia_eq_self_iff]
  split
  · next h => simp [h, throw, throwThe, MonadExceptOf.throw]
  · next h => simp [h, pure, Except.pure]

theorem separated_eq_error_iff :
    separated expected cs = .error fault ↔
      Stops startsTrivia cs ∧ fault = .unexpected expected cs := by
  rw [separated, ← skipTrivia_eq_self_iff]
  split
  · next h => simp [h, throw, throwThe, MonadExceptOf.throw, eq_comm]
  · next h => simp [h, pure, Except.pure]

/-- What was skipped is a gap, and what is left starts no trivia. -/
theorem gap_of_separated (h : separated expected cs = .ok start) : Gap cs start := by
  obtain ⟨rfl, hstart⟩ := separated_eq_ok_iff.1 h
  exact ⟨trivia_skipTrivia cs, fun he => hstart (skipTrivia_eq_self_iff.1 he)⟩

theorem Grammar.Gap.not_stops (h : Gap cs rest) (hr : Stops startsTrivia rest) :
    ¬ Stops startsTrivia cs :=
  fun hs => h.2 ((h.1.skipTrivia_eq_rest hr).symm.trans (skipTrivia_of_stops hs))

theorem Grammar.Gap.separated_eq (h : Gap cs rest) (hr : Stops startsTrivia rest)
    (expected : String) : separated expected cs = .ok rest :=
  separated_eq_ok_iff.2 ⟨h.1.skipTrivia_eq_rest hr, h.not_stops hr⟩

/-- The text skipped decides that there is a gap, whatever follows. -/
theorem not_stops_append (hs : ¬ Stops startsTrivia (q ++ s)) (hq : q ≠ []) (x : List Char) :
    ¬ Stops startsTrivia (q ++ x) :=
  fun h => hs (h.of_head?_eq (head?_append_of_ne_nil hq))

theorem ne_nil_of_separated (h : separated expected (q ++ s) = .ok s) : q ≠ [] := by
  rintro rfl
  obtain ⟨hskip, hstart⟩ := separated_eq_ok_iff.1 h
  exact hstart (skipTrivia_eq_self_iff.1 hskip)

theorem separated_exchange (h : separated expected (q ++ s) = .ok s) (hs : s ≠ [])
    (hx : Stops startsTrivia x) : separated expected (q ++ x) = .ok x := by
  obtain ⟨hskip, hstart⟩ := separated_eq_ok_iff.1 h
  rw [separated_eq_ok_iff, skipTrivia_exchange q hskip hs, skipTrivia_of_stops hx]
  exact ⟨rfl, not_stops_append hstart (ne_nil_of_separated h) x⟩

/-- A gap and what was read behind it can be followed by any text that starts no trivia there. -/
theorem exists_separated_resume (h : separated expected (q ++ (p ++ r)) = .ok (p ++ r))
    (ht : Stops startsTrivia (p ++ t)) :
    ∃ t', separated expected (q ++ (p ++ t')) = .ok (p ++ t) := by
  obtain ⟨hskip, hstart⟩ := separated_eq_ok_iff.1 h
  obtain ⟨t', ht'⟩ := exists_resume hskip ht
  exact ⟨t', separated_eq_ok_iff.2
    ⟨ht', not_stops_append hstart (ne_nil_of_separated h) _⟩⟩

/-! ### Commas -/

theorem afterComma?_eq_some_iff :
    afterComma? cs = some rest ↔ ∃ ds, skipTrivia cs = ',' :: ds ∧ skipTrivia ds = rest := by
  unfold afterComma?
  split
  · next ds h => simp [h]
  · next hne => simpa using fun ds h => absurd h (hne ds)

theorem afterComma?_eq_none_iff : afterComma? cs = none ↔ Stops (· == ',') (skipTrivia cs) := by
  unfold afterComma?
  split
  · next ds h => simp [h]
  · next hne =>
    cases hcs : skipTrivia cs with
    | nil => simp
    | cons c ds => simpa using fun h => hne ds (by rw [hcs, h])

/-- There is no comma where a text starts neither with trivia nor with a comma. -/
theorem afterComma?_eq_none (htrivia : Stops startsTrivia cs) (hcomma : Stops (· == ',') cs) :
    afterComma? cs = none := by
  rwa [afterComma?_eq_none_iff, skipTrivia_of_stops htrivia]

theorem stops_of_afterComma? (h : afterComma? cs = some rest) : Stops startsTrivia rest := by
  obtain ⟨ds, _, rfl⟩ := afterComma?_eq_some_iff.1 h
  exact stops_skipTrivia ds

theorem trivia_of_afterComma? (h : afterComma? cs = some rest) :
    ∃ ds, Trivia cs (',' :: ds) ∧ Trivia ds rest := by
  obtain ⟨ds, hds, rfl⟩ := afterComma?_eq_some_iff.1 h
  exact ⟨ds, hds ▸ trivia_skipTrivia cs, trivia_skipTrivia ds⟩

/-- A comma has trivia on both sides, and the trivia in front of it stands in front of any text. -/
theorem afterComma?_split (h : afterComma? (a ++ s) = some s) :
    ∃ q b, a = q ++ ',' :: b ∧ skipTrivia (b ++ s) = s ∧
      ∀ y, afterComma? (q ++ ',' :: y) = some (skipTrivia y) := by
  obtain ⟨ds, hds, hs⟩ := afterComma?_eq_some_iff.1 h
  obtain ⟨b, rfl⟩ : s <:+ ds := hs ▸ skipTrivia_suffix ds
  obtain ⟨q, hq⟩ : ',' :: (b ++ s) <:+ a ++ s := hds ▸ skipTrivia_suffix (a ++ s)
  refine ⟨q, b, ?_, hs, fun y => ?_⟩
  · refine List.append_cancel_right (?_ : _ ++ s = _ ++ s)
    rw [← hq, List.append_assoc, List.cons_append]
  · rw [← hq] at hds
    rw [afterComma?_eq_some_iff]
    refine ⟨y, ?_, rfl⟩
    rw [skipTrivia_exchange q hds (List.cons_ne_nil _ _)]
    exact skipTrivia_of_stops (stops_cons.2 (by decide))

theorem afterComma?_exchange (h : afterComma? (a ++ s) = some s) (hs : s ≠ [])
    (hx : Stops startsTrivia x) : afterComma? (a ++ x) = some x := by
  obtain ⟨q, b, rfl, hb, hq⟩ := afterComma?_split h
  rw [List.append_assoc, List.cons_append, hq, skipTrivia_exchange b hb hs, skipTrivia_of_stops hx]

/-- A comma and what was read behind it can be followed by any text that starts no trivia there. -/
theorem exists_afterComma?_resume (h : afterComma? (a ++ (p ++ r)) = some (p ++ r))
    (ht : Stops startsTrivia (p ++ t)) : ∃ t', afterComma? (a ++ (p ++ t')) = some (p ++ t) := by
  obtain ⟨q, b, rfl, hb, hq⟩ := afterComma?_split h
  obtain ⟨t', ht'⟩ := exists_resume hb ht
  exact ⟨t', by rw [List.append_assoc, List.cons_append, hq, ht']⟩

/-- What stands in front of a comma and its trivia ends there. -/
theorem stops_of_afterComma?_eq_some {g : Char → Bool} (hg : ∀ c, g c = true → c ≠ ',')
    (htrivia : ∀ c, g c = true → startsTrivia c = false) (h : afterComma? cs = some rest) :
    Stops g cs := by
  cases cs with
  | nil => exact stops_nil
  | cons c cs =>
    rw [stops_cons, ← Bool.not_eq_true]
    intro hc
    rw [afterComma?_eq_none (stops_cons.2 (htrivia c hc))
      (stops_cons.2 (beq_eq_false_iff_ne.2 (hg c hc)))] at h
    contradiction

/-! ### Items -/

/-- May a data item start with this character? -/
def startsItem (c : Char) : Bool := c == '"' || c.isDigit

theorem isItem_iff {w : List Char} {i : DataItem} :
    ((∃ content, IsQuoted w content ∧ DataItem.string content = i) ∨
      ∃ v, Grammar.IsNumber w v ∧ DataItem.number v = i) ↔ IsItem w i := by
  constructor
  · rintro (⟨content, ⟨rfl, hquote, hline⟩, rfl⟩ | ⟨v, hv, rfl⟩)
    · have hi := IsItem.string hquote hline
      rwa [String.ofList_toList] at hi
    · exact .number hv
  · intro h
    cases h with
    | @string content hquote hline =>
      exact Or.inl ⟨_, by simpa [IsQuoted] using ⟨hquote, hline⟩, rfl⟩
    | number hv => exact Or.inr ⟨_, hv, rfl⟩

theorem ne_quote_of_isDigit {c : Char} (h : c.isDigit = true) : (c == '"') = false := by
  rw [beq_eq_false_iff_ne]
  rintro rfl
  exact absurd h (by decide)

theorem dataItem_reads : Reads dataItem IsItem startsItem Char.isAlphanum :=
  (((stringLiteral_reads.mono fun _ h => absurd h nofun).map DataItem.string).orElse
    (number_reads.map DataItem.number) fun _ => ne_quote_of_isDigit).congr isItem_iff

theorem startsTrivia_of_startsItem (c : Char) (h : startsItem c = true) :
    startsTrivia c = false := by
  rw [startsItem, Bool.or_eq_true, beq_iff_eq] at h
  rcases h with rfl | h
  · decide
  · exact startsTrivia_eq_false_of_isAlphanum (isAlphanum_of_isDigit h)

/-- An item is found where no trivia starts. -/
theorem stops_of_dataItem {i : DataItem} (h : dataItem cs = .matched i next) :
    cs ≠ [] ∧ Stops startsTrivia cs := by
  obtain ⟨w, rfl, hw⟩ := dataItem_reads.sound h
  obtain ⟨c, ds, rfl, hc⟩ := dataItem_reads.starts_of hw
  exact ⟨List.cons_ne_nil _ _, stops_cons.2 (startsTrivia_of_startsItem c hc)⟩

theorem stops_isAlphanum_of_afterComma? (h : afterComma? cs = some rest) :
    Stops Char.isAlphanum cs :=
  stops_of_afterComma?_eq_some (by rintro c hc rfl; exact absurd hc (by decide))
    (fun _ => startsTrivia_eq_false_of_isAlphanum) h

/-! ### Lists of items -/

/-- One turn of the loop: behind a comma it goes on with the items there. -/
theorem dataItems_eq (missing : Fault) (cs : List Char) : dataItems missing cs =
    match dataItem cs with
    | .noMatch => .error missing
    | .failed fault => .error fault
    | .matched item next =>
      match afterComma? next with
      | none => .ok ([item], next)
      | some rest =>
        (dataItems (missingAfterComma rest) rest).map fun p => (item :: p.1, p.2) := by
  rw [dataItems]
  split
  · next hitem => rw [hitem]; rfl
  · next fault hitem => rw [hitem]; rfl
  · next item next hitem =>
    rw [hitem]
    split
    · next hcomma => simp only [hcomma]; rfl
    · next rest hcomma =>
      simp only [hcomma]
      cases dataItems (missingAfterComma rest) rest <;> rfl

theorem dataItems_eq_ok_iff : dataItems missing cs = .ok (items, next) ↔
    ∃ item mid, dataItem cs = .matched item mid ∧
      ((afterComma? mid = none ∧ items = [item] ∧ next = mid) ∨
        ∃ rest later, afterComma? mid = some rest ∧
          dataItems (missingAfterComma rest) rest = .ok (later, next) ∧ items = item :: later) := by
  rw [dataItems]
  split
  · next hitem => simp [hitem, throw, throwThe, MonadExceptOf.throw]
  · next fault hitem => simp [hitem, throw, throwThe, MonadExceptOf.throw]
  · next item mid hitem =>
    rw [hitem]
    split
    · next hcomma =>
      refine ⟨fun h => ?_, ?_⟩
      · cases h; exact ⟨item, _, rfl, Or.inl ⟨hcomma, rfl, rfl⟩⟩
      · rintro ⟨_, _, h, ⟨_, rfl, rfl⟩ | ⟨_, _, hc, _⟩⟩
        · cases h; rfl
        · cases h; rw [hcomma] at hc; contradiction
    · next rest hcomma =>
      rw [bind_eq_ok]
      constructor
      · rintro ⟨⟨later, last⟩, hlater, h⟩
        cases h
        exact ⟨item, mid, rfl, Or.inr ⟨rest, later, hcomma, hlater, rfl⟩⟩
      · rintro ⟨_, _, h, ⟨hc, _⟩ | ⟨_, later, hc, hlater, rfl⟩⟩
        · cases h; rw [hcomma] at hc; contradiction
        · cases h
          rw [hcomma] at hc
          cases hc
          exact ⟨(later, next), hlater, rfl⟩

theorem dataItems_eq_error_iff : dataItems missing cs = .error fault ↔
    (dataItem cs = .noMatch ∧ fault = missing) ∨ dataItem cs = .failed fault ∨
      ∃ item mid rest, dataItem cs = .matched item mid ∧ afterComma? mid = some rest ∧
        dataItems (missingAfterComma rest) rest = .error fault := by
  rw [dataItems]
  split
  · next hitem => simp [hitem, throw, throwThe, MonadExceptOf.throw, eq_comm]
  · next fault hitem => simp [hitem, throw, throwThe, MonadExceptOf.throw]
  · next item mid hitem =>
    rw [hitem]
    split
    · next hcomma =>
      refine ⟨fun h => ?_, ?_⟩
      · contradiction
      · rintro (⟨h, _⟩ | h | ⟨_, _, _, h, hc, _⟩)
        · contradiction
        · contradiction
        · cases h; rw [hcomma] at hc; contradiction
    · next rest hcomma =>
      rw [bind_eq_error]
      constructor
      · rintro (h | ⟨_, _, h⟩)
        · exact Or.inr (Or.inr ⟨item, mid, rest, rfl, hcomma, h⟩)
        · contradiction
      · rintro (⟨h, _⟩ | h | ⟨_, _, _, h, hc, hlater⟩)
        · contradiction
        · contradiction
        · cases h
          rw [hcomma] at hc
          cases hc
          exact Or.inl hlater

theorem stops_of_dataItems (h : dataItems missing cs = .ok (items, next)) :
    cs ≠ [] ∧ Stops startsTrivia cs :=
  let ⟨_, _, hitem, _⟩ := dataItems_eq_ok_iff.1 h
  stops_of_dataItem hitem

theorem properEnd_of_dataItems (h : dataItems missing cs = .ok (items, next)) :
    ProperEnd next cs := by
  obtain ⟨item, mid, hitem, ⟨_, _, rfl⟩ | ⟨rest, later, hcomma, hlater, _⟩⟩ :=
    dataItems_eq_ok_iff.1 h
  · exact dataItem_advances cs item _ hitem
  · have hmid := (dataItems_endsIn _ rest later next hlater).trans (properEnd_of_afterComma? hcomma).1
    exact (dataItem_advances cs item mid hitem).of_isSuffix hmid

/-- A list takes all the commas there are. -/
theorem afterComma?_eq_none_of_dataItems (h : dataItems missing cs = .ok (items, next)) :
    afterComma? next = none := by
  induction hn : cs.length using Nat.strongRecOn generalizing cs items missing with
  | _ n ih =>
    obtain ⟨item, mid, hitem, ⟨hcomma, _, rfl⟩ | ⟨rest, later, hcomma, hlater, _⟩⟩ :=
      dataItems_eq_ok_iff.1 h
    · exact hcomma
    · have hmid := (dataItem_advances cs item mid hitem).2
      have hrest := (properEnd_of_afterComma? hcomma).2
      exact ih rest.length (by omega) hlater rfl

theorem dataItems_sound (h : dataItems missing cs = .ok (items, next)) : Items cs items next := by
  induction hn : cs.length using Nat.strongRecOn generalizing cs items missing with
  | _ n ih =>
    obtain ⟨item, mid, hitem, ⟨_, rfl, rfl⟩ | ⟨rest, later, hcomma, hlater, rfl⟩⟩ :=
      dataItems_eq_ok_iff.1 h
    · obtain ⟨w, rfl, hw⟩ := dataItem_reads.sound hitem
      exact .one hw
    · have hlt := (dataItem_advances cs item mid hitem).2
      have hrest := ih rest.length (by have := (properEnd_of_afterComma? hcomma).2; omega) hlater rfl
      obtain ⟨w, rfl, hw⟩ := dataItem_reads.sound hitem
      obtain ⟨ds, hbefore, hafter⟩ := trivia_of_afterComma? hcomma
      exact .more hw hbefore hafter hrest

/-- Items start where no trivia does. -/
theorem Grammar.Items.stops (h : Items cs items next) : Stops startsTrivia cs := by
  cases h with
  | one hw =>
    obtain ⟨c, ds, rfl, hc⟩ := dataItem_reads.starts_of hw
    exact stops_cons.2 (startsTrivia_of_startsItem c hc)
  | more hw =>
    obtain ⟨c, ds, rfl, hc⟩ := dataItem_reads.starts_of hw
    exact stops_cons.2 (startsTrivia_of_startsItem c hc)

theorem Grammar.Trivia.afterComma?_eq {b c : List Char} (hbefore : Trivia a (',' :: b))
    (hafter : Trivia b c) (hc : Stops startsTrivia c) : afterComma? a = some c :=
  afterComma?_eq_some_iff.2
    ⟨b, hbefore.skipTrivia_eq_rest (stops_cons.2 (by decide)), hafter.skipTrivia_eq_rest hc⟩

/-- A list of the grammar is read as far as it goes, if no comma follows it. -/
theorem dataItems_complete (h : Items cs items next) (hs : Stops Char.isAlphanum next)
    (hcomma : afterComma? next = none) (missing : Fault) :
    dataItems missing cs = .ok (items, next) := by
  induction h generalizing missing with
  | one hw =>
    exact dataItems_eq_ok_iff.2
      ⟨_, _, dataItem_reads.complete hw hs, Or.inl ⟨hcomma, rfl, rfl⟩⟩
  | more hw hbefore hafter hlater ih =>
    have hc := hbefore.afterComma?_eq hafter hlater.stops
    have hitem := dataItem_reads.complete hw (stops_isAlphanum_of_afterComma? hc)
    exact dataItems_eq_ok_iff.2 ⟨_, _, hitem, Or.inr ⟨_, _, hc, ih hs hcomma _, rfl⟩⟩

/-- Behind a list any text may stand that has no comma behind its trivia. -/
theorem dataItems_exchange {w : List Char} (h : dataItems missing (w ++ r) = .ok (items, r))
    (hs : Seam Char.isAlphanum r r') (hcomma : afterComma? r' = none) (missing' : Fault) :
    dataItems missing' (w ++ r') = .ok (items, r') := by
  induction hn : w.length using Nat.strongRecOn generalizing w items missing missing' with
  | _ n ih =>
    obtain ⟨item, mid, hitem, ⟨_, rfl, rfl⟩ | ⟨rest, later, hc, hlater, rfl⟩⟩ :=
      dataItems_eq_ok_iff.1 h
    · exact dataItems_eq_ok_iff.2
        ⟨item, r', dataItem_reads.exchange hitem hs, Or.inl ⟨hcomma, rfl, rfl⟩⟩
    · -- `w` is the item, the comma with its trivia and the text `w'` of the later items.
      obtain ⟨u, hu, hitemtext⟩ := dataItem_reads.sound hitem
      obtain ⟨a, rfl⟩ := (properEnd_of_afterComma? hc).1
      obtain ⟨w', rfl⟩ := dataItems_endsIn _ rest later r hlater
      obtain rfl : w = u ++ (a ++ w') := by
        refine List.append_cancel_right (?_ : _ ++ r = _ ++ r)
        rw [hu]; simp only [List.append_assoc]
      have hw' : w' ≠ [] := ne_nil_of_properEnd (properEnd_of_dataItems hlater)
      have hu' : u ≠ [] := ne_nil_of_properEnd (hu ▸ dataItem_advances _ _ _ hitem)
      have hshort : w'.length < n := by
        have := List.length_pos_iff.2 hu'
        rw [← hn]; simp only [List.length_append]; omega
      have hlater' := ih w'.length hshort hlater (missingAfterComma (w' ++ r')) rfl
      have hstop : Stops startsTrivia (w' ++ r') := (stops_of_dataItems hlater').2
      rw [List.append_assoc, List.append_assoc] at hitem ⊢
      refine dataItems_eq_ok_iff.2
        ⟨item, a ++ (w' ++ r'), ?_, Or.inr ⟨w' ++ r', later, ?_, hlater', rfl⟩⟩
      · exact dataItem_reads.exchange hitem ((hs.append w').append a)
      · exact afterComma?_exchange hc (by simp [hw']) hstop

end DcpuAsm
