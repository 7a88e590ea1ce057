import DcpuAsm.Proofs.Reads.Data
import DcpuAsm.Proofs.Reads.Operand

/-!
What statements the reader finds. The first character and the word at the front decide which rule
runs (`statement_eq_matched_iff`, `statement_eq_failed_iff`), so the order of the rules is no
matter. Main statements: a statement is read as the grammar has it where none could go on
(`statement_sound`, `statement_complete`), and nothing else behind it matters
(`statement_exchange`).
-/

namespace DcpuAsm

open Grammar (IsWord IsIdentifier Line Items)

variable {cs next rest mid w r r' : List Char} {s : Statement} {fault : Fault} {word : String}
variable {arity : Arity}

/-! ### Mnemonics -/

theorem isAlpha_of_isAlpha_toUpper {c : Char} (h : c.toUpper.isAlpha = true) : c.isAlpha = true := by
  unfold Char.toUpper at h
  split at h
  · next hlow =>
    unfold Char.isAlpha Char.isLower
    rw [Bool.or_eq_true]
    exact Or.inr (by simpa using hlow)
  · exact h

/-- All words that are looked up have three letters. -/
theorem three_letters_of_mem {u : String} (h : u ∈ "DAT" :: (binaryMnemonics ++ unaryMnemonics)) :
    u.toList.length = 3 ∧ ∀ c ∈ u.toList, c.isAlpha = true := by
  have hall : ("DAT" :: (binaryMnemonics ++ unaryMnemonics)).all
      (fun u => u.toList.length == 3 && u.toList.all Char.isAlpha) = true := by decide
  have hu := List.all_eq_true.1 hall u h
  rw [Bool.and_eq_true, beq_iff_eq, List.all_eq_true] at hu
  exact hu

theorem three_letters_of_upperCase
    (h : upperCase word ∈ "DAT" :: (binaryMnemonics ++ unaryMnemonics)) :
    word.toList.length = 3 ∧ ∀ c ∈ word.toList, c.isAlpha = true := by
  obtain ⟨hlen, hall⟩ := three_letters_of_mem h
  rw [upperCase, String.toList_ofList] at hlen hall
  refine ⟨by simpa using hlen, fun c hc => isAlpha_of_isAlpha_toUpper ?_⟩
  exact hall _ (List.mem_map.2 ⟨c, hc, rfl⟩)

/-- A mnemonic is three letters. -/
theorem three_letters_of_mnemonic
    (h : upperCase word ∈ binaryMnemonics ∨ upperCase word ∈ unaryMnemonics) :
    word.toList.length = 3 ∧ ∀ c ∈ word.toList, c.isAlpha = true :=
  three_letters_of_upperCase (List.mem_cons_of_mem _ (List.mem_append.2 h))

theorem three_letters_of_dat (h : upperCase word = "DAT") :
    word.toList.length = 3 ∧ ∀ c ∈ word.toList, c.isAlpha = true :=
  three_letters_of_upperCase (h ▸ List.mem_cons_self)

/-- Three letters make an identifier. -/
theorem isIdentifier_of_three_letters {w : List Char}
    (h : w.length = 3 ∧ ∀ c ∈ w, c.isAlpha = true) : IsIdentifier w := by
  obtain ⟨c, ds, rfl⟩ := List.exists_cons_of_length_eq_add_one h.1
  refine ⟨⟨List.cons_ne_nil c ds, fun d hd => isAlphanum_of_isAlpha (h.2 d hd)⟩, c, ds, rfl, ?_⟩
  exact h.2 c List.mem_cons_self

theorem identifier?_append_of_gap {a : List Char} (h : IsIdentifier word.toList)
    (ha : ¬ Stops startsTrivia a) : identifier? (word.toList ++ a) = some (word, a) := by
  refine identifier?_eq_some_iff.2 ⟨rfl, h, ?_⟩
  obtain ⟨c, ds, rfl, hc⟩ := not_stops_iff.1 ha
  rw [stops_cons, ← Bool.not_eq_true]
  intro halnum
  rw [startsTrivia_eq_false_of_isAlphanum halnum] at hc
  contradiction

/-! ### Labels -/

theorem label_eq_matched_iff : label cs = .matched s next ↔
    ∃ ds name, cs = ':' :: ds ∧ word? ds = some (name, next) ∧ s = .label name := by
  unfold label
  split
  · next ds =>
    split
    · next name mid hw =>
      refine ⟨fun h => ?_, ?_⟩
      · cases h; exact ⟨ds, name, rfl, hw, rfl⟩
      · rintro ⟨_, _, h, hw', rfl⟩
        cases h
        rw [hw] at hw'
        cases hw'
        rfl
    · next hw => simp [hw]
  · next hne =>
    refine ⟨nofun, ?_⟩
    rintro ⟨ds, _, h, _⟩
    exact absurd h (hne ds)

theorem label_eq_failed_iff : label cs = .failed fault ↔
    ∃ ds, cs = ':' :: ds ∧ word? ds = none ∧ fault = .unexpected "a label name" ds := by
  unfold label
  split
  · next ds =>
    split
    · next hw => simp [hw]
    · next hw => simp [hw, eq_comm]
  · next hne => simpa using fun ds h => absurd h (hne ds)

theorem label_eq_noMatch_iff : label cs = .noMatch ↔ Stops (· == ':') cs := by
  unfold label
  split
  · next ds => split <;> simp
  · next hne =>
    cases cs with
    | nil => simp
    | cons c cs => simpa using fun h => hne cs (by rw [h])

/-! ### What stands behind the first word -/

theorem dataBody_eq_ok_iff : dataBody cs = .ok (s, next) ↔
    ∃ start items, separated "whitespace after `dat`" cs = .ok start ∧
      dataItems (.unexpected "a string or numeric data item" start) start = .ok (items, next) ∧
      s = .data items := by
  rw [dataBody, bind_eq_ok]
  constructor
  · rintro ⟨start, hsep, h⟩
    obtain ⟨⟨items, last⟩, hitems, h⟩ := bind_eq_ok.1 h
    cases h
    exact ⟨start, items, hsep, hitems, rfl⟩
  · rintro ⟨start, items, hsep, hitems, rfl⟩
    exact ⟨start, hsep, bind_eq_ok.2 ⟨(items, next), hitems, rfl⟩⟩

theorem dataBody_eq_error_iff : dataBody cs = .error fault ↔
    separated "whitespace after `dat`" cs = .error fault ∨
      ∃ start, separated "whitespace after `dat`" cs = .ok start ∧
        dataItems (.unexpected "a string or numeric data item" start) start = .error fault := by
  rw [dataBody, bind_eq_error]
  refine or_congr_right (exists_congr fun start => and_congr_right fun _ => ?_)
  rw [bind_eq_error]
  simp [pure, Except.pure]

theorem unaryOperands_eq_ok_iff : unaryOperands word cs = .ok (s, next) ↔
    ∃ start e, separated "whitespace after mnemonic" cs = .ok start ∧
      operand start = .ok (e, next) ∧ s = .unary word e := by
  rw [unaryOperands, bind_eq_ok]
  constructor
  · rintro ⟨start, hsep, h⟩
    obtain ⟨⟨e, last⟩, he, h⟩ := bind_eq_ok.1 h
    cases h
    exact ⟨start, e, hsep, he, rfl⟩
  · rintro ⟨start, e, hsep, he, rfl⟩
    exact ⟨start, hsep, bind_eq_ok.2 ⟨(e, next), he, rfl⟩⟩

theorem unaryOperands_eq_error_iff : unaryOperands word cs = .error fault ↔
    separated "whitespace after mnemonic" cs = .error fault ∨
      ∃ start, separated "whitespace after mnemonic" cs = .ok start ∧
        operand start = .error fault := by
  rw [unaryOperands, bind_eq_error]
  refine or_congr_right (exists_congr fun start => and_congr_right fun _ => ?_)
  rw [bind_eq_error]
  simp [pure, Except.pure]

theorem binaryOperands_eq_ok_iff : binaryOperands word cs = .ok (s, next) ↔
    ∃ start d mid rest e, separated "whitespace after mnemonic" cs = .ok start ∧
      operand start = .ok (d, mid) ∧ afterComma? mid = some rest ∧
      operand rest = .ok (e, next) ∧ s = .binary word d e := by
  rw [binaryOperands, bind_eq_ok]
  constructor
  · rintro ⟨start, hsep, h⟩
    obtain ⟨⟨d, mid⟩, hd, h⟩ := bind_eq_ok.1 h
    dsimp only at h
    split at h
    · contradiction
    · next rest hc =>
      obtain ⟨⟨e, last⟩, he, h⟩ := bind_eq_ok.1 h
      cases h
      exact ⟨start, d, mid, rest, e, hsep, hd, hc, he, rfl⟩
  · rintro ⟨start, d, mid, rest, e, hsep, hd, hc, he, rfl⟩
    refine ⟨start, hsep, bind_eq_ok.2 ⟨(d, mid), hd, ?_⟩⟩
    simp only [hc]
    exact bind_eq_ok.2 ⟨(e, next), he, rfl⟩

theorem binaryOperands_eq_error_iff : binaryOperands word cs = .error fault ↔
    separated "whitespace after mnemonic" cs = .error fault ∨
      ∃ start, separated "whitespace after mnemonic" cs = .ok start ∧
        (operand start = .error fault ∨ ∃ d mid, operand start = .ok (d, mid) ∧
          ((afterComma? mid = none ∧
              fault = .unexpected "`,` between operands" (skipTrivia mid)) ∨
            ∃ rest, afterComma? mid = some rest ∧ operand rest = .error fault)) := by
  rw [binaryOperands, bind_eq_error]
  refine or_congr_right (exists_congr fun start => and_congr_right fun _ => ?_)
  rw [bind_eq_error]
  refine or_congr_right ⟨?_, ?_⟩
  · rintro ⟨⟨d, mid⟩, hd, h⟩
    dsimp only at h
    split at h
    · next hc => cases h; exact ⟨d, mid, hd, Or.inl ⟨hc, rfl⟩⟩
    · next rest hc =>
      rcases bind_eq_error.1 h with he | ⟨_, _, h⟩
      · exact ⟨d, mid, hd, Or.inr ⟨rest, hc, he⟩⟩
      · contradiction
  · rintro ⟨d, mid, hd, ⟨hc, rfl⟩ | ⟨rest, hc, he⟩⟩
    · refine ⟨(d, mid), hd, ?_⟩
      simp only [hc]
      rfl
    · refine ⟨(d, mid), hd, ?_⟩
      simp only [hc]
      exact bind_eq_error.2 (Or.inl he)

/-! ### Which rule runs -/

/-- What stands behind the word that decides: the items of a data directive or operands. -/
def body? (word : String) (mid : List Char) : Option (Committed (Statement × List Char)) :=
  if isDataKeyword word then some (dataBody mid) else (arity? word).map fun a => operands a word mid

theorem body?_eq_some_iff {body : Committed (Statement × List Char)} :
    body? word mid = some body ↔
      (upperCase word = "DAT" ∧ body = dataBody mid) ∨
      (upperCase word ∈ unaryMnemonics ∧ body = unaryOperands word mid) ∨
      (upperCase word ∈ binaryMnemonics ∧ body = binaryOperands word mid) := by
  rw [body?, ← isDataKeyword_iff]
  by_cases hdata : isDataKeyword word = true
  · obtain ⟨hbinary, hunary⟩ := arity?_eq_none_iff.1 (arity?_eq_none_of_isDataKeyword hdata)
    simp [hdata, hbinary, hunary, eq_comm]
  · rw [if_neg hdata, Option.map_eq_some_iff]
    constructor
    · rintro ⟨a, ha, rfl⟩
      cases a with
      | unary => exact Or.inr (Or.inl ⟨arity?_eq_some_iff.1 ha, rfl⟩)
      | binary => exact Or.inr (Or.inr ⟨arity?_eq_some_iff.1 ha, rfl⟩)
    · rintro (⟨h, _⟩ | ⟨ha, rfl⟩ | ⟨ha, rfl⟩)
      · exact absurd h hdata
      · exact ⟨.unary, arity?_eq_some_iff.2 ha, rfl⟩
      · exact ⟨.binary, arity?_eq_some_iff.2 ha, rfl⟩

theorem body?_eq_none_iff : body? word mid = none ↔
    upperCase word ≠ "DAT" ∧ upperCase word ∉ binaryMnemonics ∧ upperCase word ∉ unaryMnemonics := by
  rw [body?, ← arity?_eq_none_iff, Ne, ← isDataKeyword_iff]
  split
  · next h => simp [h]
  · next h => simp [h]

/-- May a statement start with this character? -/
def startsStatement (c : Char) : Bool := c == ':' || c.isAlpha

theorem label_eq_noMatch_of_identifier? (h : identifier? cs = some (word, mid)) :
    label cs = .noMatch := by
  obtain ⟨rfl, ⟨_, c, ds, hc, halpha⟩, _⟩ := identifier?_eq_some_iff.1 h
  rw [label_eq_noMatch_iff, hc, List.cons_append, stops_cons, beq_eq_false_iff_ne]
  rintro rfl
  exact absurd halpha (by decide)

theorem unknownWord_eq (h : identifier? cs = some (word, mid)) :
    unknownWord cs = .failed (if word.length = 3 ∧ word.toList.all Char.isAlpha then
      ⟨.unknownMnemonic word, cs⟩ else .unexpected "a three-letter mnemonic" cs) := by
  rw [unknownWord, h]
  dsimp only
  split <;> rfl

/-- The word at the front decides. -/
theorem statement_of_identifier? (h : identifier? cs = some (word, mid)) :
    statement cs = match body? word mid with
      | some body => .ofExcept body
      | none => unknownWord cs := by
  rw [statement, label_eq_noMatch_of_identifier? h, Match.noMatch_orElse, body?]
  by_cases hdata : isDataKeyword word = true
  · have hd : dataDirective cs = .ofExcept (dataBody mid) := by
      rw [dataDirective, h]; simp [hdata]
    rw [hd, Match.orElse_of_ne_noMatch (Match.ofExcept_ne_noMatch _), if_pos hdata]
  · have hd : dataDirective cs = .noMatch := by rw [dataDirective, h]; simp [hdata]
    rw [hd, Match.noMatch_orElse, if_neg hdata]
    cases ha : arity? word with
    | none => simp [instruction, h, ha]
    | some a =>
      cases a with
      | binary =>
        have hb : instruction .binary cs = .ofExcept (operands .binary word mid) := by
          simp [instruction, h, ha]
        rw [hb, Match.orElse_of_ne_noMatch (Match.ofExcept_ne_noMatch _)]
        rfl
      | unary =>
        have hb : instruction .binary cs = .noMatch := by simp [instruction, h, ha]
        have hu : instruction .unary cs = .ofExcept (operands .unary word mid) := by
          simp [instruction, h, ha]
        rw [hb, hu, Match.noMatch_orElse,
          Match.orElse_of_ne_noMatch (Match.ofExcept_ne_noMatch _)]
        rfl

/-- Without a word at the front there may be a label. -/
theorem statement_of_identifier?_eq_none (h : identifier? cs = none) : statement cs = label cs := by
  rw [statement, dataDirective, instruction, instruction, unknownWord, h]
  cases label cs <;> rfl

theorem statement_eq_matched_iff : statement cs = .matched s next ↔
    label cs = .matched s next ∨ ∃ word mid body, identifier? cs = some (word, mid) ∧
      body? word mid = some body ∧ body = .ok (s, next) := by
  cases hid : identifier? cs with
  | none => rw [statement_of_identifier?_eq_none hid]; simp
  | some p =>
    obtain ⟨word, mid⟩ := p
    rw [statement_of_identifier? hid, label_eq_noMatch_of_identifier? hid]
    refine ⟨fun h => ?_, ?_⟩
    · split at h
      · next body hb => exact Or.inr ⟨word, mid, body, rfl, hb, Match.ofExcept_eq_matched.1 h⟩
      · rw [unknownWord_eq hid] at h; contradiction
    · rintro (h | ⟨_, _, body, h, hb, rfl⟩)
      · contradiction
      · cases h; rw [hb]; rfl

theorem statement_eq_failed_iff : statement cs = .failed fault ↔
    label cs = .failed fault ∨
      (∃ word mid, identifier? cs = some (word, mid) ∧ body? word mid = some (.error fault)) ∨
      ∃ word mid, identifier? cs = some (word, mid) ∧ body? word mid = none ∧
        unknownWord cs = .failed fault := by
  cases hid : identifier? cs with
  | none => rw [statement_of_identifier?_eq_none hid]; simp
  | some p =>
    obtain ⟨word, mid⟩ := p
    rw [statement_of_identifier? hid, label_eq_noMatch_of_identifier? hid]
    refine ⟨fun h => ?_, ?_⟩
    · split at h
      · next body hb =>
        rw [Match.ofExcept_eq_failed.1 h] at hb
        exact Or.inr (Or.inl ⟨word, mid, rfl, hb⟩)
      · next hb => exact Or.inr (Or.inr ⟨word, mid, rfl, hb, h⟩)
    · rintro (h | ⟨_, _, h, hb⟩ | ⟨_, _, h, hb, hu⟩)
      · contradiction
      · cases h; rw [hb]; rfl
      · cases h; rw [hb]; exact hu

theorem statement_eq_noMatch_iff : statement cs = .noMatch ↔ Stops startsStatement cs := by
  have hstart : Stops startsStatement cs ↔ Stops (· == ':') cs ∧ Stops Char.isAlpha cs := by
    cases cs with
    | nil => simp
    | cons c cs => simp only [stops_cons, startsStatement, Bool.or_eq_false_iff]
  rw [hstart, ← label_eq_noMatch_iff, ← identifier?_eq_none_iff]
  cases hid : identifier? cs with
  | none => rw [statement_of_identifier?_eq_none hid]; simp
  | some p =>
    obtain ⟨word, mid⟩ := p
    rw [statement_of_identifier? hid, label_eq_noMatch_of_identifier? hid, unknownWord_eq hid]
    split <;> simp

/-! ### Statements of the grammar -/

theorem startsTrivia_of_startsOperand (c : Char) (h : startsOperand c = true) :
    startsTrivia c = false := by
  rw [startsOperand, Bool.or_eq_true, beq_iff_eq] at h
  rcases h with rfl | h
  · decide
  · exact startsTrivia_eq_false_of_isAlphanum h

theorem stops_of_isOperand {e : Expression} (h : Grammar.IsOperand w e) (r : List Char) :
    Stops startsTrivia (w ++ r) := by
  obtain ⟨c, ds, rfl, hc⟩ := expression_reads.starts_of h
  exact stops_cons.2 (startsTrivia_of_startsOperand c hc)

/-- An operand is found where no trivia starts. -/
theorem stops_of_operand {e : Expression} (h : operand cs = .ok (e, next)) :
    Stops startsTrivia cs := by
  obtain ⟨w, rfl, hw⟩ := expression_reads.sound (operand_eq_ok_iff.1 h)
  exact stops_of_isOperand hw next

theorem stops_continuesSum_of_afterComma? (h : afterComma? cs = some rest) :
    Stops continuesSum cs := by
  refine stops_of_afterComma?_eq_some (by rintro c hc rfl; exact absurd hc (by decide)) ?_ h
  intro c hc
  rw [continuesSum, Bool.or_eq_true, beq_iff_eq] at hc
  rcases hc with hc | rfl
  · exact startsTrivia_eq_false_of_isAlphanum hc
  · decide

theorem line_of_body? (h : body? word mid = some (.ok (s, next))) :
    Line (word.toList ++ mid) s next := by
  rcases body?_eq_some_iff.1 h with ⟨hk, hb⟩ | ⟨ha, hb⟩ | ⟨ha, hb⟩
  · obtain ⟨start, items, hsep, hitems, rfl⟩ := dataBody_eq_ok_iff.1 hb.symm
    rw [← String.ofList_toList (s := word)] at hk
    exact .data hk (gap_of_separated hsep) (dataItems_sound hitems)
  · obtain ⟨start, e, hsep, he, rfl⟩ := unaryOperands_eq_ok_iff.1 hb.symm
    obtain ⟨w, rfl, hw⟩ := expression_reads.sound (operand_eq_ok_iff.1 he)
    rw [← String.ofList_toList (s := word)] at ha
    have hline := Line.unary ha (gap_of_separated hsep) hw
    rwa [String.ofList_toList] at hline
  · obtain ⟨start, d, mid', rest, e, hsep, hd, hc, he, rfl⟩ := binaryOperands_eq_ok_iff.1 hb.symm
    obtain ⟨v, rfl, hv⟩ := expression_reads.sound (operand_eq_ok_iff.1 hd)
    obtain ⟨w, rfl, hw⟩ := expression_reads.sound (operand_eq_ok_iff.1 he)
    obtain ⟨ds, hbefore, hafter⟩ := trivia_of_afterComma? hc
    rw [← String.ofList_toList (s := word)] at ha
    have hline := Line.binary ha (gap_of_separated hsep) hv hbefore hafter hw
    rwa [String.ofList_toList] at hline

/-- What is read is a statement of the grammar. -/
theorem statement_sound (h : statement cs = .matched s next) : Line cs s next := by
  rcases statement_eq_matched_iff.1 h with hl | ⟨word, mid, _, hid, hb, rfl⟩
  · obtain ⟨ds, name, rfl, hw, rfl⟩ := label_eq_matched_iff.1 hl
    obtain ⟨rfl, hname, _⟩ := word?_eq_some_iff.1 hw
    have hline : Line (':' :: name.toList ++ next) (.label (.ofList name.toList)) next := .label hname
    rwa [String.ofList_toList] at hline
  · obtain ⟨rfl, _, _⟩ := identifier?_eq_some_iff.1 hid
    exact line_of_body? hb

/-- No statement can be made longer by the text: it starts with nothing that a word or a sum goes on
with, and a data directive has no comma behind it. -/
def Follows (s : Statement) (next : List Char) : Prop :=
  Stops continuesSum next ∧ ∀ items, s = .data items → afterComma? next = none

/-- A word with a gap behind it decides what the statement is. -/
theorem statement_of_gap {body : Committed (Statement × List Char)} (hword : IsIdentifier word.toList)
    (hmid : ¬ Stops startsTrivia mid) (hbody : body? word mid = some body) :
    statement (word.toList ++ mid) = .ofExcept body := by
  rw [statement_of_identifier? (identifier?_append_of_gap hword hmid), hbody]

theorem statement_of_body? (hword : IsIdentifier word.toList) (hmid : ¬ Stops startsTrivia mid)
    (h : body? word mid = some (.ok (s, next))) :
    statement (word.toList ++ mid) = .matched s next :=
  statement_of_gap hword hmid h

/-- A statement of the grammar is read where what follows cannot make it longer. -/
theorem statement_complete (h : Line cs s next) (hs : Follows s next) :
    statement cs = .matched s next := by
  obtain ⟨hsum, hcomma⟩ := hs
  have halnum := hsum.mono continuesSum_of_isAlphanum
  cases h with
  | @label w _ hw =>
    refine statement_eq_matched_iff.2
      (Or.inl (label_eq_matched_iff.2 ⟨w ++ next, .ofList w, rfl, ?_, rfl⟩))
    rw [word?_eq_some_iff, String.toList_ofList]
    exact ⟨rfl, hw, halnum⟩
  | @data k a b _ items hk hgap hitems =>
    have hb := hgap.separated_eq hitems.stops "whitespace after `dat`"
    have hword := isIdentifier_of_three_letters (three_letters_of_dat hk)
    have hbody : dataBody a = .ok (.data items, next) := dataBody_eq_ok_iff.2
      ⟨b, items, hb, dataItems_complete hitems halnum (hcomma items rfl) _, rfl⟩
    have hst := statement_of_body? hword (hgap.not_stops hitems.stops)
      (body?_eq_some_iff.2 (Or.inl ⟨hk, hbody.symm⟩))
    rwa [String.toList_ofList] at hst
  | @unary m a w _ e hm hgap he =>
    have hstop := stops_of_isOperand he next
    have hb := hgap.separated_eq hstop "whitespace after mnemonic"
    have hword := isIdentifier_of_three_letters (three_letters_of_mnemonic (Or.inr hm))
    have hop := operand_eq_ok_iff.2 (expression_reads.complete he hsum)
    have hbody : unaryOperands (.ofList m) a = .ok (.unary (.ofList m) e, next) :=
      unaryOperands_eq_ok_iff.2 ⟨_, e, hb, hop, rfl⟩
    have hst := statement_of_body? hword (hgap.not_stops hstop)
      (body?_eq_some_iff.2 (Or.inr (Or.inl ⟨hm, hbody.symm⟩)))
    rwa [String.toList_ofList] at hst
  | @binary m a v b c w _ d e hm hgap hd hbefore hafter he =>
    have hstop := stops_of_isOperand hd b
    have hb := hgap.separated_eq hstop "whitespace after mnemonic"
    have hword := isIdentifier_of_three_letters (three_letters_of_mnemonic (Or.inl hm))
    have hc := hbefore.afterComma?_eq hafter (stops_of_isOperand he next)
    have hdst := operand_eq_ok_iff.2
      (expression_reads.complete hd (stops_continuesSum_of_afterComma? hc))
    have hsrc := operand_eq_ok_iff.2 (expression_reads.complete he hsum)
    have hbody : binaryOperands (.ofList m) a = .ok (.binary (.ofList m) d e, next) :=
      binaryOperands_eq_ok_iff.2 ⟨_, d, b, _, e, hb, hdst, hc, hsrc, rfl⟩
    have hst := statement_of_body? hword (hgap.not_stops hstop)
      (body?_eq_some_iff.2 (Or.inr (Or.inr ⟨hm, hbody.symm⟩)))
    rwa [String.toList_ofList] at hst

theorem afterComma?_eq_none_of_statement {items : List DataItem}
    (h : statement cs = .matched (.data items) next) : afterComma? next = none := by
  rcases statement_eq_matched_iff.1 h with hl | ⟨word, mid, _, _, hb, rfl⟩
  · obtain ⟨_, _, _, _, hs⟩ := label_eq_matched_iff.1 hl
    contradiction
  · rcases body?_eq_some_iff.1 hb with ⟨_, hb⟩ | ⟨_, hb⟩ | ⟨_, hb⟩
    · obtain ⟨_, _, _, hitems, _⟩ := dataBody_eq_ok_iff.1 hb.symm
      exact afterComma?_eq_none_of_dataItems hitems
    · obtain ⟨_, _, _, _, hs⟩ := unaryOperands_eq_ok_iff.1 hb.symm
      contradiction
    · obtain ⟨_, _, _, _, _, _, _, _, _, hs⟩ := binaryOperands_eq_ok_iff.1 hb.symm
      contradiction

/-! ### Other text behind -/

theorem operand_exchange {e : Expression} (h : operand (w ++ r) = .ok (e, r))
    (hs : Seam continuesSum r r') : operand (w ++ r') = .ok (e, r') :=
  operand_eq_ok_iff.2 (expression_reads.exchange (operand_eq_ok_iff.1 h) hs)

theorem dataBody_exchange {q : List Char} (h : dataBody (q ++ r) = .ok (s, r))
    (hs : Seam Char.isAlphanum r r') (hcomma : afterComma? r' = none) :
    dataBody (q ++ r') = .ok (s, r') := by
  obtain ⟨start, items, hsep, hitems, rfl⟩ := dataBody_eq_ok_iff.1 h
  obtain ⟨w, rfl⟩ := dataItems_endsIn _ start items r hitems
  obtain ⟨q', rfl⟩ := List.suffix_append_self_iff.1 (suffix_of_separated hsep)
  have hw : w ≠ [] := ne_nil_of_properEnd (properEnd_of_dataItems hitems)
  have hitems' := dataItems_exchange hitems hs hcomma
    (.unexpected "a string or numeric data item" (w ++ r'))
  rw [List.append_assoc] at hsep ⊢
  exact dataBody_eq_ok_iff.2 ⟨w ++ r', items,
    separated_exchange hsep (by simp [hw]) (stops_of_dataItems hitems').2, hitems', rfl⟩

theorem unaryOperands_exchange {q : List Char} (h : unaryOperands word (q ++ r) = .ok (s, r))
    (hs : Seam continuesSum r r') : unaryOperands word (q ++ r') = .ok (s, r') := by
  obtain ⟨start, e, hsep, he, rfl⟩ := unaryOperands_eq_ok_iff.1 h
  obtain ⟨w, rfl⟩ := (properEnd_of_operand he).1
  obtain ⟨q', rfl⟩ := List.suffix_append_self_iff.1 (suffix_of_separated hsep)
  have hw : w ≠ [] := ne_nil_of_properEnd (properEnd_of_operand he)
  have he' := operand_exchange he hs
  rw [List.append_assoc] at hsep ⊢
  exact unaryOperands_eq_ok_iff.2 ⟨w ++ r', e,
    separated_exchange hsep (by simp [hw]) (stops_of_operand he'), he', rfl⟩

theorem binaryOperands_exchange {q : List Char} (h : binaryOperands word (q ++ r) = .ok (s, r))
    (hs : Seam continuesSum r r') : binaryOperands word (q ++ r') = .ok (s, r') := by
  obtain ⟨start, d, mid, rest, e, hsep, hd, hc, he, rfl⟩ := binaryOperands_eq_ok_iff.1 h
  -- The operands are `v` and `w`, and `a` is what stands between them.
  obtain ⟨w, rfl⟩ := (properEnd_of_operand he).1
  obtain ⟨a, rfl⟩ := (properEnd_of_afterComma? hc).1
  obtain ⟨v, rfl⟩ := (properEnd_of_operand hd).1
  obtain ⟨q', hq⟩ := suffix_of_separated hsep
  obtain rfl : q' ++ (v ++ (a ++ w)) = q := by
    refine List.append_cancel_right (?_ : _ ++ r = _ ++ r)
    rw [← hq]; simp only [List.append_assoc]
  have hw : w ≠ [] := ne_nil_of_properEnd (properEnd_of_operand he)
  have he' := operand_exchange he hs
  have hc' := afterComma?_exchange hc (by simp [hw]) (stops_of_operand he')
  have hd' : operand (v ++ (a ++ (w ++ r'))) = .ok (d, a ++ (w ++ r')) :=
    operand_exchange hd ((hs.append w).append a)
  simp only [List.append_assoc] at hsep ⊢
  exact binaryOperands_eq_ok_iff.2 ⟨v ++ (a ++ (w ++ r')), d, _, _, e,
    separated_exchange hsep (by simp [hw]) (stops_of_operand hd'), hd', hc', he', rfl⟩

/-- Behind a statement any text may stand that does not make it longer. -/
theorem statement_exchange (h : statement (w ++ r) = .matched s r) (hs : Seam continuesSum r r')
    (hcomma : ∀ items, s = .data items → afterComma? r' = none) :
    statement (w ++ r') = .matched s r' := by
  have halnum : Seam Char.isAlphanum r r' := hs.mono continuesSum_of_isAlphanum
  rcases statement_eq_matched_iff.1 h with hl | ⟨word, mid, _, hid, hb, rfl⟩
  · obtain ⟨ds, name, hw, hword, rfl⟩ := label_eq_matched_iff.1 hl
    obtain ⟨rfl, hname, hstop⟩ := word?_eq_some_iff.1 hword
    obtain rfl : w = ':' :: name.toList := List.append_cancel_right hw
    exact statement_eq_matched_iff.2 (Or.inl (label_eq_matched_iff.2
      ⟨_, name, rfl, word?_eq_some_iff.2 ⟨rfl, hname, halnum.stops hstop⟩, rfl⟩))
  · obtain ⟨hw, hname, hstop⟩ := identifier?_eq_some_iff.1 hid
    have hend : r <:+ mid := by
      rcases body?_eq_some_iff.1 hb with ⟨_, hb⟩ | ⟨_, hb⟩ | ⟨_, hb⟩
      · exact dataBody_endsIn mid s r hb.symm
      · exact unaryOperands_endsIn word mid s r hb.symm
      · exact binaryOperands_endsIn word mid s r hb.symm
    obtain ⟨q, rfl⟩ := hend
    obtain rfl : w = word.toList ++ q :=
      List.append_cancel_right (hw.trans (List.append_assoc ..).symm)
    rw [List.append_assoc]
    refine statement_eq_matched_iff.2 (Or.inr ⟨word, q ++ r', .ok (s, r'),
      identifier?_eq_some_iff.2 ⟨rfl, hname, (halnum.append q).stops hstop⟩, ?_, rfl⟩)
    rcases body?_eq_some_iff.1 hb with ⟨hk, hb⟩ | ⟨ha, hb⟩ | ⟨ha, hb⟩
    · obtain ⟨_, items, _, _, hdata⟩ := dataBody_eq_ok_iff.1 hb.symm
      exact body?_eq_some_iff.2 (Or.inl
        ⟨hk, (dataBody_exchange hb.symm halnum (hcomma items hdata)).symm⟩)
    · exact body?_eq_some_iff.2 (Or.inr (Or.inl ⟨ha, (unaryOperands_exchange hb.symm hs).symm⟩))
    · exact body?_eq_some_iff.2 (Or.inr (Or.inr ⟨ha, (binaryOperands_exchange hb.symm hs).symm⟩))

end DcpuAsm
