import DcpuAsm.Proofs.Fails.Lexeme
import DcpuAsm.Proofs.Narrow
import DcpuAsm.Proofs.Offsets
import DcpuAsm.Proofs.RoundTrip
import Mathlib.Data.List.Induction
import Mathlib.Data.Nat.Digits.Defs

/-!
Numbers at an offset, read exactly. Behind the mark `0x` all letters and digits are taken, and
otherwise the decimal digits there are; `Source.FindsNumber` says what comes of them in terms of the
value of the run (`digitsValue`), however long it is. A reader that keeps a machine word and gives up
as soon as the next digit overflows it (`accumulate?`) accepts the same runs. Main statement:
`numberAt_exact`.
-/

namespace DcpuAsm

open Grammar (IsWord)

variable {cs ds next : List Char} {base : Nat} {word v : UInt16} {c : Char}

/-! ### Values of runs of digits -/

/-- The value of a run of digits, the least significant one last. -/
def digitsValue (base : Nat) (ds : List Char) : Nat := Nat.ofDigits base (ds.reverse.map digitValue)

theorem numeralValue_eq_digitsValue (base : Nat) (ds : List Char) :
    numeralValue base ds = digitsValue base ds := by
  induction ds using List.reverseRecOn with
  | nil => rfl
  | append_singleton ds c ih =>
    rw [numeralValue_append_singleton, ih, digitsValue, digitsValue, List.reverse_append,
      List.reverse_singleton, List.singleton_append, List.map_cons, Nat.ofDigits_cons]
    exact Nat.add_comm ..

/-! ### Digit by digit -/

theorem pushDigit?_eq_some_iff :
    pushDigit? base word c = some v ↔ base * word.toNat + digitValue c = v.toNat := by
  have hv : v.toNat < UInt16.size := v.toNat_lt
  rw [Nat.mul_comm, pushDigit?]
  constructor
  · intro h
    split at h
    · contradiction
    · split at h
      · contradiction
      · next hfits =>
        cases h
        rw [UInt16.toNat_ofNat_of_lt' (Nat.not_le.1 hfits)]
  · intro h
    rw [if_neg (by omega), if_neg (by omega), h, UInt16.ofNat_toNat]

/-- More digits never make a value smaller. -/
theorem le_foldl_digits (hbase : 0 < base) (ds : List Char) (n : Nat) :
    n ≤ ds.foldl (fun value c => base * value + digitValue c) n := by
  induction ds generalizing n with
  | nil => exact Nat.le_refl n
  | cons c ds ih =>
    have hstep : n ≤ base * n + digitValue c :=
      Nat.le_trans (Nat.le_mul_of_pos_left n hbase) (Nat.le_add_right ..)
    exact Nat.le_trans hstep (ih _)

/-- From any word on, the digits are read to the end just where their value is a machine word. -/
theorem foldlM_pushDigit?_eq_some_iff (hbase : 0 < base) (ds : List Char) (word : UInt16) :
    ds.foldlM (pushDigit? base) word = some v ↔
      ds.foldl (fun value c => base * value + digitValue c) word.toNat = v.toNat := by
  induction ds generalizing word with
  | nil => simp [UInt16.toNat_inj]
  | cons c ds ih =>
    rw [List.foldlM_cons, List.foldl_cons]
    cases hpush : pushDigit? base word c with
    | some u =>
      rw [pushDigit?_eq_some_iff.1 hpush]
      exact ih u
    | none =>
      refine ⟨fun h => ?_, fun h => ?_⟩
      · contradiction
      · -- The word overflows here, and no later digit brings its value back.
        have hle := le_foldl_digits hbase ds (base * word.toNat + digitValue c)
        have hv := v.toNat_lt
        rw [h] at hle
        have hsome : pushDigit? base word c = some (.ofNat (base * word.toNat + digitValue c)) := by
          rw [pushDigit?_eq_some_iff, UInt16.toNat_ofNat_of_lt' (Nat.lt_of_le_of_lt hle hv)]
        rw [hpush] at hsome
        contradiction

theorem accumulate?_eq_some_iff (hbase : 0 < base) (ds : List Char) :
    accumulate? base ds = some v ↔ digitsValue base ds = v.toNat := by
  rw [← numeralValue_eq_digitsValue]
  exact foldlM_pushDigit?_eq_some_iff hbase ds 0

/-- Reading with a check at each digit is reading the whole and a check of its value. -/
theorem accumulate?_eq (hbase : 0 < base) (ds : List Char) : accumulate? base ds =
    if digitsValue base ds ≤ 65535 then some (.ofNat (digitsValue base ds)) else none := by
  split
  · next hle =>
    rw [accumulate?_eq_some_iff hbase, UInt16.toNat_ofNat_of_lt' (Nat.lt_succ_of_le hle)]
  · next hbig =>
    rw [Option.eq_none_iff_forall_ne_some]
    intro v hv
    have hlt := v.toNat_lt
    rw [← (accumulate?_eq_some_iff hbase ds).1 hv] at hlt
    omega

/-! ### Whole runs -/

theorem hexNumber_append (hne : ds ≠ []) (hhex : ∀ c ∈ ds, c.isHexDigit = true)
    (hs : Stops Char.isAlphanum next) : hexNumber (ds ++ next) =
      fitWord (numeralValue 16 ds) ('0' :: 'x' :: ds) ('0' :: 'x' :: (ds ++ next)) next := by
  have hall : ∀ c ∈ ds, c.isAlphanum = true := fun c hc => isAlphanum_of_isHexDigit (hhex c hc)
  simp only [hexNumber, takeWhile_append_of_stops hall hs, dropWhile_append_of_stops hall hs]
  rw [if_neg (by simpa using hne), if_pos (List.all_eq_true.2 hhex)]

theorem decimalNumber_append (hne : ds ≠ []) (hdigits : ∀ c ∈ ds, c.isDigit = true)
    (hs : Stops Char.isDigit next) :
    decimalNumber (ds ++ next) = fitWord (numeralValue 10 ds) ds (ds ++ next) next := by
  simp only [decimalNumber, takeWhile_append_of_stops hdigits hs,
    dropWhile_append_of_stops hdigits hs]
  rw [if_neg (by simpa using hne)]

/-- The canonical text of a word takes four digits. -/
theorem length_hexNumeral_word (v : UInt16) : (hexNumeral 4 v.toNat).length = 4 := by
  have hlt : v.toNat < 16 ^ 4 := v.toNat_lt
  rw [length_hexNumeral]
  exact Nat.max_eq_left ((Nat.length_toDigits_le_iff (by decide) (by decide)).2 hlt)

/-! ### Numbers at an offset -/

namespace Source

variable {s : Source} {pos : Nat} {literal : List Char}

/-- What comes of a numeral at an offset, written with a mark and a run of digits: the word of its
value, or its refusal if no word has that value. -/
def wordAt (s : Source) (pos base : Nat) (mark ds : List Char) : Match Nat Diagnostic UInt16 :=
  if digitsValue base ds ≤ 65535 then
    .matched (.ofNat (digitsValue base ds)) (pos + (mark ++ ds).length)
  else .failed ⟨.outOfRange (.ofList (mark ++ ds)), s.locationAt pos⟩

/-- What is to be found where a text is left at an offset. Runs go as far as they can. -/
inductive FindsNumber (s : Source) (pos : Nat) : List Char → Match Nat Diagnostic UInt16 → Prop where
  | noDigits {next : List Char} (hs : Stops Char.isAlphanum next) :
      FindsNumber s pos ('0' :: 'x' :: next)
        (.failed (s.unexpectedAt (pos + 2) "hexadecimal digits after `0x`"))
  | nonHexDigit {ds next : List Char} (hrun : IsWord ds) (hs : Stops Char.isAlphanum next)
      (hbad : ∃ c ∈ ds, c.isHexDigit = false) :
      FindsNumber s pos ('0' :: 'x' :: (ds ++ next))
        (.failed ⟨.nonHexDigit (.ofList ('0' :: 'x' :: ds)), s.locationAt pos⟩)
  | hexadecimal {ds next : List Char} (hne : ds ≠ []) (hhex : ∀ c ∈ ds, c.isHexDigit = true)
      (hs : Stops Char.isAlphanum next) :
      FindsNumber s pos ('0' :: 'x' :: (ds ++ next)) (s.wordAt pos 16 ['0', 'x'] ds)
  | decimal {ds next : List Char} (hmark : ¬ HexMarked (ds ++ next)) (hne : ds ≠ [])
      (hdigits : ∀ c ∈ ds, c.isDigit = true) (hs : Stops Char.isDigit next) :
      FindsNumber s pos (ds ++ next) (s.wordAt pos 10 [] ds)
  | nothing {cs : List Char} (hs : Stops Char.isDigit cs) : FindsNumber s pos cs .noMatch

/-- A numeral that is taken as a whole is found as the word of its value, or refused. -/
theorem numberAt_of_fitWord {base : Nat} (mark : List Char) (h : s.Leaves pos (mark ++ ds ++ next))
    (hnarrow : ∀ c ∈ mark ++ ds, IsNarrow c)
    (hnumber : number (mark ++ ds ++ next) =
      fitWord (numeralValue base ds) (mark ++ ds) (mark ++ ds ++ next) next) :
    s.numberAt pos = s.wordAt pos base mark ds := by
  rw [← h.restAt_eq, numeralValue_eq_digitsValue, fitWord] at hnumber
  rw [numberAt, wordAt]
  split at hnumber
  · next hfits =>
    rw [if_pos (Nat.le_of_lt_succ hfits), scan_of_matched hnumber, (h.append _).offsetOf_eq,
      byteLength_eq_length hnarrow]
  · next hbig =>
    rw [if_neg (fun hle => hbig (Nat.lt_succ_of_le hle)), scan_of_failed hnumber, h.restAt_eq,
      h.diagnose_eq]

theorem FindsNumber.numberAt_eq {m : Match Nat Diagnostic UInt16}
    (h : s.FindsNumber pos (s.restAt pos) m) : s.numberAt pos = m := by
  generalize hrest : s.restAt pos = rest at h
  have hplace : rest ≠ [] → s.Leaves pos rest := by
    rintro hne
    rw [← hrest] at hne ⊢
    exact leaves_of_restAt_ne_nil hne
  cases h with
  | @noDigits next hs =>
    have hleft := hplace (List.cons_ne_nil _ _)
    have hnumber : number (s.restAt pos) =
        .failed (.unexpected "hexadecimal digits after `0x`" next) := by
      rw [hrest]
      exact hexNumber_eq_failed_iff.2 (Or.inl ⟨hs, rfl⟩)
    have hmark : byteLength ['0', 'x'] = 2 := by decide
    have hnext : s.Leaves (pos + 2) next := hmark ▸ Leaves.append ['0', 'x'] hleft
    rw [numberAt, scan_of_failed hnumber, hnext.diagnose_unexpected]
  | @nonHexDigit ds next hrun hs hbad =>
    have hleft := hplace (List.cons_ne_nil _ _)
    have hword : (ds ++ next).takeWhile Char.isAlphanum = ds := takeWhile_append_of_stops hrun.2 hs
    have hnumber : number (s.restAt pos) =
        .failed ⟨.nonHexDigit (.ofList ('0' :: 'x' :: ds)), '0' :: 'x' :: (ds ++ next)⟩ := by
      rw [hrest]
      refine hexNumber_eq_failed_iff.2 (Or.inr ⟨_, ?_, rfl⟩)
      rw [hword]
      exact .nonHexDigit hrun.1 (by simpa using hbad)
    rw [numberAt, scan_of_failed hnumber, hleft.diagnose_eq]
  | @hexadecimal ds next hne hhex hs =>
    have hleft := hplace (List.cons_ne_nil _ _)
    refine numberAt_of_fitWord ['0', 'x'] hleft ?_ (hexNumber_append hne hhex hs)
    simp only [List.cons_append, List.nil_append, List.forall_mem_cons]
    refine ⟨by decide, by decide, fun c hc => ?_⟩
    exact isNarrow_of_isAlphanum (isAlphanum_of_isHexDigit (hhex c hc))
  | @decimal ds next hmark hne hdigits hs =>
    have hleft := hplace (List.append_ne_nil_of_left_ne_nil hne next)
    refine numberAt_of_fitWord [] hleft ?_ ?_
    · exact fun c hc => isNarrow_of_isAlphanum (isAlphanum_of_isDigit (hdigits c hc))
    · rw [List.nil_append, number_of_not_hexMarked hmark]
      exact decimalNumber_append hne hdigits hs
  | nothing hs =>
    exact scan_of_noMatch (by rw [hrest]; exact number_reads.noMatch_iff.2 hs)

/-- There is something to be found everywhere. -/
theorem exists_findsNumber (s : Source) (pos : Nat) (cs : List Char) :
    ∃ m, s.FindsNumber pos cs m := by
  by_cases hmark : HexMarked cs
  · obtain ⟨tail, rfl⟩ := hmark
    have hs := stops_dropWhile Char.isAlphanum tail
    have hrun : ∀ c ∈ tail.takeWhile Char.isAlphanum, c.isAlphanum = true :=
      List.all_eq_true.1 List.all_takeWhile
    rw [← List.takeWhile_append_dropWhile (p := Char.isAlphanum) (l := tail)]
    by_cases hne : tail.takeWhile Char.isAlphanum = []
    · rw [hne]
      exact ⟨_, .noDigits hs⟩
    · by_cases hhex : ∀ c ∈ tail.takeWhile Char.isAlphanum, c.isHexDigit = true
      · exact ⟨_, .hexadecimal hne hhex hs⟩
      · exact ⟨_, .nonHexDigit ⟨hne, hrun⟩ hs (by simpa using hhex)⟩
  · have hs := stops_dropWhile Char.isDigit cs
    by_cases hne : cs.takeWhile Char.isDigit = []
    · exact ⟨_, .nothing (takeWhile_eq_nil_iff.1 hne)⟩
    · have hdigits : ∀ c ∈ cs.takeWhile Char.isDigit, c.isDigit = true :=
        List.all_eq_true.1 List.all_takeWhile
      rw [← List.takeWhile_append_dropWhile (p := Char.isDigit) (l := cs)] at hmark ⊢
      exact ⟨_, .decimal hmark hne hdigits hs⟩

theorem findsNumber_iff {m : Match Nat Diagnostic UInt16} :
    s.FindsNumber pos (s.restAt pos) m ↔ s.numberAt pos = m := by
  refine ⟨FindsNumber.numberAt_eq, ?_⟩
  rintro rfl
  obtain ⟨m, hm⟩ := s.exists_findsNumber pos (s.restAt pos)
  rwa [hm.numberAt_eq]

theorem numberAt_wordText (v : UInt16) {text : String} (h : Stops Char.isAlphanum text.toList) :
    (Source.mk (wordText v ++ text)).numberAt 0 = .matched v 6 := by
  have hrest : (Source.mk (wordText v ++ text)).restAt 0 =
      '0' :: 'x' :: (hexNumeral 4 v.toNat ++ text.toList) := by
    rw [(leaves_start _).restAt_eq, chars, String.toList_append, toList_wordText]
    rfl
  have hvalue : digitsValue 16 (hexNumeral 4 v.toNat) = v.toNat := by
    rw [← numeralValue_eq_digitsValue, numeralValue_hexNumeral]
  have hfound : FindsNumber ⟨wordText v ++ text⟩ 0 _ _ :=
    .hexadecimal (hexNumeral_ne_nil 4 v.toNat) (isHexDigit_hexNumeral 4 v.toNat) h
  rw [← hrest] at hfound
  rw [hfound.numberAt_eq, wordAt, hvalue, if_pos (Nat.le_of_lt_succ v.toNat_lt),
    UInt16.ofNat_toNat, List.length_append, length_hexNumeral_word]
  rfl

/-- At every offset the number is the one that stands there, with the value of its digits however
many there are, or it is refused as a whole. It is read as with an overflow check at each digit, and
the canonical text of a word reads back as the word. -/
theorem numberAt_exact :
    (∀ (s : Source) (pos : Nat) (m : Match Nat Diagnostic UInt16),
      s.FindsNumber pos (s.restAt pos) m ↔ s.numberAt pos = m) ∧
    (∀ (base : Nat) (ds : List Char), 0 < base → accumulate? base ds =
      if digitsValue base ds ≤ 65535 then some (.ofNat (digitsValue base ds)) else none) ∧
    ∀ (v : UInt16) (text : String), Stops Char.isAlphanum text.toList →
      (Source.mk (wordText v ++ text)).numberAt 0 = .matched v 6 :=
  ⟨fun _ _ _ => findsNumber_iff, fun _ ds hbase => accumulate?_eq hbase ds,
    fun v _ => numberAt_wordText v⟩

end Source

end DcpuAsm
