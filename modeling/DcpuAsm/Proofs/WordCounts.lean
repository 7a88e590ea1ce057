import DcpuAsm.Proofs.JoinedLists

/-!
Memory words against the text of a source. A string in quotes is longer than the words it fills, a
number takes a character at least, and the keyword, the gap behind it and the commas come on top, so
the words of all data directives are fewer than the characters of the source
(`Grammar.Lines.dataWeight_le`). Counting the words of a directive item by item in machine words of 64
bits (`Statement.dataWords64?`) overflows only where the exact count does. Main statement:
`data_words_bounded`, with programs for which the bound is reached.
-/

namespace DcpuAsm

open Grammar (IsItem Items Line Lines)

/-- The items of a data directive. -/
def Statement.items : Statement → List DataItem
  | .data items => items
  | _ => []

/-- The words and the items of all data directives, and three to each for its keyword. -/
def dataWeight (ss : List Statement) : Nat :=
  (ss.filterMap fun s => s.dataWords?.map fun n => n + s.items.length + 3).sum

/-! ### Counting in machine words -/

section

variable {α : Type} {m n v : UInt64} {k l : Nat} {i : DataItem} {s : Statement}

theorem add64?_eq_some_iff : add64? m n = some v ↔ m.toNat + n.toNat = v.toNat := by
  rw [add64?]
  split
  · next hlt => rw [Option.some_inj, ← UInt64.toNat_inj, UInt64.toNat_add, Nat.mod_eq_of_lt hlt]
  · next hge =>
    refine iff_of_false nofun fun h => hge ?_
    rw [h]
    exact v.toNat_lt

/-- What is part of a machine word is one. -/
theorem exists_toNat_add : (∃ u : UInt64, k = u.toNat ∧ u.toNat + l = v.toNat) ↔ k + l = v.toNat := by
  constructor
  · rintro ⟨u, rfl, h⟩
    exact h
  · intro h
    have hk : k < UInt64.size := Nat.lt_of_le_of_lt (h ▸ Nat.le_add_right k l) v.toNat_lt
    have htoNat : (UInt64.ofNat k).toNat = k := UInt64.toNat_ofNat_of_lt' hk
    exact ⟨.ofNat k, htoNat.symm, htoNat.symm ▸ h⟩

/-- Counts that are added up one by one overflow on the way just where their sum does. -/
theorem foldlM_add64?_eq_some_iff {count? : α → Option UInt64} {count : α → Nat}
    (hcount : ∀ a v, count? a = some v ↔ count a = v.toNat) (as : List α) (m : UInt64) :
    as.foldlM (fun sum a => (count? a).bind (add64? sum)) m = some v ↔
      m.toNat + (as.map count).sum = v.toNat := by
  -- A sum on the way is part of the whole, so it is a machine word if the whole is one.
  induction as generalizing m with
  | nil => simp [UInt64.toNat_inj]
  | cons a as ih =>
    have hstep {u : UInt64} :
        (count? a).bind (add64? m) = some u ↔ m.toNat + count a = u.toNat := by
      simp only [Option.bind_eq_some_iff, hcount, add64?_eq_some_iff, Nat.add_comm m.toNat]
      exact exists_toNat_add
    rw [List.foldlM_cons, List.map_cons, List.sum_cons, ← Nat.add_assoc, ← exists_toNat_add]
    simp only [Option.bind_eq_bind, Option.bind_eq_some_iff, hstep, ih]

theorem DataItem.words64?_eq_some_iff : i.words64? = some v ↔ i.words = v.toNat := by
  cases i with
  | string content =>
    have hone (a : Char) (v : UInt64) : some 1 = some v ↔ 1 = v.toNat := by
      rw [Option.some_inj, ← UInt64.toNat_inj]
      rfl
    have hlength {u : UInt64} :
        content.toList.foldlM (fun n _ => add64? n 1) 0 = some u ↔ content.length = u.toNat := by
      have hfold := foldlM_add64?_eq_some_iff (v := u) hone content.toList 0
      simpa [List.map_const', ← String.length_toList] using hfold
    simp only [DataItem.words64?, DataItem.words, Option.bind_eq_some_iff, hlength,
      add64?_eq_some_iff, Nat.add_comm 1, Nat.add_comm (UInt64.toNat 1)]
    exact exists_toNat_add
  | number value =>
    rw [DataItem.words64?, Option.some_inj, ← UInt64.toNat_inj]
    rfl

/-- A statement whose words are few enough has them counted right. -/
theorem map_dataWords64? (h : ∀ n, s.dataWords? = some n → n < UInt64.size) :
    s.dataWords64?.map UInt64.toNat = s.dataWords? := by
  cases s with
  | label name => rfl
  | unary mnemonic operand => rfl
  | binary mnemonic destination source => rfl
  | data items =>
    have hlt := h _ (dataWords?_data items)
    have htoNat := UInt64.toNat_ofNat_of_lt' hlt
    have hcounted : (Statement.data items).dataWords64? =
        some (.ofNat (items.map DataItem.words).sum) := by
      rw [Statement.dataWords64?,
        foldlM_add64?_eq_some_iff (fun _ _ => DataItem.words64?_eq_some_iff), htoNat]
      exact Nat.zero_add _
    rw [hcounted, dataWords?_data, Option.map_some, htoNat]

end

/-! ### Words against characters -/

section

variable {cs w rest : List Char} {i : DataItem} {items : List DataItem} {s : Statement}

theorem dataWeight_append (ss ts : List Statement) :
    dataWeight (ss ++ ts) = dataWeight ss + dataWeight ts := by
  rw [dataWeight, List.filterMap_append, List.sum_append, ← dataWeight, ← dataWeight]

theorem dataWeight_cons (s : Statement) (ss : List Statement) :
    dataWeight (s :: ss) = dataWeight [s] + dataWeight ss :=
  dataWeight_append [s] ss

theorem dataWeight_data (items : List DataItem) :
    dataWeight [.data items] = (items.map DataItem.words).sum + items.length + 3 := by
  simp [dataWeight, dataWords?_data, Statement.items]

/-- An item fills no more words than it has characters. -/
theorem Grammar.IsItem.words_le (h : IsItem w i) : i.words ≤ w.length := by
  have hpos : 0 < w.length := by
    obtain ⟨c, ds, rfl, _⟩ := dataItem_reads.starts_of h
    exact Nat.succ_pos _
  cases h with
  | string _ _ =>
    simp only [DataItem.words, String.length_ofList, List.length_append, List.length_cons,
      List.length_nil]
    omega
  | number _ => exact hpos

/-- Between two items a comma has to stand. -/
theorem Grammar.Items.words_le (h : Items cs items rest) :
    (items.map DataItem.words).sum + items.length + rest.length ≤ cs.length + 1 := by
  induction h with
  | one h =>
    have hwords := h.words_le
    simp only [List.map_cons, List.map_nil, List.sum_cons, List.sum_nil, List.length_append,
      List.length_cons, List.length_nil]
    omega
  | more h hbefore hafter _ ih =>
    have hwords := h.words_le
    have hle := hafter.suffix.length_le
    have hcomma := hbefore.suffix.length_le
    simp only [List.map_cons, List.sum_cons, List.length_append, List.length_cons] at hcomma ⊢
    omega

theorem Grammar.Line.dataWeight_le (h : Line cs s rest) :
    dataWeight [s] + rest.length ≤ cs.length := by
  have hsuffix := h.suffix.length_le
  cases h with
  | label _ => exact (Nat.zero_add _).trans_le hsuffix
  | unary _ _ _ => exact (Nat.zero_add _).trans_le hsuffix
  | binary _ _ _ _ _ _ => exact (Nat.zero_add _).trans_le hsuffix
  | data hk hgap hs =>
    have hletters := (three_letters_of_dat hk).1
    have hlt := hgap.length_lt
    have hwords := hs.words_le
    rw [String.toList_ofList] at hletters
    rw [dataWeight_data, List.length_append, hletters]
    omega

theorem Grammar.Lines.dataWeight_le {ss : List Statement} (h : Lines cs ss) :
    dataWeight ss ≤ cs.length := by
  induction h with
  | nil => exact Nat.le_refl 0
  | last h _ =>
    have hline := h.dataWeight_le
    omega
  | cons h hgap _ ih =>
    have hline := h.dataWeight_le
    have hlt := hgap.length_lt
    rw [dataWeight_cons]
    omega

theorem dataWeight_le_length {src : String} {p : Program} (h : Program.parse src = .ok p) :
    dataWeight p.statements ≤ src.length := by
  obtain ⟨rest, htrivia, hlines⟩ := programParse_eq_ok_iff.1 h
  exact hlines.dataWeight_le.trans htrivia.suffix.length_le

theorem words_le_dataWeight {ss : List Statement} {n : Nat} (hs : s ∈ ss)
    (hn : s.dataWords? = some n) : n ≤ dataWeight ss := by
  obtain ⟨before, later, rfl⟩ := List.append_of_mem hs
  have hweight : dataWeight [s] = n + s.items.length + 3 := by simp [dataWeight, hn]
  rw [dataWeight_append, dataWeight_cons, hweight]
  omega

end

/-! ### Programs that reach the bound -/

/-- The numeral one, and `n` times a comma and another. -/
def ones : Nat → List Char
  | 0 => ['1']
  | n + 1 => '1' :: ',' :: ones n

theorem items_ones (n : Nat) : Items (ones n) (List.replicate (n + 1) (.number 1)) [] := by
  have hone : IsItem ['1'] (.number 1) :=
    .number (.decimal (by decide) (List.forall_mem_singleton.2 (by decide)) (by decide))
  induction n with
  | zero => exact .one hone
  | succ n ih => exact .more hone .none .none ih

theorem length_ones (n : Nat) : (ones n).length = 2 * n + 1 := by
  induction n with
  | zero => rfl
  | succ n ih =>
    rw [ones, List.length_cons, List.length_cons, ih]
    omega

theorem exists_dataWeight_eq (n : Nat) : ∃ src items, items.length = n + 1 ∧
    Program.parse src = .ok ⟨[.data items]⟩ ∧ dataWeight [.data items] = src.length := by
  have hline := line_dat .none (items_ones n)
  refine ⟨.ofList ("dat".toList ++ ' ' :: ones n), List.replicate (n + 1) (.number 1),
    List.length_replicate, programParse_eq_ok_iff.2 ⟨_, .none, ?_⟩, ?_⟩
  · rw [String.toList_ofList]
    exact .last hline .none
  · have hwords : ((List.replicate (n + 1) (DataItem.number 1)).map DataItem.words).sum = n + 1 := by
      simp [DataItem.words]
    rw [dataWeight_data, hwords, List.length_replicate, String.length_ofList, List.length_append,
      List.length_cons, length_ones]
    simp
    omega

/-! ### All programs -/

/-- The words of all data directives of a program, with the items and the keywords, are no more than
the characters of its source. So no count of words overflows 64 bits, on the way or at the end, if the
bytes of the source can be counted in 63. -/
theorem data_words_bounded :
    (∀ src p, Program.parse src = .ok p → dataWeight p.statements ≤ src.length) ∧
    (∀ src p, Program.parse src = .ok p → byteLength src.toList ≤ 2 ^ 63 - 1 →
      ∀ s ∈ p.statements, s.dataWords64?.map UInt64.toNat = s.dataWords?) ∧
    ∀ n, ∃ src items, items.length = n + 1 ∧ Program.parse src = .ok ⟨[.data items]⟩ ∧
      dataWeight [.data items] = src.length := by
  refine ⟨fun src p h => dataWeight_le_length h, fun src p h hbytes s hs => ?_, exists_dataWeight_eq⟩
  refine map_dataWords64? fun n hn => ?_
  have hweight := dataWeight_le_length h
  have hwords := words_le_dataWeight hs hn
  have hlength : src.length ≤ byteLength src.toList :=
    String.length_toList ▸ length_le_byteLength src.toList
  have hsize : 2 ^ 63 - 1 < UInt64.size := by decide
  omega

/-- A character counts once, however many bytes it has. -/
theorem data_words_bounded_two_bytes :
    dataWeight [.data [.string "é", .number 1]] ≤ "dat \"é\",1".length ∧
      (Statement.data [.string "é", .number 1]).dataWords64?.map UInt64.toNat = some 3 := by
  have h : Program.parse "dat \"é\",1" = .ok ⟨[.data [.string "é", .number 1]]⟩ :=
    diagnosed_eq_ok_iff.2 (by decide +kernel)
  have hbytes : byteLength "dat \"é\",1".toList ≤ 2 ^ 63 - 1 := by decide +kernel
  exact ⟨data_words_bounded.1 _ _ h,
    data_words_bounded.2.1 _ _ h hbytes _ (List.mem_singleton_self _)⟩

end DcpuAsm
