import DcpuAsm.Proofs.Reads.Program
import Mathlib.Data.List.Forall2

/-!
Two readings in lockstep. A respelling of a source keeps the places of all that the grammar looks at,
so the reader does the same on both texts. `Lockstep N R E` collects what has to be known of the
respelling: texts related by `R` have related lexemes at their front, names related by `N` mean the
same, and faults at related places are related by `E`. Main statements: two related texts are then
read as related statements or with related faults (`Lockstep.statementOnly`, `Lockstep.program`),
by a step lemma for each rule and an induction for each loop.
-/

namespace DcpuAsm

/-! ### Outcomes -/

section

variable {π ρ ε δ α β γ κ : Type}

/-- Outcomes of one kind, with related values and places behind them or related errors. -/
inductive Match.InStep (V : α → β → Prop) (R : π → ρ → Prop) (E : ε → δ → Prop) :
    Match π ε α → Match ρ δ β → Prop where
  | matched {a : α} {b : β} {m : π} {n : ρ} (hv : V a b) (hr : R m n) :
      InStep V R E (.matched a m) (.matched b n)
  | noMatch : InStep V R E .noMatch .noMatch
  | failed {e : ε} {f : δ} (he : E e f) : InStep V R E (.failed e) (.failed f)

/-- Related results, or related faults. -/
inductive Committed.InStep (V : α → β → Prop) (E : Fault → Fault → Prop) :
    Committed α → Committed β → Prop where
  | ok {a : α} {b : β} (hv : V a b) : InStep V E (.ok a) (.ok b)
  | error {e f : Fault} (he : E e f) : InStep V E (.error e) (.error f)

/-- Related values with related texts behind them. -/
def WithRest (V : α → β → Prop) (R : π → ρ → Prop) (p : α × π) (q : β × ρ) : Prop :=
  V p.1 q.1 ∧ R p.2 q.2

variable {V : α → β → Prop} {W : γ → κ → Prop} {R : List Char → List Char → Prop}
variable {E : Fault → Fault → Prop}

theorem Match.InStep.map {m : Attempt α} {n : Attempt β} {f : α → γ} {g : β → κ}
    (h : Match.InStep V R E m n) (hf : ∀ a b, V a b → W (f a) (g b)) :
    Match.InStep W R E (m.map f) (n.map g) := by
  cases h with
  | matched hv hr => exact .matched (hf _ _ hv) hr
  | noMatch => exact .noMatch
  | failed he => exact .failed he

theorem Match.InStep.orElse {m : Attempt α} {n : Attempt β} {m' : Unit → Attempt α}
    {n' : Unit → Attempt β} (h : Match.InStep V R E m n) (h' : Match.InStep V R E (m' ()) (n' ())) :
    Match.InStep V R E (m.orElse m') (n.orElse n') := by
  cases h with
  | matched hv hr => exact .matched hv hr
  | noMatch => exact h'
  | failed he => exact .failed he

theorem Match.InStep.required {m : Attempt α} {n : Attempt β} {e f : Fault}
    (h : Match.InStep V R E m n) (he : E e f) :
    Committed.InStep (WithRest V R) E (m.required e) (n.required f) := by
  cases h with
  | matched hv hr => exact .ok ⟨hv, hr⟩
  | noMatch => exact .error he
  | failed he => exact .error he

theorem Committed.InStep.ofExcept {r : Committed (α × List Char)} {t : Committed (β × List Char)}
    (h : Committed.InStep (WithRest V R) E r t) :
    Match.InStep V R E (.ofExcept r) (.ofExcept t) := by
  cases h with
  | ok hv => exact .matched hv.1 hv.2
  | error he => exact .failed he

theorem Committed.InStep.mono {V' : α → β → Prop} {r : Committed α} {t : Committed β}
    (h : Committed.InStep V E r t) (hV : ∀ a b, V a b → V' a b) : Committed.InStep V' E r t := by
  cases h with
  | ok hv => exact .ok (hV _ _ hv)
  | error he => exact .error he

theorem Committed.InStep.bind {r : Committed α} {t : Committed β} {f : α → Committed γ}
    {g : β → Committed κ} (h : Committed.InStep V E r t)
    (hf : ∀ a b, V a b → Committed.InStep W E (f a) (g b)) :
    Committed.InStep W E (r >>= f) (t >>= g) := by
  cases h with
  | ok hv => exact hf _ _ hv
  | error he => exact .error he

end

/-! ### Trees -/

/-- Operands of one shape with related names. -/
inductive Expression.InStep (N : String → String → Prop) : Expression → Expression → Prop where
  | identifier {a b : String} (h : N a b) : InStep N (.identifier a) (.identifier b)
  | number (value : UInt16) : InStep N (.number value) (.number value)
  | addressOf {d e : Expression} (h : InStep N d e) : InStep N (.addressOf d) (.addressOf e)
  | sum {c d e f : Expression} (hl : InStep N c e) (hr : InStep N d f) :
      InStep N (.sum c d) (.sum e f)

/-- Items of one kind with related contents. -/
inductive DataItem.InStep (N : String → String → Prop) : DataItem → DataItem → Prop where
  | string {a b : String} (h : N a b) : InStep N (.string a) (.string b)
  | number (value : UInt16) : InStep N (.number value) (.number value)

/-- Statements of one shape with related names. -/
inductive Statement.InStep (N : String → String → Prop) : Statement → Statement → Prop where
  | label {a b : String} (h : N a b) : InStep N (.label a) (.label b)
  | unary {a b : String} {d e : Expression} (h : N a b) (ho : Expression.InStep N d e) :
      InStep N (.unary a d) (.unary b e)
  | binary {a b : String} {c d e f : Expression} (h : N a b) (hd : Expression.InStep N c e)
      (hs : Expression.InStep N d f) : InStep N (.binary a c d) (.binary b e f)
  | data {is js : List DataItem} (h : List.Forall₂ (DataItem.InStep N) is js) :
      InStep N (.data is) (.data js)

/-- Programs of related statements. -/
def Program.InStep (N : String → String → Prop) (p q : Program) : Prop :=
  List.Forall₂ (Statement.InStep N) p.statements q.statements

section

variable {d e : Expression} {i j : DataItem} {s t : Statement} {p q : Program}

theorem Expression.InStep.eq (h : Expression.InStep Eq d e) : d = e := by
  induction h with
  | identifier h => rw [h]
  | number value => rfl
  | addressOf _ ih => rw [ih]
  | sum _ _ ihl ihr => rw [ihl, ihr]

theorem DataItem.InStep.eq (h : DataItem.InStep Eq i j) : i = j := by
  cases h with
  | string h => rw [h]
  | number value => rfl

theorem eq_of_forall₂ {α : Type} {S : α → α → Prop} {as bs : List α} (h : List.Forall₂ S as bs)
    (hS : ∀ a b, S a b → a = b) : as = bs :=
  List.forall₂_eq_eq_eq ▸ h.imp hS

theorem Statement.InStep.eq (h : Statement.InStep Eq s t) : s = t := by
  cases h with
  | label h => rw [h]
  | unary h ho => rw [h, ho.eq]
  | binary h hd hs => rw [h, hd.eq, hs.eq]
  | data h => rw [eq_of_forall₂ h fun _ _ => DataItem.InStep.eq]

theorem Program.InStep.eq (h : Program.InStep Eq p q) : p = q :=
  congrArg Program.mk (eq_of_forall₂ h fun _ _ => Statement.InStep.eq)

end

/-! ### Respellings -/

/-- The characters that the grammar looks for one by one. -/
def marks : List Char := [':', ',', '[', ']', '+']

/-- What the reader relies on in two texts: related texts start with the same mark or lexeme and stay
related behind it, and whatever is wrong with one is wrong with the other. -/
structure Lockstep (N : String → String → Prop) (R : List Char → List Char → Prop)
    (E : Fault → Fault → Prop) : Prop where
  nil_iff : ∀ {cs ds}, R cs ds → (cs = [] ↔ ds = [])
  mark : ∀ {cs ds m}, m ∈ marks → R cs ds →
    (∃ cs' ds', cs = m :: cs' ∧ ds = m :: ds' ∧ R cs' ds') ∨
      (Stops (· == m) cs ∧ Stops (· == m) ds)
  trivia_iff : ∀ {cs ds}, R cs ds → (Stops startsTrivia cs ↔ Stops startsTrivia ds)
  skipped : ∀ {cs ds}, R cs ds → R (skipTrivia cs) (skipTrivia ds)
  word : ∀ {cs ds}, R cs ds → Option.Rel (WithRest N R) (word? cs) (word? ds)
  identifier : ∀ {cs ds}, R cs ds → Option.Rel (WithRest N R) (identifier? cs) (identifier? ds)
  number : ∀ {cs ds}, R cs ds → Match.InStep Eq R E (number cs) (number ds)
  stringLiteral : ∀ {cs ds}, R cs ds → Match.InStep N R E (stringLiteral cs) (stringLiteral ds)
  keyword_eq : ∀ {a b}, N a b → isDataKeyword b = isDataKeyword a
  arity_eq : ∀ {a b}, N a b → arity? b = arity? a
  letters_iff : ∀ {a b}, N a b → ((a.length = 3 ∧ a.toList.all Char.isAlpha) ↔
    (b.length = 3 ∧ b.toList.all Char.isAlpha))
  unexpected : ∀ {cs ds} expected, R cs ds → E (.unexpected expected cs) (.unexpected expected ds)
  unterminated : ∀ {cs ds} construct expected, R cs ds →
    E (.unterminated construct expected cs) (.unterminated construct expected ds)
  trailing : ∀ {cs ds}, R cs ds → E (.trailing cs) (.trailing ds)
  missingInBrackets : ∀ {cs ds}, R cs ds → E (missingInBrackets cs) (missingInBrackets ds)
  unknownMnemonic : ∀ {cs ds a b}, R cs ds → N a b → E ⟨.unknownMnemonic a, cs⟩ ⟨.unknownMnemonic b, ds⟩

namespace Lockstep

variable {N : String → String → Prop} {R : List Char → List Char → Prop} {E : Fault → Fault → Prop}
variable {cs ds : List Char} {a b : String} {d e : Expression} {f g : Fault}

/-! ### Operands -/

theorem term (h : Lockstep N R E) (hr : R cs ds) :
    Match.InStep (Expression.InStep N) R E (term cs) (term ds) := by
  have hid := h.identifier hr
  unfold DcpuAsm.term
  generalize identifier? cs = m, identifier? ds = n at hid
  cases hid with
  | some hv => exact .matched (.identifier hv.1) hv.2
  | none =>
    refine (h.number hr).map ?_
    rintro v _ rfl
    exact .number v

theorem sumRight (h : Lockstep N R E) (hl : Expression.InStep N d e) (hr : R cs ds) :
    Committed.InStep (WithRest (Expression.InStep N) R) E (sumRight d cs) (sumRight e ds) := by
  refine ((h.term hr).required (h.unexpected _ hr)).bind ?_
  rintro ⟨c, next⟩ ⟨c', next'⟩ ⟨hc, hnext⟩
  rcases h.mark (m := '+') (by decide) hnext with ⟨_, _, rfl, rfl, _⟩ | ⟨hs, hs'⟩
  · exact .error (h.unexpected _ hnext)
  · dsimp only
    split
    · exact absurd hs (by simp)
    · split
      · exact absurd hs' (by simp)
      · exact .ok ⟨.sum hl hc, hnext⟩

theorem flatExpression (h : Lockstep N R E) (hr : R cs ds) :
    Match.InStep (Expression.InStep N) R E (flatExpression cs) (flatExpression ds) := by
  have ht := h.term hr
  unfold DcpuAsm.flatExpression
  generalize DcpuAsm.term cs = m, DcpuAsm.term ds = n at ht
  cases ht with
  | noMatch => exact .noMatch
  | failed he => exact .failed he
  | matched hv hnext =>
    rcases h.mark (m := '+') (by decide) hnext with ⟨_, _, rfl, rfl, hlater⟩ | ⟨hs, hs'⟩
    · exact (h.sumRight hv hlater).ofExcept
    · split
      · next heq => cases heq; exact absurd hs (by simp)
      · split
        · next heq => cases heq; exact absurd hs' (by simp)
        · exact .matched hv hnext

theorem bracketed (h : Lockstep N R E) (hr : R cs ds) :
    Committed.InStep (WithRest (Expression.InStep N) R) E (bracketed cs) (bracketed ds) := by
  refine ((h.flatExpression hr).required (h.missingInBrackets hr)).bind ?_
  rintro ⟨c, next⟩ ⟨c', next'⟩ ⟨hc, hnext⟩
  rcases h.mark (m := ']') (by decide) hnext with ⟨_, _, rfl, rfl, hlater⟩ | ⟨hs, hs'⟩
  · exact .ok ⟨.addressOf hc, hlater⟩
  · dsimp only
    split
    · exact absurd hs (by simp)
    · split
      · exact absurd hs' (by simp)
      · exact .error (h.unterminated _ _ hnext)

theorem addressOf (h : Lockstep N R E) (hr : R cs ds) :
    Match.InStep (Expression.InStep N) R E (addressOf cs) (addressOf ds) := by
  rcases h.mark (m := '[') (by decide) hr with ⟨_, _, rfl, rfl, hlater⟩ | ⟨hs, hs'⟩
  · exact (h.bracketed hlater).ofExcept
  · rw [addressOf_eq_noMatch_iff.2 hs, addressOf_eq_noMatch_iff.2 hs']
    exact .noMatch

theorem expression (h : Lockstep N R E) (hr : R cs ds) :
    Match.InStep (Expression.InStep N) R E (expression cs) (expression ds) :=
  (h.addressOf hr).orElse (h.flatExpression hr)

theorem operand (h : Lockstep N R E) (hr : R cs ds) :
    Committed.InStep (WithRest (Expression.InStep N) R) E (operand cs) (operand ds) :=
  (h.expression hr).required (h.unexpected _ hr)

/-! ### Data directives -/

theorem separated (h : Lockstep N R E) (expected : String) (hr : R cs ds) :
    Committed.InStep R E (separated expected cs) (separated expected ds) := by
  by_cases hs : Stops startsTrivia cs
  · rw [separated_eq_error_iff.2 ⟨hs, rfl⟩, separated_eq_error_iff.2 ⟨(h.trivia_iff hr).1 hs, rfl⟩]
    exact .error (h.unexpected _ hr)
  · rw [separated_eq_ok_iff.2 ⟨rfl, hs⟩, separated_eq_ok_iff.2 ⟨rfl, mt (h.trivia_iff hr).2 hs⟩]
    exact .ok (h.skipped hr)

theorem afterComma (h : Lockstep N R E) (hr : R cs ds) :
    Option.Rel R (afterComma? cs) (afterComma? ds) := by
  rcases h.mark (m := ',') (by decide) (h.skipped hr) with ⟨cs', ds', hcs, hds, hlater⟩ | ⟨hs, hs'⟩
  · rw [afterComma?_eq_some_iff.2 ⟨cs', hcs, rfl⟩, afterComma?_eq_some_iff.2 ⟨ds', hds, rfl⟩]
    exact .some (h.skipped hlater)
  · rw [afterComma?_eq_none_iff.2 hs, afterComma?_eq_none_iff.2 hs']
    exact .none

theorem dataItem (h : Lockstep N R E) (hr : R cs ds) :
    Match.InStep (DataItem.InStep N) R E (dataItem cs) (dataItem ds) := by
  refine ((h.stringLiteral hr).map fun _ _ => .string).orElse ((h.number hr).map ?_)
  rintro v _ rfl
  exact .number v

/-- The loop over the items takes the same number of turns on both texts. -/
theorem dataItems (h : Lockstep N R E) (hr : R cs ds) (hmissing : E f g) :
    Committed.InStep (WithRest (List.Forall₂ (DataItem.InStep N)) R) E (dataItems f cs)
      (dataItems g ds) := by
  induction hn : cs.length using Nat.strongRecOn generalizing cs ds f g with
  | _ n ih =>
    have hitem := h.dataItem hr
    generalize hm : DcpuAsm.dataItem cs = m, hm' : DcpuAsm.dataItem ds = m' at hitem
    cases hitem with
    | noMatch =>
      rw [dataItems_eq_error_iff.2 (Or.inl ⟨hm, rfl⟩), dataItems_eq_error_iff.2 (Or.inl ⟨hm', rfl⟩)]
      exact .error hmissing
    | failed he =>
      rw [dataItems_eq_error_iff.2 (Or.inr (Or.inl hm)),
        dataItems_eq_error_iff.2 (Or.inr (Or.inl hm'))]
      exact .error he
    | @matched item item' mid mid' hv hmid =>
      have hcomma := h.afterComma hmid
      generalize hc : afterComma? mid = o, hc' : afterComma? mid' = o' at hcomma
      cases hcomma with
      | none =>
        rw [dataItems_eq_ok_iff.2 ⟨_, _, hm, Or.inl ⟨hc, rfl, rfl⟩⟩,
          dataItems_eq_ok_iff.2 ⟨_, _, hm', Or.inl ⟨hc', rfl, rfl⟩⟩]
        exact .ok ⟨.cons hv .nil, hmid⟩
      | @some rest rest' hrest =>
        have hshort : rest.length < n := by
          have hlt := (properEnd_of_afterComma? hc).2
          have hlt' := (dataItem_advances cs item mid hm).2
          omega
        have hmissing' : E (missingAfterComma rest) (missingAfterComma rest') :=
          h.unterminated _ _ hrest
        have hlater := ih rest.length hshort hrest hmissing' rfl
        generalize hl : DcpuAsm.dataItems (missingAfterComma rest) rest = r,
          hl' : DcpuAsm.dataItems (missingAfterComma rest') rest' = r' at hlater
        cases hlater with
        | ok hp =>
          rw [dataItems_eq_ok_iff.2 ⟨_, _, hm, Or.inr ⟨_, _, hc, hl, rfl⟩⟩,
            dataItems_eq_ok_iff.2 ⟨_, _, hm', Or.inr ⟨_, _, hc', hl', rfl⟩⟩]
          exact .ok ⟨.cons hv hp.1, hp.2⟩
        | error he =>
          rw [dataItems_eq_error_iff.2 (Or.inr (Or.inr ⟨_, _, _, hm, hc, hl⟩)),
            dataItems_eq_error_iff.2 (Or.inr (Or.inr ⟨_, _, _, hm', hc', hl'⟩))]
          exact .error he

theorem dataBody (h : Lockstep N R E) (hr : R cs ds) :
    Committed.InStep (WithRest (Statement.InStep N) R) E (dataBody cs) (dataBody ds) := by
  refine (h.separated _ hr).bind fun start start' hstart => ?_
  refine (h.dataItems hstart (h.unexpected _ hstart)).bind fun p q hpq => ?_
  exact .ok ⟨.data hpq.1, hpq.2⟩

/-! ### Instructions -/

theorem unaryOperands (h : Lockstep N R E) (hn : N a b) (hr : R cs ds) :
    Committed.InStep (WithRest (Statement.InStep N) R) E (unaryOperands a cs)
      (unaryOperands b ds) := by
  refine (h.separated _ hr).bind fun start start' hstart => ?_
  refine (h.operand hstart).bind fun p q hpq => ?_
  exact .ok ⟨.unary hn hpq.1, hpq.2⟩

theorem binaryOperands (h : Lockstep N R E) (hn : N a b) (hr : R cs ds) :
    Committed.InStep (WithRest (Statement.InStep N) R) E (binaryOperands a cs)
      (binaryOperands b ds) := by
  refine (h.separated _ hr).bind fun start start' hstart => ?_
  refine (h.operand hstart).bind fun p q hpq => ?_
  have hcomma := h.afterComma hpq.2
  dsimp only
  generalize afterComma? p.2 = o, afterComma? q.2 = o' at hcomma
  cases hcomma with
  | none => exact .error (h.unexpected _ (h.skipped hpq.2))
  | some hrest =>
    refine (h.operand hrest).bind fun p' q' hpq' => ?_
    exact .ok ⟨.binary hn hpq.1 hpq'.1, hpq'.2⟩

/-! ### Statements -/

theorem body (h : Lockstep N R E) (hn : N a b) (hr : R cs ds) :
    Option.Rel (Committed.InStep (WithRest (Statement.InStep N) R) E) (body? a cs) (body? b ds) := by
  rw [body?, body?, h.keyword_eq hn, h.arity_eq hn]
  split
  · exact .some (h.dataBody hr)
  · cases arity? a with
    | none => exact .none
    | some arity =>
      cases arity with
      | unary => exact .some (h.unaryOperands hn hr)
      | binary => exact .some (h.binaryOperands hn hr)

theorem label (h : Lockstep N R E) (hr : R cs ds) :
    Match.InStep (Statement.InStep N) R E (label cs) (label ds) := by
  rcases h.mark (m := ':') (by decide) hr with ⟨cs', ds', rfl, rfl, hlater⟩ | ⟨hs, hs'⟩
  · have hword := h.word hlater
    simp only [DcpuAsm.label]
    generalize word? cs' = o, word? ds' = o' at hword
    cases hword with
    | none => exact .failed (h.unexpected _ hlater)
    | some hv => exact .matched (.label hv.1) hv.2
  · rw [label_eq_noMatch_iff.2 hs, label_eq_noMatch_iff.2 hs']
    exact .noMatch

theorem statement (h : Lockstep N R E) (hr : R cs ds) :
    Match.InStep (Statement.InStep N) R E (statement cs) (statement ds) := by
  have hid := h.identifier hr
  generalize hi : identifier? cs = o, hi' : identifier? ds = o' at hid
  cases hid with
  | none =>
    rw [statement_of_identifier?_eq_none hi, statement_of_identifier?_eq_none hi']
    exact h.label hr
  | @some p q hv =>
    have hbody := h.body hv.1 hv.2
    rw [statement_of_identifier? hi, statement_of_identifier? hi']
    generalize body? p.1 p.2 = o, body? q.1 q.2 = o' at hbody
    cases hbody with
    | some hc => exact hc.ofExcept
    | none =>
      simp only [unknownWord_eq hi, unknownWord_eq hi', ← h.letters_iff hv.1]
      split
      · exact .failed (h.unknownMnemonic hr hv.1)
      · exact .failed (h.unexpected _ hr)

theorem statementAt (h : Lockstep N R E) (hr : R cs ds) :
    Committed.InStep (WithRest (Statement.InStep N) R) E (statementAt cs) (statementAt ds) := by
  refine ((h.statement hr).required (h.unexpected _ hr)).bind ?_
  rintro ⟨s, next⟩ ⟨s', next'⟩ ⟨hs, hnext⟩
  have hend : MayEnd next ↔ MayEnd next' := by
    rw [mayEnd_iff, mayEnd_iff, h.nil_iff hnext, h.trivia_iff hnext]
  have hboundary : Committed.InStep Eq E (boundary next) (boundary next') := by
    by_cases hm : MayEnd next
    · rw [boundary_eq_ok_iff.2 hm, boundary_eq_ok_iff.2 (hend.1 hm)]
      exact .ok rfl
    · rw [boundary_eq_error_iff.2 ⟨hm, rfl⟩, boundary_eq_error_iff.2 ⟨mt hend.2 hm, rfl⟩]
      exact .error (h.trailing hnext)
  exact hboundary.bind fun _ _ _ => .ok ⟨hs, hnext⟩

/-! ### Programs -/

/-- The loop over the statements takes the same number of turns on both texts. -/
theorem statements (h : Lockstep N R E) (hr : R cs ds) :
    List.Forall₂ (Statement.InStep N) (statements cs).read (statements ds).read ∧
      Option.Rel E (statements cs).fault (statements ds).fault := by
  induction cs using statements_induction generalizing ds with
  | nil =>
    rw [(h.nil_iff hr).1 rfl, statements_nil]
    exact ⟨.nil, .none⟩
  | ok cs s next hs ih =>
    have hat := h.statementAt hr
    rw [hs] at hat
    generalize hs' : DcpuAsm.statementAt ds = r at hat
    cases hat with
    | @ok _ q hv =>
      obtain ⟨hread, hfault⟩ := ih (h.skipped hv.2)
      rw [read_statements_of_ok hs, read_statements_of_ok hs', fault_statements_of_ok hs,
        fault_statements_of_ok hs']
      exact ⟨.cons hv.1 hread, hfault⟩
  | error cs f hne hs =>
    have hat := h.statementAt hr
    rw [hs] at hat
    generalize hs' : DcpuAsm.statementAt ds = r at hat
    cases hat with
    | error he =>
      rw [statements_of_error hne hs, statements_of_error (mt (h.nil_iff hr).2 hne) hs']
      exact ⟨.nil, .some he⟩

/-- Related sources are read as related programs, or with related faults. -/
theorem program (h : Lockstep N R E) (hr : R cs ds) :
    Committed.InStep (Program.InStep N) E (Reading.ofSource cs).result
      (Reading.ofSource ds).result := by
  obtain ⟨hread, hfault⟩ := h.statements (h.skipped hr)
  rw [← Reading.ofSource, ← Reading.ofSource] at hread hfault
  generalize hf : (Reading.ofSource cs).fault = o, hf' : (Reading.ofSource ds).fault = o' at hfault
  cases hfault with
  | none =>
    rw [result_eq_ok_iff.2 ⟨hf, rfl⟩, result_eq_ok_iff.2 ⟨hf', rfl⟩]
    exact .ok hread
  | some he =>
    rw [result_eq_error_iff.2 hf, result_eq_error_iff.2 hf']
    exact .error he

/-- Related sources are read as related statements, or with related faults. -/
theorem statementOnly (h : Lockstep N R E) (hr : R cs ds) :
    Committed.InStep (Statement.InStep N) E (statementOnly cs) (statementOnly ds) := by
  refine (h.statementAt (h.skipped hr)).bind ?_
  rintro ⟨s, next⟩ ⟨s', next'⟩ ⟨hs, hnext⟩
  have hskip := h.skipped hnext
  have hend : Committed.InStep Eq E (endOfText (skipTrivia next)) (endOfText (skipTrivia next')) := by
    by_cases hnil : skipTrivia next = []
    · rw [endOfText_eq_ok_iff.2 hnil, endOfText_eq_ok_iff.2 ((h.nil_iff hskip).1 hnil)]
      exact .ok rfl
    · rw [endOfText_eq_error_iff.2 ⟨hnil, rfl⟩,
        endOfText_eq_error_iff.2 ⟨mt (h.nil_iff hskip).2 hnil, rfl⟩]
      exact .error (h.trailing hskip)
  exact hend.bind fun _ _ _ => .ok hs

end Lockstep

end DcpuAsm
