import DcpuAsm.Diagnostic

/-!
Outcomes of a grammar rule. A rule that applies either matches or is committed and fails; only a rule
that does not apply at all lets the next alternative run (`Match.orElse`). `Match.required` turns the
missing match into an error, after which every outcome is a result or an error.

The rules of this library run on the text that is left: `Attempt` is what an alternative answers, and a
rule that has to apply is `Committed`. Main statement: `Match.orElse_of_ne_noMatch`, the
first alternative that applies decides.
-/

namespace DcpuAsm

/-- What a rule finds: a value and the place behind it, nothing, or an error. -/
inductive Match (π ε α : Type) where
  | matched (value : α) (next : π)
  /-- The rule does not apply here. -/
  | noMatch
  /-- The rule applies, and what follows is wrong. -/
  | failed (error : ε)
  deriving DecidableEq, Repr

namespace Match

variable {π ρ ε α β : Type}

/-- Applies a function to the value. -/
def map (f : α → β) : Match π ε α → Match π ε β
  | matched value next => matched (f value) next
  | noMatch => noMatch
  | failed error => failed error

/-- Ordered choice: the second rule runs only where the first does not apply. -/
def orElse (m : Match π ε α) (other : Unit → Match π ε α) : Match π ε α :=
  match m with
  | noMatch => other ()
  | m => m

/-- A rule that has to apply here, with the error for where it does not. -/
def required (m : Match π ε α) (missing : ε) : Except ε (α × π) :=
  match m with
  | matched value next => .ok (value, next)
  | noMatch => .error missing
  | failed error => .error error

/-- A rule that applies whatever it finds. -/
def ofExcept : Except ε (α × π) → Match π ε α
  | .ok (value, next) => matched value next
  | .error error => failed error

/-- Does the outcome carry a value? -/
def isMatched : Match π ε α → Bool
  | matched _ _ => true
  | _ => false

/-- Does the rule not apply? -/
def isNoMatch : Match π ε α → Bool
  | noMatch => true
  | _ => false

@[simp] theorem noMatch_orElse (other : Unit → Match π ε α) : noMatch.orElse other = other () := rfl

theorem orElse_of_ne_noMatch {m : Match π ε α} (h : m ≠ noMatch) (other : Unit → Match π ε α) :
    m.orElse other = m := by
  cases m <;> first | rfl | contradiction

@[simp] theorem ofExcept_ne_noMatch (r : Except ε (α × π)) : ofExcept r ≠ noMatch := by
  cases r <;> simp [ofExcept]

/-! ### What an outcome says about its parts -/

variable {m : Match π ε α} {r : Except ε (α × π)} {other : Unit → Match π ε α} {f : α → β}
variable {value : α} {missing error : ε} {next : π}

@[simp] theorem map_eq_matched {b : β} :
    m.map f = matched b next ↔ ∃ a, m = matched a next ∧ f a = b := by
  cases m with
  | matched a n =>
    refine ⟨fun h => ?_, ?_⟩
    · cases h; exact ⟨a, rfl, rfl⟩
    · rintro ⟨_, h, rfl⟩; cases h; rfl
  | noMatch => simp [map]
  | failed e => simp [map]

@[simp] theorem map_eq_noMatch : m.map f = noMatch ↔ m = noMatch := by cases m <;> simp [map]

@[simp] theorem map_eq_failed : m.map f = failed error ↔ m = failed error := by
  cases m <;> simp [map]

@[simp] theorem ofExcept_eq_matched : ofExcept r = matched value next ↔ r = .ok (value, next) := by
  cases r <;> simp [ofExcept, Prod.ext_iff]

@[simp] theorem ofExcept_eq_failed : ofExcept r = failed error ↔ r = .error error := by
  cases r <;> simp [ofExcept]

@[simp] theorem required_eq_ok :
    m.required missing = .ok (value, next) ↔ m = matched value next := by
  cases m <;> simp [required]

theorem required_eq_error :
    m.required missing = .error error ↔ m = noMatch ∧ missing = error ∨ m = failed error := by
  cases m <;> simp [required]

theorem orElse_eq_matched :
    m.orElse other = matched value next ↔
      m = matched value next ∨ m = noMatch ∧ other () = matched value next := by
  cases m <;> simp [orElse]

theorem orElse_eq_noMatch : m.orElse other = noMatch ↔ m = noMatch ∧ other () = noMatch := by
  cases m <;> simp [orElse]

theorem orElse_eq_failed :
    m.orElse other = failed error ↔ m = failed error ∨ m = noMatch ∧ other () = failed error := by
  cases m <;> simp [orElse]

end Match

/-- What an alternative answers on the text that is left. -/
abbrev Attempt (α : Type) := Match (List Char) Fault α

/-- The answers of a rule that has to apply: a result, mostly a value and the text behind it, or a
fault. -/
abbrev Committed := Except Fault

/-- Two committed rules in a row succeed just where both do. -/
theorem bind_eq_ok {ε α β : Type} {r : Except ε α} {f : α → Except ε β} {b : β} :
    r >>= f = .ok b ↔ ∃ a, r = .ok a ∧ f a = .ok b := by
  cases r with
  | ok a => simp [bind, Except.bind]
  | error e => simp [bind, Except.bind]

/-- Two committed rules in a row fail where the first fails, or the second behind it. -/
theorem bind_eq_error {ε α β : Type} {r : Except ε α} {f : α → Except ε β} {e : ε} :
    r >>= f = .error e ↔ r = .error e ∨ ∃ a, r = .ok a ∧ f a = .error e := by
  cases r with
  | ok a => simp [bind, Except.bind]
  | error e => simp [bind, Except.bind]

/-! ### Progress -/

/-- The text `next` is an end of `cs`, and not all of it. -/
def ProperEnd (next cs : List Char) : Prop := next <:+ cs ∧ next.length < cs.length

/-- Each match leaves a proper end of the text. -/
def Match.Advances {α : Type} (m : Attempt α) (cs : List Char) : Prop :=
  ∀ value next, m = .matched value next → ProperEnd next cs

/-- Each result leaves an end of the text. -/
def EndsIn {α : Type} (r : Committed (α × List Char)) (cs : List Char) : Prop :=
  ∀ value next, r = .ok (value, next) → next <:+ cs

variable {α β : Type} {m : Attempt α} {r : Committed (α × List Char)} {next mid cs : List Char}

theorem ProperEnd.of_suffix (h : ProperEnd next mid) (hs : mid <:+ cs) : ProperEnd next cs :=
  ⟨h.1.trans hs, Nat.lt_of_lt_of_le h.2 hs.length_le⟩

theorem ProperEnd.of_isSuffix (h : ProperEnd mid cs) (hs : next <:+ mid) : ProperEnd next cs :=
  ⟨hs.trans h.1, Nat.lt_of_le_of_lt hs.length_le h.2⟩

theorem properEnd_cons (c : Char) (h : next <:+ cs) : ProperEnd next (c :: cs) :=
  ⟨h.trans (List.suffix_cons c cs), Nat.lt_succ_of_le h.length_le⟩

theorem ne_nil_of_properEnd {w : List Char} (h : ProperEnd next (w ++ next)) : w ≠ [] := by
  rintro rfl
  exact absurd h.2 (Nat.lt_irrefl _)

theorem Match.Advances.map (h : m.Advances cs) (f : α → β) : (m.map f).Advances cs := by
  intro v next hm
  cases m with
  | matched a n => cases hm; exact h a _ rfl
  | noMatch => contradiction
  | failed e => contradiction

theorem Match.Advances.orElse (h : m.Advances cs) {other : Unit → Attempt α}
    (ho : (other ()).Advances cs) : (m.orElse other).Advances cs := by
  cases m with
  | matched a n => exact h
  | noMatch => exact ho
  | failed e => exact h

theorem Match.Advances.required (h : m.Advances cs) {missing : Fault} {v : α}
    (hr : m.required missing = .ok (v, next)) : ProperEnd next cs := by
  cases m with
  | matched a n => cases hr; exact h v _ rfl
  | noMatch => contradiction
  | failed e => contradiction

/-- A rule that is committed after some text has been read advances. -/
theorem EndsIn.ofExcept_advances (h : EndsIn r mid) (hm : ProperEnd mid cs) :
    (Match.ofExcept r).Advances cs := by
  intro v next hr
  cases r with
  | ok p => cases hr; exact hm.of_isSuffix (h p.1 p.2 rfl)
  | error e => contradiction

end DcpuAsm
