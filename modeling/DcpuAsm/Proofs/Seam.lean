import DcpuAsm.Match

/-!
Where one text may take the place of another. A rule that reads a run of characters looks at the one
behind the run, to see that it is over. `Stops p cs` says that `cs` does not start with a character
of class `p`, and `Seam p r r'` that `r'` may stand where `r` stood behind a run of the class. Main
statements: a run ends where the class stops (`takeWhile_append_of_stops`), and if it ended in front
of `r` it ends in front of `r'` (`Seam.stops`).
-/

namespace DcpuAsm

/-- The text does not start with a character of the class. -/
def Stops (p : Char → Bool) : List Char → Prop
  | [] => True
  | c :: _ => p c = false

/-- Behind a run of the class, `r'` may stand in place of `r`: it starts alike, or with no character
of the class. -/
def Seam (p : Char → Bool) (r r' : List Char) : Prop := r'.head? = r.head? ∨ Stops p r'

variable {p q : Char → Bool} {c : Char} {w r r' cs : List Char}

@[simp] theorem stops_nil : Stops p [] := trivial

@[simp] theorem stops_cons : Stops p (c :: cs) ↔ p c = false := Iff.rfl

theorem not_stops_iff : ¬ Stops p cs ↔ ∃ c ds, cs = c :: ds ∧ p c = true := by
  cases cs <;> simp

/-- A character stands in front of a text or does not. -/
theorem eq_cons_or_stops (c : Char) (cs : List Char) : (∃ ds, cs = c :: ds) ∨ Stops (· == c) cs := by
  by_cases h : Stops (· == c) cs
  · exact Or.inr h
  · obtain ⟨d, ds, rfl, hd⟩ := not_stops_iff.1 h
    exact Or.inl ⟨ds, by rw [beq_iff_eq.1 hd]⟩

theorem Stops.mono (h : Stops q cs) (hpq : ∀ c, p c = true → q c = true) : Stops p cs := by
  cases cs with
  | nil => exact stops_nil
  | cons c cs =>
    rw [stops_cons, ← Bool.not_eq_true] at h ⊢
    exact fun hp => h (hpq c hp)

/-- Only the first character counts. -/
theorem Stops.of_head?_eq (h : Stops p r) (hhead : r'.head? = r.head?) : Stops p r' := by
  cases r' with
  | nil => exact stops_nil
  | cons c cs =>
    cases r with
    | nil => simp at hhead
    | cons d ds =>
      obtain rfl : c = d := by simpa using hhead
      exact h

theorem Stops.of_append (h : Stops p (w ++ r)) : Stops p w := by
  cases w with
  | nil => exact stops_nil
  | cons c w => exact h

theorem stops_dropWhile (p : Char → Bool) (cs : List Char) : Stops p (cs.dropWhile p) := by
  induction cs with
  | nil => exact stops_nil
  | cons c cs ih =>
    rw [List.dropWhile_cons]
    split
    · exact ih
    · next hc => simpa using hc

theorem takeWhile_eq_nil_iff : cs.takeWhile p = [] ↔ Stops p cs := by
  cases cs with
  | nil => simp
  | cons c cs => by_cases hc : p c = true <;> simp [hc]

/-- A character that is not in the class keeps the class out of what follows. -/
theorem Stops.append_cons (h : Stops p r) (hc : p c = false) (cs : List Char) :
    Stops p (r ++ c :: cs) := by
  cases r with
  | nil => exact hc
  | cons d r => exact h

/-! ### Seams -/

theorem head?_append_of_ne_nil (hw : w ≠ []) : (w ++ r').head? = (w ++ r).head? := by
  cases w with
  | nil => exact absurd rfl hw
  | cons c w => rfl

theorem head?_append_congr (h : r'.head? = r.head?) : (w ++ r').head? = (w ++ r).head? := by
  cases w with
  | nil => exact h
  | cons c w => rfl

theorem Seam.of_head?_eq (h : r'.head? = r.head?) : Seam p r r' := Or.inl h

theorem Seam.of_stops (h : Stops p r') : Seam p r r' := Or.inr h

/-- What may stand behind a run of the class where `r` stood ends the run if `r` did. -/
theorem Seam.stops (h : Seam p r r') (hr : Stops p r) : Stops p r' := by
  rcases h with hhead | hstop
  · exact hr.of_head?_eq hhead
  · exact hstop

theorem Seam.mono (h : Seam q r r') (hpq : ∀ c, p c = true → q c = true) : Seam p r r' :=
  h.imp_right fun hs => hs.mono hpq

theorem Seam.append_cons (hc : p c = false) (r cs : List Char) : Seam p r (r ++ c :: cs) := by
  cases r with
  | nil => exact .of_stops hc
  | cons d r => exact .of_head?_eq rfl

/-- A seam further on is one for all that stands before it. -/
theorem Seam.append (h : Seam p r r') (w : List Char) : Seam p (w ++ r) (w ++ r') := by
  cases w with
  | nil => exact h
  | cons c w => exact Or.inl rfl

/-! ### Runs -/

theorem takeWhile_append_of_stops (hw : ∀ c ∈ w, p c = true) (hr : Stops p r) :
    (w ++ r).takeWhile p = w := by
  rw [List.takeWhile_append_of_pos hw]
  cases r with
  | nil => simp
  | cons c r => simp [stops_cons.1 hr]

theorem dropWhile_append_of_stops (hw : ∀ c ∈ w, p c = true) (hr : Stops p r) :
    (w ++ r).dropWhile p = r := by
  rw [List.dropWhile_append_of_pos hw]
  cases r with
  | nil => rfl
  | cons c r => simp [stops_cons.1 hr]

end DcpuAsm
