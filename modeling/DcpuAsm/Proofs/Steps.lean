import DcpuAsm.Proofs.Reads.Basic
import Mathlib.Logic.Relation

/-!
Steps from the front of a text to an end of it, as a reader makes them. `Steps` says of a step that
what it leaves may be replaced by any text that starts alike, and `Resumes` that a text which can be
completed behind the step can be completed with the step in front. Main statements: both hold of a
rule and its match (`Reads.steps`, `Reads.resumes`), and of any number of steps if they hold of one
(`Steps.many`, `Resumes.many`).
-/

namespace DcpuAsm

variable {α ι : Type} {r r' cs next : List Char}

/-- A step over the front of a text leaves an end of it, and looks at one more character at most. -/
structure Steps (step : List Char → List Char → Prop) : Prop where
  suffix : ∀ {cs next}, step cs next → next <:+ cs
  exchange : ∀ {u r r'}, step (u ++ r) r → r'.head? = r.head? → step (u ++ r') r'

/-- If the text behind a step can be completed, then so can the whole text. -/
def Resumes (step : List Char → List Char → Prop) (accepts whole : List Char → Prop) : Prop :=
  ∀ u p r t, step (u ++ (p ++ r)) (p ++ r) → accepts (p ++ t) → ∃ t', whole (u ++ (p ++ t'))

variable {step step₁ step₂ : List Char → List Char → Prop} {accepts whole : List Char → Prop}

theorem eq_nil_of_head?_eq (h : r'.head? = r.head?) (hr : r = []) : r' = [] := by
  rw [hr, List.head?_nil, List.head?_eq_none_iff] at h
  exact h

theorem ne_nil_of_head?_eq (h : r'.head? = r.head?) (hr : r ≠ []) : r' ≠ [] :=
  fun hnil => hr (eq_nil_of_head?_eq h.symm hnil)

theorem Steps.comp (h₁ : Steps step₁) (h₂ : Steps step₂) :
    Steps fun cs next => ∃ mid, step₁ cs mid ∧ step₂ mid next where
  suffix := fun ⟨_, hs₁, hs₂⟩ => (h₂.suffix hs₂).trans (h₁.suffix hs₁)
  exchange := by
    rintro u r r' ⟨mid, hs₁, hs₂⟩ hhead
    obtain ⟨b, rfl⟩ := h₂.suffix hs₂
    obtain ⟨a, rfl⟩ := List.suffix_append_self_iff.1 (h₁.suffix hs₁)
    rw [List.append_assoc] at hs₁ ⊢
    exact ⟨b ++ r', h₁.exchange hs₁ (head?_append_congr hhead), h₂.exchange hs₂ hhead⟩

theorem Steps.some {step : ι → List Char → List Char → Prop} (h : ∀ i, Steps (step i)) :
    Steps fun cs next => ∃ i, step i cs next where
  suffix := fun ⟨i, hs⟩ => (h i).suffix hs
  exchange := fun ⟨i, hs⟩ hhead => ⟨i, (h i).exchange hs hhead⟩

/-- A fixed text is stepped over without a look at what follows. -/
theorem Steps.text (w : List Char) : Steps fun cs next => cs = w ++ next where
  suffix := by rintro _ next rfl; exact List.suffix_append w next
  exchange := by
    intro u r r' h _
    rw [List.append_cancel_right h]

theorem Resumes.text {w : List Char} (h : ∀ {x}, accepts x → whole (w ++ x)) :
    Resumes (fun cs next => cs = w ++ next) accepts whole := by
  intro u p r t hs hacc
  rw [List.append_cancel_right hs]
  exact ⟨t, h hacc⟩

/-! ### Steps of a rule -/

section

variable {rule : List Char → Attempt α} {Is : List Char → α → Prop} {starts goesOn : Char → Bool}
variable {v : α} {c : Char} {u : List Char}

theorem Reads.steps (h : Reads rule Is starts goesOn) (v : α) :
    Steps fun cs next => rule cs = .matched v next where
  suffix hs := let ⟨w, hw, _⟩ := h.sound hs; ⟨w, hw.symm⟩
  exchange hs hhead := h.exchange hs (.of_head?_eq hhead)

theorem Reads.resumes (h : Reads rule Is starts goesOn) (hstop : ∀ {x}, accepts x → Stops goesOn x)
    (hwhole : ∀ {cs x}, rule cs = .matched v x → accepts x → whole cs) :
    Resumes (fun cs next => rule cs = .matched v next) accepts whole :=
  fun _ _ _ t hs hacc => ⟨t, hwhole (h.exchange hs (.of_stops (hstop hacc))) hacc⟩

/-- Behind a match and one more character any text may stand. -/
theorem Reads.exchange_char (h : Reads rule Is starts goesOn)
    (hs : rule (u ++ r) = .matched v (c :: r)) (r' : List Char) :
    rule (u ++ r') = .matched v (c :: r') := by
  obtain ⟨w, hw, _⟩ := h.sound hs
  obtain rfl : u = w ++ [c] := List.append_cancel_right (hw.trans (List.append_assoc w [c] r).symm)
  rw [List.append_assoc] at hs ⊢
  exact h.exchange hs (.of_head?_eq rfl)

theorem Reads.steps_char (h : Reads rule Is starts goesOn) (v : α) (c : Char) :
    Steps fun cs next => rule cs = .matched v (c :: next) where
  suffix hs := let ⟨w, hw, _⟩ := h.sound hs; ⟨w ++ [c], by rw [hw, List.append_assoc]; rfl⟩
  exchange hs _ := h.exchange_char hs _

theorem Reads.resumes_char (h : Reads rule Is starts goesOn)
    (hwhole : ∀ {cs x}, rule cs = .matched v (c :: x) → accepts x → whole cs) :
    Resumes (fun cs next => rule cs = .matched v (c :: next)) accepts whole :=
  fun _ _ _ t hs hacc => ⟨t, hwhole (h.exchange_char hs _) hacc⟩

end

/-! ### Many steps -/

theorem Steps.suffix_of_many (h : Steps step) (hs : Relation.ReflTransGen step cs next) :
    next <:+ cs := by
  induction hs with
  | refl => exact List.suffix_rfl
  | tail _ hstep ih => exact (h.suffix hstep).trans ih

/-- Any number of steps is a step over the text. -/
theorem Steps.many (h : Steps step) : Steps (Relation.ReflTransGen step) where
  suffix := h.suffix_of_many
  exchange := by
    intro u r r' hs hhead
    generalize hcs : u ++ r = cs at hs
    induction hs using Relation.ReflTransGen.head_induction_on generalizing u with
    | refl =>
      obtain rfl : u = [] := by simpa using hcs
      exact .refl
    | head hstep hlater ih =>
      subst hcs
      obtain ⟨b, rfl⟩ := h.suffix_of_many hlater
      obtain ⟨a, rfl⟩ := List.suffix_append_self_iff.1 (h.suffix hstep)
      rw [List.append_assoc] at hstep ⊢
      exact .head (h.exchange hstep (head?_append_congr hhead)) (ih rfl)

/-- What can be gone on with behind one step can be gone on with behind any number. -/
theorem Resumes.many (hstep : Steps step) (h : Resumes step accepts accepts) :
    Resumes (Relation.ReflTransGen step) accepts accepts := by
  intro u p r t hs hacc
  -- The completion is carried back through the run, one step at a time and the last step first.
  generalize hcs : u ++ (p ++ r) = cs at hs
  induction hs using Relation.ReflTransGen.head_induction_on generalizing u with
  | refl =>
    obtain rfl : u = [] := by simpa using hcs
    exact ⟨t, hacc⟩
  | head hone hlater ih =>
    subst hcs
    obtain ⟨b, rfl⟩ := hstep.suffix_of_many hlater
    obtain ⟨a, rfl⟩ := List.suffix_append_self_iff.1 (hstep.suffix hone)
    obtain ⟨t₁, ht₁⟩ := ih b rfl
    rw [← List.append_assoc b p] at ht₁
    have hone' : step (a ++ ((b ++ p) ++ r)) ((b ++ p) ++ r) := by
      simpa only [List.append_assoc] using hone
    obtain ⟨t', ht'⟩ := h _ _ _ _ hone' ht₁
    exact ⟨t', by simpa only [List.append_assoc] using ht'⟩

end DcpuAsm
