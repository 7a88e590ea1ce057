import DcpuAsm.Proofs.Steps

/-!
What it means that faults come at the right place. `Fails faults accepts` says of each fault that
what stands in front of it is the start of an accepted text, and that it is found again as soon as
the text goes on alike (`Cause.SeesAlike`), whatever stands further on. Most causes look at one
character, and some at a word (`Cause.onWord`). Main statements: it holds of faults that show at the
front of a text (`Fails.here`, `Fails.word`), of faults behind a step over the text (`Fails.behind`)
and of faults behind any number of such steps (`Fails.behindMany`).
-/

namespace DcpuAsm

variable {ι : Type} {r r' : List Char} {step : List Char → List Char → Prop}

/-- Is the cause found by looking at a whole word, and not at one character? -/
def Cause.onWord : Cause → Bool
  | .outOfRange _ | .nonHexDigit _ | .unknownMnemonic _ => true
  | .unexpected expected _ => expected == "a three-letter mnemonic"
  | .unterminated _ _ | .trailing _ => false

/-- Two texts start alike as far as a cause looks: with the same character, and for a cause that
lies in a word with the same word. -/
def Cause.SeesAlike (cause : Cause) (r r' : List Char) : Prop :=
  r'.head? = r.head? ∧
    (cause.onWord = true → r'.takeWhile Char.isAlphanum = r.takeWhile Char.isAlphanum)

/-- Faults that come no sooner than they have to, and for no other reason than the text in front of
them and what their cause looks at. -/
structure Fails (faults : List Char → Fault → Prop) (accepts : List Char → Prop) : Prop where
  completable : ∀ {cs fault}, faults cs fault → ∃ p t, cs = p ++ fault.rest ∧ accepts (p ++ t)
  stable : ∀ {p r r' cause}, faults (p ++ r) ⟨cause, r⟩ → cause.SeesAlike r r' →
    faults (p ++ r') ⟨cause, r'⟩
  inWord : ∀ {cs fault}, faults cs fault → fault.cause.onWord = true →
    ¬ Stops Char.isAlphanum fault.rest

variable {faults faults₁ faults₂ : List Char → Fault → Prop} {accepts whole : List Char → Prop}

theorem Fails.congr (h : Fails faults₁ accepts) (hf : ∀ {cs f}, faults₂ cs f ↔ faults₁ cs f) :
    Fails faults₂ accepts where
  completable hfault := h.completable (hf.1 hfault)
  stable hfault ha := hf.2 (h.stable (hf.1 hfault) ha)
  inWord hfault := h.inWord (hf.1 hfault)

/-- Texts that go on to be accepted do as well. -/
theorem Fails.extend (h : Fails faults accepts) (ha : ∀ {w}, accepts w → ∃ x, whole (w ++ x)) :
    Fails faults whole where
  completable hf := by
    obtain ⟨p, t, hp, hacc⟩ := h.completable hf
    obtain ⟨x, hx⟩ := ha hacc
    exact ⟨p, t ++ x, hp, by rwa [← List.append_assoc]⟩
  stable := h.stable
  inWord := h.inWord

theorem Fails.mono (h : Fails faults accepts) (ha : ∀ {w}, accepts w → whole w) :
    Fails faults whole :=
  h.extend fun hacc => ⟨[], by rw [List.append_nil]; exact ha hacc⟩

theorem Fails.or (h₁ : Fails faults₁ accepts) (h₂ : Fails faults₂ accepts) :
    Fails (fun cs f => faults₁ cs f ∨ faults₂ cs f) accepts where
  completable hf := hf.elim h₁.completable h₂.completable
  stable hf ha := hf.imp (fun hf => h₁.stable hf ha) fun hf => h₂.stable hf ha
  inWord hf := hf.elim h₁.inWord h₂.inWord

/-- The first character may decide whether there is a fault. -/
theorem Fails.guard {applies : List Char → Prop} (h : Fails faults accepts)
    (happlies : ∀ {r r'}, r'.head? = r.head? → applies r → applies r') :
    Fails (fun cs f => applies cs ∧ faults cs f) accepts where
  completable hf := h.completable hf.2
  stable hf ha := ⟨happlies (head?_append_congr ha.1) hf.1, h.stable hf.2 ha⟩
  inWord hf := h.inWord hf.2

theorem Fails.none (h : ∀ {cs f}, ¬ faults cs f) : Fails faults accepts where
  completable hf := absurd hf h
  stable hf := absurd hf h
  inWord hf := absurd hf h

theorem Fails.some {faults : ι → List Char → Fault → Prop} (h : ∀ i, Fails (faults i) accepts) :
    Fails (fun cs f => ∃ i, faults i cs f) accepts where
  completable := fun ⟨i, hf⟩ => (h i).completable hf
  stable := fun ⟨i, hf⟩ ha => ⟨i, (h i).stable hf ha⟩
  inWord := fun ⟨i, hf⟩ => (h i).inWord hf

/-- Faults behind a step over the text. -/
theorem Fails.behind (h : Fails faults accepts) (hstep : Steps step)
    (hres : Resumes step accepts whole) :
    Fails (fun cs f => ∃ next, step cs next ∧ faults next f) whole where
  completable := by
    rintro cs f ⟨next, hs, hf⟩
    obtain ⟨p, t, rfl, hacc⟩ := h.completable hf
    obtain ⟨u, rfl⟩ := hstep.suffix hs
    obtain ⟨t', ht'⟩ := hres _ _ _ _ hs hacc
    exact ⟨u ++ p, t', by rw [List.append_assoc], by rwa [List.append_assoc]⟩
  stable := by
    rintro p r r' cause ⟨next, hs, hf⟩ ha
    obtain ⟨q, _, rfl, _⟩ := h.completable hf
    obtain ⟨u, rfl⟩ := List.suffix_append_self_iff.1 (hstep.suffix hs)
    rw [List.append_assoc] at hs ⊢
    exact ⟨q ++ r', hstep.exchange hs (head?_append_congr ha.1), h.stable hf ha⟩
  inWord := fun ⟨_, _, hf⟩ => h.inWord hf

/-- Faults behind any number of steps over the text. -/
theorem Fails.behindMany (h : Fails faults accepts) (hstep : Steps step)
    (hres : Resumes step accepts accepts) :
    Fails (fun cs f => ∃ next, Relation.ReflTransGen step cs next ∧ faults next f) accepts :=
  h.behind hstep.many (hres.many hstep)

/-! ### Faults at the front of the text -/

/-- A fault that the first character shows, or the end of the text. -/
structure OnChar (fault : List Char → Fault) : Prop where
  congr : ∀ {r r'}, r'.head? = r.head? → fault r' = ⟨(fault r).cause, r'⟩
  onWord_eq : ∀ cs, (fault cs).cause.onWord = false

theorem OnChar.rest_eq {fault : List Char → Fault} (h : OnChar fault) (cs : List Char) :
    (fault cs).rest = cs :=
  congrArg Fault.rest (h.congr rfl)

theorem describe_congr (h : r'.head? = r.head?) : describe r' = describe r := by
  cases r with
  | nil => rw [List.head?_eq_none_iff.1 h]
  | cons c r =>
    obtain ⟨ds, rfl⟩ := List.head?_eq_some_iff.1 h
    unfold describe
    split <;> simp_all

theorem onChar_unexpected {expected : String} (h : (expected == "a three-letter mnemonic") = false) :
    OnChar (Fault.unexpected expected) where
  congr hhead := by rw [Fault.unexpected, Fault.unexpected, describe_congr hhead]
  onWord_eq _ := h

theorem onChar_unterminated (construct : Construct) (expected : String) :
    OnChar (Fault.unterminated construct expected) where
  congr _ := rfl
  onWord_eq _ := rfl

theorem onChar_trailing : OnChar Fault.trailing where
  congr hhead := by rw [Fault.trailing, Fault.trailing, describe_congr hhead]
  onWord_eq _ := rfl

/-- A fault that the first character shows, where some text is accepted. -/
theorem Fails.here {applies : List Char → Prop} {fault : List Char → Fault} {t : List Char}
    (hfault : OnChar fault) (happlies : ∀ {r r'}, r'.head? = r.head? → applies r → applies r')
    (ht : accepts t) : Fails (fun cs f => applies cs ∧ f = fault cs) accepts where
  completable := by
    rintro cs _ ⟨_, rfl⟩
    exact ⟨[], t, (hfault.rest_eq cs).symm, ht⟩
  stable := by
    rintro p r r' cause ⟨hcs, hf⟩ ⟨hhead, _⟩
    -- The fault lies at the front, so nothing stands before it.
    obtain rfl : p = [] := by
      have hrest := congrArg Fault.rest hf
      rw [hfault.rest_eq] at hrest
      simpa using hrest
    refine ⟨happlies hhead hcs, ?_⟩
    rw [List.nil_append] at hf ⊢
    rw [hfault.congr hhead, ← hf]
  inWord := by
    rintro cs _ ⟨_, rfl⟩ hword
    rw [hfault.onWord_eq] at hword
    contradiction

/-- A fault that the word at the front shows, where some text is accepted. -/
theorem Fails.word {shows : List Char → Cause → Prop} {t : List Char}
    (hne : ∀ {cause}, ¬ shows [] cause) (hword : ∀ {w cause}, shows w cause → cause.onWord = true)
    (ht : accepts t) :
    Fails (fun cs f => ∃ cause, shows (cs.takeWhile Char.isAlphanum) cause ∧ f = ⟨cause, cs⟩)
      accepts where
  completable := by
    rintro cs _ ⟨cause, _, rfl⟩
    exact ⟨[], t, rfl, ht⟩
  stable := by
    rintro p r r' cause ⟨cause', hshows, hf⟩ ⟨_, hsame⟩
    obtain ⟨rfl, hrest⟩ := Fault.mk.inj hf
    obtain rfl : p = [] := by simpa using hrest.symm
    refine ⟨cause, ?_, rfl⟩
    rw [List.nil_append, hsame (hword hshows)]
    exact hshows
  inWord := by
    rintro cs _ ⟨cause, hshows, rfl⟩ _ hstops
    rw [takeWhile_eq_nil_iff.2 hstops] at hshows
    exact hne hshows

end DcpuAsm
