import DcpuAsm.Proofs.Seam

/-!
What it means that a rule reads a class of texts. `Reads rule Is starts goesOn` ties a rule to a
relation `Is` between texts and values that says nothing of how far to read: a match takes a text of
the class off the front, every text of the class is matched where the next character does not go on
with it, and what stands behind a match does not matter beyond that character. Main statement: it
holds of an ordered choice if it holds of both parts and no text starts both (`Reads.orElse`).
-/

namespace DcpuAsm

variable {α β : Type}

/-- A rule takes the texts of a class off the front. Characters in `starts` decide that the rule
applies, and characters in `goesOn` may make a text of the class longer. -/
structure Reads (rule : List Char → Attempt α) (Is : List Char → α → Prop)
    (starts goesOn : Char → Bool) : Prop where
  sound : ∀ {cs next v}, rule cs = .matched v next → ∃ w, cs = w ++ next ∧ Is w v
  complete : ∀ {w r v}, Is w v → Stops goesOn r → rule (w ++ r) = .matched v r
  exchange : ∀ {w r r' v}, rule (w ++ r) = .matched v r → Seam goesOn r r' →
    rule (w ++ r') = .matched v r'
  noMatch_iff : ∀ {cs}, rule cs = .noMatch ↔ Stops starts cs

variable {rule rule₁ rule₂ : List Char → Attempt α} {Is Is' Is₁ Is₂ : List Char → α → Prop}
variable {starts starts₁ starts₂ goesOn goesOn' : Char → Bool} {w : List Char} {v : α}

/-- A text of the class starts as the rule demands, so it is not empty. -/
theorem Reads.starts_of (h : Reads rule Is starts goesOn) (hw : Is w v) :
    ∃ c ds, w = c :: ds ∧ starts c = true := by
  rw [← not_stops_iff, ← h.noMatch_iff]
  have := h.complete (r := []) hw stops_nil
  rw [List.append_nil] at this
  rw [this]
  exact nofun

theorem Reads.matched_self (h : Reads rule Is starts goesOn) (hw : Is w v) :
    rule w = .matched v [] := by
  simpa using h.complete (r := []) hw stops_nil

/-- The first character decides whether a rule applies. -/
theorem Reads.noMatch_congr {r r' : List Char} (h : Reads rule Is starts goesOn)
    (hhead : r'.head? = r.head?) (hno : rule r = .noMatch) : rule r' = .noMatch :=
  h.noMatch_iff.2 ((h.noMatch_iff.1 hno).of_head?_eq hhead)

theorem Reads.congr (h : Reads rule Is starts goesOn) (hIs : ∀ {w v}, Is w v ↔ Is' w v) :
    Reads rule Is' starts goesOn where
  sound hm := let ⟨w, hw, his⟩ := h.sound hm; ⟨w, hw, hIs.1 his⟩
  complete hw hs := h.complete (hIs.2 hw) hs
  exchange := h.exchange
  noMatch_iff := h.noMatch_iff

/-- More may be thought to go on with the class than does. -/
theorem Reads.mono (h : Reads rule Is starts goesOn)
    (hgo : ∀ c, goesOn c = true → goesOn' c = true) : Reads rule Is starts goesOn' where
  sound := h.sound
  complete hw hs := h.complete hw (hs.mono hgo)
  exchange hm hs := h.exchange hm (hs.mono hgo)
  noMatch_iff := h.noMatch_iff

theorem Reads.map (h : Reads rule Is starts goesOn) (f : α → β) :
    Reads (fun cs => (rule cs).map f) (fun w b => ∃ a, Is w a ∧ f a = b) starts goesOn where
  sound hm := by
    obtain ⟨a, ha, rfl⟩ := Match.map_eq_matched.1 hm
    obtain ⟨w, hw, his⟩ := h.sound ha
    exact ⟨w, hw, a, his, rfl⟩
  complete := by
    rintro w r b ⟨a, ha, rfl⟩ hs
    exact Match.map_eq_matched.2 ⟨a, h.complete ha hs, rfl⟩
  exchange hm hs := by
    obtain ⟨a, ha, rfl⟩ := Match.map_eq_matched.1 hm
    exact Match.map_eq_matched.2 ⟨a, h.exchange ha hs, rfl⟩
  noMatch_iff := Match.map_eq_noMatch.trans h.noMatch_iff

/-- An ordered choice reads both classes, the order being no matter where no text starts both. -/
theorem Reads.orElse (h₁ : Reads rule₁ Is₁ starts₁ goesOn) (h₂ : Reads rule₂ Is₂ starts₂ goesOn)
    (hdisj : ∀ c, starts₂ c = true → starts₁ c = false) :
    Reads (fun cs => (rule₁ cs).orElse fun _ => rule₂ cs) (fun w v => Is₁ w v ∨ Is₂ w v)
      (fun c => starts₁ c || starts₂ c) goesOn where
  sound hm := by
    rcases Match.orElse_eq_matched.1 hm with hm | ⟨_, hm⟩
    · obtain ⟨w, hw, his⟩ := h₁.sound hm; exact ⟨w, hw, Or.inl his⟩
    · obtain ⟨w, hw, his⟩ := h₂.sound hm; exact ⟨w, hw, Or.inr his⟩
  complete := by
    rintro w r v (hw | hw) hs
    · exact Match.orElse_eq_matched.2 (Or.inl (h₁.complete hw hs))
    · obtain ⟨c, ds, rfl, hc⟩ := h₂.starts_of hw
      exact Match.orElse_eq_matched.2 (Or.inr ⟨h₁.noMatch_iff.2 (hdisj c hc), h₂.complete hw hs⟩)
  exchange := by
    intro w r r' v hm hs
    rcases Match.orElse_eq_matched.1 hm with hm | ⟨_, hm⟩
    · exact Match.orElse_eq_matched.2 (Or.inl (h₁.exchange hm hs))
    · have hm' := h₂.exchange hm hs
      have hstart : ¬ Stops starts₂ (w ++ r') := by
        rw [← h₂.noMatch_iff, hm']; exact nofun
      obtain ⟨c, ds, hcs, hc⟩ := not_stops_iff.1 hstart
      refine Match.orElse_eq_matched.2 (Or.inr ⟨h₁.noMatch_iff.2 ?_, hm'⟩)
      rw [hcs]; exact hdisj c hc
  noMatch_iff := by
    intro cs
    rw [Match.orElse_eq_noMatch, h₁.noMatch_iff, h₂.noMatch_iff]
    cases cs <;> simp

end DcpuAsm
