import DcpuAsm.Proofs.Fails.Program
import DcpuAsm.Proofs.Position

/-!
Errors come in time. A source may still turn out well as long as nothing wrong has been read, and
once the offending character or word is there nothing behind it can help. `InTime` says so of one
diagnostic, for a source that is cut where the diagnostic lies. Main statement:
`parse_errors_in_time`, it holds of all diagnostics of the three entry points.
-/

namespace DcpuAsm

variable {α : Type}

/-- A diagnostic comes in time for a source `before ++ rest` if it lies between the two. -/
structure InTime (parse : String → Except Diagnostic α) (before rest : String) (d : Diagnostic) :
    Prop where
  offset_eq : d.location.offset = byteLength before.toList
  /-- Not too late: what stands in front of it can be completed. -/
  completable : ∃ t value, parse (before ++ t) = .ok value
  /-- Not too soon: the character that it lies at decides, whatever follows. -/
  decided_by_char : d.cause.onWord = false → ∀ c, rest.toList.head? = some c → ∀ t,
    parse (before ++ .singleton c ++ t) = .error d
  /-- Where the cause lies in a word, the whole word decides. -/
  decided_by_word : d.cause.onWord = true → ∀ t, Stops Char.isAlphanum t.toList →
    parse (before ++ .ofList (rest.toList.takeWhile Char.isAlphanum) ++ t) = .error d

/-- Each error lies at a place of the source and comes in time there. -/
def FailsInTime (parse : String → Except Diagnostic α) : Prop :=
  ∀ src d, parse src = .error d → ∃ before rest, src = before ++ rest ∧ InTime parse before rest d

/-- The word at the front is all that a cause on a word looks at. -/
theorem seesAlike_word {cause : Cause} {rest t : List Char} (hword : ¬ Stops Char.isAlphanum rest)
    (ht : Stops Char.isAlphanum t) :
    cause.SeesAlike rest (rest.takeWhile Char.isAlphanum ++ t) := by
  have hne : rest.takeWhile Char.isAlphanum ≠ [] := mt takeWhile_eq_nil_iff.1 hword
  refine ⟨?_, fun _ => takeWhile_append_of_stops (List.all_eq_true.1 List.all_takeWhile) ht⟩
  rw [head?_append_of_ne_nil (r := rest.dropWhile Char.isAlphanum) hne,
    List.takeWhile_append_dropWhile]

theorem seesAlike_char {cause : Cause} {rest t : List Char} {c : Char}
    (hword : cause.onWord = false) (hc : rest.head? = some c) : cause.SeesAlike rest (c :: t) := by
  refine ⟨hc.symm, fun h => ?_⟩
  rw [hword] at h
  contradiction

/-- Where the faults of a rule come no sooner and no later than they have to, so do the errors. -/
theorem Fails.inTime {rule : List Char → Committed α}
    (h : Fails (fun cs f => rule cs = .error f) fun w => ∃ value, rule w = .ok value) :
    FailsInTime fun src => diagnosed src.toList (rule src.toList) := by
  intro src d hd
  obtain ⟨fault, hfault, rfl⟩ := diagnosed_eq_error_iff.1 hd
  obtain ⟨p, t, hp, value, hvalue⟩ := h.completable hfault
  have hlies : fault.diagnose src.toList = ⟨fault.cause, .after p⟩ := by rw [hp, diagnose_append]
  have hagain {r : List Char} (hr : fault.cause.SeesAlike fault.rest r) :
      diagnosed (p ++ r) (rule (p ++ r)) = .error ⟨fault.cause, .after p⟩ := by
    rw [hp] at hfault
    exact diagnosed_eq_error_iff.2 ⟨_, h.stable hfault hr, (diagnose_append p ⟨_, r⟩).symm⟩
  rw [hlies]
  refine ⟨.ofList p, .ofList fault.rest, ?_, ?_, ?_, ?_, ?_⟩
  · rw [← String.ofList_append, ← hp, String.ofList_toList]
  · rw [String.toList_ofList]
    rfl
  · refine ⟨.ofList t, value, diagnosed_eq_ok_iff.2 ?_⟩
    rwa [String.toList_append, String.toList_ofList, String.toList_ofList]
  · intro hword c hc t
    rw [String.toList_ofList] at hc
    simpa using hagain (seesAlike_char (t := t.toList) hword hc)
  · intro hword t ht
    simpa using hagain (seesAlike_word (h.inWord hfault hword) ht)

/-- The text in front of an error can be completed, and the offending character or word decides that
there is this error, whatever stands behind it. -/
theorem parse_errors_in_time :
    FailsInTime Program.parse ∧ FailsInTime Statement.parse ∧ FailsInTime Expression.parse :=
  ⟨program_fails.inTime, statementOnly_fails.inTime, operandOnly_fails.inTime⟩

end DcpuAsm
