import DcpuAsm.Proofs.Concatenation
import DcpuAsm.Proofs.FaithfulErrors
import Mathlib.Data.List.Forall2

/-!
The log of a reading tells what was accepted. A record is made of each statement, with the line and
the column where it starts, and at the end one of their number. What stands behind a statement and its
trivia does not matter to it (`lineStep_exchange`), so a source that is cut where the loop stopped is
read to its end and tells the same (`statements_cut`, `ofSource_cut`). Main statement:
`parseLogged_tells`, the log is that of the statements of the program, or of those in front of the
error.
-/

namespace DcpuAsm

open Grammar (Trivia LinesAt)

variable {cs next u r src : List Char} {s : Statement} {fault : Fault} {placed : Placed}

/-- The record of a statement that starts at a location. -/
def acceptance (l : Location) (s : Statement) : Record :=
  ⟨.grammar, .trace, toString l.line ++ ":" ++ toString l.column ++ ": " ++ s.text⟩

/-- The record of how many statements there are. -/
def acceptedCount (n : Nat) : Record :=
  ⟨.grammar, .debug, "parsed " ++ toString n ++ " statement(s)"⟩

/-- The locations are those of the first characters of the statements of a source, each further down
or further right than the one before. -/
structure LocatesStatements (src : String) (p : Program) (locations : List Location) : Prop where
  length_eq : locations.length = p.size
  starts : ∃ start starts, Trivia src.toList start ∧ LinesAt start p.statements starts ∧
    List.Forall₂ (fun l rest => ∃ before, src.toList = before ++ rest ∧ l.Counts before)
      locations starts
  ascending : locations.Pairwise Location.Before

/-- The records are those of the statements in front of an error: the source cut in front of what
follows them is accepted, with the same records and their count. -/
structure LogsUpTo (src : String) (d : Diagnostic) (records : List Record) : Prop where
  trace : ∀ r ∈ records, r.level = .trace
  cut : ∃ before rest p, src = before ++ rest ∧ byteLength before.toList ≤ d.location.offset ∧
    p.size = records.length ∧
    Program.parseLogged before = (records ++ [acceptedCount p.size], .ok p)

/-! ### Where statements start -/

theorem suffix_of_mem_accepted (h : placed ∈ (statements cs).accepted) : placed.start <:+ cs := by
  induction cs using statements_induction with
  | nil =>
    rw [statements_nil] at h
    exact absurd h List.not_mem_nil
  | ok cs s next hs ih =>
    rw [statements_of_ok hs] at h
    rcases List.mem_cons.1 h with rfl | hlater
    · exact List.suffix_rfl
    · exact ((ih hlater).trans (skipTrivia_suffix next)).trans (properEnd_of_statementAt hs).1
  | error cs fault hne hs =>
    rw [statements_of_error hne hs] at h
    exact absurd h List.not_mem_nil

/-- Each statement starts further on than those in front of it. -/
theorem pairwise_accepted (cs : List Char) :
    (statements cs).accepted.Pairwise fun a b => ProperEnd b.start a.start := by
  induction cs using statements_induction with
  | nil =>
    rw [statements_nil]
    exact .nil
  | ok cs s next hs ih =>
    rw [statements_of_ok hs]
    refine .cons (fun later hlater => ?_) ih
    exact (properEnd_of_statementAt hs).of_isSuffix
      ((suffix_of_mem_accepted hlater).trans (skipTrivia_suffix next))
  | error cs fault hne hs =>
    rw [statements_of_error hne hs]
    exact .nil

/-- Of two ends of a source the shorter one lies behind. -/
theorem before_locateRest {later start : List Char} (hs : start <:+ src)
    (h : ProperEnd later start) : (locateRest src start).Before (locateRest src later) := by
  obtain ⟨a, rfl⟩ := hs
  obtain ⟨u, rfl⟩ := h.1
  have hu : u ≠ [] := ne_nil_of_properEnd h
  rw [locateRest_append, ← List.append_assoc, locateRest_append]
  exact Location.before_after_append a hu

theorem counts_locateRest {start : List Char} (hs : start <:+ src) :
    ∃ before, src = before ++ start ∧ (locateRest src start).Counts before := by
  obtain ⟨before, rfl⟩ := hs
  exact ⟨before, rfl, locateRest_append before start ▸ Location.counts_after before⟩

/-! ### Cutting a source -/

/-- A statement with more text behind it, which is not part of it. -/
def Placed.append (r : List Char) (placed : Placed) : Placed := ⟨placed.statement, placed.start ++ r⟩

/-- Up to where the loop stops it reads the same if the text ends there. -/
theorem statements_cut (cs : List Char) (h : (statements cs).fault = some fault) :
    ∃ u r, cs = u ++ r ∧ r ≠ [] ∧ fault.rest <:+ r ∧ (statements u).fault = none ∧
      (statements cs).accepted = (statements u).accepted.map (Placed.append r) := by
  induction cs using statements_induction with
  | nil =>
    rw [statements_nil] at h
    contradiction
  | ok cs s next hs ih =>
    have hstep : LineStep s cs (skipTrivia next) := ⟨next, hs, rfl⟩
    rw [fault_statements_of_lineStep hstep] at h
    obtain ⟨u, r, hskip, hr, hrest, hnone, haccepted⟩ := ih h
    rw [hskip] at hstep haccepted
    obtain ⟨v, rfl⟩ := (steps_lineStep s).suffix hstep
    -- Behind the statement the text that is cut starts as the whole text does, or is empty.
    have hcut : LineStep s (v ++ u) u := by
      refine lineStep_exchange hstep (List.append_ne_nil_of_right_ne_nil u hr) ?_ ?_
      · exact (stops_of_lineStep hstep).of_append
      · rintro items rfl
        exact (stops_comma_of_lineStep hstep).of_append
    refine ⟨v ++ u, r, (List.append_assoc v u r).symm, hr, hrest, ?_, ?_⟩
    · rw [fault_statements_of_lineStep hcut, hnone]
    · rw [accepted_statements_of_lineStep hstep, accepted_statements_of_lineStep hcut, haccepted,
        List.map_cons, Placed.append, List.append_assoc]
  | error cs fault' hne hs =>
    rw [statements_of_error hne hs] at h ⊢
    obtain rfl : fault' = fault := Option.some.inj h
    obtain ⟨p, -, hp, -⟩ := statementAt_fails.completable hs
    refine ⟨[], cs, rfl, hne, ⟨p, hp.symm⟩, ?_, ?_⟩
    · rw [statements_nil]
    · rw [statements_nil]
      rfl

theorem record_append (hs : placed.start <:+ src) (r : List Char) :
    (placed.append r).record (src ++ r) = placed.record src := by
  obtain ⟨before, hsrc⟩ := hs
  have hplace : locateRest (src ++ r) (placed.start ++ r) = locateRest src placed.start := by
    rw [← hsrc, List.append_assoc, locateRest_append, locateRest_append]
  rw [Placed.record, Placed.record, Placed.append, hplace]

/-- A source that is not accepted is, up to where the reading stopped, accepted with the same
records. -/
theorem ofSource_cut (h : (Reading.ofSource src).fault = some fault) :
    ∃ before r, src = before ++ r ∧ fault.rest <:+ r ∧ (Reading.ofSource before).fault = none ∧
      (Reading.ofSource src).accepted.map (Placed.record src) =
        (Reading.ofSource before).accepted.map (Placed.record before) := by
  obtain ⟨u, r, hskip, hr, hrest, hnone, haccepted⟩ := statements_cut _ h
  obtain ⟨q, hsrc⟩ := skipTrivia_suffix src
  rw [hskip] at hsrc haccepted
  subst hsrc
  have hstops : Stops startsTrivia u := (hskip ▸ stops_skipTrivia (q ++ (u ++ r))).of_append
  have hcut : skipTrivia (q ++ u) = u := by
    rw [skipTrivia_exchange q hskip (List.append_ne_nil_of_right_ne_nil u hr),
      skipTrivia_of_stops hstops]
  refine ⟨q ++ u, r, (List.append_assoc q u r).symm, hrest, ?_, ?_⟩
  · rw [Reading.ofSource, hcut, hnone]
  · rw [Reading.ofSource, Reading.ofSource, hskip, hcut, haccepted, List.map_map]
    refine List.map_congr_left fun placed hplaced => ?_
    rw [Function.comp_apply, ← List.append_assoc]
    exact record_append ((suffix_of_mem_accepted hplaced).trans (List.suffix_append q u)) r

/-! ### Whole sources -/

theorem parseLogged_of_ok {src : String} {p : Program} (h : Program.parse src = .ok p) :
    Program.parseLogged src = ((Reading.ofSource src.toList).accepted.map
      (Placed.record src.toList) ++ [acceptedCount p.size], .ok p) := by
  obtain ⟨hfault, hp⟩ := programParse_eq_ok_iff_reads.1 h
  refine Prod.ext ?_ h
  have hcount : (Reading.ofSource src.toList).program.countRecord = acceptedCount p.size := by
    rw [Program.size, hp]
    rfl
  rw [Program.parseLogged]
  dsimp only
  rw [Reading.records, hfault, hcount]

theorem fst_parseLogged_of_error {src : String} {fault : Fault}
    (h : (Reading.ofSource src.toList).fault = some fault) : (Program.parseLogged src).1 =
      (Reading.ofSource src.toList).accepted.map (Placed.record src.toList) := by
  rw [Program.parseLogged]
  dsimp only
  rw [Reading.records, h]

/-- The record of a placed statement is that of a statement at its location. -/
theorem map_record_eq_zipWith (src : List Char) (accepted : List Placed) :
    accepted.map (Placed.record src) =
      List.zipWith acceptance (accepted.map fun placed => locateRest src placed.start)
        (accepted.map Placed.statement) := by
  rw [List.zipWith_map, List.zipWith_self]
  rfl

theorem locatesStatements_of_ok {src : String} {p : Program} (h : Program.parse src = .ok p) :
    LocatesStatements src p ((Reading.ofSource src.toList).accepted.map
      fun placed => locateRest src.toList placed.start) := by
  obtain ⟨hfault, hp⟩ := programParse_eq_ok_iff_reads.1 h
  have hsuffix : ∀ placed ∈ (Reading.ofSource src.toList).accepted, placed.start <:+ src.toList :=
    fun placed hplaced => (suffix_of_mem_accepted hplaced).trans (skipTrivia_suffix _)
  refine ⟨?_, ?_, ?_⟩
  · rw [Program.size, hp, Reading.read, List.length_map, List.length_map]
  · refine ⟨_, _, trivia_skipTrivia _, hp ▸ linesAt_of_statements _ hfault, ?_⟩
    rw [List.forall₂_map_left_iff, List.forall₂_map_right_iff]
    exact List.forall₂_same.2 fun placed hplaced => counts_locateRest (hsuffix placed hplaced)
  · rw [List.pairwise_map]
    exact (pairwise_accepted _).imp_of_mem fun ha _ hab => before_locateRest (hsuffix _ ha) hab

theorem logsUpTo_of_error {src : String} {d : Diagnostic} (h : Program.parse src = .error d) :
    LogsUpTo src d (Program.parseLogged src).1 := by
  obtain ⟨fault, hresult, rfl⟩ := diagnosed_eq_error_iff.1 h
  have hfault := result_eq_error_iff.1 hresult
  rw [fst_parseLogged_of_error hfault]
  obtain ⟨before, r, hsrc, ⟨w, rfl⟩, hnone, hrecords⟩ := ofSource_cut hfault
  refine ⟨?_, .ofList before, .ofList (w ++ fault.rest), (Reading.ofSource before).program, ?_, ?_,
    ?_, ?_⟩
  · rw [List.forall_mem_map]
    exact fun placed _ => rfl
  · rw [← String.ofList_append, ← hsrc, String.ofList_toList]
  · rw [hsrc, ← List.append_assoc, diagnose_append, String.toList_ofList]
    show byteLength before ≤ byteLength (before ++ w)
    rw [byteLength_append]
    exact Nat.le_add_right ..
  · rw [hrecords, List.length_map, Program.size, Reading.program, List.length_map]
  · have hparse : Program.parse (.ofList before) = .ok (Reading.ofSource before).program := by
      rw [programParse_eq_ok_iff_reads, String.toList_ofList]
      exact ⟨hnone, rfl⟩
    rw [parseLogged_of_ok hparse, String.toList_ofList, hrecords]

/-- What is accepted is logged where it starts and in order, with its number at the end. Where a
source is refused the log is that of the part in front of the fault. A single statement and an
expression are not logged. -/
theorem parseLogged_tells (src : String) :
    (∀ p, Program.parse src = .ok p → ∃ locations, LocatesStatements src p locations ∧
      Program.parseLogged src =
        (List.zipWith acceptance locations p.statements ++ [acceptedCount p.size], .ok p)) ∧
      (∀ d, Program.parse src = .error d → (Program.parseLogged src).2 = .error d ∧
        LogsUpTo src d (Program.parseLogged src).1) ∧
      Statement.parseLogged src = ([], Statement.parse src) ∧
      Expression.parseLogged src = ([], Expression.parse src) := by
  refine ⟨fun p h => ?_, fun d h => ⟨h, logsUpTo_of_error h⟩, rfl, rfl⟩
  refine ⟨_, locatesStatements_of_ok h, ?_⟩
  rw [parseLogged_of_ok h, map_record_eq_zipWith, (programParse_eq_ok_iff_reads.1 h).2]
  rfl

end DcpuAsm
