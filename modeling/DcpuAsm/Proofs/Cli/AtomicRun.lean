import DcpuAsm.Cli.Run
import DcpuAsm.Proofs.Cli.WrittenFile
import DcpuAsm.Proofs.RoundTrip

/-!
Runs of the command and their files. A run ends in one of five ways (`Options.Ends`), and what it
leaves behind is read off them. Main statement: `runOn_atomic`, a run does all that it was asked to or
changes no file, and one that reads what another run has written finds the same program there.
-/

namespace DcpuAsm

variable {width : String → Nat} {disk : Disk} {o : Options} {f g : Folder} {p q : Program}
variable {name : String} {outcome : Outcome}

/-! ### How runs end -/

/-- The source of a run can be read, and it is the text of a program. -/
def Options.Yields (o : Options) (f : Folder) (p : Program) : Prop :=
  ∃ src, f.read o.input = .ok src ∧ Program.parse src = .ok p

/-- The file that a run is to write, if there is one, can be written. -/
def Options.CanSave (disk : Disk) (o : Options) (f : Folder) (p : Program) : Prop :=
  ∀ name, o.output = some name → ∃ g, disk.write f name p.text = .ok g

/-- What a run tells in the end: something of the file that it was to write, if there was one. -/
def Options.Concludes (o : Options) (last : List Output) : Prop :=
  o.output = none ∧ last = [] ∨
    ∃ name result, o.output = some name ∧ last = [conclude name result]

/-- The ways in which a run may end. -/
inductive Options.Ends (width : String → Nat) (disk : Disk) (o : Options) (f : Folder) :
    Outcome → Prop where
  | unreadable {fault : FileFault} (hread : f.read o.input = .error fault) :
    Ends width disk o f ⟨o.unreadable fault, false, f⟩
  | refused {src : String} {d : Diagnostic} (hread : f.read o.input = .ok src)
    (hparse : Program.parse src = .error d) : Ends width disk o f ⟨o.refused d, false, f⟩
  | accepted {p : Program} (hyields : o.Yields f p) (houtput : o.output = none) :
    Ends width disk o f ⟨o.told width p, true, f⟩
  | saved {p : Program} {name : String} {g : Folder} (hyields : o.Yields f p)
    (houtput : o.output = some name) (hwrite : disk.write f name p.text = .ok g) :
    Ends width disk o f ⟨o.told width p ++ [conclude name none], true, g⟩
  | unsaved {p : Program} {name : String} {fault : FileFault} (hyields : o.Yields f p)
    (houtput : o.output = some name) (hwrite : disk.write f name p.text = .error fault) :
    Ends width disk o f ⟨o.told width p ++ [conclude name (some fault)], false, f⟩

theorem runOn_ends (width : String → Nat) (disk : Disk) (o : Options) (f : Folder) :
    o.Ends width disk f (o.runOn width disk f) := by
  rw [Options.runOn]
  cases hread : f.read o.input with
  | error fault => exact .unreadable hread
  | ok src =>
    rw [Options.inspect, Options.afterReading]
    cases hparse : Program.parse src with
    | error d => exact .refused hread hparse
    | ok p =>
      cases houtput : o.output with
      | none => exact .accepted ⟨src, hread, hparse⟩ houtput
      | some name =>
        cases hwrite : disk.write f name p.text with
        | ok g =>
          dsimp only
          rw [hwrite]
          exact .saved ⟨src, hread, hparse⟩ houtput hwrite
        | error fault =>
          dsimp only
          rw [hwrite]
          exact .unsaved ⟨src, hread, hparse⟩ houtput hwrite

/-- No run ends in two ways. -/
theorem Options.Ends.runOn_eq (h : o.Ends width disk f outcome) : o.runOn width disk f = outcome := by
  cases h with
  | unreadable hread =>
    rw [runOn, hread]
    rfl
  | refused hread hparse => rw [runOn, hread, inspect, afterReading, hparse]
  | accepted hyields houtput =>
    obtain ⟨src, hread, hparse⟩ := hyields
    rw [runOn, hread, inspect, afterReading, hparse, houtput]
  | saved hyields houtput hwrite | unsaved hyields houtput hwrite =>
    obtain ⟨src, hread, hparse⟩ := hyields
    rw [runOn, hread, inspect, afterReading, hparse, houtput]
    dsimp only
    rw [hwrite]

theorem Options.Yields.unique (hp : o.Yields f p) (hq : o.Yields f q) : p = q := by
  obtain ⟨src, hread, hparse⟩ := hp
  obtain ⟨src', hread', hparse'⟩ := hq
  obtain rfl := Except.ok.inj (hread.symm.trans hread')
  exact Except.ok.inj (hparse.symm.trans hparse')

theorem not_yields_of_unreadable {fault : FileFault} (h : f.read o.input = .error fault) :
    ¬ o.Yields f p := by
  rintro ⟨src, hread, -⟩
  rw [h] at hread
  contradiction

theorem not_yields_of_refused {src : String} {d : Diagnostic} (hread : f.read o.input = .ok src)
    (hparse : Program.parse src = .error d) : ¬ o.Yields f p := by
  rintro ⟨src', hread', hparse'⟩
  obtain rfl := Except.ok.inj (hread.symm.trans hread')
  rw [hparse] at hparse'
  contradiction

/-! ### What a run leaves behind -/

/-- The listings among the things told. -/
def listings (outputs : List Output) : List String :=
  outputs.filterMap fun
    | .listing text => some text
    | .record _ => none

theorem listings_append (as bs : List Output) : listings (as ++ bs) = listings as ++ listings bs :=
  List.filterMap_append

theorem Options.Concludes.listings_eq {last : List Output} (h : o.Concludes last) :
    listings last = [] := by
  rcases h with ⟨-, rfl⟩ | ⟨name, result, -, rfl⟩
  · rfl
  · cases result <;> rfl

theorem listings_told (width : String → Nat) (o : Options) (p : Program) :
    listings (o.told width p) = if o.listing then [p.listing width] else [] := by
  rw [Options.told]
  split <;> rfl

/-- The same run, with or without a listing. -/
def Options.showing (listing : Bool) (o : Options) : Options := { o with listing }

namespace Options.Ends

theorem success_iff (h : o.Ends width disk f outcome) :
    outcome.success = true ↔ ∃ p, o.Yields f p ∧ o.CanSave disk f p := by
  cases h with
  | unreadable hread =>
    refine iff_of_false Bool.false_ne_true ?_
    rintro ⟨p, hyields, -⟩
    exact not_yields_of_unreadable hread hyields
  | refused hread hparse =>
    refine iff_of_false Bool.false_ne_true ?_
    rintro ⟨p, hyields, -⟩
    exact not_yields_of_refused hread hparse hyields
  | accepted hyields houtput =>
    refine iff_of_true rfl ⟨_, hyields, fun name hname => ?_⟩
    rw [houtput] at hname
    contradiction
  | saved hyields houtput hwrite =>
    refine iff_of_true rfl ⟨_, hyields, fun name hname => ?_⟩
    obtain rfl := Option.some.inj (houtput.symm.trans hname)
    exact ⟨_, hwrite⟩
  | unsaved hyields houtput hwrite =>
    refine iff_of_false Bool.false_ne_true ?_
    rintro ⟨p, hyields', hsave⟩
    obtain rfl := hyields.unique hyields'
    obtain ⟨g, hg⟩ := hsave _ houtput
    rw [hwrite] at hg
    contradiction

/-- A run that fails changes nothing, and neither does one that has nothing to write. -/
theorem folder_eq (h : o.Ends width disk f outcome)
    (hkeep : outcome.success = false ∨ o.output = none) :
    outcome.folder = f := by
  cases h with
  | unreadable | refused | accepted | unsaved => rfl
  | saved hyields houtput hwrite =>
    rcases hkeep with hfailed | hnone
    · contradiction
    · rw [houtput] at hnone
      contradiction

theorem saved_folder (h : o.Ends width disk f outcome) (hyields : o.Yields f p)
    (houtput : o.output = some name) (hsuccess : outcome.success = true) :
    f.Saved outcome.folder name p.text := by
  cases h with
  | unreadable | refused | unsaved => contradiction
  | accepted hyields' hnone =>
    rw [houtput] at hnone
    contradiction
  | saved hyields' houtput' hwrite =>
    obtain rfl := hyields.unique hyields'
    obtain rfl := Option.some.inj (houtput.symm.trans houtput')
    exact Folder.saved_of_write (disk.write_eq hwrite)

/-- Once a program was read, all that is left open is what becomes of the file. -/
theorem outputs_eq (h : o.Ends width disk f outcome) (hyields : o.Yields f p) :
    ∃ last, o.Concludes last ∧ outcome.outputs = o.told width p ++ last := by
  cases h with
  | unreadable hread => exact absurd hyields (not_yields_of_unreadable hread)
  | refused hread hparse => exact absurd hyields (not_yields_of_refused hread hparse)
  | accepted hyields' houtput =>
    rw [hyields.unique hyields']
    exact ⟨[], .inl ⟨houtput, rfl⟩, (List.append_nil _).symm⟩
  | saved hyields' houtput | unsaved hyields' houtput =>
    rw [hyields.unique hyields']
    exact ⟨_, .inr ⟨_, _, houtput, rfl⟩, rfl⟩

/-- The listing is told if it was asked for, whether the program is saved or not. -/
theorem listings_eq (h : o.Ends width disk f outcome) (hyields : o.Yields f p) :
    listings outcome.outputs = if o.listing then [p.listing width] else [] := by
  obtain ⟨last, hlast, houtputs⟩ := h.outputs_eq hyields
  rw [houtputs, listings_append, listings_told, hlast.listings_eq, List.append_nil]

theorem listings_eq_nil (h : o.Ends width disk f outcome) (hnone : ∀ p, ¬ o.Yields f p) :
    listings outcome.outputs = [] := by
  cases h with
  | unreadable | refused => rfl
  | accepted hyields | saved hyields | unsaved hyields => exact absurd hyields (hnone _)

end Options.Ends

/-! ### Runs that do all or nothing -/

theorem exitCode_eq_zero_iff {success : Bool} : exitCode success = 0 ↔ success = true := by
  cases success <;> decide

theorem exitCode_eq_one_iff {success : Bool} : exitCode success = 1 ↔ success = false := by
  cases success <;> decide

/-- A run did all that it was asked to, or left every file as it was. -/
structure Options.AllOrNothing (disk : Disk) (o : Options) (f : Folder) (outcome : Outcome) :
    Prop where
  exit_zero_iff : exitCode outcome.success = 0 ↔ ∃ p, o.Yields f p ∧ o.CanSave disk f p
  exit_one : (¬ ∃ p, o.Yields f p ∧ o.CanSave disk f p) → exitCode outcome.success = 1
  /-- Without a program there is nothing to list and nothing to write. -/
  unread : (∀ p, ¬ o.Yields f p) → listings outcome.outputs = [] ∧ outcome.folder = f
  failed : outcome.success = false → outcome.folder = f
  unnamed : o.output = none → outcome.folder = f
  saved : ∀ p name, o.Yields f p → o.output = some name → outcome.success = true →
    f.Saved outcome.folder name p.text

/-- A run in the folder `g` did all that a run can do that finds `p` in its source. -/
structure Options.FindsAgain (disk : Disk) (o : Options) (g : Folder) (p : Program)
    (outcome : Outcome) : Prop where
  exit_zero_iff : exitCode outcome.success = 0 ↔ o.CanSave disk g p
  saved : ∀ name, o.output = some name → outcome.success = true →
    g.Saved outcome.folder name p.text
  /-- The file that the run has read is not changed by writing it. -/
  settled : o.output = some o.input → ∀ path, outcome.folder.get? path = g.get? path

theorem runOn_allOrNothing (width : String → Nat) (disk : Disk) (o : Options) (f : Folder) :
    o.AllOrNothing disk f (o.runOn width disk f) := by
  have hends := runOn_ends width disk o f
  have hexit := exitCode_eq_zero_iff.trans hends.success_iff
  refine ⟨hexit, fun hno => ?_, fun hnone => ?_, fun hfailed => ?_, fun hnone => ?_, ?_⟩
  · rw [exitCode_eq_one_iff, ← Bool.not_eq_true, hends.success_iff]
    exact hno
  · refine ⟨hends.listings_eq_nil hnone, hends.folder_eq (.inl ?_)⟩
    rw [← Bool.not_eq_true, hends.success_iff]
    rintro ⟨p, hyields, -⟩
    exact hnone p hyields
  · exact hends.folder_eq (.inl hfailed)
  · exact hends.folder_eq (.inr hnone)
  · exact fun p name => hends.saved_folder

/-- What a program was read from is not the only text of it: its canonical text is another. -/
theorem parse_text_of_yields (h : o.Yields f p) : Program.parse p.text = .ok p := by
  obtain ⟨src, -, hparse⟩ := h
  have hwf : p.WellFormed := (programParse_eq_ok_iff.1 hparse).wellFormed
  exact programParse_eq_ok_iff.2 hwf.derives

theorem findsAgain_of_yields (h : o.Yields g p) (hread : g.read o.input = .ok p.text) :
    o.FindsAgain disk g p (o.runOn width disk g) := by
  have hends := runOn_ends width disk o g
  refine ⟨?_, fun name => hends.saved_folder h, fun hself path => ?_⟩
  · rw [exitCode_eq_zero_iff, hends.success_iff]
    refine ⟨?_, fun hsave => ⟨p, h, hsave⟩⟩
    rintro ⟨q, hyields, hsave⟩
    rwa [hyields.unique h] at hsave
  · cases hsuccess : (o.runOn width disk g).success with
    | true => exact (hends.saved_folder h hself hsuccess).get?_eq hread path
    | false => rw [hends.folder_eq (.inl hsuccess)]

/-- A run succeeds if its source is a program and the file it is to write can be written, and else
changes nothing. Where it has written a file, later runs on that file find the program again. -/
theorem runOn_atomic (width : String → Nat) (disk : Disk) (o : Options) (f : Folder) :
    o.AllOrNothing disk f (o.runOn width disk f) ∧
      ∀ p name, o.Yields f p → o.output = some name → (o.runOn width disk f).success = true →
        ∀ (later : Disk) (again : Options), again.input = name →
          let g := (o.runOn width disk f).folder
          again.FindsAgain later g p (again.runOn width later g) ∧
            listings ((again.showing true).runOn width later g).outputs = [p.listing width] ∧
            listings ((o.showing true).runOn width disk f).outputs = [p.listing width] := by
  refine ⟨runOn_allOrNothing width disk o f, ?_⟩
  intro p name hyields houtput hsuccess later again hinput g
  have hread : g.read again.input = .ok p.text :=
    hinput ▸ ((runOn_ends width disk o f).saved_folder hyields houtput hsuccess).read_eq
  have hagain : again.Yields g p := ⟨p.text, hread, parse_text_of_yields hyields⟩
  exact ⟨findsAgain_of_yields hagain hread,
    (runOn_ends width later (again.showing true) g).listings_eq hagain,
    (runOn_ends width disk (o.showing true) f).listings_eq hyields⟩

end DcpuAsm
