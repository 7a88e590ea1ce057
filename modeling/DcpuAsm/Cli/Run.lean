import DcpuAsm.Listing
import DcpuAsm.Parse
import DcpuAsm.Cli.Folder

/-!
A run of the command. `Options.inspect` says what to do once the source has been looked up and
`conclude` what to say once the file has been written; neither touches a file. `Options.runOn` joins
them on a `Folder` and a `Disk`. What a run has to tell is a list of `Output`, whatever the threshold;
how much of it is shown is decided only when the list is written out (`transcript`). Two things are
not the run's own doing and are given to it: the width of texts on the terminal and what the clock
stamps on each record.
-/

namespace DcpuAsm

/-- What a run is to do. -/
structure Options where
  /-- How often more log was asked for. -/
  verbosity : Nat
  /-- Is the listing to be shown? -/
  listing : Bool
  /-- The name of the file to write, if one is to be written. -/
  output : Option String
  /-- The name of the file to read. -/
  input : String
  deriving DecidableEq, Repr

/-- One thing that a run has to tell. -/
inductive Output where
  | record (r : Record)
  | listing (text : String)
  deriving DecidableEq, Repr

/-- The text of an output at a threshold. The listing is always shown, with a line feed more. -/
def Output.text (stamp : Record → String) (threshold : Level) : Output → String
  | .record r => if r.shownAt threshold then r.text (stamp r) else ""
  | .listing text => text ++ "\n"

/-- The text of all outputs at a threshold, in order. -/
def transcript (stamp : Record → String) (threshold : Level) (outputs : List Output) : String :=
  .join (outputs.map (Output.text stamp threshold))

/-- The least severe level that a run shows. -/
def Options.threshold (o : Options) : Level := .ofVerbosity o.verbosity

/-- A record of the command itself. -/
def say (level : Level) (message : String) : Output := .record ⟨.tool, level, message⟩

/-- What the arguments were. -/
def Options.arguments (o : Options) : Output :=
  say .debug ("Arguments:\n\tVerbosity: " ++ o.threshold.text ++
    "\n\tShow listing: " ++ (if o.listing then "true" else "false") ++
    "\n\tOutfile: " ++ o.output.getD "None" ++
    "\n\tInfile: " ++ o.input)

/-- What a run does once its source has been looked up. -/
inductive Stage where
  | done (outputs : List Output) (success : Bool)
  /-- A text is to be written to a file before the run ends. -/
  | saving (outputs : List Output) (name text : String)
  deriving DecidableEq, Repr

/-- What a run tells where its source cannot be looked up. -/
def Options.unreadable (o : Options) (fault : FileFault) : List Output :=
  [o.arguments, say .error
    ("fatal: unable to read input file `" ++ o.input ++ "`: " ++ fault.message)]

/-- What a run tells where its source is not accepted. No threshold of a run reaches the records of
single statements, so they are not made. -/
def Options.refused (o : Options) (d : Diagnostic) : List Output :=
  [o.arguments, say .error ("fatal: " ++ o.input ++ ":" ++ d.message)]

/-- What a run tells of the statements that it has read. -/
def Options.counted (o : Options) (p : Program) : List Output :=
  [.record p.countRecord, say .info (p.countText ++ " from `" ++ o.input ++ "`")]

/-- What a run tells up to the file that it may have to write. -/
def Options.told (width : String → Nat) (o : Options) (p : Program) : List Output :=
  o.arguments :: (o.counted p ++ if o.listing then [.listing (p.listing width)] else [])

/-- The part of a run that follows a source that was read. -/
def Options.afterReading (width : String → Nat) (o : Options) (src : String) : Stage :=
  match Program.parse src with
  | .error d => .done (o.refused d) false
  | .ok p =>
    match o.output with
    | none => .done (o.told width p) true
    | some name => .saving (o.told width p) name p.text

/-- What a run does with the source that was looked up, or with the reason why there is none. -/
def Options.inspect (width : String → Nat) (o : Options) : Except FileFault String → Stage
  | .ok src => o.afterReading width src
  | .error fault => .done (o.unreadable fault) false

/-- What a run tells of the file that was written, or of the reason why it was not. -/
def conclude (name : String) : Option FileFault → Output
  | none => say .info ("wrote canonical source to `" ++ name ++ "`")
  | some fault =>
    say .error ("fatal: unable to write output file `" ++ name ++ "`: " ++ fault.message)

/-- How a run ended. -/
structure Outcome where
  outputs : List Output
  success : Bool
  folder : Folder
  deriving DecidableEq

/-- The exit code of a run. -/
def exitCode (success : Bool) : Nat := if success then 0 else 1

/-- A whole run in a working folder on a disk. -/
def Options.runOn (width : String → Nat) (disk : Disk) (o : Options) (f : Folder) : Outcome :=
  match o.inspect width (f.read o.input) with
  | .done outputs success => ⟨outputs, success, f⟩
  | .saving outputs name text =>
    match disk.write f name text with
    | .ok saved => ⟨outputs ++ [conclude name none], true, saved⟩
    | .error fault => ⟨outputs ++ [conclude name (some fault)], false, f⟩

end DcpuAsm
