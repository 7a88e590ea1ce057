import DcpuAsm.Cli.Run

/-!
The arguments of the command. `Invocation.ofArgs` reads them from left to right: a request for the
help or the version answers at once, and so does an argument that fits nowhere; whether all that is
needed was given is asked at the end. The value of `-o` may be attached to it or be the next argument,
unless that is a flag itself.
-/

namespace DcpuAsm

/-- Why arguments are refused. -/
inductive Misuse where
  | unknownFlag (flag : String)
  /-- A second file to read. -/
  | secondInput (argument : String)
  | missingValue
  | repeated (flag : String)
  | missingInput
  deriving DecidableEq, Repr

def Misuse.message : Misuse → String
  | .unknownFlag flag => "error: unknown argument '" ++ flag ++ "'"
  | .secondInput argument => "error: unexpected argument '" ++ argument ++ "'"
  | .missingValue => "error: the argument '-o <output>' needs a value"
  | .repeated flag => "error: the argument '" ++ flag ++ "' was given more than once"
  | .missingInput => "error: the argument '<INPUT>' was not given"

/-- What the arguments ask for. -/
inductive Invocation where
  | help
  | version
  | run (options : Options)
  deriving DecidableEq, Repr

/-- What stops the reading of arguments before their end. -/
inductive Halt where
  | help
  | version
  | misuse (reason : Misuse)
  deriving DecidableEq, Repr

/-- The arguments read so far. -/
structure ArgState where
  verbosity : Nat
  /-- How often the listing was asked for. -/
  listings : Nat
  /-- The uses of `-o`, the last one first, with their values. -/
  outputs : List (Option String)
  /-- Is the next argument the value of the last `-o`? -/
  awaiting : Bool
  /-- Have the flags been closed by a double dash? -/
  closed : Bool
  input : Option String
  deriving DecidableEq, Repr

/-- Before the first argument. -/
def ArgState.start : ArgState := ⟨0, 0, [], false, false, none⟩

/-- An argument that is no flag. -/
def ArgState.operand (s : ArgState) (arg : String) : Except Halt ArgState :=
  match s.input with
  | none => .ok { s with input := some arg }
  | some _ => .error (.misuse (.secondInput arg))

/-- The value of the last `-o`. -/
def ArgState.value (s : ArgState) (text : String) : ArgState :=
  { s with outputs := some text :: s.outputs.tail, awaiting := false }

/-- A flag with a long name, behind its dashes. What follows an equals sign is left out. -/
def ArgState.longFlag (s : ArgState) (name : List Char) : Except Halt ArgState :=
  match String.ofList (name.takeWhile (· ≠ '=')) with
  | "show" | "s" => .ok { s with listings := s.listings + 1, awaiting := false }
  | "help" => .error .help
  | "version" => .error .version
  | other => .error (.misuse (.unknownFlag ("--" ++ other)))

/-- Flags of one letter behind one dash. The rest behind an `o` is its value, less the equals signs
in front. -/
def ArgState.shortFlags (s : ArgState) : List Char → Except Halt ArgState
  | [] => .ok s
  | 'v' :: cs => ArgState.shortFlags { s with verbosity := s.verbosity + 1, awaiting := false } cs
  | 'd' :: cs => ArgState.shortFlags { s with listings := s.listings + 1, awaiting := false } cs
  | 'h' :: _ => .error .help
  | 'V' :: _ => .error .version
  | ['o'] => .ok { s with outputs := none :: s.outputs, awaiting := true }
  | 'o' :: cs =>
    .ok (ArgState.value { s with outputs := none :: s.outputs } (.ofList (cs.dropWhile (· = '='))))
  | c :: _ => .error (.misuse (.unknownFlag ("-" ++ .singleton c)))

/-- Reads one more argument. A lone dash and an empty argument are no flags. -/
def ArgState.next (s : ArgState) (arg : String) : Except Halt ArgState :=
  if s.closed then s.operand arg
  else
    match arg.toList with
    | ['-', '-'] => .ok { s with closed := true }
    | '-' :: '-' :: name => s.longFlag (name.dropWhile (· = '-'))
    | '-' :: c :: cs => s.shortFlags (c :: cs)
    | _ => if s.awaiting then .ok (s.value arg) else s.operand arg

/-- Checks that all that is needed was given, and no more than once. -/
def ArgState.finish (s : ArgState) : Except Misuse Options :=
  match s.outputs, s.input with
  | _ :: _ :: _, _ => .error (.repeated "-o")
  | [none], _ => .error .missingValue
  | _, none => .error .missingInput
  | outputs, some input =>
    if s.listings ≤ 1 then .ok ⟨s.verbosity, s.listings == 1, outputs.head?.join, input⟩
    else .error (.repeated "--show")

/-- What the arguments ask for, or why they are refused. -/
def Invocation.ofArgs (args : List String) : Except Misuse Invocation :=
  match args.foldlM ArgState.next ArgState.start with
  | .error .help => .ok .help
  | .error .version => .ok .version
  | .error (.misuse reason) => .error reason
  | .ok s => s.finish.map .run

example : (Invocation.ofArgs ["-vvdo", "out", "in"]).toOption = some (.run ⟨2, true, some "out", "in"⟩) := by
  decide

/-! ### Fixed texts -/

/-- The name of the program and its version. -/
def versionText : String := "dasm 0.1.0\n"

/-- How to call the program. -/
def helpText : String := versionText ++
  "Grammar and AST builder for DCPU-16 style assembly (dasm).

USAGE:
    dasm [FLAGS] [OPTIONS] <INPUT>

FLAGS:
    -h, --help       Prints help information
    -d, --show       prints a listing of the parsed statements to STDOUT
    -V, --version    Prints version information
    -v               Sets the level of verbosity

OPTIONS:
    -o <output>        writes the canonical form of the parsed source to an outfile

ARGS:
    <INPUT>    Sets the input file to use
"

end DcpuAsm
