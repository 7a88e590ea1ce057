import DcpuAsm.Cli.Session

/-!
The command line. All that is decided is decided by `Options.inspect` and `conclude`; here files are
read and written, and texts printed. Records carry no stamp, since the core library knows no dates.
-/

namespace DcpuAsm

/-- A failure of the file system. Its number comes with either sign. -/
def FileFault.ofSystem (e : IO.Error) : FileFault :=
  match e with
  | .noFileOrDirectory _ _ _ => .notFound
  | .inappropriateType _ code _ =>
    if code.toInt32.toInt.natAbs = 20 then .notDirectory else .isDirectory
  | .invalidArgument _ code _ =>
    if code.toInt32.toInt.natAbs = 36 then .nameTooLong else .other (toString e)
  | e => .other (toString e)

/-- The text of a file. -/
def readSource (name : String) : IO (Except FileFault String) := do
  try
    return decodeText (← IO.FS.readBinFile name)
  catch e => return .error (.ofSystem e)

/-- Writes a text as the whole content of a file. -/
def saveText (name text : String) : IO (Option FileFault) := do
  try
    IO.FS.writeFile name text
    return none
  catch e => return some (.ofSystem e)

/-- Carries out a run. -/
def Options.execute (o : Options) : IO Nat := do
  match o.inspect displayWidth (← readSource o.input) with
  | .done outputs success =>
    IO.print (transcript noStamp o.threshold outputs)
    return exitCode success
  | .saving outputs name text =>
    IO.print (transcript noStamp o.threshold outputs)
    let fault ← saveText name text
    IO.print (transcript noStamp o.threshold [conclude name fault])
    return exitCode fault.isNone

/-- Carries out an argument list. -/
def command (args : List String) : IO Nat := do
  match Invocation.ofArgs args with
  | .error misuse =>
    IO.eprintln misuse.message
    return 1
  | .ok .help =>
    IO.print helpText
    return 0
  | .ok .version =>
    IO.print versionText
    return 0
  | .ok (.run o) => o.execute

end DcpuAsm

def main (args : List String) : IO UInt32 := do
  return (← DcpuAsm.command args).toUInt32
