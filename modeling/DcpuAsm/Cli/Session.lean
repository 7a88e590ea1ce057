import DcpuAsm.Cli.Arguments
import DcpuAsm.Terminal.Width

/-!
Whole invocations of the command, `respond`: an argument list is answered in a working folder. Texts
are as wide as a terminal shows them, and there is no clock.
-/

namespace DcpuAsm

/-- The stamp of records where the date and the time are not known. -/
def noStamp (_ : Record) : String := ""

/-- What an invocation leaves behind. -/
structure Response where
  exitCode : Nat
  stdout : String
  /-- Were the arguments refused? -/
  misuse : Bool
  folder : Folder
  deriving DecidableEq

/-- The answer to an argument list in a working folder, where only the tree itself may stand in the
way of writing. -/
def respond (args : List String) (f : Folder) : Response :=
  match Invocation.ofArgs args with
  | .error _ => ⟨1, "", true, f⟩
  | .ok .help => ⟨0, helpText, false, f⟩
  | .ok .version => ⟨0, versionText, false, f⟩
  | .ok (.run o) =>
    let outcome := o.runOn displayWidth .willing f
    let stdout := transcript noStamp o.threshold outcome.outputs
    ⟨exitCode outcome.success, stdout, false, outcome.folder⟩

end DcpuAsm
