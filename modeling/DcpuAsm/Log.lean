/-!
Log records and their severity. A record is shown at a threshold if it is at least as severe
(`Record.shownAt`). The more a run is asked to tell, the lower its threshold: `Level.ofVerbosity`. The
date and the time in front of a record are the clock's and no part of it, so `Record.text` is given
them.
-/

namespace DcpuAsm

/-- Severities, from the most severe on. -/
inductive Level where
  | error
  | warn
  | info
  | debug
  | trace
  deriving DecidableEq, Repr

/-- The place in the order of severities. The most severe has the least rank. -/
def Level.rank : Level → Nat
  | .error => 1
  | .warn => 2
  | .info => 3
  | .debug => 4
  | .trace => 5

def Level.text : Level → String
  | .error => "ERROR"
  | .warn => "WARN"
  | .info => "INFO"
  | .debug => "DEBUG"
  | .trace => "TRACE"

/-- The threshold for a number of requests to tell more. None reaches `trace`. -/
def Level.ofVerbosity : Nat → Level
  | 0 => .error
  | 1 => .warn
  | 2 => .info
  | _ => .debug

/-- The part of the program that a record comes from. -/
inductive Origin where
  | tool
  | grammar
  deriving DecidableEq, Repr

def Origin.text : Origin → String
  | .tool => "dasm"
  | .grammar => "dasm::assembler::parser"

/-- One entry of the log. -/
structure Record where
  origin : Origin
  level : Level
  message : String
  deriving DecidableEq, Repr

/-- Is the record severe enough for the threshold? -/
def Record.shownAt (r : Record) (threshold : Level) : Bool := r.level.rank ≤ threshold.rank

/-- The line of the log that a record takes, behind the stamp of the clock. A message may hold line
feeds of its own. -/
def Record.text (stamp : String) (r : Record) : String :=
  stamp ++ "[" ++ r.origin.text ++ "][" ++ r.level.text ++ "] " ++ r.message ++ "\n"

/-- Asking for more lowers the threshold by one severity, up to three times. -/
theorem rank_ofVerbosity (v : Nat) : (Level.ofVerbosity v).rank = min v 3 + 1 := by
  match v with
  | 0 | 1 | 2 => rfl
  | n + 3 => simp only [Level.ofVerbosity, Level.rank]; omega

end DcpuAsm
