import Wordcode.Console.Session

/-!
# The command-line program

Connects a session to the process: its arguments, its two output streams, and the environment
variable that sets the log filter.
-/

namespace Wordcode

def standardTerminal : Console.Terminal IO where
  out := IO.println
  err := IO.eprintln

end Wordcode

/-- Run a session on the arguments of this process. -/
def main (arguments : List String) : IO UInt32 := do
  let setting ← IO.getEnv "RUST_LOG"
  Wordcode.Console.session Wordcode.standardTerminal (Wordcode.Console.Filter.ofSetting setting) arguments
