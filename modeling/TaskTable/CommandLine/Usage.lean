import TaskTable.CommandLine.Arguments

/-!
# Usage

The texts for arguments that make no call.
-/

namespace TaskTable
namespace CommandLine

/-- How the program is called. -/
def usage : String :=
  "\n".intercalate [
    "Usage: cadence [--config <FILE>] [--log-level <LEVEL>] <COMMAND>",
    "",
    "Commands:",
    "  validate <TABLE>             Check a state table for structural problems",
    "  simulate <TABLE> [OPTIONS]   Run a state table without handler code",
    "  verify <TABLE> <SCRIPT>      Replay a verification script and check the visit order",
    "  diff <ACTUAL> <EXPECTED>     Compare two transcripts, ignoring timestamps",
    "  config                       Print the effective configuration",
    "",
    "Options of simulate:",
    "  --script <SCRIPT>   Replay values from a simulation script",
    "  --random            Pick values at random (the default without --script)",
    "  --seed <SEED>       Seed for random simulation",
    "  --max-steps <N>     Stop after this many steps (default: simulation.max_steps)",
    "  --honor-waits       Sleep for the waits the table asks for",
    "  --emit-script       Print a simulation script that replays this run",
    "  --json              Print the run as JSON",
    ""]

/-- The wording of a usage error. -/
def UsageError.message : UsageError → String
  | help | nothing => usage
  | missingCommand => "error: a command is required\n\n" ++ usage
  | unknownCommand => "error: there is no such command\n\n" ++ usage
  | unknownArgument => "error: there is an unexpected argument\n\n" ++ usage
  | missingValue => "error: an option lacks its value\n\n" ++ usage
  | badNumber => "error: an option needs a number of 64 bits\n\n" ++ usage
  | unwantedValue => "error: an option takes no value\n\n" ++ usage
  | conflict => "error: an option was given twice or with one that it excludes\n\n" ++ usage
  | missingFile => "error: a file has to be named\n\n" ++ usage

/-- The code that the program ends with after a usage error. -/
def UsageError.exitCode : UsageError → UInt32
  | help => 0
  | _ => 2

end CommandLine
end TaskTable
