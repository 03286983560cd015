import ScriptMachine.OpcodeTable.Command

/-!
# Command line

Renders the opcode table of a specification file.
-/

open ScriptMachine.OpcodeTable

/-- Reads the specification and writes the table, or reports why there is none. -/
def main (arguments : List String) : IO UInt32 := do
  match Command.ofArguments arguments with
  | .error error =>
    IO.eprintln ("Error: " ++ error.message)
    return 1
  | .ok command =>
    match command.tableOfText (← IO.FS.readFile command.source) with
    | .error error =>
      IO.eprintln ("Error: " ++ error.message)
      return 1
    | .ok text =>
      IO.FS.writeFile command.target text
      return 0
