import ScriptMachine.OpcodeTable.Render

/-!
# The command that renders an opcode table

The command takes the paths of the specification and of the rendered table, both of which have
defaults. Everything between reading the one file and writing the other is decided here.
-/

namespace ScriptMachine.OpcodeTable

/-- The files that the command works on. -/
structure Command where
  /-- The specification. -/
  source : String := "opcodes.json"
  /-- The rendered table. -/
  target : String := "opcodes.rs"

/-- Why the command fails. -/
inductive CommandError where
  /-- There are more arguments than paths. -/
  | usage
  /-- The file holds no specification. -/
  | malformed (source : String)
  | table (error : TableError)

/-- The text that reports a failed command. -/
def CommandError.message : CommandError → String
  | usage => "usage: coop_vm_codegen [spec.json] [opcodes_out.rs]"
  | malformed source => "parse " ++ source
  | table error => error.message

namespace Command

/-- Reads the command line. -/
def ofArguments : List String → Except CommandError Command
  | [] => .ok {}
  | [source] => .ok { source }
  | [source, target] => .ok { source, target }
  | _ => .error .usage

/-- The table of a specification that has been read. -/
def tableOfSpec (command : Command) : Option Spec → Except CommandError String
  | none => .error (.malformed command.source)
  | some spec =>
    match generate spec with
    | .ok text => .ok text
    | .error error => .error (.table error)

/-- The contents of the target file, from those of the source file. -/
def tableOfText (command : Command) (text : String) : Except CommandError String :=
  command.tableOfSpec (Spec.parse? text)

end Command

end ScriptMachine.OpcodeTable
