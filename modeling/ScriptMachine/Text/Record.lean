/-!
# Diagnostic records

Diagnostics show a value as the name of its type and its fields in braces, all on one line. A
record that leaves out fields ends in two dots.
-/

namespace ScriptMachine.Record

/-- The fields, each as a name, a colon and a value. -/
def fields (entries : List (String × String)) : List String :=
  entries.map fun (name, value) => name ++ ": " ++ value

/-- A record that shows every field. -/
def closed (name : String) (entries : List (String × String)) : String :=
  name ++ " \x7b " ++ ", ".intercalate (fields entries) ++ " \x7d"

/-- A record that leaves out some fields. -/
def shortened (name : String) (entries : List (String × String)) : String :=
  name ++ " \x7b " ++ ", ".intercalate (fields entries ++ [".."]) ++ " \x7d"

/-- A value that may be absent. -/
def optional : Option String → String
  | none => "None"
  | some value => "Some(" ++ value ++ ")"

end ScriptMachine.Record
