/-!
# Inspection texts

Values are shown for inspection as `Name` followed by named fields between
braces, as bracketed lists, and as `Some(…)` or `None`.
-/

namespace ShiftReduce.Text

/-- Named fields, separated by commas. -/
def fields (fs : List (String × String)) : String :=
  ", ".intercalate (fs.map fun f => f.1 ++ ": " ++ f.2)

/-- A record all of whose fields are shown. -/
def record (name : String) (fs : List (String × String)) : String :=
  name ++ " \x7b " ++ fields fs ++ " \x7d"

/-- A record that has further fields, which two dots stand for. -/
def openRecord (name : String) (fs : List (String × String)) : String :=
  name ++ " \x7b " ++ fields fs ++ ", .. \x7d"

def list (items : List String) : String :=
  "[" ++ ", ".intercalate items ++ "]"

def optional : Option String → String
  | some text => s!"Some({text})"
  | none => "None"

def bool (b : Bool) : String := if b then "true" else "false"

end ShiftReduce.Text
