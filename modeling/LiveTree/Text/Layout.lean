/-! One-line layouts of structured values: a record with named fields, a record that shows only
some of its fields, a tag applied to values, a list. The parts are given already laid out. -/
namespace LiveTree.Text

/-- A named field as it stands inside a record. -/
def fieldText (field : String × String) : String := field.1 ++ ": " ++ field.2

/-- A record that shows all of its fields. -/
def record (name : String) (fields : List (String × String)) : String :=
  name ++ " \x7b " ++ ", ".intercalate (fields.map fieldText) ++ " \x7d"

/-- A record that holds more than the fields shown; two points stand for the rest. -/
def openRecord (name : String) (fields : List (String × String)) : String :=
  name ++ " \x7b " ++ ", ".intercalate (fields.map fieldText ++ [".."]) ++ " \x7d"

/-- A tag applied to values. -/
def tagged (name : String) (parts : List String) : String :=
  name ++ "(" ++ ", ".intercalate parts ++ ")"

/-- A tuple of values. -/
def tuple (parts : List String) : String := tagged "" parts

/-- A list of values. -/
def listed (parts : List String) : String := "[" ++ ", ".intercalate parts ++ "]"

/-- The text of a truth value. -/
def truth (value : Bool) : String := if value then "true" else "false"

/-- The text of an optional value, given the text of the value. -/
def optional (value : Option String) : String :=
  match value with
  | some text => tagged "Some" [text]
  | none => "None"

end LiveTree.Text
