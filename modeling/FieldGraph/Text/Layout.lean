/-!
# Layout of composite texts

The brackets and separators with which lists and records of texts are written.
-/

namespace FieldGraph.Text

def list (items : List String) : String := "[" ++ String.intercalate ", " items ++ "]"

def record (name : String) (fields : List (String × String)) : String :=
  name ++ " \x7b " ++ String.intercalate ", " (fields.map fun (f, v) => f ++ ": " ++ v) ++ " \x7d"

end FieldGraph.Text
