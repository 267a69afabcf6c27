/-
This file holds the folding of letter case. Only the letters of ASCII have a
case here: type names, operation names and type hints are compared this way,
and every other character stands for itself.
-/

namespace Reckon

/-- A text with the capital letters of ASCII made small. -/
def lowercase (text : String) : String :=
  String.ofList (text.toList.map Char.toLower)

/-- Whether two texts differ in the case of ASCII letters at most. -/
def sameIgnoringCase (first second : String) : Bool :=
  lowercase first == lowercase second

end Reckon
