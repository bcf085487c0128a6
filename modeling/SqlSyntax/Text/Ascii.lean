/-!
# ASCII letter case

Keywords, the names of data types and the names of aggregates are compared
without regard to the case of ASCII letters, and only of those.
-/

namespace SqlSyntax

/-- A text with its ASCII letters in capitals. -/
def capitals (text : String) : String := String.ofList (text.toList.map Char.toUpper)

end SqlSyntax
