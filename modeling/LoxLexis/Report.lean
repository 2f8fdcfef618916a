import LoxLexis.Text.Quoted

/-!
# Reports

A report says that the text on some line is no token, and why.

## Main definitions

* `Report` — a line and a message
* `Report.display` — a report as it is printed
* `Report.quotedForm` — a report with its message quoted
-/

namespace LoxLexis

/-- A lexical error. -/
@[ext]
structure Report where
  /-- The line on which the text in error ends. -/
  line : Int
  message : Text
  deriving DecidableEq

namespace Report

/-- A report as it is printed. -/
def display (r : Report) : Text :=
  "[line ".toList ++ Text.ofInt r.line ++ "] Error: ".toList ++ r.message

/-- A report with all its fields. -/
def quotedForm (r : Report) : Text :=
  "LexError(line=".toList ++ Text.ofInt r.line ++ ", message=".toList ++ Text.quoted r.message ++
    ")".toList

end Report

end LoxLexis
