import LoxLexis.Command.FileTree
import LoxLexis.Main
import LoxLexis.Proofs.Command.PromptAndFile
import LoxLexis.Proofs.Scan.Adjacent
import LoxLexis.Proofs.Scan.Layout
import LoxLexis.Proofs.Scan.Lines
import LoxLexis.Proofs.Scan.SingleSteps
import LoxLexis.Proofs.Scan.Spread
import LoxLexis.Proofs.Session.Isolation
import LoxLexis.Proofs.Command.Console
import LoxLexis.Proofs.Command.Words
import LoxLexis.Proofs.Text.LineEnds
import LoxLexis.Proofs.Text.WellFormed
import LoxLexis.Proofs.Command.FileRun
import LoxLexis.Proofs.Command.Verbosity
import LoxLexis.Proofs.Command.Conversation
import LoxLexis.Proofs.Number.ReadBack
import LoxLexis.Proofs.Text.Quoted
import LoxLexis.Proofs.Token.QuotedForm
import LoxLexis.Proofs.Scan.PrintedNumbers
import LoxLexis.Proofs.Scan.Progress
import LoxLexis.Proofs.Scan.Skipping
import LoxLexis.Proofs.Scan.LineEnds
import LoxLexis.Proofs.Scanner.Outcome
import LoxLexis.Proofs.Scanner.InOrder
import LoxLexis.Proofs.Scanner.Failing
import LoxLexis.Proofs.Scanner.Lending
import LoxLexis.Proofs.Scanner.OpenStrings
import LoxLexis.Proofs.Scanner.BegunNumbers
import LoxLexis.Proofs.Command.FileSystem
import LoxLexis.Proofs.Command.Turns
import LoxLexis.Proofs.Command.Dispatch
