import TeenyBasic.Machine.Host
import TeenyBasic.Main
import TeenyBasic.Proofs.Grammar.Lines
import TeenyBasic.Proofs.Grammar.Separable
import TeenyBasic.Proofs.Grammar.Unambiguous
import TeenyBasic.Proofs.Pass.Account
import TeenyBasic.Proofs.Pass.Input
import TeenyBasic.Proofs.Pass.Words
import TeenyBasic.Proofs.Pass.Expression
import TeenyBasic.Proofs.Pass.Statement
import TeenyBasic.Proofs.Pass.Program
import TeenyBasic.Proofs.Pass.Lockstep
import TeenyBasic.Proofs.Acceptance
import TeenyBasic.Proofs.Grammar.Reference
import TeenyBasic.Proofs.Translation
import TeenyBasic.Proofs.CLanguage.Lexing
import TeenyBasic.Proofs.Spelling
import TeenyBasic.Proofs.CLanguage.Grammar
import TeenyBasic.Proofs.EmittedLexemes
import TeenyBasic.Proofs.Regrouping
import TeenyBasic.Proofs.ArithmeticValue
import TeenyBasic.Proofs.Lexemes
import TeenyBasic.Proofs.Pass.Stopping
import TeenyBasic.Proofs.Pass.Position
import TeenyBasic.Proofs.Lookahead
import TeenyBasic.Proofs.Layout
import TeenyBasic.Proofs.CorrectPrefix
import TeenyBasic.Proofs.Decoding
import TeenyBasic.Proofs.Lossless
import TeenyBasic.Proofs.LongestLexeme
import TeenyBasic.Proofs.MaximalMunch
import TeenyBasic.Proofs.NamePositions
import TeenyBasic.Proofs.Pass.Books
import TeenyBasic.Proofs.Pass.Naming
import TeenyBasic.Proofs.Moments
import TeenyBasic.Proofs.LineRoles
import TeenyBasic.Proofs.Jumps
import TeenyBasic.Proofs.Scopes
import TeenyBasic.Proofs.Pass.Travel
import TeenyBasic.Proofs.Pass.Nesting
import TeenyBasic.Proofs.TokenUse
import TeenyBasic.Proofs.ErrorLines
import TeenyBasic.Proofs.Fragments
import TeenyBasic.Proofs.Concatenation
import TeenyBasic.Proofs.CLanguage.Quoting
import TeenyBasic.Proofs.Quotation
import TeenyBasic.Proofs.Printing
import TeenyBasic.Proofs.LexicalFaults
import TeenyBasic.Proofs.Pass.Phrases
import TeenyBasic.Proofs.Resumption
import TeenyBasic.Proofs.FitNames
import TeenyBasic.Proofs.Underlining
import TeenyBasic.Proofs.Paths
import TeenyBasic.Proofs.Command.Recording
import TeenyBasic.Proofs.Command.Course
import TeenyBasic.Proofs.OutputPaths
import TeenyBasic.Proofs.Boundaries
import TeenyBasic.Proofs.Locations
import TeenyBasic.Proofs.Pass.Redirection
import TeenyBasic.Proofs.Replay
