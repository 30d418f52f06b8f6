import LiteralGrammar.Cache.Form
import LiteralGrammar.Cache.Json
import LiteralGrammar.Cache.Wording
import LiteralGrammar.Decision.Basic
import LiteralGrammar.Decision.Language
import LiteralGrammar.Decision.Matcher
import LiteralGrammar.Decision.Matching
import LiteralGrammar.Decision.Worklist
import LiteralGrammar.Diagnostic
import LiteralGrammar.Fault
import LiteralGrammar.Grammar.Basic
import LiteralGrammar.Grammar.Delegation
import LiteralGrammar.Grammar.Draft
import LiteralGrammar.Grammar.Exceptions
import LiteralGrammar.Grammar.Flatten
import LiteralGrammar.Grammar.Kind
import LiteralGrammar.Literal.Basic
import LiteralGrammar.Literal.Spelling
import LiteralGrammar.NameMap
import LiteralGrammar.Options
import LiteralGrammar.Options.Arguments
import LiteralGrammar.Recognizer
import LiteralGrammar.Rule.Basic
import LiteralGrammar.Rule.Element
import LiteralGrammar.Rule.Exceptions
import LiteralGrammar.Rule.Phrase
import LiteralGrammar.Session
import LiteralGrammar.Session.Calls
import LiteralGrammar.Target.Basic
import LiteralGrammar.Target.CFamily
import LiteralGrammar.Target.CFamilyReader
import LiteralGrammar.Target.CharCode
import LiteralGrammar.Target.EscapeTable
import LiteralGrammar.Target.Passes
import LiteralGrammar.Target.Pascal
import LiteralGrammar.Target.PascalReader
import LiteralGrammar.Target.Rendering
import LiteralGrammar.Text.Numeral
import LiteralGrammar.Text.Quoted
import LiteralGrammar.Text.Unprintable
import LiteralGrammar.Text.Utf16
import LiteralGrammar.Token.Basic
import LiteralGrammar.Token.Lexer
import LiteralGrammar.Token.Reading
import LiteralGrammar.Token.Segmentation
import LiteralGrammar.Vocabulary.Basic
import LiteralGrammar.Vocabulary.TokenType
import LiteralGrammar.Proofs.Decision.Configurations
import LiteralGrammar.Proofs.Decision.Prediction
import LiteralGrammar.Proofs.Decision.Greedy
import LiteralGrammar.Proofs.Decision.Mismatch
import LiteralGrammar.Proofs.Token.LongestMatch
import LiteralGrammar.Proofs.Token.Stream
import LiteralGrammar.Proofs.Grammar.Assembly
import LiteralGrammar.Proofs.Grammar.Resolution
import LiteralGrammar.Proofs.Grammar.Preparation
import LiteralGrammar.Proofs.Recognition.Outcome
import LiteralGrammar.Proofs.Recognition.Phrases
import LiteralGrammar.Proofs.Recognition.Completeness
import LiteralGrammar.Proofs.Recognition.Soundness
import LiteralGrammar.Proofs.Recognition.Preparation
import LiteralGrammar.Proofs.Token.Reading
import LiteralGrammar.Proofs.Recognition.Mismatch
import LiteralGrammar.Proofs.Recognition.Report
import LiteralGrammar.Proofs.Literal.Glyphs
import LiteralGrammar.Proofs.Literal.Spelling
import LiteralGrammar.Proofs.Literal.Failing
import LiteralGrammar.Proofs.Target.Rewriting
import LiteralGrammar.Proofs.Target.CFamilyReading
import LiteralGrammar.Proofs.Target.Notation
import LiteralGrammar.Proofs.Target.PascalReading
import LiteralGrammar.Proofs.Target.RawText
import LiteralGrammar.Proofs.Text.Digits
import LiteralGrammar.Proofs.Target.CharCodes
import LiteralGrammar.Proofs.Target.CharLiteral
import LiteralGrammar.Proofs.Target.Passes
import LiteralGrammar.Proofs.Target.Containment
import LiteralGrammar.Proofs.Decision.Renumbering
import LiteralGrammar.Proofs.Token.Renumbering
import LiteralGrammar.Proofs.Recognition.Independence
import LiteralGrammar.Proofs.Vocabulary.History
import LiteralGrammar.Proofs.Grammar.Merging
import LiteralGrammar.Proofs.Rule.Exceptions
import LiteralGrammar.Proofs.Rule.History
import LiteralGrammar.Proofs.Grammar.Visiting
import LiteralGrammar.Proofs.Grammar.Declaring
import LiteralGrammar.Proofs.Grammar.Shown
import LiteralGrammar.Proofs.Session.Once
import LiteralGrammar.Proofs.Session.Failing
import LiteralGrammar.Proofs.Cache.RoundTrip
import LiteralGrammar.Proofs.Cache.Wording
import LiteralGrammar.Proofs.Cache.Restoring
import LiteralGrammar.Proofs.Decision.Worklist
import LiteralGrammar.Proofs.Decision.Exploration
import LiteralGrammar.Proofs.Decision.Matcher
import LiteralGrammar.Proofs.Recognition.Termination
import LiteralGrammar.Proofs.Rule.Printing
import LiteralGrammar.Proofs.Vocabulary.Labels
import LiteralGrammar.Proofs.Options.Arguments
