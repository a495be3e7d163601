import ScriptLexer.Main
import ScriptLexer.Number.Spelling
import ScriptLexer.Proofs.Numeral
import ScriptLexer.Session
import ScriptLexer.Token.Lookup
import ScriptLexer.Proofs.LexemeGrammar
import ScriptLexer.Proofs.Scanning
import ScriptLexer.Proofs.Division
import ScriptLexer.Proofs.Cursor
import ScriptLexer.Proofs.Stream
import ScriptLexer.Proofs.Interleaving
import ScriptLexer.Proofs.Positions
import ScriptLexer.Proofs.Magnitudes
import ScriptLexer.Proofs.Rounding
import ScriptLexer.Proofs.DecimalRounding
import ScriptLexer.Proofs.NumberTokens
import ScriptLexer.Proofs.Translation
import ScriptLexer.Proofs.Lines
import ScriptLexer.Proofs.DecimalCandidates
import ScriptLexer.Proofs.ShortestDecimal
import ScriptLexer.Proofs.DecimalText
import ScriptLexer.Proofs.Rendering
import ScriptLexer.Proofs.Gluing
import ScriptLexer.Proofs.Unparsing
import ScriptLexer.Proofs.Indexing
import ScriptLexer.Proofs.Progress
import ScriptLexer.Proofs.Lookahead
import ScriptLexer.Proofs.QuotedText
import ScriptLexer.Proofs.TokenText
import ScriptLexer.Proofs.Listing
import ScriptLexer.Proofs.StrictDecoding
import ScriptLexer.Proofs.LineEnds
import ScriptLexer.Proofs.CommentBodies
import ScriptLexer.Proofs.CommandLine
import ScriptLexer.Proofs.Endings
import ScriptLexer.Proofs.QuotedLayout
import ScriptLexer.Proofs.Rereading
import ScriptLexer.Proofs.PathForm
import ScriptLexer.Proofs.TokenEquality
import ScriptLexer.Proofs.StreamEvents
