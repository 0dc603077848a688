import LoxLexer.Main
import LoxLexer.Directory
import LoxLexer.Session
import LoxLexer.Number.Parse
import LoxLexer.Proofs.Opening
import LoxLexer.Proofs.Grammar
import LoxLexer.Proofs.Boundary
import LoxLexer.Proofs.LongestMatch
import LoxLexer.Proofs.Layout
import LoxLexer.Proofs.Cursor
import LoxLexer.Proofs.Automaton
import LoxLexer.Proofs.Restart
import LoxLexer.Proofs.Content
import LoxLexer.Proofs.Reserved
import LoxLexer.Proofs.Lines
import LoxLexer.Proofs.Lookahead
import LoxLexer.Proofs.Spacing
import LoxLexer.Proofs.Joining
import LoxLexer.Proofs.Display
import LoxLexer.Proofs.Significance
import LoxLexer.Proofs.Brevity
import LoxLexer.Proofs.Equality
import LoxLexer.Proofs.Reporting
import LoxLexer.Proofs.Typed
import LoxLexer.Proofs.LineScan
import LoxLexer.Proofs.Invocation
import LoxLexer.Proofs.Prompt
import LoxLexer.Proofs.Conversation
import LoxLexer.Proofs.Recovery
import LoxLexer.Proofs.Returns
import LoxLexer.Proofs.Decoding
