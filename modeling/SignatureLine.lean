import SignatureLine.FileTree.Basic
import SignatureLine.FileTree.Path
import SignatureLine.FileTree.Path.Lemmas
import SignatureLine.Json.Decode
import SignatureLine.Json.Fragment
import SignatureLine.Json.Number
import SignatureLine.Json.Token
import SignatureLine.Json.Token.Lemmas
import SignatureLine.Json.Value
import SignatureLine.Log
import SignatureLine.Mismatch
import SignatureLine.Number.Binary64
import SignatureLine.Number.Shortest
import SignatureLine.Number.Style
import SignatureLine.Proofs.FileTree.Names
import SignatureLine.Proofs.FileTree.Spelling
import SignatureLine.Proofs.FileTree.Walking
import SignatureLine.Proofs.Json.Reading
import SignatureLine.Proofs.Json.Scanning
import SignatureLine.Proofs.Json.Strings
import SignatureLine.Proofs.Json.Writing
import SignatureLine.Proofs.Settings.Discovery
import SignatureLine.Proofs.Settings.Loading
import SignatureLine.Proofs.Settings.Nearest
import SignatureLine.Proofs.Signature.Acceptance
import SignatureLine.Proofs.Signature.Accounting
import SignatureLine.Proofs.Signature.BlankRuns
import SignatureLine.Proofs.Signature.CommaSpacing
import SignatureLine.Proofs.Signature.Commas
import SignatureLine.Proofs.Signature.Display
import SignatureLine.Proofs.Signature.Factoring
import SignatureLine.Proofs.Signature.Growth
import SignatureLine.Proofs.Signature.Head
import SignatureLine.Proofs.Signature.KeywordPrefix
import SignatureLine.Proofs.Signature.Lexical
import SignatureLine.Proofs.Signature.ListText
import SignatureLine.Proofs.Signature.Parameters
import SignatureLine.Proofs.Signature.Parsing
import SignatureLine.Proofs.Signature.Records
import SignatureLine.Proofs.Signature.Reparsing
import SignatureLine.Proofs.Signature.RoundTrip
import SignatureLine.Proofs.Signature.Strictness
import SignatureLine.Proofs.Signature.TabFree
import SignatureLine.Proofs.Signature.Tokens
import SignatureLine.Proofs.Text.Blanks
import SignatureLine.Proofs.Text.BytePositions
import SignatureLine.Proofs.Text.DelimiterOrder
import SignatureLine.Proofs.Text.Fragments
import SignatureLine.Proofs.Text.NormalForm
import SignatureLine.Proofs.Text.Splitting
import SignatureLine.Proofs.Text.Trimming
import SignatureLine.Settings.Basic
import SignatureLine.Settings.Decode
import SignatureLine.Settings.Error
import SignatureLine.Settings.Load
import SignatureLine.Signature.Basic
import SignatureLine.Signature.Decode
import SignatureLine.Signature.Encode
import SignatureLine.Signature.Error
import SignatureLine.Signature.Head
import SignatureLine.Signature.Parameters
import SignatureLine.Signature.Parser
import SignatureLine.Signature.Words
import SignatureLine.Text.Basic
import SignatureLine.Text.Bytes
import SignatureLine.Text.Digits
import SignatureLine.Text.Printable
import SignatureLine.Text.Quoted
import SignatureLine.Text.Split
import SignatureLine.Text.Split.Lemmas
import SignatureLine.Text.Whitespace
import SignatureLine.Toml.Dates
import SignatureLine.Toml.Document
import SignatureLine.Toml.Numbers
import SignatureLine.Toml.Reader
import SignatureLine.Toml.Strings
import SignatureLine.Toml.Table
import SignatureLine.Toml.Value
import SignatureLine.Proofs.Json.Grammar
import SignatureLine.Proofs.Json.Numerals
import SignatureLine.Proofs.Json.Spelling
import SignatureLine.Proofs.Json.Members
import SignatureLine.Proofs.Signature.RecordForms
import SignatureLine.Proofs.Signature.CollapseWords
import SignatureLine.Proofs.Text.Utf8
import SignatureLine.Proofs.Signature.Cuts
import SignatureLine.Proofs.Toml.Documents
import SignatureLine.Proofs.Settings.Sections
import SignatureLine.Proofs.Settings.Agreement
import SignatureLine.Proofs.Settings.Acceptance
