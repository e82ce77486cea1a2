import PagedSearch.Chain
import PagedSearch.Chain.Compile
import PagedSearch.CommandLine
import PagedSearch.CommandLine.Arguments
import PagedSearch.CommandLine.ConfigReport
import PagedSearch.CommandLine.Search
import PagedSearch.Config
import PagedSearch.Config.Check
import PagedSearch.Config.Place
import PagedSearch.Config.Value
import PagedSearch.Console
import PagedSearch.Console.Command
import PagedSearch.Console.Program
import PagedSearch.Console.Reply
import PagedSearch.Desk
import PagedSearch.Document
import PagedSearch.Document.Json
import PagedSearch.Document.PlainText
import PagedSearch.Document.Replace
import PagedSearch.Document.Storage
import PagedSearch.Files
import PagedSearch.Files.Path
import PagedSearch.Json.Builtin
import PagedSearch.Json.Double
import PagedSearch.Json.Fault
import PagedSearch.Json.Library
import PagedSearch.Json.Number
import PagedSearch.Json.Printer
import PagedSearch.Json.Quotation
import PagedSearch.Json.Reader
import PagedSearch.Json.Skip
import PagedSearch.Main
import PagedSearch.Match
import PagedSearch.Pattern.Error
import PagedSearch.Pattern.Reversal
import PagedSearch.Pattern.Token
import PagedSearch.Query
import PagedSearch.Report
import PagedSearch.Results
import PagedSearch.Scan
import PagedSearch.Scanner
import PagedSearch.Session
import PagedSearch.Session.History
import PagedSearch.Session.Stretch
import PagedSearch.Session.Walk
import PagedSearch.Settings
import PagedSearch.Symbol
import PagedSearch.Text.Basic
import PagedSearch.Text.Blank
import PagedSearch.Text.Escaped
import PagedSearch.Text.Line
import PagedSearch.Text.Lowercase
import PagedSearch.Text.Numeral
import PagedSearch.Text.Quoted
import PagedSearch.View.Excerpt
import PagedSearch.View.Highlight
import PagedSearch.Word
import PagedSearch.Proofs.Chain.Covering
import PagedSearch.Proofs.Chain.Link
import PagedSearch.Proofs.Chain.Spelling
import PagedSearch.Proofs.Document.Characters
import PagedSearch.Proofs.Document.Mirror
import PagedSearch.Proofs.Document.Replace
import PagedSearch.Proofs.Document.Significant
import PagedSearch.Proofs.Document.Substitution
import PagedSearch.Proofs.Pattern.Literal
import PagedSearch.Proofs.Pattern.Reversal
import PagedSearch.Proofs.Pattern.Token
import PagedSearch.Proofs.Query
import PagedSearch.Proofs.Scan.Literal
import PagedSearch.Proofs.Scan.Possessive
import PagedSearch.Proofs.Scan.Resumption
import PagedSearch.Proofs.Scanner.Matches
import PagedSearch.Proofs.Scanner.Ordinals
import PagedSearch.Proofs.Scanner.Reachable
import PagedSearch.Proofs.Scanner.Stream
import PagedSearch.Proofs.Session.Feeding
import PagedSearch.Proofs.Session.Find
import PagedSearch.Proofs.Session.Listing
import PagedSearch.Proofs.Session.Mirror
import PagedSearch.Proofs.Session.Nearest
import PagedSearch.Proofs.Session.Page
import PagedSearch.Proofs.Session.Reachable
import PagedSearch.Proofs.Session.Replacement
import PagedSearch.Proofs.Session.Stepping
import PagedSearch.Proofs.Session.Walk
import PagedSearch.Proofs.Text.Lowercase
import PagedSearch.Proofs.Session.Error
import PagedSearch.Proofs.Session.Freshness
import PagedSearch.Proofs.Desk.Reachable
import PagedSearch.Proofs.Scan.Language
import PagedSearch.Proofs.Scan.Unambiguous
import PagedSearch.Proofs.CommandLine.Search
import PagedSearch.Proofs.Console.Settings
import PagedSearch.Proofs.Files
import PagedSearch.Proofs.Document.PlainText
import PagedSearch.Proofs.CommandLine.Replace
import PagedSearch.Proofs.Session.Passage
import PagedSearch.Proofs.Session.Reader
import PagedSearch.Proofs.Session.Traceless
import PagedSearch.Proofs.Session.Stopping
import PagedSearch.Proofs.Session.Tolerance
import PagedSearch.Proofs.Session.Return
import PagedSearch.Proofs.Pattern.Folding
import PagedSearch.Proofs.Pattern.IgnoringCase
import PagedSearch.Proofs.Config.Check
import PagedSearch.Proofs.Config.Line
import PagedSearch.Proofs.Json.Grammar
import PagedSearch.Proofs.Json.Printer
import PagedSearch.Proofs.Json.Reader
import PagedSearch.Proofs.Document.Json
import PagedSearch.Proofs.Session.Survey
import PagedSearch.Proofs.Scan.Straight
import PagedSearch.Proofs.Scanner.Straight
import PagedSearch.Proofs.Scan.Comparisons
import PagedSearch.Proofs.Scanner.Comparisons
import PagedSearch.Proofs.Pattern.Bracket
import PagedSearch.Proofs.Document.Flat
import PagedSearch.Proofs.Chain.Longest
import PagedSearch.Proofs.Results
import PagedSearch.Proofs.View.Highlight
import PagedSearch.Proofs.Document.Words
import PagedSearch.Proofs.Session.Tour
import PagedSearch.Proofs.Session.History
import PagedSearch.Proofs.Chain.Border
import PagedSearch.Proofs.Scan.Trial
import PagedSearch.Proofs.View.Excerpt
import PagedSearch.Proofs.Config.Reading
import PagedSearch.Proofs.Scan.Alive
import PagedSearch.Proofs.Scanner.Alive
