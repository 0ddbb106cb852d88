import DotFormat.Text.Blank
import DotFormat.Text.Quoted
import DotFormat.Text.Line
import DotFormat.Text.Integer
import DotFormat.Text.Encoding
import DotFormat.Location
import DotFormat.Command
import DotFormat.ParseError
import DotFormat.Line
import DotFormat.Json.Value
import DotFormat.Amount
import DotFormat.Style
import DotFormat.Layout
import DotFormat.Document
import DotFormat.OpenParagraph
import DotFormat.Assembly
import DotFormat.Config
import DotFormat.Log
import DotFormat.Machine
import DotFormat.Interpretation
import DotFormat.Html.Escape
import DotFormat.Html.Page
import DotFormat.Json.Basic
import DotFormat.Json.Printer
import DotFormat.Json.Reader
import DotFormat.Node.Basic
import DotFormat.Node.Encode
import DotFormat.Node.Decode
import DotFormat.Node.Value
import DotFormat.Node.Outline
import DotFormat.Html.Tree
import DotFormat.Renderer
import DotFormat.Formatter
import DotFormat.Session
import DotFormat.Path
import DotFormat.FileTree
import DotFormat.Files
import DotFormat.Cli.Option
import DotFormat.Cli.Order
import DotFormat.Cli.Run
import DotFormat.Main
import DotFormat.Proofs.Line
import DotFormat.Proofs.Numeral
import DotFormat.Proofs.Run
import DotFormat.Proofs.Segments
import DotFormat.Proofs.Runs
import DotFormat.Proofs.Layouts
import DotFormat.Proofs.Json.RoundTrip
import DotFormat.Proofs.Node.Text
import DotFormat.Proofs.Node.Fields
import DotFormat.Proofs.Node.Decodable
import DotFormat.Proofs.Node.Stable
import DotFormat.Proofs.Refusals
import DotFormat.Proofs.Strictness
import DotFormat.Proofs.Contents
import DotFormat.Proofs.Records
import DotFormat.Proofs.Html.Escape
import DotFormat.Proofs.Html.Faithful
import DotFormat.Proofs.FileTree
import DotFormat.Proofs.Files
import DotFormat.Proofs.Output
import DotFormat.Proofs.Cli.Run
import DotFormat.Proofs.LineEnd
import DotFormat.Proofs.Ambient
import DotFormat.Proofs.Scopes
import DotFormat.Proofs.Endings
import DotFormat.Proofs.Verbatim
import DotFormat.Proofs.Positions
import DotFormat.Proofs.Renumber
import DotFormat.Proofs.Message
import DotFormat.Proofs.Quoted
import DotFormat.Proofs.Wording
import DotFormat.Proofs.Writing
import DotFormat.Proofs.Append
import DotFormat.Proofs.Attainable
import DotFormat.Proofs.Image
import DotFormat.Proofs.Renderable
import DotFormat.Proofs.Cli.Exit
import DotFormat.Proofs.Cli.Status
import DotFormat.Proofs.Words
import DotFormat.Proofs.Grammar
import DotFormat.Proofs.Requests
import DotFormat.Proofs.Derivations
import DotFormat.Proofs.Assembly
import DotFormat.Proofs.Html.Inert
