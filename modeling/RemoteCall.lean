import RemoteCall.Text.Blank
import RemoteCall.Text.Duration
import RemoteCall.Text.FormEncoding
import RemoteCall.Text.Integer
import RemoteCall.Text.Quoted
import RemoteCall.Text.Utf8
import RemoteCall.Text.Visible
import RemoteCall.Proofs.Text.ByteOrder
import RemoteCall.Proofs.Text.FormEncoding
import RemoteCall.Proofs.Text.Numeral
import RemoteCall.Proofs.Text.Slice
import RemoteCall.Proofs.Text.Utf8
import RemoteCall.Decimal.Binary64
import RemoteCall.Decimal.Notation
import RemoteCall.Decimal.Reader
import RemoteCall.Decimal.Shortest
import RemoteCall.Name
import RemoteCall.Dictionary
import RemoteCall.Proofs.Dictionary
import RemoteCall.Xml.Char
import RemoteCall.Xml.Document
import RemoteCall.Xml.Escape
import RemoteCall.Xml.Lexeme
import RemoteCall.Xml.Markup
import RemoteCall.Xml.Name
import RemoteCall.Xml.Reference
import RemoteCall.Xml.Tree
import RemoteCall.Proofs.Xml.Content
import RemoteCall.Proofs.Xml.Declarations
import RemoteCall.Proofs.Xml.Escaping
import RemoteCall.Proofs.Xml.Flattening
import RemoteCall.Proofs.Xml.Inversion
import RemoteCall.Proofs.Xml.Legality
import RemoteCall.Proofs.Xml.Lexemes
import RemoteCall.Proofs.Xml.Names
import RemoteCall.Proofs.Xml.Nesting
import RemoteCall.Proofs.Xml.Prolog
import RemoteCall.Proofs.Xml.Replacement
import RemoteCall.Proofs.Xml.Root
import RemoteCall.Proofs.Xml.Sources
import RemoteCall.Proofs.Xml.Spelling
import RemoteCall.Proofs.Xml.Surroundings
import RemoteCall.Proofs.Xml.Wrapped
import RemoteCall.Element.Basic
import RemoteCall.Element.Equality
import RemoteCall.Element.Reader
import RemoteCall.Element.Writer
import RemoteCall.Proofs.Element.Built
import RemoteCall.Proofs.Element.Construction
import RemoteCall.Proofs.Element.Document
import RemoteCall.Proofs.Element.Equality
import RemoteCall.Proofs.Element.Fidelity
import RemoteCall.Proofs.Element.Legality
import RemoteCall.Proofs.Element.Obtained
import RemoteCall.Proofs.Element.Root
import RemoteCall.Proofs.Element.RoundTrip
import RemoteCall.Proofs.Element.Stability
import RemoteCall.Proofs.Element.Tag
import RemoteCall.Proofs.Element.Tree
import RemoteCall.Json.DataSection
import RemoteCall.Json.Reader
import RemoteCall.Json.Value
import RemoteCall.Json.Writer
import RemoteCall.Proofs.Json.Contents
import RemoteCall.Proofs.Json.Grouping
import RemoteCall.Proofs.Json.NormalForm
import RemoteCall.Proofs.Json.Ordered
import RemoteCall.Proofs.Json.Sections
import RemoteCall.Yaml.BlockScalar
import RemoteCall.Yaml.Char
import RemoteCall.Yaml.Cursor
import RemoteCall.Yaml.Document
import RemoteCall.Yaml.Lexer
import RemoteCall.Yaml.Names
import RemoteCall.Yaml.Node
import RemoteCall.Yaml.Plain
import RemoteCall.Yaml.Quoted
import RemoteCall.Yaml.Structure
import RemoteCall.Yaml.Tag
import RemoteCall.Yaml.Token
import RemoteCall.Yaml.Value
import RemoteCall.Spec.Function
import RemoteCall.Spec.ParamType
import RemoteCall.Spec.Violation
import RemoteCall.Proofs.Spec.Validation
import RemoteCall.CallResult.Basic
import RemoteCall.CallResult.Reader
import RemoteCall.CallResult.Sink
import RemoteCall.CallResult.Stream
import RemoteCall.CallResult.Writer
import RemoteCall.Proofs.CallResult.Attributes
import RemoteCall.Proofs.CallResult.Compatibility
import RemoteCall.Proofs.CallResult.Construction
import RemoteCall.Proofs.CallResult.Grammar
import RemoteCall.Proofs.CallResult.Markup
import RemoteCall.Proofs.CallResult.Parameter
import RemoteCall.Proofs.CallResult.Readability
import RemoteCall.Proofs.CallResult.RoundTrip
import RemoteCall.Proofs.CallResult.Streaming
import RemoteCall.Proofs.CallResult.Verbatim
import RemoteCall.Api
import RemoteCall.Proofs.Api.History
import RemoteCall.Proofs.Api.Invocation
import RemoteCall.Proofs.Api.Legality
import RemoteCall.Proofs.Api.RawOutput
import RemoteCall.Proofs.Api.Registry
import RemoteCall.Proofs.Api.Report
import RemoteCall.Proofs.Api.Switches
import RemoteCall.Http.Header
import RemoteCall.Http.Request
import RemoteCall.Http.Response
import RemoteCall.Http.Status
import RemoteCall.Convention.Body
import RemoteCall.Convention.Document
import RemoteCall.Convention.Error
import RemoteCall.Convention.Hooks
import RemoteCall.Convention.Managed
import RemoteCall.Convention.Manager
import RemoteCall.Convention.Parameters
import RemoteCall.Convention.Script
import RemoteCall.Convention.Standard
import RemoteCall.Proofs.Convention.Agreement
import RemoteCall.Proofs.Convention.Caching
import RemoteCall.Proofs.Convention.Callbacks
import RemoteCall.Proofs.Convention.Choice
import RemoteCall.Proofs.Convention.CleanCalls
import RemoteCall.Proofs.Convention.Containment
import RemoteCall.Proofs.Convention.Extensions
import RemoteCall.Proofs.Convention.Forms
import RemoteCall.Proofs.Convention.Gathering
import RemoteCall.Proofs.Convention.Legality
import RemoteCall.Proofs.Convention.Parameters
import RemoteCall.Proofs.Convention.Roots
import RemoteCall.Proofs.Convention.Selection
import RemoteCall.Metrics
import RemoteCall.Engine
import RemoteCall.Proofs.Engine.Answers
import RemoteCall.Proofs.Engine.Counting
import RemoteCall.Proofs.Engine.Courses
import RemoteCall.Proofs.Engine.HeadRequests
import RemoteCall.Proofs.Engine.Readability
import RemoteCall.Config.Basic
import RemoteCall.Config.Reader
import RemoteCall.Config.Validation
import RemoteCall.Server
import RemoteCall.Client.Call
import RemoteCall.Client.Caller
import RemoteCall.Client.Classification
import RemoteCall.Client.Error
import RemoteCall.Client.Exchange
import RemoteCall.Client.Url
import RemoteCall.Proofs.Client.Call
import RemoteCall.Proofs.Client.Classification
import RemoteCall.Proofs.Client.Delivery
import RemoteCall.Proofs.Client.Explanation
import RemoteCall.Proofs.Client.FailOver
import RemoteCall.Proofs.Client.Methods
import RemoteCall.Proofs.Client.Request
import RemoteCall.Proofs.Client.Wire
import RemoteCall.Description
import RemoteCall.Demo
import RemoteCall.Proofs.Demo.Addition
import RemoteCall.Proofs.Demo.EmptyValues
import RemoteCall.Proofs.Demo.Functions
