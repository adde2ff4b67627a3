import EndpointDocs.Annotation
import EndpointDocs.Catalog
import EndpointDocs.Catalog.Hierarchy
import EndpointDocs.Catalog.Library
import EndpointDocs.Chars.Blank
import EndpointDocs.Chars.Case
import EndpointDocs.Chars.Case.Table
import EndpointDocs.Chars.Category
import EndpointDocs.Chars.Category.Table
import EndpointDocs.Chars.Cut
import EndpointDocs.Chars.Letter
import EndpointDocs.CommandLine.Arguments
import EndpointDocs.CommandLine.Run
import EndpointDocs.Controller
import EndpointDocs.DateFormat
import EndpointDocs.Declaration
import EndpointDocs.Disk
import EndpointDocs.DocComment
import EndpointDocs.Document
import EndpointDocs.Documentation
import EndpointDocs.Endpoint
import EndpointDocs.Failure
import EndpointDocs.Format
import EndpointDocs.Heading
import EndpointDocs.Json.Printer
import EndpointDocs.Json.Reader
import EndpointDocs.Loading
import EndpointDocs.Main
import EndpointDocs.Member
import EndpointDocs.Mock
import EndpointDocs.Node
import EndpointDocs.OrderedMap
import EndpointDocs.Overlay
import EndpointDocs.Path
import EndpointDocs.Pattern
import EndpointDocs.Pattern.CharSet
import EndpointDocs.Pattern.Property
import EndpointDocs.Pattern.Property.Table
import EndpointDocs.Pattern.Reader
import EndpointDocs.Project
import EndpointDocs.Proofs.Catalog.Ancestry
import EndpointDocs.Proofs.Catalog.Coherence
import EndpointDocs.Proofs.Catalog.Distance
import EndpointDocs.Proofs.Catalog.Dump
import EndpointDocs.Proofs.Catalog.Finding
import EndpointDocs.Proofs.Catalog.History
import EndpointDocs.Proofs.Catalog.Hierarchy
import EndpointDocs.Proofs.Catalog.Inheritance
import EndpointDocs.Proofs.Catalog.Order
import EndpointDocs.Proofs.Catalog.Owners
import EndpointDocs.Proofs.Catalog.Passing
import EndpointDocs.Proofs.Catalog.Redoc
import EndpointDocs.Proofs.Catalog.Renaming
import EndpointDocs.Proofs.Catalog.Roots
import EndpointDocs.Proofs.Catalog.SoleSupertype
import EndpointDocs.Proofs.Catalog.Supertypes
import EndpointDocs.Proofs.Chars.Cutting
import EndpointDocs.Proofs.Chars.Words
import EndpointDocs.Proofs.Disk
import EndpointDocs.Proofs.DocComment.Decoration
import EndpointDocs.Proofs.DocComment.Merging
import EndpointDocs.Proofs.DocComment.Parsing
import EndpointDocs.Proofs.Documentation.Agreement
import EndpointDocs.Proofs.Documentation.Collection
import EndpointDocs.Proofs.Documentation.DateFormats
import EndpointDocs.Proofs.Documentation.Order
import EndpointDocs.Proofs.Documentation.Soundness
import EndpointDocs.Proofs.Json.Rereading
import EndpointDocs.Proofs.Member.Described
import EndpointDocs.Proofs.Member.Inherited
import EndpointDocs.Proofs.Member.Renaming
import EndpointDocs.Proofs.Noting
import EndpointDocs.Proofs.OrderedMap
import EndpointDocs.Proofs.Path
import EndpointDocs.Proofs.Publication.Batch
import EndpointDocs.Proofs.Publication.Containment
import EndpointDocs.Proofs.Publication.FileNames
import EndpointDocs.Proofs.Record.Declarations
import EndpointDocs.Proofs.Record.Reading
import EndpointDocs.Proofs.Record.Schemas
import EndpointDocs.Proofs.Record.Settings
import EndpointDocs.Proofs.Record.Survival
import EndpointDocs.Proofs.Request.Parts
import EndpointDocs.Proofs.Request.Placement
import EndpointDocs.Proofs.Request.Unresolved
import EndpointDocs.Proofs.Request.Uploads
import EndpointDocs.Proofs.Resolution.Calls
import EndpointDocs.Proofs.Resolution.Directions
import EndpointDocs.Proofs.Resolution.Excluded
import EndpointDocs.Proofs.Resolution.Mocks
import EndpointDocs.Proofs.Resolution.OpenTypes
import EndpointDocs.Proofs.Resolution.Properties
import EndpointDocs.Proofs.Resolution.Pruning
import EndpointDocs.Proofs.Resolution.Records
import EndpointDocs.Proofs.Resolution.Renaming
import EndpointDocs.Proofs.Resolution.Respacing
import EndpointDocs.Proofs.Resolution.SeeTags
import EndpointDocs.Proofs.Resolution.Soundness
import EndpointDocs.Proofs.Resolution.Spelling
import EndpointDocs.Proofs.Resolution.Supertypes
import EndpointDocs.Proofs.Resolution.Termination
import EndpointDocs.Proofs.Resolution.Unfolding
import EndpointDocs.Proofs.Resolution.Warnings
import EndpointDocs.Proofs.Response.Unwrapping
import EndpointDocs.Proofs.Route.Composition
import EndpointDocs.Proofs.Route.Overriding
import EndpointDocs.Proofs.Schema.Facets
import EndpointDocs.Proofs.Schema.Nodes
import EndpointDocs.Proofs.Schema.Overlaid
import EndpointDocs.Proofs.Schema.Pruned
import EndpointDocs.Proofs.Shape.Following
import EndpointDocs.Proofs.Shape.Respelling
import EndpointDocs.Proofs.Source.Folder
import EndpointDocs.Proofs.Source.Implementations
import EndpointDocs.Proofs.Source.TypeName
import EndpointDocs.Proofs.Source.Visiting
import EndpointDocs.Proofs.TypeText.Balance
import EndpointDocs.Proofs.TypeText.Binding
import EndpointDocs.Proofs.TypeText.Closing
import EndpointDocs.Proofs.TypeText.Composition
import EndpointDocs.Proofs.TypeText.Expression
import EndpointDocs.Proofs.TypeText.Names
import EndpointDocs.Proofs.TypeText.Parts
import EndpointDocs.Proofs.TypeText.Renaming
import EndpointDocs.Proofs.TypeText.Replacing
import EndpointDocs.Proofs.TypeText.Respacing
import EndpointDocs.Proofs.TypeText.ShortName
import EndpointDocs.Proofs.TypeText.Spacing
import EndpointDocs.Publication
import EndpointDocs.Record.Read
import EndpointDocs.Record.Write
import EndpointDocs.Remarks
import EndpointDocs.Request
import EndpointDocs.Resolution
import EndpointDocs.Response
import EndpointDocs.Route
import EndpointDocs.Scalar
import EndpointDocs.Schema
import EndpointDocs.Settings
import EndpointDocs.Shape
import EndpointDocs.Source.Annotate
import EndpointDocs.Source.Attribute
import EndpointDocs.Source.Binding
import EndpointDocs.Source.Content
import EndpointDocs.Source.Declare
import EndpointDocs.Source.Definition
import EndpointDocs.Source.Expression
import EndpointDocs.Source.File
import EndpointDocs.Source.Folder
import EndpointDocs.Source.Item
import EndpointDocs.Source.Level
import EndpointDocs.Source.Literal
import EndpointDocs.Source.Operator
import EndpointDocs.Source.Reading
import EndpointDocs.Source.Scan
import EndpointDocs.Source.Signature
import EndpointDocs.Source.Statement
import EndpointDocs.Source.Token
import EndpointDocs.Source.TypeName
import EndpointDocs.Source.TypeRef
import EndpointDocs.Text
import EndpointDocs.TypeText
import EndpointDocs.Yaml.Block
import EndpointDocs.Yaml.Directive
import EndpointDocs.Yaml.Flow
import EndpointDocs.Yaml.Gap
import EndpointDocs.Yaml.Place
import EndpointDocs.Yaml.Printer
import EndpointDocs.Yaml.Reader
import EndpointDocs.Yaml.Scalar
import EndpointDocs.Yaml.Scan
import EndpointDocs.Yaml.Token
import EndpointDocs.Yaml.Tree
