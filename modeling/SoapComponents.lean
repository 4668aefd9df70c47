import SoapComponents.CommandLine
import SoapComponents.Component.Assembly
import SoapComponents.Component.Basic
import SoapComponents.Component.Print
import SoapComponents.Digest.Base36
import SoapComponents.Digest.Sha1
import SoapComponents.Failure
import SoapComponents.Generation
import SoapComponents.Interface.Basic
import SoapComponents.Interface.Collection
import SoapComponents.Interface.Fields
import SoapComponents.Library
import SoapComponents.Location.Address
import SoapComponents.Location.Basic
import SoapComponents.Location.Path
import SoapComponents.Location.Url
import SoapComponents.Main
import SoapComponents.Markup.Basic
import SoapComponents.Markup.Body
import SoapComponents.Markup.Namespaces
import SoapComponents.Markup.Outline
import SoapComponents.Name
import SoapComponents.Noted
import SoapComponents.Notice
import SoapComponents.Notice.Record
import SoapComponents.Prefix.Assignment
import SoapComponents.Prefix.Document
import SoapComponents.Prefix.NamespaceMap
import SoapComponents.Prefix.Stem
import SoapComponents.Reference.Lookup
import SoapComponents.Reference.Reach
import SoapComponents.Reference.Resolution
import SoapComponents.Reference.Root
import SoapComponents.Reference.Session
import SoapComponents.Remaining
import SoapComponents.Schema.Build
import SoapComponents.Schema.Content
import SoapComponents.Schema.Draft
import SoapComponents.Schema.Inheritance
import SoapComponents.Schema.Scope
import SoapComponents.Schema.Visit
import SoapComponents.Service.Basic
import SoapComponents.Service.Message
import SoapComponents.Service.Operation
import SoapComponents.Settings.Basic
import SoapComponents.Settings.Setting
import SoapComponents.Table
import SoapComponents.Text.Blank
import SoapComponents.Text.Cut
import SoapComponents.Text.Decimal
import SoapComponents.Text.Indent
import SoapComponents.Text.Integer
import SoapComponents.Text.LetterCase
import SoapComponents.Text.Printable
import SoapComponents.Text.Quoted
import SoapComponents.Text.Ranges
import SoapComponents.Text.Word
import SoapComponents.Tree
import SoapComponents.Tree.Query
import SoapComponents.TypeGraph.Basic
import SoapComponents.TypeGraph.HostType
import SoapComponents.Xml.Characters
import SoapComponents.Xml.Doctype
import SoapComponents.Xml.CodePage
import SoapComponents.Xml.Declaration
import SoapComponents.Xml.Encoding
import SoapComponents.Xml.Event
import SoapComponents.Xml.Scan
import SoapComponents.Yaml.Basic
import SoapComponents.Yaml.Print
import SoapComponents.Yaml.Resolved
import SoapComponents.Yaml.Scalar
import SoapComponents.Proofs.Prefix.Choice
import SoapComponents.Proofs.Naming
import SoapComponents.Proofs.Prefix.Runs
import SoapComponents.Proofs.Markup.Written
import SoapComponents.Proofs.Prefix.NamespaceMap
import SoapComponents.Proofs.Markup.Usage
import SoapComponents.Proofs.Markup.Account
import SoapComponents.Proofs.Markup.Fields
import SoapComponents.Proofs.Markup.Plans
import SoapComponents.Proofs.Component.Headers
import SoapComponents.Proofs.Outcome
import SoapComponents.Proofs.Component.Optional
import SoapComponents.Proofs.Component.Bindings
import SoapComponents.Proofs.Prefix.Steady
import SoapComponents.Proofs.Markup.Spaces
import SoapComponents.Proofs.Component.Independent
import SoapComponents.Proofs.Interface.Closed
import SoapComponents.Proofs.Interface.Gathering
import SoapComponents.Proofs.Interface.Shapes
import SoapComponents.Proofs.Component.Declared
import SoapComponents.Proofs.Component.Fields
import SoapComponents.Proofs.Table
import SoapComponents.Proofs.Location.Path
import SoapComponents.Proofs.Location.Resolve
import SoapComponents.Proofs.Schema.Placement
import SoapComponents.Proofs.Schema.Declared
import SoapComponents.Proofs.Schema.Inherited
import SoapComponents.Proofs.Schema.Imports
import SoapComponents.Proofs.Schema.Registered
import SoapComponents.Proofs.Name
import SoapComponents.Proofs.Schema.Qualified
import SoapComponents.Proofs.Reference.Named
import SoapComponents.Proofs.Markup.Within
import SoapComponents.Proofs.Schema.Typed
import SoapComponents.Proofs.Schema.TypeNames
import SoapComponents.Proofs.Schema.Readings
import SoapComponents.Proofs.Schema.Grouped
import SoapComponents.Proofs.Schema.Blocks
import SoapComponents.Proofs.Schema.Reordered
import SoapComponents.Proofs.Schema.Settled
import SoapComponents.Proofs.Schema.Registrations
import SoapComponents.Proofs.Schema.SchemaOrder
import SoapComponents.Proofs.Schema.Lockstep
import SoapComponents.Proofs.Schema.Pruned
import SoapComponents.Proofs.Generation
import SoapComponents.Proofs.Tags
import SoapComponents.Proofs.Running
import SoapComponents.Proofs.Schema.Renamed
import SoapComponents.Proofs.Schema.Held
import SoapComponents.Proofs.Schema.Imported
import SoapComponents.Proofs.Schema.Inheritance
import SoapComponents.Proofs.ComponentFiles
import SoapComponents.Proofs.Reference.Chains
import SoapComponents.Proofs.Markup.Expansion
import SoapComponents.Proofs.Markup.Repeated
import SoapComponents.Proofs.Identifier
import SoapComponents.Proofs.Markup.Nesting
import SoapComponents.Proofs.Reference.Lookups
import SoapComponents.Proofs.Reference.Sessions
import SoapComponents.Proofs.Schema.Calls
import SoapComponents.Proofs.Schema.Endings
import SoapComponents.Proofs.Schema.Contents
import SoapComponents.Proofs.Schema.Members
import SoapComponents.Proofs.Bounded
import SoapComponents.Proofs.Prefix.Usable
import SoapComponents.Proofs.Reference.Walking
import SoapComponents.Proofs.Reference.Reachable
import SoapComponents.Proofs.Component.Kept
import SoapComponents.Proofs.Component.HeaderInterfaces
import SoapComponents.Proofs.Tree.Folding
import SoapComponents.Proofs.Xml.Reading
import SoapComponents.Proofs.Schema.Stray
import SoapComponents.Proofs.Component.Envelope
import SoapComponents.Proofs.Interface.ValueTypes
import SoapComponents.Proofs.Settings
import SoapComponents.Proofs.Prefix.Parts
