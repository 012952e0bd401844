import KeyedCoding.Coding.Codec
import KeyedCoding.Coding.Decoder
import KeyedCoding.Coding.Encoder
import KeyedCoding.Coding.Error
import KeyedCoding.Coding.Memberwise
import KeyedCoding.Coding.ReadyMade
import KeyedCoding.Coding.Schema
import KeyedCoding.Coding.Shape
import KeyedCoding.Coding.Text
import KeyedCoding.Derivation.Arguments
import KeyedCoding.Derivation.Catalog
import KeyedCoding.Derivation.Code
import KeyedCoding.Derivation.Context
import KeyedCoding.Derivation.Declaration
import KeyedCoding.Derivation.Diagnostic
import KeyedCoding.Derivation.Expansion
import KeyedCoding.Derivation.Initializer
import KeyedCoding.Derivation.Keys
import KeyedCoding.Derivation.Kind
import KeyedCoding.Derivation.Model
import KeyedCoding.Derivation.Options
import KeyedCoding.Derivation.Rule
import KeyedCoding.Derivation.Settings
import KeyedCoding.Derivation.Strategy
import KeyedCoding.Derivation.Synthesis
import KeyedCoding.Json.Reader
import KeyedCoding.Json.Tree
import KeyedCoding.Json.Writer
import KeyedCoding.Meaning.Constant
import KeyedCoding.Meaning.Declared
import KeyedCoding.Meaning.TypeName
import KeyedCoding.Number.Binary
import KeyedCoding.Number.Shortest
import KeyedCoding.Proofs.Coding.Levels
import KeyedCoding.Proofs.Coding.Reading
import KeyedCoding.Proofs.Coding.Return
import KeyedCoding.Proofs.Coding.Typing
import KeyedCoding.Proofs.Coding.Writing
import KeyedCoding.Proofs.Derivation.Acceptance
import KeyedCoding.Proofs.Derivation.Derived
import KeyedCoding.Proofs.Value.Entries
import KeyedCoding.Source.Attribute
import KeyedCoding.Source.Expression
import KeyedCoding.Source.Expression.Atom
import KeyedCoding.Source.Expression.Block
import KeyedCoding.Source.Expression.Operator
import KeyedCoding.Source.Generics
import KeyedCoding.Source.Grammar
import KeyedCoding.Source.Item
import KeyedCoding.Source.Item.Basic
import KeyedCoding.Source.Item.Composite
import KeyedCoding.Source.Item.Function
import KeyedCoding.Source.Item.Member
import KeyedCoding.Source.Language
import KeyedCoding.Source.Lexer
import KeyedCoding.Source.Literal
import KeyedCoding.Source.Parser
import KeyedCoding.Source.Path
import KeyedCoding.Source.Pattern
import KeyedCoding.Source.Statement
import KeyedCoding.Source.Token
import KeyedCoding.Source.Type
import KeyedCoding.Text.CaseMapping
import KeyedCoding.Text.Identifier
import KeyedCoding.Text.Printable
import KeyedCoding.Text.Quoted
import KeyedCoding.Text.Ranges
import KeyedCoding.Text.Similarity
import KeyedCoding.Value
import KeyedCoding.Value.Entries
import KeyedCoding.Proofs.Coding.RoundTrip
import KeyedCoding.Proofs.Coding.Stability
import KeyedCoding.Proofs.Derivation.KeyNames
import KeyedCoding.Proofs.Coding.Culprit
import KeyedCoding.Proofs.Coding.Reporting
import KeyedCoding.Proofs.Derivation.Options
import KeyedCoding.Proofs.Derivation.WellFormed
import KeyedCoding.Proofs.Derivation.MarkerOrder
import KeyedCoding.Proofs.Derivation.Rules
import KeyedCoding.Proofs.Json.Layout
import KeyedCoding.Proofs.Json.Leaves
import KeyedCoding.Proofs.Json.Nesting
import KeyedCoding.Proofs.Json.RoundTrip
import KeyedCoding.Proofs.Value.Canonical
import KeyedCoding.Proofs.Coding.Scripts
import KeyedCoding.Proofs.Derivation.Stripping
import KeyedCoding.Proofs.Coding.Places
import KeyedCoding.Proofs.Coding.Tagged
import KeyedCoding.Proofs.Derivation.FreshNames
import KeyedCoding.Proofs.Derivation.Scoping
import KeyedCoding.Proofs.Coding.Payload
import KeyedCoding.Proofs.Coding.OwnEntries
import KeyedCoding.Proofs.Coding.Defaults
import KeyedCoding.Proofs.Coding.WrittenEntries
import KeyedCoding.Proofs.Coding.Boxes
import KeyedCoding.Proofs.Derivation.Words
import KeyedCoding.Proofs.Derivation.WireKeys
import KeyedCoding.Proofs.Derivation.Collisions
import KeyedCoding.Proofs.Derivation.EmptyKeys
import KeyedCoding.Proofs.Derivation.Marks
import KeyedCoding.Proofs.Derivation.ConventionalNames
import KeyedCoding.Proofs.Derivation.InitializerCode
import KeyedCoding.Proofs.Derivation.Initialization
import KeyedCoding.Proofs.Coding.InitializedDecoding
import KeyedCoding.Proofs.Coding.Setters
import KeyedCoding.Proofs.Coding.MethodSemantics
import KeyedCoding.Proofs.Coding.DecodingMethods
import KeyedCoding.Proofs.Coding.EncodingMethods
import KeyedCoding.Proofs.Coding.GeneratedMethods
import KeyedCoding.Proofs.Derivation.AttributeChanges
import KeyedCoding.Proofs.Derivation.AttributeOrder
import KeyedCoding.Proofs.Coding.Integers
import KeyedCoding.Proofs.Json.Bridge
import KeyedCoding.Proofs.Coding.IntegerForms
import KeyedCoding.Proofs.Coding.MapOrder
import KeyedCoding.Proofs.Sequence
import KeyedCoding.Proofs.Derivation.Separators
