import InterfaceGen.Attribute.Basic
import InterfaceGen.Attribute.Printer
import InterfaceGen.Attribute.Query
import InterfaceGen.Declaration.Member
import InterfaceGen.Declaration.Parameter
import InterfaceGen.Declaration.Type
import InterfaceGen.DocComment
import InterfaceGen.Generator
import InterfaceGen.Marker.Basic
import InterfaceGen.Marker.Definitions
import InterfaceGen.Output.Buffer
import InterfaceGen.Output.Collector
import InterfaceGen.Output.Draft
import InterfaceGen.Output.Layout
import InterfaceGen.Output.SourceKey
import InterfaceGen.Pipeline
import InterfaceGen.PrimaryConstructor
import InterfaceGen.Projection
import InterfaceGen.Proofs.BaseSearch
import InterfaceGen.Proofs.Erasure
import InterfaceGen.Proofs.KeyCollisions
import InterfaceGen.Proofs.MirroredInterface
import InterfaceGen.Proofs.PrintedTypes
import InterfaceGen.Proofs.ProjectedMembers
import InterfaceGen.Proofs.ReaderMoves
import InterfaceGen.Proofs.RecordDesugaring
import InterfaceGen.Proofs.ReferenceLayout
import InterfaceGen.Proofs.TypeGrammar
import InterfaceGen.Proofs.TypeResolution
import InterfaceGen.Proofs.TypeTokens
import InterfaceGen.Proofs.WellFormedTypes
import InterfaceGen.ResolvedType.Basic
import InterfaceGen.Resolver
import InterfaceGen.Scope
import InterfaceGen.Settings
import InterfaceGen.Signature.Basic
import InterfaceGen.Signature.OfMember
import InterfaceGen.SourceFile.Basic
import InterfaceGen.Text.Basic
import InterfaceGen.Text.CharClass
import InterfaceGen.TypeRef.Basic
import InterfaceGen.TypeRef.Printer
import InterfaceGen.TypeRef.Reader
import InterfaceGen.TypeRef.Token
import InterfaceGen.TypeTable.Basic
import InterfaceGen.TypeTable.Resolution
import InterfaceGen.Proofs.DeclaredInterfaces
import InterfaceGen.Proofs.RegisteredSources
import InterfaceGen.Proofs.MemberOrigins
import InterfaceGen.Proofs.RepeatedSignatures
import InterfaceGen.Proofs.EquivalenceLaws
import InterfaceGen.Proofs.Instantiation
import InterfaceGen.Proofs.ReadErrors
import InterfaceGen.Proofs.NameLookup
import InterfaceGen.Proofs.DisplayedTypes
import InterfaceGen.Proofs.NestedInterfaces
import InterfaceGen.Proofs.LexicalLookup
import InterfaceGen.Proofs.EscapedText
import InterfaceGen.Proofs.RenamedParameters
import InterfaceGen.Proofs.TypeBoundaries
import InterfaceGen.Proofs.UniqueReading
import InterfaceGen.Proofs.LinesAndBlanks
import InterfaceGen.Proofs.AttributeLines
import InterfaceGen.Proofs.DocumentedLines
import InterfaceGen.Proofs.ShadowedParameters
import InterfaceGen.Proofs.StableConversions
import InterfaceGen.Proofs.NestedDrafts
import InterfaceGen.Proofs.KnownTypes
import InterfaceGen.Proofs.MarkerNames
import InterfaceGen.Proofs.SharedBuffers
import InterfaceGen.Proofs.ShownAccessors
