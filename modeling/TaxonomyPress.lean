import TaxonomyPress.CommandLine.Arguments
import TaxonomyPress.CommandLine.Run
import TaxonomyPress.Dictionary
import TaxonomyPress.Distinct
import TaxonomyPress.Document.BaseContext
import TaxonomyPress.Document.Build
import TaxonomyPress.Document.Definition
import TaxonomyPress.Document.Fragment
import TaxonomyPress.Document.Identity
import TaxonomyPress.Document.Index
import TaxonomyPress.Document.Layout
import TaxonomyPress.Document.Vocabulary
import TaxonomyPress.Json
import TaxonomyPress.Json.Canonical
import TaxonomyPress.Json.Parser
import TaxonomyPress.Json.Printer
import TaxonomyPress.JsonLd.Context
import TaxonomyPress.JsonLd.Expansion
import TaxonomyPress.JsonLd.Identifier
import TaxonomyPress.JsonLd.Item
import TaxonomyPress.JsonLd.LocalContext
import TaxonomyPress.JsonLd.Statements
import TaxonomyPress.Loading
import TaxonomyPress.Main
import TaxonomyPress.Namespaces
import TaxonomyPress.Number.Decimal
import TaxonomyPress.Number.Digits
import TaxonomyPress.Proofs.Agreement
import TaxonomyPress.Proofs.Ancestors
import TaxonomyPress.Proofs.CanonicalPath
import TaxonomyPress.Proofs.Dictionaries
import TaxonomyPress.Proofs.FirstParents
import TaxonomyPress.Proofs.Inheritance
import TaxonomyPress.Proofs.Insertion
import TaxonomyPress.Proofs.Lineages
import TaxonomyPress.Proofs.NodeKeys
import TaxonomyPress.Proofs.Noninterference
import TaxonomyPress.Proofs.Order
import TaxonomyPress.Proofs.Pieces
import TaxonomyPress.Proofs.PrefixedNames
import TaxonomyPress.Proofs.Publication
import TaxonomyPress.Proofs.Traversal
import TaxonomyPress.Proofs.Walks
import TaxonomyPress.Rdf.Iri
import TaxonomyPress.Rdf.LanguageTag
import TaxonomyPress.Rdf.NTriples
import TaxonomyPress.Rdf.Names
import TaxonomyPress.Rdf.Statement
import TaxonomyPress.Rdf.PlaceIndex
import TaxonomyPress.Rdf.Store
import TaxonomyPress.Rdf.Term
import TaxonomyPress.Rdf.Terminals
import TaxonomyPress.Rdf.Turtle
import TaxonomyPress.Reader
import TaxonomyPress.Settings
import TaxonomyPress.Settings.Document
import TaxonomyPress.Steps
import TaxonomyPress.Taxonomy
import TaxonomyPress.Taxonomy.Annotation
import TaxonomyPress.Taxonomy.Lineage
import TaxonomyPress.Taxonomy.Record
import TaxonomyPress.Taxonomy.Walk
import TaxonomyPress.Text
import TaxonomyPress.Text.Glyphs
import TaxonomyPress.Text.Quoted
import TaxonomyPress.Toml
import TaxonomyPress.Toml.Moment
import TaxonomyPress.Toml.Parser
import TaxonomyPress.Tree.FileTree
import TaxonomyPress.Tree.Generate
import TaxonomyPress.Tree.Redirect
import TaxonomyPress.Tree.UnixPath
import TaxonomyPress.Proofs.FragmentReading
import TaxonomyPress.Proofs.Documents
import TaxonomyPress.Proofs.Directories
import TaxonomyPress.Proofs.PathNames
import TaxonomyPress.Proofs.TreeChanges
import TaxonomyPress.Proofs.Addresses
import TaxonomyPress.Proofs.Containment
import TaxonomyPress.Proofs.Collisions
import TaxonomyPress.Proofs.StoreHistory
import TaxonomyPress.Proofs.LoadingOrder
import TaxonomyPress.Proofs.Frame
import TaxonomyPress.Proofs.FramedDocuments
import TaxonomyPress.Proofs.Failures
import TaxonomyPress.Proofs.DanglingParents
import TaxonomyPress.Proofs.IdentityContexts
import TaxonomyPress.Proofs.SettingsChanges
import TaxonomyPress.Proofs.Attributes
import TaxonomyPress.Proofs.Redirects
import TaxonomyPress.Proofs.Overwriting
import TaxonomyPress.Proofs.LastWriter
import TaxonomyPress.Proofs.Report
import TaxonomyPress.Proofs.RedirectOrder
import TaxonomyPress.Proofs.ExitCodes
import TaxonomyPress.Proofs.Distance
import TaxonomyPress.Proofs.Descendants
import TaxonomyPress.Proofs.Closeness
import TaxonomyPress.Proofs.Duality
import TaxonomyPress.Proofs.ClosestScope
import TaxonomyPress.Proofs.LanguageTexts
import TaxonomyPress.Proofs.ScopeInheritance
import TaxonomyPress.Proofs.MalformedAncestors
import TaxonomyPress.Proofs.CanonicalLineage
import TaxonomyPress.Proofs.CanonicalNesting
import TaxonomyPress.Proofs.Compaction
import TaxonomyPress.Proofs.CompactNames
import TaxonomyPress.Proofs.ScopeSpellings
import TaxonomyPress.Proofs.Levels
import TaxonomyPress.Proofs.FragmentCoverage
import TaxonomyPress.Proofs.BaseEntries
import TaxonomyPress.Proofs.VocabularyContexts
import TaxonomyPress.Proofs.RecordPartition
import TaxonomyPress.Proofs.PublishedUrls
import TaxonomyPress.Proofs.Loading
import TaxonomyPress.Proofs.NodeIdentity
