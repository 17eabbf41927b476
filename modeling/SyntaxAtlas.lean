import SyntaxAtlas.Kind
import SyntaxAtlas.Token
import SyntaxAtlas.Source
import SyntaxAtlas.Snapshot.Json
import SyntaxAtlas.Snapshot.Check
import SyntaxAtlas.Snapshot.Concrete
import SyntaxAtlas.SymbolTable.Json
import SyntaxAtlas.SymbolTable.Basic
import SyntaxAtlas.Graph.Walk
import SyntaxAtlas.Graph.Parts
import SyntaxAtlas.Graph.Query
import SyntaxAtlas.Graph.Resolve
import SyntaxAtlas.Graph.CallTree
import SyntaxAtlas.Graph.PatternHits
import SyntaxAtlas.Graph.Session
import SyntaxAtlas.FileTree.Json
import SyntaxAtlas.Settings
import SyntaxAtlas.Loader
import SyntaxAtlas.Command.Run
import SyntaxAtlas.Main
import SyntaxAtlas.Proofs.Graph.Coherence
import SyntaxAtlas.Proofs.Graph.Unfolding
import SyntaxAtlas.Proofs.Graph.Usages
import SyntaxAtlas.Proofs.Graph.Eclipses
import SyntaxAtlas.Proofs.Graph.Nesting
import SyntaxAtlas.Proofs.Graph.CallClosure
import SyntaxAtlas.Proofs.Graph.SourceOrder
import SyntaxAtlas.Proofs.Graph.Copies
import SyntaxAtlas.Proofs.Graph.Transparency
import SyntaxAtlas.Proofs.Snapshot.Conversion
import SyntaxAtlas.Proofs.Snapshot.Growth
import SyntaxAtlas.Proofs.Json.Lexemes
import SyntaxAtlas.Proofs.Json.Spelling
import SyntaxAtlas.Proofs.Json.Records
import SyntaxAtlas.Proofs.Snapshot.Documents
import SyntaxAtlas.Proofs.SymbolTable.Documents
import SyntaxAtlas.Proofs.SymbolTable.TypeAnswers
import SyntaxAtlas.Proofs.Graph.Choice
import SyntaxAtlas.Proofs.Graph.Positions
import SyntaxAtlas.Proofs.Graph.Idempotence
import SyntaxAtlas.Proofs.Graph.Recursion
import SyntaxAtlas.Proofs.Graph.Searches
import SyntaxAtlas.Proofs.Graph.Declarations
import SyntaxAtlas.Proofs.Graph.Containment
import SyntaxAtlas.Proofs.Graph.Nearest
import SyntaxAtlas.Proofs.Graph.Functions
import SyntaxAtlas.Proofs.Loading.Packages
import SyntaxAtlas.Proofs.Graph.Splitting
import SyntaxAtlas.Proofs.Graph.SpanIndex
import SyntaxAtlas.Proofs.Graph.PatternHits
import SyntaxAtlas.Proofs.Graph.IndexAnswers
import SyntaxAtlas.Proofs.Source.Ownership
import SyntaxAtlas.Proofs.Source.Lines
import SyntaxAtlas.Proofs.Loading.PackageNames
import SyntaxAtlas.Proofs.Loading.Extensions
import SyntaxAtlas.Proofs.PatternCache
import SyntaxAtlas.Proofs.Graph.PartComments
import SyntaxAtlas.Proofs.Graph.PatternLosses
