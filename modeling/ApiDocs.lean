import ApiDocs.Address
import ApiDocs.Address.Json
import ApiDocs.Changes
import ApiDocs.ClassIndex
import ApiDocs.ClassIndex.WellKnown
import ApiDocs.ClassName
import ApiDocs.CommandLine
import ApiDocs.Comment
import ApiDocs.Comment.Block
import ApiDocs.Comment.Inline
import ApiDocs.Comment.Json
import ApiDocs.Config
import ApiDocs.Config.Json
import ApiDocs.Config.Toml
import ApiDocs.Declaration
import ApiDocs.Declaration.Json
import ApiDocs.Declaration.Resolve
import ApiDocs.Distinct
import ApiDocs.Failure
import ApiDocs.FileSystem
import ApiDocs.Glob
import ApiDocs.Glob.Reader
import ApiDocs.IgnoreFile
import ApiDocs.IgnoreRule
import ApiDocs.JavaType
import ApiDocs.JavaType.Json
import ApiDocs.Json
import ApiDocs.Json.Reader
import ApiDocs.Json.Record
import ApiDocs.Json.Writer
import ApiDocs.Main
import ApiDocs.Markdown.Page
import ApiDocs.Markdown.View
import ApiDocs.Model
import ApiDocs.Model.Declared
import ApiDocs.Model.Json
import ApiDocs.Model.Merge
import ApiDocs.Path
import ApiDocs.Platform
import ApiDocs.Project
import ApiDocs.Proofs.Addressed
import ApiDocs.Proofs.CanonicalText
import ApiDocs.Proofs.Changes
import ApiDocs.Proofs.ClassIndex
import ApiDocs.Proofs.Coherence
import ApiDocs.Proofs.Comment.Block
import ApiDocs.Proofs.Comment.Braces
import ApiDocs.Proofs.Comment.Cursor
import ApiDocs.Proofs.Comment.Fragments
import ApiDocs.Proofs.Comment.Inline
import ApiDocs.Proofs.Declaration.Nested
import ApiDocs.Proofs.Declaration.Relabelling
import ApiDocs.Proofs.Distinct
import ApiDocs.Proofs.Enclosing
import ApiDocs.Proofs.Except
import ApiDocs.Proofs.Fields
import ApiDocs.Proofs.FileSystem.Locate
import ApiDocs.Proofs.FileSystem.Read
import ApiDocs.Proofs.FileSystem.WellFormed
import ApiDocs.Proofs.FileSystem.Write
import ApiDocs.Proofs.Identity
import ApiDocs.Proofs.Json.Stored
import ApiDocs.Proofs.Json.Text
import ApiDocs.Proofs.Links
import ApiDocs.Proofs.Lookup
import ApiDocs.Proofs.Markdown.FrontMatter
import ApiDocs.Proofs.Markdown.View
import ApiDocs.Proofs.Merge.Associativity
import ApiDocs.Proofs.Merge.Documented
import ApiDocs.Proofs.Merge.FileOrder
import ApiDocs.Proofs.Merge.Folds
import ApiDocs.Proofs.Merge.Groups
import ApiDocs.Proofs.Merge.Items
import ApiDocs.Proofs.Merge.Paths
import ApiDocs.Proofs.Merge.Replay
import ApiDocs.Proofs.Model.Declared
import ApiDocs.Proofs.Model.Documented
import ApiDocs.Proofs.Model.Mirrors
import ApiDocs.Proofs.Model.Restored
import ApiDocs.Proofs.Model.Stored
import ApiDocs.Proofs.Platform
import ApiDocs.Proofs.Project.Convergence
import ApiDocs.Proofs.Project.Obstacles
import ApiDocs.Proofs.Project.Outputs
import ApiDocs.Proofs.Project.Reports
import ApiDocs.Proofs.Project.SingleSource
import ApiDocs.Proofs.Project.Updates
import ApiDocs.Proofs.Project.WellFormed
import ApiDocs.Proofs.Redirection
import ApiDocs.Proofs.Rendering
import ApiDocs.Proofs.SortedMap
import ApiDocs.Proofs.Sorting
import ApiDocs.Proofs.Source
import ApiDocs.Proofs.SyntaxTree.Constants
import ApiDocs.Proofs.SyntaxTree.Documented
import ApiDocs.Proofs.SyntaxTree.Members
import ApiDocs.Proofs.SyntaxTree.Spliced
import ApiDocs.Proofs.Trimming
import ApiDocs.Proofs.Words
import ApiDocs.Proofs.WrittenNames
import ApiDocs.Rendering
import ApiDocs.Scope
import ApiDocs.Sha256
import ApiDocs.SortedMap
import ApiDocs.Source
import ApiDocs.SyntaxTree
import ApiDocs.SyntaxTree.Declarations
import ApiDocs.SyntaxTree.Json
import ApiDocs.SyntaxTree.Types
import ApiDocs.Text.Blank
import ApiDocs.Text.CharRange
import ApiDocs.Text.Lines
import ApiDocs.Text.Uppercase
import ApiDocs.Text.Word
import ApiDocs.Toml
import ApiDocs.Toml.Lexeme
import ApiDocs.Toml.Number
import ApiDocs.Toml.Reader
import ApiDocs.Toml.Writer
import ApiDocs.TypeUsage
import ApiDocs.TypeUsage.Json
import ApiDocs.Proofs.Comment.Gutter
import ApiDocs.Proofs.Comment.Spanning
import ApiDocs.Proofs.Comment.Respaced
import ApiDocs.Proofs.Address
import ApiDocs.Proofs.TypeUsage
import ApiDocs.Proofs.Comment.Characters
import ApiDocs.Proofs.Markdown.Cells
import ApiDocs.Proofs.SyntaxTree.Dimensions
import ApiDocs.Proofs.Markdown.PropertyRow
import ApiDocs.Proofs.Comment.Spread
import ApiDocs.Proofs.Markdown.TagLines
import ApiDocs.Proofs.Markdown.ClassOrder
import ApiDocs.Proofs.SyntaxTree.Positions
import ApiDocs.Proofs.SyntaxTree.DocComments
import ApiDocs.Proofs.SyntaxTree.TypeTrees
import ApiDocs.Proofs.SyntaxTree.TypeNames
import ApiDocs.Proofs.Sha256
import ApiDocs.Proofs.Project.SourceTexts
import ApiDocs.Proofs.Project.Fingerprint
