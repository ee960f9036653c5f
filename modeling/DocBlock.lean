import DocBlock.Comment.Scanner
import DocBlock.Document.Session
import DocBlock.Main
import DocBlock.Proofs.Block.Closing
import DocBlock.Proofs.Block.Layout
import DocBlock.Proofs.Block.Margin
import DocBlock.Proofs.Block.RoundTrip
import DocBlock.Proofs.Block.WholeComment
import DocBlock.Proofs.Block.WrittenDescription
import DocBlock.Proofs.Comment.Closing
import DocBlock.Proofs.Comment.Decoration
import DocBlock.Proofs.Comment.Enclosed
import DocBlock.Proofs.Comment.Masking
import DocBlock.Proofs.Comment.Prose
import DocBlock.Proofs.Comment.Tags
import DocBlock.Proofs.Declaration.Filling
import DocBlock.Proofs.Document.DeclarationHead
import DocBlock.Proofs.Document.DeclarationSite
import DocBlock.Proofs.Document.GeneratedComment
import DocBlock.Proofs.Document.Locating
import DocBlock.Proofs.Document.Position
import DocBlock.Proofs.Document.ReplacedSpan
import DocBlock.Proofs.Document.Target
import DocBlock.Proofs.Signature.Lexemes
import DocBlock.Proofs.Signature.Names
import DocBlock.Proofs.Snippet.Reading
import DocBlock.Proofs.Text.Classes
import DocBlock.Proofs.Text.LineBreaks
import DocBlock.Proofs.Text.Repetition
import DocBlock.Proofs.Text.Runs
import DocBlock.Proofs.Text.Scanning
import DocBlock.Proofs.Text.Search
import DocBlock.Service.Respond
import DocBlock.Snippet.Reader
import DocBlock.Proofs.Block.Fields
import DocBlock.Proofs.Comment.Place
import DocBlock.Proofs.Document.Placement
import DocBlock.Proofs.Document.InsertionPoint
import DocBlock.Proofs.Block.Regeneration
import DocBlock.Proofs.Declaration.Merging
import DocBlock.Proofs.Document.Regeneration
import DocBlock.Proofs.Block.InlineDescription
import DocBlock.Proofs.Block.ReturnKeyword
import DocBlock.Proofs.Comment.Segments
import DocBlock.Proofs.Text.Words
import DocBlock.Proofs.Comment.Words
import DocBlock.Proofs.Block.MacroRegeneration
import DocBlock.Proofs.Block.ProseKept
import DocBlock.Proofs.Document.WindowLocality
import DocBlock.Proofs.Document.CommentInList
import DocBlock.Proofs.Declaration.Coherence
import DocBlock.Proofs.Declaration.Reordering
import DocBlock.Proofs.Style.Layering
import DocBlock.Proofs.Style.Overriding
import DocBlock.Proofs.Signature.ReturnTypes
import DocBlock.Proofs.Signature.Prototypes
import DocBlock.Proofs.Signature.PointerTypes
import DocBlock.Proofs.Signature.Layout
import DocBlock.Proofs.Signature.Balanced
import DocBlock.Proofs.Signature.WrittenParameters
import DocBlock.Proofs.Reflow.Words
import DocBlock.Proofs.Reflow.Layout
import DocBlock.Proofs.Reflow.Rereading
import DocBlock.Proofs.Reflow.Division
import DocBlock.Proofs.Reflow.Wrapping
import DocBlock.Proofs.Reflow.Idempotence
import DocBlock.Proofs.Block.Redecoration
import DocBlock.Proofs.Block.Shape
import DocBlock.Proofs.Block.Columns
import DocBlock.Proofs.Reflow.ClosingLine
import DocBlock.Proofs.Block.KeptWords
import DocBlock.Proofs.Document.CommentAbove
import DocBlock.Proofs.Comment.Stripping
import DocBlock.Proofs.Completion.OpenComment
import DocBlock.Proofs.Snippet.Numbering
import DocBlock.Proofs.Signature.TopLevelCommas
import DocBlock.Proofs.Comment.MaskedText
