import TaggedText.Main
import TaggedText.Proofs.Collection
import TaggedText.Proofs.Document.Emission
import TaggedText.Proofs.Dispatch.Builtins
import TaggedText.Proofs.Dispatch.Rendered
import TaggedText.Proofs.Dispatch.Composed
import TaggedText.Proofs.Agreement
import TaggedText.Proofs.Failures
import TaggedText.Proofs.Document.Accepted
import TaggedText.Proofs.Faultless
import TaggedText.Proofs.Header.RoundTrip
import TaggedText.Proofs.Document.RoundTrip
import TaggedText.Proofs.Dispatch.Confined
import TaggedText.Proofs.Dispatch.Quiet
import TaggedText.Proofs.Sandbox
import TaggedText.Proofs.Dispatch.Halting
import TaggedText.Proofs.Siblings
import TaggedText.Proofs.Document.Places
import TaggedText.Proofs.Header.Shift
import TaggedText.Proofs.Document.Local
import TaggedText.Proofs.Document.Fences
import TaggedText.Proofs.Document.NestingLimit
import TaggedText.Proofs.Document.Skipping
import TaggedText.Proofs.Document.Shift
import TaggedText.Proofs.Document.Tags
import TaggedText.Proofs.Document.Gaps
import TaggedText.Proofs.Document.Slices
import TaggedText.Proofs.Document.Strictness
import TaggedText.Proofs.Document.Lines
import TaggedText.Proofs.Document.Normal
import TaggedText.Proofs.Document.Truncation
import TaggedText.Proofs.Dispatch.CutOff
import TaggedText.Proofs.Limits
import TaggedText.Proofs.Dispatch.Obedience
import TaggedText.Proofs.Errors
import TaggedText.Proofs.Proposals
import TaggedText.Proofs.Refusals
import TaggedText.Proofs.Blocks
import TaggedText.Proofs.Depth
import TaggedText.Proofs.VisibleText
import TaggedText.Proofs.Deletion
import TaggedText.Proofs.Dispatch.Scope
import TaggedText.Proofs.Locality
import TaggedText.Proofs.Header.Grammar
import TaggedText.Proofs.Header.Lexeme
import TaggedText.Proofs.Header.Tokenized
import TaggedText.Proofs.Header.Spans
import TaggedText.Proofs.Document.Headers
import TaggedText.Proofs.Document.Spans
import TaggedText.Proofs.Document.Order
import TaggedText.Proofs.Cursors
import TaggedText.Proofs.Dispatch.Protocol
import TaggedText.Proofs.Header.Tiling
import TaggedText.Proofs.Header.Shape
import TaggedText.Proofs.Header.Hopeless
