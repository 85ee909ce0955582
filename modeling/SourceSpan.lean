import SourceSpan.Analysis
import SourceSpan.Operand
import SourceSpan.Proofs.Depth
import SourceSpan.Proofs.RoundTrip
import SourceSpan.Proofs.Offset
import SourceSpan.Proofs.Decomposition
import SourceSpan.Proofs.Containment
import SourceSpan.Proofs.Cause
import SourceSpan.Proofs.Likeness
import SourceSpan.Proofs.Translation
import SourceSpan.Proofs.Quoted
import SourceSpan.Proofs.PlainText
import SourceSpan.Proofs.Coverage
import SourceSpan.Proofs.Pool
import SourceSpan.Proofs.Session
import SourceSpan.Proofs.Slice
import SourceSpan.Proofs.Context
