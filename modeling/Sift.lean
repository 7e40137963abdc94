import Sift.Proofs.Equality.Agreement
import Sift.Proofs.Key.Reading
import Sift.Proofs.Path.Climb
import Sift.Proofs.Shape.Text
import Sift.Proofs.Sql.Meaning
import Sift.Proofs.Sql.Root
import Sift.Search
import Sift.Sql.Connection
import Sift.Table.Backend
import Sift.Proofs.Comparison
import Sift.Proofs.Merge
import Sift.Proofs.Sql.Template
import Sift.Proofs.Sql.Count
import Sift.Proofs.Request
import Sift.Proofs.Classes.Closer
import Sift.Proofs.Sql.Owners
import Sift.Proofs.Refusal
import Sift.Proofs.Wildcard.Agreement
import Sift.Proofs.Sql.Raw
import Sift.Proofs.Group.Append
import Sift.Proofs.Key.Grammar
import Sift.Proofs.Equality.Tests
import Sift.Proofs.Classes.Built
import Sift.Proofs.Coercion.Exact
import Sift.Proofs.Sql.Patterns
import Sift.Proofs.Key.Suffix
import Sift.Proofs.Codec.Value
import Sift.Proofs.Codec.Condition
import Sift.Proofs.Codec.Criteria
import Sift.Proofs.Record
import Sift.Proofs.Sql.Quoted
import Sift.Proofs.Wildcard.Unescaped
import Sift.Proofs.Classes.Kept
import Sift.Proofs.Roots
