import SchemaTree.Error
import SchemaTree.Text.Blank
import SchemaTree.Text.Base64
import SchemaTree.Binary64.Reader
import SchemaTree.Binary64.Shortest
import SchemaTree.ObjectId
import SchemaTree.Calendar.Rfc3339
import SchemaTree.NumericArray.Blob
import SchemaTree.Field.Constructors
import SchemaTree.Flatten
import SchemaTree.Merge
import SchemaTree.Traverse
import SchemaTree.Value
import SchemaTree.Value.Cast
import SchemaTree.Value.Exchange
import SchemaTree.Geometry
import SchemaTree.Validation
import SchemaTree.Storage
import SchemaTree.Record
import SchemaTree.Record.Exchange
import SchemaTree.Field.Virtual
import SchemaTree.Json.Outline
import SchemaTree.QueryOptions
import SchemaTree.Proofs.Text.Digits
import SchemaTree.Proofs.Text.Base64
import SchemaTree.Proofs.Text.Hex
import SchemaTree.Proofs.Calendar.Rfc3339
import SchemaTree.Proofs.Zlib
import SchemaTree.Proofs.NumericArray
import SchemaTree.Proofs.Binary64
import SchemaTree.Proofs.Json
import SchemaTree.Proofs.Value.Exchange
import SchemaTree.Proofs.Mapping
import SchemaTree.Proofs.Storage.RoundTrip
import SchemaTree.Proofs.Embedded.Edits
import SchemaTree.Proofs.Provenance
import SchemaTree.Proofs.Storage.Scalars
import SchemaTree.Proofs.Field.Everywhere
import SchemaTree.Proofs.Storage.Settling
import SchemaTree.Proofs.Field.Equality
import SchemaTree.Proofs.Record.RoundTrip
import SchemaTree.Proofs.Embedded.Order
import SchemaTree.Proofs.Record.Order
import SchemaTree.Proofs.Embedded.Frame
import SchemaTree.Proofs.Path
import SchemaTree.Proofs.Merge
import SchemaTree.Proofs.Merge.NewPaths
import SchemaTree.Proofs.Field.Nested
import SchemaTree.Proofs.Field.Deep
import SchemaTree.Proofs.Merge.Absorption
import SchemaTree.Proofs.Merge.Convergence
import SchemaTree.Proofs.Record.Paths
import SchemaTree.Proofs.Value.Stability
import SchemaTree.Proofs.Field.Inside
import SchemaTree.Proofs.Field.Shown
import SchemaTree.Proofs.Constraints
import SchemaTree.Proofs.Json.Token
import SchemaTree.Proofs.Log
import SchemaTree.Proofs.DocumentType.Inheritance
import SchemaTree.Proofs.Update
import SchemaTree.Proofs.Flatten
import SchemaTree.Proofs.Attachment
import SchemaTree.Proofs.Field.Lifecycle
import SchemaTree.Proofs.Storage.Reserved
import SchemaTree.Proofs.Record.Exchange
import SchemaTree.Proofs.Record.Virtuality
import SchemaTree.Proofs.Embedded.Views
import SchemaTree.Proofs.History
import SchemaTree.Proofs.Query
import SchemaTree.Proofs.View
import SchemaTree.Proofs.FieldType
import SchemaTree.Proofs.Storage.Forms
import SchemaTree.Proofs.Storage.Vector
import SchemaTree.Proofs.Binary64.Truncation
import SchemaTree.Proofs.Storage.FrameRange
import SchemaTree.Proofs.Value.Instant
import SchemaTree.Proofs.Validation.Innermost
import SchemaTree.Proofs.Merge.Flags
import SchemaTree.Proofs.Merge.Compatibility
import SchemaTree.Proofs.Binary64.Number
import SchemaTree.Proofs.Storage.Integers
import SchemaTree.Proofs.Storage.Bounds
import SchemaTree.Proofs.Field.Copy
import SchemaTree.Proofs.Log.Mutations
