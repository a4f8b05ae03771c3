import MyS3.Core.Program
import MyS3.Core.RelyGuarantee
import MyS3.Core.Transition
import MyS3.Core.Nesting
import MyS3.Core.Tiling
import MyS3.Core.Attempts
import MyS3.Core.Separated
import MyS3.Core.Infix
import MyS3.Core.Chunks
import MyS3.Core.Forest
import MyS3.Io
import MyS3.Error
import MyS3.Region
import MyS3.Upload.World
import MyS3.Upload.Writer
import MyS3.Upload.Handle
import MyS3.Upload.Retry
import MyS3.Upload.Ledger
import MyS3.Upload.Operation
import MyS3.Upload.Outcome
import MyS3.Upload.Custody
import MyS3.Upload.Calls
import MyS3.Upload.System
import MyS3.Upload.Evolution
import MyS3.Upload.Invariant
import MyS3.Upload.Turn
import MyS3.Upload.Conservation
import MyS3.Upload.Settlement
import MyS3.Upload.Verdict
import MyS3.Upload.EarlyAnswer
import MyS3.Upload.ShortBody
import MyS3.Upload.Blame
import MyS3.Upload.Handshake
import MyS3.Upload.Atomic
import MyS3.Upload.Cancellation
import MyS3.Upload.Cap
import MyS3.Upload.Written
import MyS3.Upload.Backpressure
import MyS3.Upload.Boundary
import MyS3.Upload.Chunks
import MyS3.Upload.Attempts
import MyS3.Reader.Poll
import MyS3.Reader.Position
import MyS3.Reader.Failure
import MyS3.Reader.Resumption
import MyS3.Xml.Text
import MyS3.Xml.Number
import MyS3.Xml.Pieces
import MyS3.Xml.Escape
import MyS3.Xml.Spelling
import MyS3.Xml.Scan
import MyS3.Xml.Grammar
import MyS3.Xml.Tree
import MyS3.Xml.Walker
import MyS3.Xml.Place
import MyS3.Xml.Structure
import MyS3.Xml.PullReader
import MyS3.Xml.Root
import MyS3.Query.Encode
import MyS3.Query.Canonical
import MyS3.Query.Server
import MyS3.Query.Wire
import MyS3.Answer
import MyS3.Signing.Sign
import MyS3.Signing.Verify
import MyS3.Signing.Authorization
import MyS3.Signing.Timestamp
import MyS3.Signing.Binding
import MyS3.ListObjects.Parse
import MyS3.ListObjects.CutShort
import MyS3.ListObjects.Listing
import MyS3.ListObjects.Structure
import MyS3.ListObjects.Request
import MyS3.ListObjects.Wire
import MyS3.ListObjects.Walk
import MyS3.BucketLocation.Parse
import MyS3.BucketLocation.Constraint
import MyS3.BucketLocation.Refused
import MyS3.Client.Response
import MyS3.Client.Download
import MyS3.Client.Operation
import MyS3.Client.Call
import MyS3.Client.Failure
import MyS3.Storage.Object
import MyS3.Storage.Range
import MyS3.Storage.State
import MyS3.Storage.Network
import MyS3.Storage.Verify
import MyS3.Storage.Integrity
import MyS3.Storage.Download
import MyS3.Storage.Open
import MyS3.Storage.Truncation
import MyS3.Storage.Reading
import MyS3.Storage.Overwrite
import MyS3.Storage.Upload
import MyS3.Storage.Fleet
