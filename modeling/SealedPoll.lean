import SealedPoll.Artifact
import SealedPoll.Artifact.Printer
import SealedPoll.Artifact.Reader
import SealedPoll.Batch
import SealedPoll.Bytes.Basic
import SealedPoll.Bytes.Chunks
import SealedPoll.Bytes.Endian
import SealedPoll.Bytes.Hex
import SealedPoll.Cipher.Aes
import SealedPoll.Cipher.Block
import SealedPoll.Cipher.Gcm
import SealedPoll.Command
import SealedPoll.Command.Arguments
import SealedPoll.Command.Help
import SealedPoll.Command.Report
import SealedPoll.Command.Run
import SealedPoll.Config
import SealedPoll.Curve.Edwards
import SealedPoll.Curve.Field
import SealedPoll.Curve.Montgomery
import SealedPoll.Curve.Signature
import SealedPoll.Decimal.Shortest
import SealedPoll.Error
import SealedPoll.Frame
import SealedPoll.Hash.Hkdf
import SealedPoll.Hash.Sha2
import SealedPoll.Json.Numeral
import SealedPoll.Json.Scan
import SealedPoll.Json.Skip
import SealedPoll.Json.Strings
import SealedPoll.Json.Token
import SealedPoll.Log
import SealedPoll.Main
import SealedPoll.MainKey
import SealedPoll.PollKey
import SealedPoll.RandomSource
import SealedPoll.Registry
import SealedPoll.Registry.Program
import SealedPoll.Service
import SealedPoll.Service.Program
import SealedPoll.Text
import SealedPoll.Text.Properties
import SealedPoll.Vote
import SealedPoll.Proofs.Batch
import SealedPoll.Proofs.Cipher.Aes
import SealedPoll.Proofs.Cipher.Field
import SealedPoll.Proofs.Cipher.Gcm
import SealedPoll.Proofs.Frame
import SealedPoll.Proofs.Service
import SealedPoll.Proofs.Service.Spread
import SealedPoll.Proofs.Service.History
import SealedPoll.Proofs.Service.Lifecycle
import SealedPoll.Proofs.Service.Ballots
import SealedPoll.Proofs.Vote.Tampering
import SealedPoll.Proofs.Curve.Edwards
import SealedPoll.Proofs.Curve.Encoding
import SealedPoll.Proofs.Frame.Grammar
import SealedPoll.Proofs.MainKey
import SealedPoll.Proofs.Service.Artifacts
import SealedPoll.Proofs.Service.Isolation
import SealedPoll.Proofs.Registry.Linear
import SealedPoll.Proofs.Registry.Delivery
import SealedPoll.Proofs.Bytes.Hex
import SealedPoll.Proofs.Json.Grammar
import SealedPoll.Proofs.Json.Strings
import SealedPoll.Proofs.Json.Numbers
import SealedPoll.Proofs.Json.Values
import SealedPoll.Proofs.Artifact.Format
import SealedPoll.Proofs.Artifact.Reader
import SealedPoll.Proofs.Json.Streaming
import SealedPoll.Proofs.Artifact.Streaming
import SealedPoll.Proofs.Artifact.RoundTrip
import SealedPoll.Proofs.Service.Payloads
import SealedPoll.Proofs.Service.Logs
import SealedPoll.Proofs.Log
import SealedPoll.Proofs.Service.Audit
import SealedPoll.Proofs.Text
import SealedPoll.Proofs.Config
import SealedPoll.Proofs.Command
import SealedPoll.Proofs.Command.EndToEnd
import SealedPoll.Proofs.Command.Keys
import SealedPoll.Proofs.Curve.Montgomery
import SealedPoll.Proofs.Vote.Opening
import SealedPoll.Proofs.Vote.Sealing
import SealedPoll.Proofs.Vote.Keys
import SealedPoll.Proofs.Curve.Group
import SealedPoll.Proofs.Frame.Truncation
import SealedPoll.Proofs.Curve.Order
import SealedPoll.Proofs.Command.Arguments
import SealedPoll.Proofs.Command.Failures
import SealedPoll.Proofs.Verification
import SealedPoll.Proofs.Vote.Encodings
import SealedPoll.Proofs.Batch.Tiling
