import ShardLedger.Arithmetic
import ShardLedger.Bytes
import ShardLedger.Hex
import ShardLedger.Text.Quoted
import ShardLedger.Text.Decimal
import ShardLedger.Saturation
import ShardLedger.Duration
import ShardLedger.AccountId
import ShardLedger.Timestamp
import ShardLedger.TransactionId
import ShardLedger.Status
import ShardLedger.Table
import ShardLedger.Binary64.Shortest
import ShardLedger.Json.Raw
import ShardLedger.Wire.Binary
import ShardLedger.Wire.Text
import ShardLedger.Crypto.KeyText
import ShardLedger.Message
import ShardLedger.Crypto.Ed25519
import ShardLedger.Ledger.Inquiry
import ShardLedger.Ledger.Run
import ShardLedger.Rpc.Dispatch
import ShardLedger.Client.Backoff
import ShardLedger.Client.Operations
import ShardLedger.Client.Schedule
import ShardLedger.Client.Link
import ShardLedger.Client.Caller
import ShardLedger.Client.Script
import ShardLedger.Node.Emulator
import ShardLedger.Node.CommandLine
import ShardLedger.Main
import ShardLedger.Proofs.TableTotal
import ShardLedger.Proofs.Moves
import ShardLedger.Proofs.Settlement
import ShardLedger.Proofs.Outcomes
import ShardLedger.Proofs.Admission
import ShardLedger.Proofs.TransferMeaning
import ShardLedger.Proofs.Supply
import ShardLedger.Proofs.Authorization
import ShardLedger.Proofs.Failure
import ShardLedger.Proofs.TimestampOrder
import ShardLedger.Proofs.AtMostOnce
import ShardLedger.Client.Witness
import ShardLedger.Transaction.Building
import ShardLedger.Proofs.RecordAccuracy
import ShardLedger.Proofs.RecordedChanges
import ShardLedger.Proofs.BinaryForm
import ShardLedger.Proofs.WiredValues
import ShardLedger.Proofs.SignatureCover
import ShardLedger.Proofs.JsonText
import ShardLedger.Proofs.JsonOrder
import ShardLedger.Proofs.JsonForm
import ShardLedger.Proofs.ProperMessages
import ShardLedger.Proofs.BinaryReading
import ShardLedger.Proofs.EnvelopeLines
import ShardLedger.Proofs.ProperLedger
import ShardLedger.Proofs.RemoteAgreement
import ShardLedger.Client.Session
import ShardLedger.Proofs.LineBytes
import ShardLedger.Proofs.ReplyReading
import ShardLedger.Proofs.SessionInvariant
import ShardLedger.Proofs.SessionSteps
import ShardLedger.Proofs.OwnReplies
import ShardLedger.Proofs.PollSchedule
import ShardLedger.Proofs.ReceiptPolls
import ShardLedger.Proofs.Resolution
import ShardLedger.Proofs.PollBudgets
import ShardLedger.Proofs.BodyCode
import ShardLedger.Proofs.FreshAccounts
import ShardLedger.Proofs.DeletedAccounts
import ShardLedger.Proofs.AcceptanceWindow
import ShardLedger.Ledger.Archive
import ShardLedger.Proofs.ReceiptFrame
import ShardLedger.Proofs.DroppedReceipts
import ShardLedger.Proofs.ReceiptVisibility
import ShardLedger.Proofs.EnvelopeRoundTrip
import ShardLedger.Proofs.BrokenStreams
import ShardLedger.Proofs.SilentQueries
import ShardLedger.Proofs.AccountHistory
import ShardLedger.Proofs.MintedIdentifiers
import ShardLedger.Proofs.LineProtocol
import ShardLedger.Proofs.ResolverStates
import ShardLedger.Proofs.SideBySide
import ShardLedger.Proofs.GeneratedStarts
import ShardLedger.Proofs.DelayLaw
import ShardLedger.Proofs.PayingAccount
import ShardLedger.Proofs.ClientNodeAgreement
import ShardLedger.Proofs.IdentifierTexts
import ShardLedger.Client.Errand
import ShardLedger.Proofs.OneRequest
import ShardLedger.Proofs.KeyTexts
import ShardLedger.Proofs.ReceiptStore
import ShardLedger.Proofs.ExactCounts
