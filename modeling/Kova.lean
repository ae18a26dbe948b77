import Kova.Account.AccountNumbers
import Kova.Account.Announcements
import Kova.Account.BalanceCache
import Kova.Account.Closing
import Kova.Account.ClosingBalance
import Kova.Account.ClosingEvent
import Kova.Account.Creation
import Kova.Account.Ownership
import Kova.Account.StatementPaging
import Kova.Auth.Challenges
import Kova.Auth.FailedRotation
import Kova.Auth.Footprint
import Kova.Auth.LatestCode
import Kova.Auth.LogoutChain
import Kova.Auth.OtpDraws
import Kova.Auth.OtpLockout
import Kova.Auth.OtpQuota
import Kova.Auth.OtpRate
import Kova.Auth.OtpUse
import Kova.Auth.PhoneNumber
import Kova.Auth.PinOrigin
import Kova.Auth.PinWrites
import Kova.Auth.Registration
import Kova.Auth.RevocationCache
import Kova.Auth.RevokeAll
import Kova.Auth.Roots
import Kova.Auth.TheftContainment
import Kova.Auth.UserIsolation
import Kova.Conc.RelyGuarantee
import Kova.Events.RoundTrip
import Kova.Gateway.Buckets
import Kova.Gateway.ClientIsolation
import Kova.Gateway.InARow
import Kova.Gateway.Probe
import Kova.Gateway.Sequential
import Kova.Gateway.Span
import Kova.Gateway.Traceability
import Kova.Gateway.Window
import Kova.Kafka.Commits
import Kova.Kafka.Producer
import Kova.Ledger.Amounts
import Kova.Ledger.Conservation
import Kova.Ledger.Consumers
import Kova.Ledger.CursorCodec
import Kova.Ledger.CursorInstant
import Kova.Ledger.Delivery
import Kova.Ledger.Drain
import Kova.Ledger.EndOfDay
import Kova.Ledger.ExactBalance
import Kova.Ledger.FalseAlarm
import Kova.Ledger.KafkaPublisher
import Kova.Ledger.KeyIdentity
import Kova.Ledger.Linearizable
import Kova.Ledger.OldEntries
import Kova.Ledger.RepeatedReply
import Kova.Ledger.Resend
import Kova.Ledger.Retry
import Kova.Ledger.Server
import Kova.Ledger.SnapshotMeaning
import Kova.Ledger.StatementBalance
import Kova.Ledger.TimeFilters
import Kova.Types.Conversion
import Kova.Types.Ids
import Kova.Types.MoneySums
import Kova.Types.PaymentRuns
import Kova.Account.Callers
import Kova.Auth.AccessTokens
import Kova.Conc.Beside
import Kova.Platform
