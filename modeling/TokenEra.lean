import TokenEra.Auth.Revocation
import TokenEra.Auth.Rotation
import TokenEra.Auth.Session
import TokenEra.Auth.UserFence
import TokenEra.Authz.ExternalIdentity
import TokenEra.Authz.Override
import TokenEra.Authz.Policy
import TokenEra.Billing.Accounting
import TokenEra.Billing.Exclusion
import TokenEra.Billing.Invariant
import TokenEra.Billing.Operations
import TokenEra.Billing.QuotaBounds
import TokenEra.Billing.Session
import TokenEra.Billing.SmokeTest
import TokenEra.Billing.TextQuota
import TokenEra.Billing.TieredTokens
import TokenEra.Billing.ToolCalls
import TokenEra.Channel.Agree
import TokenEra.Channel.Choice
import TokenEra.Channel.Disable
import TokenEra.Channel.Fair
import TokenEra.Channel.Model
import TokenEra.Channel.MultiKey
import TokenEra.Channel.Polling
import TokenEra.Channel.Routing
import TokenEra.Channel.Synced
import TokenEra.ChatToClaude.Layout
import TokenEra.ChatToClaude.Stream
import TokenEra.ChatToClaude.WellFormed
import TokenEra.ChatToGemini
import TokenEra.ClaudeToChat
import TokenEra.Distributor
import TokenEra.Fetch.Address
import TokenEra.Fetch.Client
import TokenEra.Fetch.Protection
import TokenEra.GeminiToChat.Calls
import TokenEra.GeminiToChat.Finish
import TokenEra.GeminiToChat.Stream
import TokenEra.GeminiToChat.Whole
import TokenEra.Lib.Calendar
import TokenEra.Lib.Dict
import TokenEra.Lib.Draw
import TokenEra.Lib.Fault
import TokenEra.Lib.Int64
import TokenEra.Lib.Json
import TokenEra.Lib.Loss
import TokenEra.Lib.Machine
import TokenEra.Lib.RoundRobin
import TokenEra.Lib.Run
import TokenEra.Lib.Table
import TokenEra.Lib.Text
import TokenEra.Lib.Window
import TokenEra.Payment
import TokenEra.Playground
import TokenEra.RateLimit
import TokenEra.Redemption
import TokenEra.Refresh
import TokenEra.Request.ChatToClaude
import TokenEra.Request.ChatToClaudeKept
import TokenEra.Request.ChatToGemini
import TokenEra.Request.ChatToResponses
import TokenEra.Request.ClaudeRoundTrip
import TokenEra.Request.ClaudeToChat
import TokenEra.Request.Decoded
import TokenEra.Request.GeminiToChat
import TokenEra.Request.Item
import TokenEra.Request.Message
import TokenEra.Request.ResponsesToChat
import TokenEra.Request.ResponsesToClaude
import TokenEra.ResponseSchema
import TokenEra.Responses.Buffered
import TokenEra.Responses.ChatContent
import TokenEra.Responses.Model
import TokenEra.Subscription.Advance
import TokenEra.Subscription.Bound
import TokenEra.Subscription.Ledger
import TokenEra.Subscription.Period
import TokenEra.Subscription.Plan
import TokenEra.Subscription.PreConsumeRace
import TokenEra.Subscription.PurchaseLimit
import TokenEra.Subscription.Refund
import TokenEra.Subscription.ResetClock
import TokenEra.Subscription.Store
import TokenEra.SystemTasks.Exclusion
import TokenEra.SystemTasks.Expiry
import TokenEra.SystemTasks.Lease
import TokenEra.Task.Billing
import TokenEra.Task.Charge
import TokenEra.Task.Invariant
import TokenEra.Task.Polling
import TokenEra.Token.Cache
import TokenEra.Token.Edit
import TokenEra.Token.Model
import TokenEra.TopUp.Race
import TokenEra.TopUp.Recharge
import TokenEra.TwoFA.BackupCodes
import TokenEra.TwoFA.Lockout
import TokenEra.Usage.ClaudeStream
import TokenEra.Usage.Converted
import TokenEra.Usage.Counts
import TokenEra.Usage.Routes
import TokenEra.Wallet.BatchUpdate
import TokenEra.Wallet.QuotaChange
import TokenEra.Wallet.Reserve
