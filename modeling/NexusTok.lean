import NexusTok.Auth.Flow
import NexusTok.Auth.Lockout
import NexusTok.Billing.Lifecycle
import NexusTok.Billing.TextQuota
import NexusTok.Cache.AuthVersion
import NexusTok.Channel.Consistent
import NexusTok.Channel.Index
import NexusTok.Channel.Migration
import NexusTok.Convert.ChatToClaudeLossless
import NexusTok.Convert.ChatToGeminiRuns
import NexusTok.Convert.ChatToResponsesRuns
import NexusTok.Convert.ClaudeToChat
import NexusTok.Convert.PartialArgs
import NexusTok.Convert.Schema
import NexusTok.Expr.Fixed
import NexusTok.Expr.Shown
import NexusTok.Header.Client
import NexusTok.Limit.Bucket
import NexusTok.Limit.Model
import NexusTok.Network.Target
import NexusTok.Override.Legacy
import NexusTok.Override.NegativeIndex
import NexusTok.Plugin.Routes
import NexusTok.Reasoning.Canonical
import NexusTok.Reasoning.Claude
import NexusTok.Reasoning.Gemini
import NexusTok.Relay.Levels
import NexusTok.Routing.Affinity
import NexusTok.Routing.Draw
import NexusTok.Routing.Manual
import NexusTok.Session.Limits
import NexusTok.Session.Refresh
import NexusTok.Session.Revoked
import NexusTok.Subscription.Boundary
import NexusTok.Subscription.Group
import NexusTok.Subscription.Order
import NexusTok.Subscription.Usage
import NexusTok.SystemTask.Exclusive
import NexusTok.Task.Handed
import NexusTok.Task.Once
import NexusTok.Task.Returned
import NexusTok.Tokens.Overlay
import NexusTok.Tokens.Repeated
import NexusTok.Wallet.Batch
import NexusTok.Wallet.Ceiling
import NexusTok.Wallet.Reserve
