import AgentWallet.Bolt12.Diverse
import AgentWallet.Bolt12.Disclosure
import AgentWallet.Bolt12.Settle
import AgentWallet.Bolt12.Pending
import AgentWallet.Bolt12.Reply
import AgentWallet.Bolt12.InboundRate
import AgentWallet.Audit.Tamper
import AgentWallet.Core.Limits
import AgentWallet.Core.Completed
import AgentWallet.Core.Ownership
import AgentWallet.Core.Lnurl
import AgentWallet.Anonymize.MultiOutputPlan
import AgentWallet.Anonymize.SingleUse
import AgentWallet.Swaps.Payers
import AgentWallet.Swaps.Claims
import AgentWallet.Swaps.Funding
import AgentWallet.Swaps.Recovery
import AgentWallet.Deposit.Send
import AgentWallet.Channels.OwnChannel
import AgentWallet.Channels.Bootstrap
import AgentWallet.Bolt11.Extraction
import AgentWallet.Core.BreakerProbes
import AgentWallet.Anonymize.CoinControl
import AgentWallet.Bolt12.Recorded
import AgentWallet.Anonymize.Parking
import AgentWallet.Anonymize.Reorg
import AgentWallet.Anonymize.Fallback
import AgentWallet.Anonymize.Transitions
import AgentWallet.Anonymize.Clock
import AgentWallet.Anonymize.Scheduler
import AgentWallet.Anonymize.RoundTrip
import AgentWallet.Anonymize.OperatorHealth
import AgentWallet.Anonymize.AuditSummary
import AgentWallet.Anonymize.SelfPayRouting
import AgentWallet.Gateway.StickyPeers
