import Arena.AddressPool
import Arena.AdminSessions
import Arena.AnyToken
import Arena.AuditBooks
import Arena.Browser
import Arena.CiscoProfile
import Arena.CloseReason
import Arena.Convergence
import Arena.Counts
import Arena.Coverage
import Arena.Credentials
import Arena.Deletion
import Arena.Denial
import Arena.ExactPatch
import Arena.Expiry
import Arena.Failures
import Arena.Filters
import Arena.Fleet
import Arena.ForwardedFor
import Arena.Handover
import Arena.Incremental
import Arena.InfoLine
import Arena.Isolation
import Arena.Journey
import Arena.Ledger
import Arena.LifeCycle
import Arena.Limit
import Arena.Model.Serial
import Arena.NodeRows
import Arena.Origin
import Arena.PanelFiles
import Arena.Placeholder
import Arena.Progress
import Arena.RateBound
import Arena.Recording
import Arena.Remaining
import Arena.Reset
import Arena.Revocation
import Arena.Rotation
import Arena.Routing
import Arena.Seeding
import Arena.Shutdown
import Arena.SpeedLimit
import Arena.Staleness
import Arena.Subscriptions
import Arena.Supervision
import Arena.Tokens
import Arena.Truncated
import Arena.Truncation
import Arena.Userinfo
import Arena.Validity
import Arena.WireguardFile
