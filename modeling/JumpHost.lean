import JumpHost.Library.Run
import JumpHost.Library.SingleFlight
import JumpHost.Library.OrdMap
import JumpHost.Library.SortedSet
import JumpHost.Library.Newest
import JumpHost.Ssh.UsernameGrammar
import JumpHost.Ssh.Keys
import JumpHost.Ssh.Cluster
import JumpHost.Ssh.Auth
import JumpHost.Library.Rounding
import JumpHost.Value
import JumpHost.Ssh.TargetMatch
import JumpHost.Ssh.Connect
import JumpHost.Ssh.Reasons
import JumpHost.Ssh.Precedence
import JumpHost.Ssh.Session
import JumpHost.Ssh.Gateway
import JumpHost.Ssh.Teardown
import JumpHost.Ssh.SessionCap
import JumpHost.Ssh.AuditTrail
import JumpHost.Ssh.Reinjection
import JumpHost.Ssh.ChannelRequests
import JumpHost.Ssh.Bridging
import JumpHost.Models.AuditEvent
import JumpHost.Models.Metrics
import JumpHost.Models.ApiToken
import JumpHost.Web.Auth
import JumpHost.Web.TokenRoutes
import JumpHost.Web.ModelEvents
import JumpHost.Web.Activity
import JumpHost.Ssh.Access
import JumpHost.Ssh.Inventory
import JumpHost.Ssh.Picker
import JumpHost.Ssh.PickerChunks
import JumpHost.Library.Net
import JumpHost.Library.Quad
import JumpHost.Library.Utf8
import JumpHost.Library.Url
import JumpHost.Library.Rewrite
import JumpHost.Library.Chain
import JumpHost.Library.Trie
import JumpHost.Library.Cached
import JumpHost.Library.Effect
import JumpHost.Mesh.Addressing
import JumpHost.Mesh.Blocks
import JumpHost.Mesh.Plan
import JumpHost.Mesh.ExitPlans
import JumpHost.Mesh.Box
import JumpHost.Mesh.Shell
import JumpHost.Mesh.Apply
import JumpHost.Mesh.Frame
import JumpHost.Mesh.Changes
import JumpHost.Mesh.Requests
import JumpHost.Mesh.Peers
import JumpHost.Mesh.Calm
import JumpHost.Mesh.Netmaps
import JumpHost.Mesh.Removal
import JumpHost.Mesh.Masquerade
import JumpHost.Mesh.ExitLinks
import JumpHost.Mesh.MainTable
import JumpHost.Mesh.PeerRoutes
import JumpHost.Mesh.Routes
import JumpHost.Mesh.Router
import JumpHost.Mesh.Rules
import JumpHost.Mesh.Exits
import JumpHost.Mesh.ExitRouting
import JumpHost.Mesh.ExitState
import JumpHost.Mesh.ExitPeers
import JumpHost.Mesh.ExitReport
import JumpHost.Mesh.Outage
import JumpHost.Mesh.Passes
import JumpHost.Mesh.Freshness
import JumpHost.Mesh.Foreign
import JumpHost.Mesh.Crypto
import JumpHost.Mesh.Shadows
import JumpHost.Mesh.OneToOne
import JumpHost.Mesh.Unknown
import JumpHost.Mesh.Healing
import JumpHost.Mesh.ExitChoices
import JumpHost.Mesh.ExitRules
import JumpHost.Mesh.OneSite
import JumpHost.Models.UserFile
import JumpHost.Library.Pages
import JumpHost.Models.AuditList
import JumpHost.Web.TokenHistory
import JumpHost.Web.Expiry
import JumpHost.Web.Redirects
import JumpHost.Web.AuditDoors
import JumpHost.Library.Attempts
import JumpHost.Mesh.PeerCount
import JumpHost.Mesh.Addresses
import JumpHost.Mesh.Raised
import JumpHost.Mesh.PeerSettings
import JumpHost.Mesh.Steady
import JumpHost.Mesh.Host
import JumpHost.Mesh.Identity
import JumpHost.Mesh.Fabric
import JumpHost.Mesh.Leaving
import JumpHost.Ssh.Entitlement
import JumpHost.Ssh.Settling
import JumpHost.Ssh.Upstream
import JumpHost.Ssh.Sessions
import JumpHost.Web.Dashboard
import JumpHost.Library.Scan
import JumpHost.Mesh.Readback
import JumpHost.Mesh.PeerDump
import JumpHost.Mesh.Status
