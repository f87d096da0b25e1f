import Nyabase.HttpProxy.Forwarding
import Nyabase.HttpProxy.ChunkedFraming
import Nyabase.HttpProxy.Incarnation
import Nyabase.SshProxy.RevocationComplete
import Nyabase.Agent.FirewallRefinement
import Nyabase.Agent.NicGuarded
import Nyabase.Agent.Recheck
import Nyabase.Agent.GuardListing
import Nyabase.Backend.LeaseExclusion
import Nyabase.Backend.MountPaths
import Nyabase.Backend.QueuePasses
import Nyabase.Backend.InstanceIdentity
import Nyabase.Backend.RootShrink
import Nyabase.Backend.RestartProof
import Nyabase.Backend.RefreshReuse
import Nyabase.Backend.GracePeriod
import Nyabase.Backend.AddressClaims
import Nyabase.Backend.HttpReservations
import Nyabase.Agent.RequestConfinement
import Nyabase.Backend.ProxyRevocation
import Nyabase.SshProxy.ProxyHeaders
import Nyabase.Backend.DriftSoundness
import Nyabase.SshProxy.HistoryIngest
import Nyabase.ProxyCommon.LimiterAccounts
import Nyabase.SshProxy.HoldBound
import Nyabase.Backend.IamGuards
import Nyabase.Backend.ConsoleSessions
import Nyabase.Agent.StatusReports
import Nyabase.Backend.ImageDeletion
import Nyabase.SshProxy.TrustedSources
import Nyabase.SshProxy.StatusTotals
