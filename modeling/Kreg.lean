import Kreg.AddressBlock
import Kreg.Ranking
import Kreg.HalfLife
import Kreg.RoundedDecay
import Kreg.ApiServer
import Kreg.Counting
import Kreg.Sequences
import Kreg.GoTime
import Kreg.GoText
import Kreg.GoNet
import Kreg.Types
import Kreg.Authorize
import Kreg.Normalize
import Kreg.Select
import Kreg.Damp
import Kreg.Ewma
import Kreg.Report
import Kreg.Sweep
import Kreg.Snapshot
import Kreg.Attribution
import Kreg.AuthorizeSpec
import Kreg.TrustBoundary
import Kreg.NameKey
import Kreg.Settled
import Kreg.Decoding
import Kreg.RuleUses
import Kreg.Communities
import Kreg.Rib
import Kreg.CommunityOrder
import Kreg.ClusterView
import Kreg.CapRank
import Kreg.SweepStore
import Kreg.StoredPrior
import Kreg.RoundTrip
import Kreg.StoredScores
import Kreg.ExactReal
import Kreg.Transition
import Kreg.KeyView
import Kreg.DurableMemory
import Kreg.WellFormed
import Kreg.Isolation
import Kreg.Runs
import Kreg.BackendKeys
import Kreg.Seconds
import Kreg.HoldDown
import Kreg.FlapAccounting
import Kreg.Suppression
import Kreg.Debounce
import Kreg.Coherence
import Kreg.Rejection
import Kreg.SecondLook
import Kreg.Gauge
import Kreg.Hysteresis
import Kreg.Release
import Kreg.FlapDecay
import Kreg.Agreement
import Kreg.Reasons
import Kreg.Shortcut
import Kreg.Render
import Kreg.ReportRender
import Kreg.Failover
import Kreg.OrderFree
import Kreg.PeerConfigOrder
import Kreg.FirstSeen
import Kreg.SweepRuns
import Kreg.SweepMemory
import Kreg.RecordView
import Kreg.PolicyReconciler
import Kreg.Quiescence
import Kreg.PolicyStore
import Kreg.SliceNames
import Kreg.Convergence
import Kreg.PolicyCounts
import Kreg.PolicyRuns
import Kreg.PolicyInterleaving
import Kreg.Ownership
import Kreg.LastChange
import Kreg.PeerManager
import Kreg.PeerReconciler
import Kreg.PeerStore
import Kreg.PeerAuth
import Kreg.PeerConverge
import Kreg.PeerRuns
import Kreg.PeerTrail
import Kreg.System
import Kreg.Trust
import Kreg.SystemSweeps
import Kreg.QuietSystem
import Kreg.ViewAgreement
import Kreg.AddressText
import Kreg.ServedAddresses
import Kreg.RejectionGauge
