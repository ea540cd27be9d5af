import NodePlane.Library.Table
import NodePlane.Library.History
import NodePlane.Library.PrefixCode
import NodePlane.Agent.Json
import NodePlane.Agent.Canonical
import NodePlane.Agent.Journal
import NodePlane.Agent.Intent
import NodePlane.Agent.Runner
import NodePlane.Agent.Profile
import NodePlane.Agent.Settings
import NodePlane.Agent.Operation
import NodePlane.Agent.Expiry
import NodePlane.Agent.Decommission
import NodePlane.Agent.Force
import NodePlane.Agent.Extension
import NodePlane.Agent.Transition
import NodePlane.Agent.Refinement.Covers
import NodePlane.Agent.Refinement.Profile
import NodePlane.Agent.Refinement.Operation
import NodePlane.Agent.Refinement.Revocation
import NodePlane.Agent.Calls
import NodePlane.Agent.RevisionFence
import NodePlane.Agent.FailClosed
import NodePlane.Agent.Removal
import NodePlane.Agent.Replay
import NodePlane.Agent.Starts
import NodePlane.Agent.AtMostOnce
import NodePlane.Agent.SettingsOrder
import NodePlane.Controller.Database
import NodePlane.Controller.Outbox
import NodePlane.Controller.NodeSettings
import NodePlane.Controller.Commands
import NodePlane.Controller.Nodes
import NodePlane.Controller.Executor
import NodePlane.Controller.SettingsQueue
import NodePlane.Controller.NodeOperations
import NodePlane.Controller.Lifecycle
import NodePlane.Controller.System
import NodePlane.Controller.Temporary
import NodePlane.Controller.Change
import NodePlane.Controller.Recording
import NodePlane.Controller.Rows
import NodePlane.Controller.Exclusive
import NodePlane.Controller.Registry
import NodePlane.Controller.Fences
import NodePlane.Controller.Sound
import NodePlane.Controller.Refinement.Profiles
import NodePlane.Controller.Refinement.Nodes
import NodePlane.Controller.Complete
import NodePlane.Controller.Refinement.Worker
import NodePlane.Controller.Refinement.Lifecycle
import NodePlane.Controller.Refinement.Calls
import NodePlane.Controller.QueueExclusion
import NodePlane.Controller.DispatchOrder
import NodePlane.Controller.Completeness
import NodePlane.Controller.TemporaryLeases
import NodePlane.Controller.RemovalGate
import NodePlane.Controller.ExpiryPass
import NodePlane.Library.Generations
import NodePlane.Controller.Backups
import NodePlane.Controller.RestoredRevisions
import NodePlane.Library.Wire
import NodePlane.Driver.OperationStore
import NodePlane.Driver.Messages
import NodePlane.Driver.CommandsOnce
import NodePlane.Agent.SingleUse
import NodePlane.Agent.ForcedRecovery
import NodePlane.Agent.StoredGrants
import NodePlane.Agent.TemporaryExpiry
import NodePlane.Snapshots.Policies
import NodePlane.Snapshots.Delivery
import NodePlane.Snapshots.Convergence
import NodePlane.Library.BTreeMap
import NodePlane.Xray.Api
import NodePlane.Xray.Admission
import NodePlane.Xray.AdmissionState
import NodePlane.Xray.Enforcement
import NodePlane.Xray.BlockRules
import NodePlane.Xray.OrphanRules
import NodePlane.Shaping.Allocate
import NodePlane.Xray.Rate
import NodePlane.Xray.RateRules
import NodePlane.Library.Slots
import NodePlane.Shaping.Tc
import NodePlane.Shaping.InPlace
import NodePlane.Library.ListEdit
import NodePlane.Agent.JsonEdit
import NodePlane.Xray.Settings
import NodePlane.Xray.SettingsAgree
import NodePlane.Controller.Quotas
import NodePlane.Controller.QuotaRuns
import NodePlane.Library.Sums
import NodePlane.Controller.Traffic
import NodePlane.Controller.TrafficSums
import NodePlane.Controller.TrafficRange
import NodePlane.Library.MapSums
import NodePlane.Controller.TrafficInbounds
import NodePlane.Agent.SelfUpdate
import NodePlane.Agent.UpdateGuards
import NodePlane.Relay.Hub
import NodePlane.Relay.HubRuns
import NodePlane.Agent.Readings
import NodePlane.Library.Paragraphs
import NodePlane.Awg.Addresses
import NodePlane.Awg.Peers
import NodePlane.Awg.PeerTexts
import NodePlane.Awg.PeerConfig
import NodePlane.Awg.PeerSteps
import NodePlane.Awg.PeerRuns
import NodePlane.Awg.AddressTexts
import NodePlane.Awg.AddressLists
import NodePlane.Awg.MigrateConfig
import NodePlane.Agent.ReadingsAgree
import NodePlane.Agent.Handover
import NodePlane.Agent.HandoverRuns
import NodePlane.Agent.HandoverOrder
import NodePlane.Controller.Accounts
import NodePlane.Controller.Owners
import NodePlane.Controller.OwnerUpdates
import NodePlane.Controller.OwnersKept
import NodePlane.Controller.Bootstraps
import NodePlane.Controller.BootstrapChildren
import NodePlane.Controller.BootstrapHolder
import NodePlane.Controller.BootstrapSteps
import NodePlane.Controller.BootstrapLock
import NodePlane.Controller.BootstrapRuns
import NodePlane.Xray.Cooldowns
import NodePlane.Controller.Blocked
import NodePlane.Controller.Logins
import NodePlane.Controller.Sessions
import NodePlane.Controller.SessionTokens
import NodePlane.Controller.Deliveries
import NodePlane.Controller.DeliveryClaims
import NodePlane.Controller.DeliveryRuns
import NodePlane.Controller.Invites
import NodePlane.Controller.InviteUses
import NodePlane.Controller.InviteRuns
import NodePlane.Controller.SystemCleanup
import NodePlane.Controller.CleanupRuns
import NodePlane.Controller.CleanupSound
import NodePlane.Agent.JsonOrder
import NodePlane.Agent.ForcedFingerprints
import NodePlane.Agent.ForcedAgreement
import NodePlane.Controller.LoginSteps
import NodePlane.Controller.LoginRuns
import NodePlane.Library.Regex
import NodePlane.Library.Base64
import NodePlane.Awg.Profile
import NodePlane.Awg.ValidProfile
import NodePlane.Awg.Parameters
import NodePlane.Awg.ParametersAgree
import NodePlane.Awg.NewProfile
import NodePlane.Library.Calendar
import NodePlane.Controller.QuotaPeriods
import NodePlane.Shaping.Numbering
import NodePlane.Agent.Der
import NodePlane.Controller.TelegramSignIn
import NodePlane.Controller.ClientKeys
import NodePlane.Library.PythonText
import NodePlane.Agent.VersionOrder
import NodePlane.Controller.ReleaseVersions
import NodePlane.Agent.PythonJson
import NodePlane.Controller.PolicyChanges
import NodePlane.Controller.SelectedPort
import NodePlane.Controller.AppliedRevisions
import NodePlane.Xray.UserSync
import NodePlane.Controller.AlertScans
import NodePlane.Controller.AlertIncidents
import NodePlane.Controller.AlertRuns
import NodePlane.Controller.AlertOutages
