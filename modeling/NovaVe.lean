import NovaVe.Runs
import NovaVe.Lab
import NovaVe.LinkService
import NovaVe.NetworkService
import NovaVe.Nodes
import NovaVe.LabGraph
import NovaVe.LinkGraph
import NovaVe.Topology
import NovaVe.LinkSteps
import NovaVe.GraphRuns
import NovaVe.WsChannel
import NovaVe.WsHub
import NovaVe.WsDelivery
import NovaVe.WsDeliveryRuns
import NovaVe.WriterRuns
import NovaVe.Writers
import NovaVe.BootMap
import NovaVe.Effects
import NovaVe.Host
import NovaVe.QemuInterface
import NovaVe.Reconcile
import NovaVe.Reconciled
import NovaVe.ReconcileConverges
import NovaVe.StartStop
import NovaVe.CommandFrames
import NovaVe.AttachSteps
import NovaVe.DetachSteps
import NovaVe.StartSteps
import NovaVe.ReconcileFrames
import NovaVe.Ipv4
import NovaVe.Ipam
import NovaVe.IpamSteps
import NovaVe.IpamRuns
import NovaVe.IpamSafety
import NovaVe.IfaceNames
import NovaVe.SweepIsolation
import NovaVe.Confinement
import NovaVe.JsonDump
import NovaVe.LabFileWrites
import NovaVe.PidAgreement
import NovaVe.PidRuns
import NovaVe.Heartbeat
import NovaVe.NodeCallRuns
import NovaVe.OneRuntime
import NovaVe.EventLoop
import NovaVe.EventLoopSafety
import NovaVe.NoStall
import NovaVe.LockRequests
import NovaVe.LockDiscipline
import NovaVe.LockOrder
import NovaVe.HotAttachFrames
import NovaVe.SiteOps
import NovaVe.BridgeOwners
import NovaVe.BridgeStamps
import NovaVe.SiteSafety
import NovaVe.SiteFrames
import NovaVe.SiteEnsure
import NovaVe.LabIsolation
import NovaVe.HelperSignals
import NovaVe.QmpReplies
import NovaVe.RuntimeMutex
import NovaVe.LinkRecords
import NovaVe.LinkRequestSteps
import NovaVe.DeleteMatches
import NovaVe.IdempotencyRuns
import NovaVe.LastWrite
import NovaVe.MacRegistry
import NovaVe.MacAgreement
import NovaVe.MacUniqueness
import NovaVe.CloudRecords
import NovaVe.SharedClouds
import NovaVe.CloudSubnetSteps
import NovaVe.SharedCloudRuns
import NovaVe.SharedCloudCalls
import NovaVe.HostBridges
import NovaVe.HostBridgeEdits
import NovaVe.HostBridgeSteps
import NovaVe.HostBridgeRuns
import NovaVe.TokenLedger
import NovaVe.TokenSteps
import NovaVe.TokenRuns
import NovaVe.SlotRuns
import NovaVe.SocketClientRuns
import NovaVe.IolIds
import NovaVe.NicIdentity
import NovaVe.PersistedMacs
import NovaVe.QemuCommand
import NovaVe.MergedArgs
import NovaVe.AdoptionInverts
import NovaVe.PairedNodes
import NovaVe.PairedSound
import NovaVe.PairedPreflight
import NovaVe.LabMigration
import NovaVe.MigrationKeeps
import NovaVe.MigrationSound
import NovaVe.DeletionSteps
import NovaVe.QemuNics
import NovaVe.NicDetach
import NovaVe.DeletionDetach
import NovaVe.DeletionFailure
import NovaVe.DeletionRestores
import NovaVe.DeletionIff
import NovaVe.DefaultMacs
import NovaVe.HubReplay
import NovaVe.MacBlocks
import NovaVe.AnchoredPatterns
import NovaVe.HelperNames
import NovaVe.NameCodec
import NovaVe.NetworkNames
import NovaVe.NamingRuns
import NovaVe.InterfaceUpdates
import NovaVe.LabJson
import NovaVe.LabJsonLaws
import NovaVe.LabJsonIdentity
import NovaVe.Discovery
import NovaVe.DiscoveryGateLaws
import NovaVe.DiscoveryGate
import NovaVe.DiscoveryGateRuns
import NovaVe.Provisioning
import NovaVe.ProvisioningSteps
import NovaVe.ProvisioningUndo
import NovaVe.NetworkRollback
import NovaVe.DedupLinks
import NovaVe.MergeLaw
import NovaVe.SuggestMac
import NovaVe.EthernetPorts
import NovaVe.DynamipsNodes
import NovaVe.HypervisorReplies
import NovaVe.NioBalance
import NovaVe.TelnetFilter
import NovaVe.RuntimeMigration
import NovaVe.RuntimeMigrationRuns
import NovaVe.RuntimeMigrationAgain
import NovaVe.MinHeap
import NovaVe.OrthogonalGrid
import NovaVe.RunAStar
import NovaVe.AStarRuns
import NovaVe.AStarSearching
import NovaVe.AStarWays
import NovaVe.AStarCheapest
import NovaVe.AStarLegs
import NovaVe.AStarOnPath
import NovaVe.BlockedCells
import NovaVe.RoutedPaths
import NovaVe.BootNicRuns
import NovaVe.FacingPorts
import NovaVe.FacedRoutes
import NovaVe.LaneSweeps
import NovaVe.CrossingCounts
import NovaVe.ReducedCrossings
import NovaVe.SweptAgain
import NovaVe.EmittedRoutes
import NovaVe.FaithfulRoutes
import NovaVe.PortSeparation
import NovaVe.SeparatedPorts
import NovaVe.CanvasEdges
import NovaVe.DerivedEdges
import NovaVe.InterfaceNaming
import NovaVe.NamingAgreement
import NovaVe.DockerMarkers
import NovaVe.MarkedImages
import NovaVe.MarkerRuns
import NovaVe.FolderTrees
import NovaVe.FolderSteps
import NovaVe.OrphanBridges
import NovaVe.Sessions
import NovaVe.AccountRights
import NovaVe.DragLink
import NovaVe.InfoPanels
import NovaVe.ConsoleBridge
import NovaVe.SerialTables
import NovaVe.GuacamoleGrants
import NovaVe.NetplanGen
import NovaVe.EvengImport
import NovaVe.ImportRuns
import NovaVe.ImportAgain
import NovaVe.ImportLosses
import NovaVe.LayoutRequests
