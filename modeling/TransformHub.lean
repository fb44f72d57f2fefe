import TransformHub.HubState.Watches
import TransformHub.RestApi2.HubEventWatchDelivery
import TransformHub.Host.HubEventWatchRun
import TransformHub.Manager.TopicPipes
import TransformHub.Manager.SthSuperseded
import TransformHub.Host.LocalStorageRun
import TransformHub.Host.SequenceDeletion
import TransformHub.Host.InstanceAccounting
import TransformHub.Host.RequiredStartup
import TransformHub.Host.ManifestChanges
import TransformHub.Manager.SthConcurrentRegistrations
import TransformHub.Runner.LocalChannelServer
import TransformHub.HubState.SubscriptionDiscipline
import TransformHub.Host.RunnerTransportGenerations
import TransformHub.Runner.ManifestDeclarationProtocol
import TransformHub.ApiRouter.ClientTransportsRun
import TransformHub.HubState.ConsumeAtomicity
import TransformHub.Host.InstanceNames
import TransformHub.Runner.InputHeadersRun
import TransformHub.Manager.CsrLock
import TransformHub.Manager.CsrAgreement
import TransformHub.MultiManager.LifecycleRun
import TransformHub.Runner.ManifestDeclarationSessionRun
import TransformHub.Manager.StorageRoutersRun
import TransformHub.Manager.CsrRedeemBinding
import TransformHub.ApiRouter.RouterExpansion
import TransformHub.Runner.LifecycleObserverChunks
import TransformHub.Manager.RequestToSth
import TransformHub.Host.TopicRecords
import TransformHub.Host.CsiControllerEnd
import TransformHub.Host.CsiControllerStatus
import TransformHub.Manager.SthBulkMessages
import TransformHub.Runner.LocalStorageAgent
import TransformHub.ApiRouter.PathTemplatesRoundTrip
import TransformHub.Config.OptionForms
import TransformHub.Utility.ExponentialBackoffRun
import TransformHub.Utility.Verser2RequestBoundaryRun
import TransformHub.Host.ExposeRoutesRun
import TransformHub.Host.ServiceDiscoveryRun
import TransformHub.Config.ConfigPrecedence
import TransformHub.ApiRouter.RoutePipelineRun
import TransformHub.Runner.ShutdownGrace
import TransformHub.Manager.Verser2TransportRun
import TransformHub.Host.LoadIntervals
import TransformHub.Host.RunnerBrokerRun
import TransformHub.Host.RpcPathRouting
import TransformHub.ApiRouter.RouterMounts
import TransformHub.Manager.StorageQuotaRun
import TransformHub.Runner.ControlFrames
import TransformHub.Runner.OutputStream
import TransformHub.ApiServer.Mime
import TransformHub.AdapterProcess.ProcessInstanceAdapter
import TransformHub.Manager.DerReader
import TransformHub.Manager.DiskPaths
import TransformHub.ApiRouter.ResolverMiddleware
import TransformHub.Host.InputHeader
import TransformHub.ApiRouter.Verser2Dispatch
import TransformHub.Manager.DerOid
