import KNex.Core.LTS
import KNex.Core.JsMap
import KNex.Core.Json
import KNex.Runtime.ToolGateway
import KNex.Runtime.ToolIdempotency
import KNex.Runtime.GenerationHistory
import KNex.ExtensionStore.Operations
import KNex.ExtensionStore.Protocol
import KNex.ExtensionStore.Moves
import KNex.ExtensionStore.OperationProtocol
import KNex.ExtensionStore.Pointers
import KNex.ExtensionStore.RollbackHistory
import KNex.ExtensionStore.Reconciliation
import KNex.Runtime.RevisionConsumer
import KNex.Runtime.PurgeAuthority
import KNex.Core.Calls
import KNex.Runtime.ToolApproval
import KNex.Ui.RemoteUiSessions
import KNex.Runtime.SourceConvergence
import KNex.Runtime.ExtensionRunner
import KNex.Runtime.AuthorizationRegistry
import KNex.Runtime.AuthorityResolver
import KNex.Core.JsonText
import KNex.Contracts.CanonicalJson
import KNex.Composition.RequiredGraph
import KNex.Composition.InstalledPlugins
import KNex.Composition.Resolver
import KNex.Composition.Soundness
import KNex.Runtime.RegistrationRuntime
import KNex.AppStorage.Storage
import KNex.Pages.PageSessions
import KNex.AppStorage.Quota
import KNex.AppStorage.Revisions
import KNex.Editor.CleanStatus
import KNex.Editor.SaveProtocol
import KNex.Core.LeasedJob
import KNex.Outbox.OutboxProcessor
import KNex.Outbox.LeaseProtocol
import KNex.Ui.GenerationDrain
import KNex.Core.History
import KNex.Ui.RemoteUiHostSession
import KNex.Ui.SessionProtocol
import KNex.Contracts.Semver
import KNex.Extensions.Catalog
import KNex.Extensions.AntiRollback
import KNex.Builder.PuckAdapter
import KNex.Builder.PuckProfile
import KNex.Builder.RoundTrip
import KNex.Runtime.GenerationReplay
import KNex.Upgrade.UpgradePlan
import KNex.Upgrade.UpgradeDryRun
import KNex.Composition.CycleDiagnosis
import KNex.Core.Propagation
import KNex.Runtime.PluginLifecycle
import KNex.Core.TokenBucket
import KNex.Runtime.CallBudget
import KNex.Runtime.BudgetBound
import KNex.Runtime.DataSourceGateway
import KNex.Core.InternetAddress
import KNex.Core.IsIP
import KNex.Runtime.ExtensionNetworkTransport
import KNex.Theme.ThemeProfileStore
import KNex.Contracts.SemverPrecedence
import KNex.Runtime.Fleet
import KNex.Contracts.ReleaseTransition
import KNex.Core.TextCoding
import KNex.Core.Sha256
import KNex.Contracts.Sha256
import KNex.Core.ListFrame
import KNex.Ui.LayoutResolution
import KNex.Core.Bytes
import KNex.Extensions.Tar
import KNex.Extensions.TarHeaders
import KNex.Extensions.TarRoundTrip
import KNex.Core.Base64
import KNex.Contracts.ParsedJson
import KNex.Ui.BrowserViewState
import KNex.Ui.PluginNavigation
import KNex.Contracts.StrictSchema
import KNex.Core.JoinedKeys
import KNex.Core.ParentChain
import KNex.Runtime.ExtensionCapabilityTokens
import KNex.Runtime.CapabilityClaims
import KNex.Runtime.CapabilityTokenRoundTrip
import KNex.Core.Decimal
import KNex.Sales.Money
import KNex.Ui.WorkspaceNavigation
import KNex.Contracts.CompactJson
import KNex.Sales.SavedViewJson
import KNex.Core.Rfc4180
import KNex.Sales.Csv
import KNex.Sales.ImportDryRun
import KNex.Core.CivilCalendar
import KNex.Core.ZoneClock
import KNex.Sales.CalendarRange
import KNex.Sales.SavedViewCompile
import KNex.Contracts.JsonFields
import KNex.Runtime.QueryControls
import KNex.Sales.SavedViewAdmission
import KNex.Sales.SavedViewGateway
import KNex.Sales.SavedViewExecution
import KNex.Runtime.SecurityPatches
import KNex.Sales.AuditHistory
