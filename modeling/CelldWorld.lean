import CelldWorld.HookResume
import CelldWorld.DeferredCleanup
import CelldWorld.RunList
import CelldWorld.Library.Guarantee
import CelldWorld.HookShards
import CelldWorld.TerminalCleanup
import CelldWorld.ExpiryReports
import CelldWorld.CatalogExpiry
import CelldWorld.RetentionAccounting
import CelldWorld.Spec.Hooks
import CelldWorld.StreamLifecycle
import CelldWorld.StreamWakeups
import CelldWorld.QueueScopes
import CelldWorld.QueueRefusals
import CelldWorld.QueueAttempts
import CelldWorld.QueueClaimScopes
import CelldWorld.TerminalRuns
import CelldWorld.QueueRepublication
import CelldWorld.OrphanAlarm
import CelldWorld.CellAlarm
import CelldWorld.RunListing
import CelldWorld.RunsList
import CelldWorld.StreamFormats
import CelldWorld.StreamChunks
import CelldWorld.RunPages
import CelldWorld.EventScan
import CelldWorld.Library.Traces
import CelldWorld.CatalogKeys
import CelldWorld.EventPages
import CelldWorld.StreamReadFrames
import CelldWorld.RetentionDeadlines
import CelldWorld.RpcCodec
import CelldWorld.HookIndexOrigins
