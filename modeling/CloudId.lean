import CloudId.Library.Text
import CloudId.Library.Utf8Lossy
import CloudId.Library.PercentEncoding
import CloudId.Library.IpAddr
import CloudId.Library.Json
import CloudId.Library.JsonText
import CloudId.Library.JsonObjects
import CloudId.Library.HashMap
import CloudId.Library.SortedMap
import CloudId.Library.SecondaryIndex
import CloudId.Library.FileSystem
import CloudId.Library.Effects
import CloudId.Library.FileTree
import CloudId.Library.Directories
import CloudId.Library.SpelledPaths
import CloudId.Library.Renames
import CloudId.Library.FilePrograms
import CloudId.Library.SnapshotCache
import CloudId.Library.KvMirror
import CloudId.Library.GuardedRun
import CloudId.Library.Linearization
import CloudId.Library.WriteThrough
import CloudId.Library.Reconciler
import CloudId.Library.KeyedRows
import CloudId.Library.FairLocks
import CloudId.Library.Gregorian
import CloudId.Library.Backoff
import CloudId.Library.FirstOffer
import CloudId.Model
import CloudId.Config
import CloudId.State
import CloudId.Resolve
import CloudId.Access
import CloudId.Templates
import CloudId.Cache
import CloudId.AmoWatcher
import CloudId.BmhWatcher
import CloudId.Ignition
import CloudId.Kickstart
import CloudId.Provision
import CloudId.Handlers
import CloudId.Metadata
import CloudId.ResolveProofs
import CloudId.ContainerProofs
import CloudId.CacheProofs
import CloudId.DisabledUsers
import CloudId.KeylessUsers
import CloudId.KickstartAccounts
import CloudId.RebuildInterleaving
import CloudId.LockOrder
import CloudId.ImdsTokens
import CloudId.Agent
import CloudId.AgentOutages
import CloudId.AgentFiles
import CloudId.AmoSession
import CloudId.AmoHistory
import CloudId.AmoOverlay
import CloudId.BmhHistory
import CloudId.BmhStream
import CloudId.RefreshFailures
import CloudId.LeaseOnly
import CloudId.RefreshInterleaving
import CloudId.IgnitionProofs
import CloudId.IgnitionUsers
import CloudId.IgnitionMerge
import CloudId.IgnitionResult
import CloudId.IgnitionDistinct
import CloudId.DataUris
import CloudId.ServiceProofs
import CloudId.OneshotProofs
import CloudId.Persistence
import CloudId.Refusals
import CloudId.TemplateInfo
import CloudId.StoreFiles
import CloudId.TemplateMap
import CloudId.TemplateNames
import CloudId.TemplatePrograms
import CloudId.Confinement
import CloudId.TemplateTurns
import CloudId.TemplateVariables
import CloudId.ConcurrentPuts
import CloudId.UndisturbedPuts
import CloudId.KickstartMerge
import CloudId.KickstartReading
import CloudId.Timestamps
import CloudId.MetadataRoute
import CloudId.RouterOsNat
import CloudId.ContainerPolls
import CloudId.Router
import CloudId.Routing
import CloudId.SafeMethods
import CloudId.Records
import CloudId.RecordsRun
import CloudId.RecordTurns
import CloudId.ServedAccess
import CloudId.AmoAccess
import CloudId.StaticAccess
import CloudId.AgentDelivery
