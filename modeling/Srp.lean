import Srp.Analytics.Signals
import Srp.Analytics.Storage
import Srp.Analytics.Health
import Srp.Lib.Machine
import Srp.Analytics.HealthRatchet
import Srp.Analytics.StorageRisk
import Srp.Pipeline.Recompute
import Srp.Pipeline.WorstDisk
import Srp.Lib.GroupBy
import Srp.Netdisco.Fusion
import Srp.Netdisco.FusionOrder
import Srp.Lib.Worklist
import Srp.Netdisco.Graph
import Srp.Netdisco.Correlation
import Srp.Db.NetTables
import Srp.Netdisco.Reconcile
import Srp.Netdisco.SilentProbe
import Srp.Netdisco.Reachability
import Srp.Netdisco.StatusHistory
import Srp.Netdisco.Cache
import Srp.Netdisco.CacheEtag
import Srp.Netdisco.CacheInvalidation
import Srp.Db.DiskReadings
import Srp.Db.DiskSeries
import Srp.Db.EventRollup
import Srp.Db.EventRollupLossless
import Srp.Db.EventRollupBound
import Srp.Analytics.HealthCoherence
import Srp.Analytics.StorageMonotone
import Srp.Netdisco.AdapterMerge
import Srp.Lib.IsoTime
import Srp.Analytics.RuleStats
import Srp.Db.RuleEpisodes
import Srp.Db.RawArchive
import Srp.Client.Transport
import Srp.Lib.PyJson
import Srp.Lib.Lines
import Srp.Client.BufferConservation
import Srp.Lib.Outbox
import Srp.Server.Readings
import Srp.Client.Backlog
import Srp.Server.Outage
import Srp.Server.LatestReading
import Srp.Analytics.Trends
import Srp.Analytics.SoftwareAging
import Srp.Server.PhantomReboot
import Srp.Trust.Domains
import Srp.Scoring.Scores
import Srp.Scoring.Gate
import Srp.Analytics.OsDegradation
import Srp.Analytics.NetworkRisk
import Srp.Analytics.DiskFill
import Srp.Analytics.FleetAnomaly
import Srp.Lib.Disclosure
import Srp.Analytics.StorageOverflow
import Srp.Pipeline.Device
import Srp.Analytics.TrendSteps
import Srp.Pipeline.GateLeak
import Srp.Analytics.HealthWithheld
import Srp.Lib.SlidingWindow
import Srp.Server.RateLimit
import Srp.Server.RetryAfter
import Srp.Server.RescoreQueue
import Srp.Lib.PyInt
import Srp.Client.Updater
import Srp.Client.UpdateAuthenticity
import Srp.Client.UpdateAttempts
import Srp.Db.NetMigration
import Srp.Client.PrintJobs
import Srp.Client.PrintSwitch
import Srp.Lib.PyFloat
import Srp.Trust.Gate
import Srp.Trust.Validators
import Srp.Trust.Evaluate
import Srp.Trust.Staleness
import Srp.Trust.StalenessDegrades
import Srp.Trust.Silence
import Srp.Lib.Octets
import Srp.Lib.Dotted
import Srp.Printers.Ber
import Srp.Printers.Snmp
import Srp.Printers.SnmpWalk
import Srp.Printers.WalkRows
import Srp.Printers.WalkAgent
import Srp.Printers.WalkExchange
import Srp.Printers.WalkEquiv
import Srp.Printers.WalkBounds
import Srp.Analytics.RuleStability
import Srp.Analytics.SlimVerdicts
import Srp.Lib.Median
import Srp.Analytics.TrendRobust
import Srp.Db.LinkReplacement
import Srp.Db.AgentVersion
import Srp.Db.PrintDedup
import Srp.Client.PrintSweeps
import Srp.Client.CounterConservation
import Srp.Lib.PyCast
import Srp.Client.PrintEnvelope
import Srp.Lib.Cut
import Srp.Lib.DepthFirst
import Srp.Lib.LowLink
import Srp.Netdisco.Tarjan
import Srp.Zabbix.Items
import Srp.Zabbix.Export
import Srp.Zabbix.ExportValues
import Srp.Lib.PyUnicode
import Srp.Client.UserCerts
import Srp.Client.UserIdentity
import Srp.Client.HostileSpool
import Srp.Netdisco.NetworkMap
import Srp.Netdisco.AgentNodes
import Srp.Lib.PySet
import Srp.Netdisco.Changes
import Srp.Netdisco.ChangesReplay
import Srp.Lib.PyDecode
import Srp.Printers.Ipp
import Srp.Printers.IppTruncation
import Srp.Lib.DnsName
import Srp.Netdisco.Passive
import Srp.Netdisco.MdnsTruncation
import Srp.Netdisco.SnmpMac
import Srp.Analytics.NetworkMonotone
import Srp.Zabbix.Partition
import Srp.Printers.Forecast
import Srp.Lib.CappedSweep
import Srp.Zabbix.Diagnosis
import Srp.Lib.Base64
import Srp.Netdisco.Credentials
import Srp.Netdisco.Redfish
import Srp.Analytics.Netmap
import Srp.Lib.DayBook
import Srp.Client.DailyPages
import Srp.Lib.Directory
import Srp.Lib.UndoLog
import Srp.Server.BackupFiles
import Srp.Server.Restore
import Srp.Server.Backup
import Srp.Server.BackupSteps
import Srp.Server.BackupRuns
import Srp.Server.BackupHistory
import Srp.Netdisco.LinkInference
import Srp.Netdisco.Evidence
import Srp.Lib.Framing
import Srp.Zabbix.Wire
import Srp.Zabbix.Packets
import Srp.Zabbix.Reply
import Srp.Lib.Suppress
import Srp.Zabbix.Journal
import Srp.Printers.Discovery
