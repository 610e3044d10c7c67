import Teiryo.Client.ActivityCursor
import Teiryo.Client.App
import Teiryo.Client.AppInput
import Teiryo.Client.Boundaries
import Teiryo.Client.ChartCursor
import Teiryo.Client.Connecting
import Teiryo.Client.Countdown
import Teiryo.Client.Estimates
import Teiryo.Client.Format
import Teiryo.Client.Holes
import Teiryo.Client.Pan
import Teiryo.Client.Projection
import Teiryo.Client.ProjectionOrder
import Teiryo.Client.Rate
import Teiryo.Client.RateSeries
import Teiryo.Client.Runways
import Teiryo.Client.Selection
import Teiryo.Client.Session
import Teiryo.Client.SessionRuns
import Teiryo.Client.SessionUpdates
import Teiryo.Client.SettingsSteps
import Teiryo.Client.Spinner
import Teiryo.Client.SteadyBurn
import Teiryo.Client.Updates
import Teiryo.Client.Widening
import Teiryo.Core.Codec
import Teiryo.Core.Domain
import Teiryo.Core.Downsampling
import Teiryo.Core.F64
import Teiryo.Core.Handshake
import Teiryo.Core.History
import Teiryo.Core.Messages
import Teiryo.Core.Rollover
import Teiryo.Core.RolloverRuns
import Teiryo.Core.Storage
import Teiryo.Core.StorageSpec
import Teiryo.Core.Wire
import Teiryo.Core.WireFormat
import Teiryo.Daemon.Admitted
import Teiryo.Daemon.AnchorHistory
import Teiryo.Daemon.Anchors
import Teiryo.Daemon.Cadence
import Teiryo.Daemon.Config
import Teiryo.Daemon.ConfigEdit
import Teiryo.Daemon.ConfigShape
import Teiryo.Daemon.ConfigSpec
import Teiryo.Daemon.ConfigWatch
import Teiryo.Daemon.ConnectionRuns
import Teiryo.Daemon.Connections
import Teiryo.Daemon.Discovery
import Teiryo.Daemon.DiscoveryRuns
import Teiryo.Daemon.Evidence
import Teiryo.Daemon.Failures
import Teiryo.Daemon.FreshAnchors
import Teiryo.Daemon.Health
import Teiryo.Daemon.HistoryFrame
import Teiryo.Daemon.Instance
import Teiryo.Daemon.Jitter
import Teiryo.Daemon.Omission
import Teiryo.Daemon.OneDaemon
import Teiryo.Daemon.Pause
import Teiryo.Daemon.Polls
import Teiryo.Daemon.Published
import Teiryo.Daemon.RecentPolls
import Teiryo.Daemon.Requests
import Teiryo.Daemon.Restart
import Teiryo.Daemon.RetryAfter
import Teiryo.Daemon.Scheduler
import Teiryo.Daemon.Schedules
import Teiryo.Daemon.Server
import Teiryo.Daemon.SetConfig
import Teiryo.Daemon.State
import Teiryo.Daemon.Throttling
import Teiryo.Daemon.Triggers
import Teiryo.Framework.Bincode
import Teiryo.Framework.BincodeCodec
import Teiryo.Framework.Cursor
import Teiryo.Framework.Dict
import Teiryo.Framework.Firsts
import Teiryo.Framework.Greedy
import Teiryo.Framework.Grouping
import Teiryo.Framework.InOrder
import Teiryo.Framework.Json
import Teiryo.Framework.JsonErase
import Teiryo.Framework.Ladder
import Teiryo.Framework.Loop
import Teiryo.Framework.Rfc3339
import Teiryo.Framework.Run
import Teiryo.Providers.Credentials
import Teiryo.Providers.Isolation
import Teiryo.Providers.Models
import Teiryo.Providers.Parser
import Teiryo.Providers.ParserSpec
import Teiryo.Providers.Provenance
import Teiryo.Providers.Shapes
import Teiryo.Providers.Sources
import Teiryo.Providers.Stability
