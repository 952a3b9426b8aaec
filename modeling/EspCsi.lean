import EspCsi.Lib.Cobs
import EspCsi.Lib.Postcard
import EspCsi.Wire.Frame
import EspCsi.Model
import EspCsi.Csi.Policy
import EspCsi.Csi.Esp
import EspCsi.Stats
import EspCsi.Csi.Events
import EspCsi.Csi.Capture
import EspCsi.Csi.Consumers
import EspCsi.Csi.Destinations
import EspCsi.Logging.Stream
import EspCsi.Wire.Codec
import EspCsi.Lib.TokenLine
import EspCsi.Csi.Announcement
import EspCsi.Csi.Timestamps
import EspCsi.Csi.LossAccounting
import EspCsi.EspNow.Initiator
import EspCsi.EspNow.Downlink
import EspCsi.EspNow.Responder
import EspCsi.EspNow.Exchange
import EspCsi.EspNow.Labels
import EspCsi.Lib.Streak
import EspCsi.Lib.LossyQueue
import EspCsi.Csi.Runs
import EspCsi.Csi.QueueAccounting
import EspCsi.Csi.Counters
import EspCsi.EspNow.Promotion
import EspCsi.EspNow.Lock
import EspCsi.EspNow.Announced
import EspCsi.EspNow.Reach
import EspCsi.Wire.Setup
import EspCsi.Setup.Node
import EspCsi.Setup.Successive
import EspCsi.Setup.Formats
import EspCsi.Lib.Pacing
import EspCsi.EspNow.Simplex
import EspCsi.EspNow.Pacing
import EspCsi.EspNow.Rate
import EspCsi.EspNow.Network
import EspCsi.EspNow.Pairing
import EspCsi.Csi.Gating
import EspCsi.Csi.Numbering
import EspCsi.Setup.Periods
import EspCsi.Setup.Protocol
import EspCsi.Lib.SlotTable
import EspCsi.Wifi.Dhcp
import EspCsi.Wifi.Targets
import EspCsi.Lib.Wakeup
import EspCsi.Wakeups
import EspCsi.Stop
import EspCsi.Csi.Admission
import EspCsi.Csi.Scoring
import EspCsi.Lib.Profile
import EspCsi.Lib.Checked
import EspCsi.Lib.Recency
import EspCsi.Lib.Missing
import EspCsi.Lib.Rendering
import EspCsi.Csi.Emission
import EspCsi.Csi.Widening
import EspCsi.Stats.Table
import EspCsi.Stats.Gaps
import EspCsi.Stats.Resync
import EspCsi.Logging.Text
import EspCsi.Lib.Calendar
import EspCsi.Time
import EspCsi.Lib.RoundRobin
import EspCsi.Lib.Appending
import EspCsi.EspNow.Frames
import EspCsi.EspNow.Adaptation
import EspCsi.EspNow.Misses
import EspCsi.Wifi.Flood
import EspCsi.Wifi.Fairness
import EspCsi.Wire.Accepted
import EspCsi.Wire.Synthetic
import EspCsi.Logging.Digits
import EspCsi.Logging.ArrayList
import EspCsi.Logging.CsiTool
import EspCsi.Host.WireDecode
import EspCsi.Host.Counters
import EspCsi.Host.TextLines
import EspCsi.Host.Losses
import EspCsi.Host.Summary
import EspCsi.Lib.Drained
import EspCsi.Logging.Backend
import EspCsi.Logging.Console
import EspCsi.Csi.Order
import EspCsi.Host.Captured
import EspCsi.EspNow.Modes
import EspCsi.Csi.Isolation
import EspCsi.Logging.Reported
import EspCsi.Setup.Handover
import EspCsi.Wifi.Association
import EspCsi.Emitter
import EspCsi.Stats.Rates
import EspCsi.Stats.OnTime
