import BuffaloNas.Interaction.Program
import BuffaloNas.Interaction.Observation
import BuffaloNas.Bytes
import BuffaloNas.Micon.Frame
import BuffaloNas.Micon.Api
import BuffaloNas.Micon.Line
import BuffaloNas.Micon.Stream
import BuffaloNas.Micon.Shutdown
import BuffaloNas.Interaction.LastWrite
import BuffaloNas.Micon.Leds
import BuffaloNas.Interaction.Triple
import BuffaloNas.Micon.LateReply
import BuffaloNas.Fan.Daemon
import BuffaloNas.Fan.Tracking
import BuffaloNas.Fan.LostWrites
import BuffaloNas.Hex
import BuffaloNas.Install.Table
import BuffaloNas.Install.Analyze
import BuffaloNas.Install.Layout
import BuffaloNas.Install.Flash
import BuffaloNas.Install.Effect
import BuffaloNas.SuperIo.Ports
import BuffaloNas.Gpio.Driver
import BuffaloNas.It87.Devices
import BuffaloNas.It87.Find
import BuffaloNas.Gpio.Sessions
import BuffaloNas.It87.Sessions
import BuffaloNas.Gpio.Selected
import BuffaloNas.Interaction.Only
import BuffaloNas.Gpio.Lines
import BuffaloNas.Interaction.Interleave
import BuffaloNas.Gpio.Races
import BuffaloNas.Dnv.Driver
import BuffaloNas.Dnv.Registers
import BuffaloNas.Dnv.Lines
import BuffaloNas.Dnv.Suspend
import BuffaloNas.Decimal
import BuffaloNas.It87.Data
import BuffaloNas.It87.Values
import BuffaloNas.It87.Attributes
import BuffaloNas.It87.Probe
import BuffaloNas.It87.World
import BuffaloNas.It87.Refresh
import BuffaloNas.It87.Events
import BuffaloNas.It87.Stores
import BuffaloNas.It87.Started
import BuffaloNas.Interaction.History
import BuffaloNas.It87.Divisors
import BuffaloNas.It87.Effects
import BuffaloNas.It87.Modes
import BuffaloNas.It87.Mappings
import BuffaloNas.It87.TripPoints
import BuffaloNas.It87.Channels
import BuffaloNas.Install.Checksum
import BuffaloNas.Micon.Answers
import BuffaloNas.Fan.Curve
import BuffaloNas.Initrd.Closure
import BuffaloNas.It87.Saturation
import BuffaloNas.It87.Handover
import BuffaloNas.It87.RoundTrip
import BuffaloNas.Interaction.Lock
import BuffaloNas.It87.Access
import BuffaloNas.It87.Races
import BuffaloNas.It87.Banks
import BuffaloNas.It87.SensorTypes
import BuffaloNas.Nearest
import BuffaloNas.It87.Frequencies
import BuffaloNas.Image.Partitions
import BuffaloNas.Debian.Lookup
import BuffaloNas.Micon.Eeprom
import BuffaloNas.Dnv.Triggering
import BuffaloNas.Dnv.Bounds
import BuffaloNas.Micon.CheckByte
import BuffaloNas.Dnv.Concurrent
import BuffaloNas.Gpio.Concurrent
import BuffaloNas.Dnv.Handler
import BuffaloNas.It87.SettingStores
import BuffaloNas.It87.ShownSettings
import BuffaloNas.Gpio.Lifecycle
import BuffaloNas.It87.Lifecycle
import BuffaloNas.It87.Findings
import BuffaloNas.It87.Reload
import BuffaloNas.It87.Search
import BuffaloNas.Fan.Hwmon
