import Craftsman.DecoderSafety
import Craftsman.Demultiplex
import Craftsman.NetworkServer
import Craftsman.Echo
import Craftsman.Wedge
import Craftsman.StandardInput
import Craftsman.LineFraming
import Craftsman.Global
import Craftsman.Dlfn
import Craftsman.Execute
import Craftsman.Bindings
import Craftsman.Handles
import Craftsman.Clock
import Craftsman.Simulation
import Craftsman.Lockstep
import Craftsman.Schedule
import Craftsman.Progress
import Craftsman.Replay
import Craftsman.NameTable
import Craftsman.Readiness
import Craftsman.CommandSafety
import Craftsman.Sending
import Craftsman.Receiving
import Craftsman.Fifo
import Craftsman.FrameStore
import Craftsman.Statistics
import Craftsman.Cadence
import Craftsman.Sleeping
import Craftsman.Calibration
import Craftsman.Hashing
import Craftsman.Literals
import Craftsman.ParameterFrame
import Craftsman.Decoding
import Craftsman.Blobs
import Craftsman.Blocks
import Craftsman.FrameDelivery
import Craftsman.Stream.Selection
import Craftsman.Numbering
import Craftsman.Stream.Separated
import Craftsman.Tokens
import Craftsman.Measurement
import Craftsman.Rewiring
import Craftsman.Singleplayer
import Craftsman.Flow
import Craftsman.HotReload
import Craftsman.Elf
import Craftsman.Loader
import Craftsman.Disk
import Craftsman.CalibrationLock
import Craftsman.Mutations
import Craftsman.Multiplayer
import Craftsman.Delivery
import Craftsman.Shutdown
import Craftsman.Connecting
import Craftsman.Keyboard
