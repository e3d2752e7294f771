import TabOS.Application.CommandQueue
import TabOS.Application.ExecProtocol
import TabOS.Application.FileDescriptors
import TabOS.Application.Listing
import TabOS.Application.SocketTables
import TabOS.Audio.Hardware
import TabOS.Audio.Mixing
import TabOS.Basic.Loaded
import TabOS.Basic.Marks
import TabOS.Basic.Typeahead
import TabOS.Camera.Ownership
import TabOS.Clock.Conversion
import TabOS.Device.Replay
import TabOS.Executor.Isolation
import TabOS.Fs.Identity
import TabOS.Fs.Rename
import TabOS.HostIo.Gates
import TabOS.Input.Gaps
import TabOS.Library.Order
import TabOS.Loader.Rebase
import TabOS.Loader.Encoding
import TabOS.Loader.File
import TabOS.Net.Preserve
import TabOS.Net.Retry
import TabOS.Pointer.Interrupt
import TabOS.Pointer.Touches
import TabOS.Pool.Rules
import TabOS.Power.Asleep
import TabOS.Power.Config
import TabOS.Power.Finalize
import TabOS.Power.Inhibition
import TabOS.Process.Invariant
import TabOS.Raster.Canvas
import TabOS.Kilo.RoundTrip
import TabOS.Shell.HistoryFile
import TabOS.Shell.Line
import TabOS.Snake.Invariant
import TabOS.Terminal.Csi
import TabOS.Terminal.Erase
import TabOS.Terminal.Incremental
import TabOS.Terminal.Representation
import TabOS.Terminal.Resize
import TabOS.Library.Interpolation
import TabOS.Raster.Access
import TabOS.Raster.Bresenham
import TabOS.Raster.Rejection
import TabOS.Clock.Deadline
import TabOS.Application.Waiting
import TabOS.Executor.Create
import TabOS.Netutils.Fetch
import TabOS.Netutils.Irc
import TabOS.Shell.Arguments
import TabOS.Shell.Input
import TabOS.Kilo.Search
import TabOS.Kilo.Screen
import TabOS.Kilo.Render
import TabOS.Basic.Envelope
import TabOS.Basic.Graphics
import TabOS.Basic.Sprites
import TabOS.Basic.Synthesis
import TabOS.Device.Screenshot
import TabOS.Input.Repeat
import TabOS.Executor.NativeJobs
import TabOS.Application.StdinBytes
import TabOS.Console.Capture
import TabOS.Runtime.RunLoop
import TabOS.Runtime.Watch
import TabOS.Net.Startup
