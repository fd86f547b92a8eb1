import Castserver.Library.Runs
import Castserver.Library.Histories
import Castserver.Library.Loops
import Castserver.Library.Slices
import Castserver.Library.Paths
import Castserver.Library.Cycles
import Castserver.Speakers
import Castserver.Pusher
import Castserver.Control
import Castserver.Detect
import Castserver.Service
import Castserver.Presence
import Castserver.Formats
import Castserver.Setup
import Castserver.Clocks
import Castserver.Descriptors
import Castserver.Reach
import Castserver.Dispatcher
import Castserver.Listing
import Castserver.ControlThread
import Castserver.Pushwave
import Castserver.Channels
import Castserver.Delivery
import Castserver.CopyBounds
import Castserver.Carving
import Castserver.Interleaving
import Castserver.Numbering
import Castserver.Counter
import Castserver.WaveEnds
import Castserver.Exchange
import Castserver.Transmission
import Castserver.Mutex
import Castserver.DetectRead
import Castserver.Registry
import Castserver.Http
import Castserver.FileNames
import Castserver.Library.Simulations
import Castserver.Library.Tasks
import Castserver.Isolation
import Castserver.WaveTask
import Castserver.Threads
import Castserver.Playing
import Castserver.Audience
import Castserver.Traffic
import Castserver.Audio
import Castserver.Pipeline
import Castserver.Performance
import Castserver.Lifecycle
import Castserver.SocketFile
import Castserver.Announcements
import Castserver.Boot
import Castserver.Library.Options
import Castserver.CommandLines
