import Webapp.Data.Words
import Webapp.Data.Memory
import Webapp.Data.BigEndian
import Webapp.Data.Ieee
import Webapp.Data.Decimal
import Webapp.Data.OrderedMap
import Webapp.Data.Runs
import Webapp.MsgPack.Unpack
import Webapp.MsgPack.Pack
import Webapp.MsgPack.Objects
import Webapp.Workers.Request
import Webapp.Workers.Bounds
import Webapp.Workers.Reassembly
import Webapp.Workers.HandOff
import Webapp.Nginx.Buffer
import Webapp.Nginx.CreateRequest
import Webapp.Nginx.Reinit
import Webapp.Nginx.Body
import Webapp.Nginx.ProcessHeader
import Webapp.Protocol.HeaderHandOver
import Webapp.Session.Store
import Webapp.Session.Sessions
import Webapp.Session.Semantics
import Webapp.Session.Orphans
import Webapp.Session.Lifetime
import Webapp.Session.Cookies
import Webapp.Session.Raw
import Webapp.Workers.Queue
import Webapp.Workers.Shutdown
import Webapp.Workers.Pools
import Webapp.Workers.Slots
import Webapp.Workers.Reuse
import Webapp.Databases.Backends
import Webapp.Databases.Registry
import Webapp.Workers.Progress
import Webapp.Workers.SocketRead
import Webapp.Workers.Counters
import Webapp.Workers.Resume
import Webapp.Workers.Timeout
import Webapp.Session.Cleanup
import Webapp.Workers.Connect
import Webapp.Session.CookieBounds
import Webapp.Session.Timestamps
import Webapp.Nginx.Filter
import Webapp.Nginx.SetCookie
import Webapp.Databases.Rows
import Webapp.Data.Ownership
import Webapp.Databases.Resources
import Webapp.Databases.Release
import Webapp.Images.PixelBuffers
import Webapp.Images.Drawing
import Webapp.Images.Indexes
import Webapp.Images.Frames
import Webapp.Files.Streams
import Webapp.Images.Encoders
import Webapp.Images.Handles
import Webapp.Files.MakePath
import Webapp.Files.DeletePath
import Webapp.Files.Containment
import Webapp.Workers.Recycling
import Webapp.Images.Palette
import Webapp.Data.Circular
import Webapp.Data.Interference
import Webapp.Queues.Blocks
import Webapp.Queues.Capacity
import Webapp.Queues.Locked
import Webapp.Queues.Teardown
import Webapp.MsgPack.Accepted
import Webapp.Protocol.KeepAlive
import Webapp.Protocol.Completions
import Webapp.Data.Heap
import Webapp.Data.Ranges
import Webapp.Data.Tagged
import Webapp.Nginx.Delivery
import Webapp.Strings.Refinement
import Webapp.Workers.SocketWrite
import Webapp.Workers.WriteOrder
import Webapp.Workers.SocketLifetime
import Webapp.Data.Owners
import Webapp.Scripts.Cache
import Webapp.Scripts.Control
import Webapp.Scripts.Cycle
import Webapp.Scripts.Loads
import Webapp.Scripts.Races
