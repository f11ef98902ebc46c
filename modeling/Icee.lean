import Icee.Lib.Links
import Icee.Lib.Lru
import Icee.Lib.LruResidency
import Icee.Lib.Transition
import Icee.Lib.Ownership
import Icee.Lib.Memory
import Icee.Lib.Census
import Icee.Lib.Search
import Icee.Lib.Fields
import Icee.Lib.Location
import Icee.Lib.Pipeline
import Icee.Lib.PipelineHistory
import Icee.Lib.PipelineStages
import Icee.Lib.Messages
import Icee.Core.Basic
import Icee.Core.Cache
import Icee.Core.CacheInvariant
import Icee.Core.CacheStore
import Icee.Core.CacheLru
import Icee.Core.CacheResidency
import Icee.Core.CacheAccounting
import Icee.Core.CacheTimeStamps
import Icee.Core.CacheConcurrent
import Icee.Core.Connection
import Icee.Core.BufferHistory
import Icee.Core.Sending
import Icee.Core.NetAddress
import Icee.Core.SocketAddress
import Icee.Core.Socket
import Icee.Core.EventLooper
import Icee.Core.EventLooperThreads
import Icee.Core.ThreadPool
import Icee.Core.PoolDestructor
import Icee.Core.ThreadSafeQueue
import Icee.Core.IceeServer
import Icee.Core.ServerLifetime
import Icee.Core.ServerSize
import Icee.Http.Utils
import Icee.Http.Request
import Icee.Http.HeaderLine
import Icee.Http.Grammar
import Icee.Http.Framing
import Icee.Http.HeaderOrder
import Icee.Http.Response
import Icee.Http.Client
import Icee.Http.ReadBack
import Icee.Http.Server
import Icee.Http.ServerStore
import Icee.Http.Containment
import Icee.Http.Delivery
import Icee.Http.Lifecycle
import Icee.Http.Transmission
import Icee.Http.HangUp
import Icee.Http.Coherence
import Icee.Http.Concurrent
import Icee.Http.Reactor
import Icee.Http.Isolation
import Icee.Http.Deployment
import Icee.Http.Progress
import Icee.Http.Browsing
import Icee.Http.Uninterrupted
import Icee.Http.Main
import Icee.Demo.EchoServer
import Icee.Log.Logger
import Icee.Log.DoubleBuffer
import Icee.Log.WakeUp
import Icee.Log.LogFile
