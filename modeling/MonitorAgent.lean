import MonitorAgent.Core.LTS
import MonitorAgent.Core.StdMap
import MonitorAgent.Core.OrderSet
import MonitorAgent.Core.BigEndian
import MonitorAgent.Core.Scalar
import MonitorAgent.Core.ForLoop
import MonitorAgent.Core.Strtok
import MonitorAgent.Core.Pages
import MonitorAgent.Core.Tiling
import MonitorAgent.Core.MinHeap
import MonitorAgent.Core.WaitFor
import MonitorAgent.Core.Relock
import MonitorAgent.Core.Unwinding
import MonitorAgent.Core.Reader
import MonitorAgent.Core.Text
import MonitorAgent.Core.Fairness
import MonitorAgent.L1Http.Response
import MonitorAgent.L1Http.Pump
import MonitorAgent.L1Http.Framing
import MonitorAgent.L1Http.Connection
import MonitorAgent.L1Http.HttpGet
import MonitorAgent.L1Http.Headers
import MonitorAgent.L1Wire.TcpStorage
import MonitorAgent.L1Wire.Reassembly
import MonitorAgent.L1Wire.Parameter
import MonitorAgent.L1Wire.Decoding
import MonitorAgent.L1Wire.FrameLoop
import MonitorAgent.L1Wire.ReceiveBuffer
import MonitorAgent.L1Wire.RoomsInfo
import MonitorAgent.L1Wire.Requests
import MonitorAgent.L1Wire.Receiving
import MonitorAgent.L1Wire.Announcement
import MonitorAgent.L2Queue.MessageQueue
import MonitorAgent.L2Queue.WakeUp
import MonitorAgent.L2Queue.PoolThread
import MonitorAgent.L2Queue.LoadBalance
import MonitorAgent.L2Queue.Handling
import MonitorAgent.L2Queue.Liveness
import MonitorAgent.L3Wall.World
import MonitorAgent.L3Wall.Screen
import MonitorAgent.L3Wall.TitleRoom
import MonitorAgent.L3Wall.AvsProxy
import MonitorAgent.L3Wall.ScreenMgr
import MonitorAgent.L3Wall.Frame
import MonitorAgent.L3Wall.WallStep
import MonitorAgent.L3Wall.Operations
import MonitorAgent.L3Wall.Bijection
import MonitorAgent.L3Wall.Assignment
import MonitorAgent.L3Wall.Routing
import MonitorAgent.L3Wall.UdpScene
import MonitorAgent.L3Wall.Layout
import MonitorAgent.L3Wall.Visibility
import MonitorAgent.L3Wall.TiledWall
import MonitorAgent.L3Wall.WindowFit
import MonitorAgent.L3Wall.Teardown
import MonitorAgent.L3Wall.TeardownLoops
import MonitorAgent.L3Wall.Links
import MonitorAgent.L3Wall.MonitorDlg
import MonitorAgent.L3Wall.VideoStream
import MonitorAgent.L3Wall.Pictures
import MonitorAgent.L3Wall.Numbering
import MonitorAgent.L4Session.SessionSpec
import MonitorAgent.L4Session.ProxySession
import MonitorAgent.L4Session.Scenes
import MonitorAgent.L4Session.RoomsInfoScene
import MonitorAgent.L4Session.LinkedProxys
import MonitorAgent.L4Session.UdpRead
import MonitorAgent.L4Session.WireFormat
import MonitorAgent.L4Session.ProxyAddress
import MonitorAgent.L4Session.RoomMessages
import MonitorAgent.L4Session.RoomRequests
import MonitorAgent.L4Session.Retry
import MonitorAgent.L4Session.Subscriptions
import MonitorAgent.L4Session.Peer
import MonitorAgent.L4Session.Mirror
import MonitorAgent.L4Session.MediaWall
import MonitorAgent.L4Session.Connections
import MonitorAgent.L4Session.RoomAddress
import MonitorAgent.L4Titles.Node
import MonitorAgent.L4Titles.TitleNode
import MonitorAgent.L4Titles.Shape
import MonitorAgent.L4Titles.Removal
import MonitorAgent.L4Titles.Title
import MonitorAgent.L4Titles.Tree
import MonitorAgent.L4Titles.Listing
import MonitorAgent.L4Titles.Deletions
import MonitorAgent.L4Titles.ChildIndex
import MonitorAgent.L4Titles.Refresh
import MonitorAgent.L4Titles.ChildNames
import MonitorAgent.L4Titles.Replies
import MonitorAgent.L4Titles.TreeItems
import MonitorAgent.L4Titles.RoomItems
import MonitorAgent.L4Titles.RoomLinks
import MonitorAgent.L4Titles.LastRequest
import MonitorAgent.L4Titles.ProxyTeardown
import MonitorAgent.L4Titles.WatchsList
import MonitorAgent.L4Titles.WatchedRooms
import MonitorAgent.L4Titles.PageRange
import MonitorAgent.L4Titles.Browsing
import MonitorAgent.L4Titles.Paging
import MonitorAgent.L4Titles.Expansion
import MonitorAgent.L4Titles.Forest
import MonitorAgent.L4Titles.Traversal
import MonitorAgent.L4Titles.Items
import MonitorAgent.L5Concurrency.GoOnline
import MonitorAgent.L5Concurrency.Handshake
import MonitorAgent.L5Concurrency.Retire
import MonitorAgent.L5Concurrency.WatchSessions
import MonitorAgent.L5Concurrency.AddedAgain
import MonitorAgent.L5Concurrency.Continuation
import MonitorAgent.L5Concurrency.QueuedUsers
import MonitorAgent.L5Concurrency.Deadlock
import MonitorAgent.L5Concurrency.SelfLock
import MonitorAgent.L5Concurrency.NodeCalls
import MonitorAgent.L5Concurrency.RoomCalls
import MonitorAgent.L5Concurrency.ShownUsers
import MonitorAgent.L5Concurrency.ListedRooms
import MonitorAgent.L5Concurrency.NodeThreads
import MonitorAgent.L5Concurrency.RoomThreads
import MonitorAgent.L5Concurrency.Dragging
import MonitorAgent.L5Concurrency.Undisturbed
