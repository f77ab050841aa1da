import DcCluster.Lib.Transition
import DcCluster.Lib.Timed
import DcCluster.Lib.ThreadTable
import DcCluster.Lib.KeyedList
import DcCluster.Lib.CInt
import DcCluster.Lib.Printf
import DcCluster.Lib.RotatingQueue
import DcCluster.Lib.History
import DcCluster.Lib.Outcomes
import DcCluster.Lib.PosixMutex
import DcCluster.Lib.LinkedChain
import DcCluster.Lib.Decoder
import DcCluster.Lib.CutInput
import DcCluster.Utils.ThreadPoolCore
import DcCluster.Utils.ThreadPool
import DcCluster.Utils.ThreadPoolJobs
import DcCluster.Utils.ThreadPoolSpawn
import DcCluster.Utils.ThreadPoolRefusal
import DcCluster.Utils.ThreadPoolGrowth
import DcCluster.Utils.ThreadPoolTeardown
import DcCluster.Utils.SwartzSem
import DcCluster.Utils.SwartzMutex
import DcCluster.Utils.WorkQueue
import DcCluster.XLogger.EnsureLog
import DcCluster.Mq.MqUri
import DcCluster.Mq.MqUriGrammar
import DcCluster.Mq.MqMgrCore
import DcCluster.Mq.MqMgr
import DcCluster.Mq.ProducerCache
import DcCluster.Mq.Registrations
import DcCluster.Mq.ConsumerRoundTrip
import DcCluster.Mq.Subscriptions
import DcCluster.Mq.CachedSend
import DcCluster.Mq.MqSend
import DcCluster.Mq.ReconnectLoopCore
import DcCluster.Mq.ReconnectLoop
import DcCluster.Mq.ReconnectAttached
import DcCluster.Mq.ReconnectCore
import DcCluster.Mq.Reconnect
import DcCluster.Mq.ReconnectJoin
import DcCluster.Mq.ReconnectReports
import DcCluster.Mq.ReconnectHandle
import DcCluster.Mq.DisConnCore
import DcCluster.Mq.DisConnWait
import DcCluster.Mq.DisConn
import DcCluster.Mq.AttachCore
import DcCluster.Mq.AttachStages
import DcCluster.Mq.AttachConsistent
import DcCluster.Mq.Attach
import DcCluster.Node.Dp
import DcCluster.Node.DpUri
import DcCluster.Server.RegistryCore
import DcCluster.Server.Registry
import DcCluster.Server.RoundRobin
import DcCluster.Server.Membership
import DcCluster.Server.Dispatch
import DcCluster.Server.HttpCore
import DcCluster.Server.Replies
import DcCluster.Server.Acknowledgement
import DcCluster.Server.Payload
import DcCluster.Node.HeartBeatCore
import DcCluster.Node.HeartBeat
import DcCluster.Node.TimedCore
import DcCluster.Node.Freshness
import DcCluster.Node.Stabilization
import DcCluster.Node.Suspicion
import DcCluster.Rpc.BinaryProtocol
import DcCluster.Rpc.ProtocolReads
import DcCluster.Rpc.WireValue
import DcCluster.Rpc.CommonTypes
import DcCluster.Rpc.Methods
import DcCluster.Rpc.Calls
import DcCluster.Rpc.Wire
import DcCluster.Rapidjson.Reader
import DcCluster.Rapidjson.Grammar
import DcCluster.Rapidjson.Numbers
import DcCluster.Rapidjson.Accepts
import DcCluster.Rapidjson.Writer
import DcCluster.Rapidjson.RoundTrip
import DcCluster.Rapidjson.Document
import DcCluster.TinyXml2.Reader
import DcCluster.TinyXml2.CutTag
import DcCluster.TinyXml2.CutNode
import DcCluster.TinyXml2.Written
import DcCluster.Node.LocalConfig
import DcCluster.Node.ConfigText
import DcCluster.Server.RequestBody
import DcCluster.Server.ReplyBody
import DcCluster.Server.Eviction
