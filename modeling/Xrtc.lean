import Xrtc.Proof.ShortConnection
import Xrtc.Proof.QueryBuffer
import Xrtc.Proof.Parsing
import Xrtc.Proof.Response
import Xrtc.Proof.Answer
import Xrtc.Proof.Client
import Xrtc.Proof.ComLog
import Xrtc.Proof.Selector
import Xrtc.Proof.Watchers
import Xrtc.Proof.Monitored
import Xrtc.Proof.Timeout
import Xrtc.Proof.Dispatch
import Xrtc.Proof.Reply
import Xrtc.Proof.Interest
import Xrtc.Proof.ReplyHeap
import Xrtc.Proof.Notifications
import Xrtc.Proof.Send
import Xrtc.Proof.QueueSize
import Xrtc.Proof.LogStop
import Xrtc.Proof.Deadlock
import Xrtc.Proof.Affinity
import Xrtc.Proof.Delivery
import Xrtc.Proof.Ownership
import Xrtc.Proof.ReplyTarget
import Xrtc.Proof.Safety
import Xrtc.Proof.Progress
import Xrtc.Proof.Exchange
import Xrtc.Proof.Crc32
import Xrtc.Lib.Strings
import Xrtc.Lib.OrderedMap
import Xrtc.Lib.Template
import Xrtc.Go.ConfigFile
import Xrtc.Go.ConfigRead
import Xrtc.Proof.ConfigFile
import Xrtc.Proof.ConfigValue
import Xrtc.Proof.ConfigLine
import Xrtc.Proof.ConfigSave
import Xrtc.Proof.ConfigStable
import Xrtc.Proof.ConfigReload
import Xrtc.Go.Framework
import Xrtc.Proof.Framework
import Xrtc.Lib.FileWriter
import Xrtc.Go.Glog
import Xrtc.Proof.Glog
import Xrtc.Go.GlogHeader
import Xrtc.Proof.GlogHeader
