import CmdAgent.StreamLib.Mem
import CmdAgent.StreamLib.Loop
import CmdAgent.StreamLib.Runs
import CmdAgent.StreamLib.Framing
import CmdAgent.Crc
import CmdAgent.Misc
import CmdAgent.Netcmd
import CmdAgent.Netcom
import CmdAgent.PacketLoop
import CmdAgent.Reassembly
import CmdAgent.RingBuffer
import CmdAgent.Intake
import CmdAgent.Resync
import CmdAgent.StreamLib.Reads
import CmdAgent.Serclient
import CmdAgent.SercltStream
import CmdAgent.Agent
import CmdAgent.Routing
import CmdAgent.Command
import CmdAgent.Task
import CmdAgent.Cmdset
import CmdAgent.Acked
import CmdAgent.Segmentation
import CmdAgent.Pool
import CmdAgent.StreamLib.Scan
import CmdAgent.Timeout
import CmdAgent.Wakeup
import CmdAgent.Isolation
import CmdAgent.Registry
import CmdAgent.Seqno
import CmdAgent.Bounds
import CmdAgent.Published
import CmdAgent.SharedDevice
import CmdAgent.Bufferevent
import CmdAgent.ClientTable
import CmdAgent.Abort
import CmdAgent.NetcomInfo
import CmdAgent.Connected
import CmdAgent.Cleanup
import CmdAgent.Reconnect
import CmdAgent.DeviceLink
import CmdAgent.Memcache
import CmdAgent.Readpacket
import CmdAgent.SensorConfig
import CmdAgent.Rewind
import CmdAgent.StreamLib.Crc
import CmdAgent.Completion
import CmdAgent.Corruption
import CmdAgent.Query
import CmdAgent.StreamLib.Chain
import CmdAgent.ListHeap
import CmdAgent.ListOps
import CmdAgent.Teardown
import CmdAgent.ReadSpace
import CmdAgent.Forwarding
import CmdAgent.Startup
import CmdAgent.Registration
import CmdAgent.Elapsed
import CmdAgent.Burst
import CmdAgent.Statistics
import CmdAgent.Errsys
import CmdAgent.WrbufLists
import CmdAgent.Inflight
import CmdAgent.Relay
import CmdAgent.StreamLib.Condvar
import CmdAgent.TaskWait
import CmdAgent.ClientThreads
import CmdAgent.Upstream
import CmdAgent.Deadline
import CmdAgent.HostWire
import CmdAgent.WireStream
import CmdAgent.Md5
import CmdAgent.Crc32
import CmdAgent.Flips
import CmdAgent.RingQueue
import CmdAgent.Consumer
