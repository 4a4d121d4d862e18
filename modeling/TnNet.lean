import TnNet.Tcp.Close
import TnNet.Tcp.FinPlace
import TnNet.Tcp.SentRange
import TnNet.Tcp.Stall
import TnNet.Tcp.SendWindow
import TnNet.Kernel.ResourceRun
import TnNet.Ip.ReasmWhole
import TnNet.Mem.SockbufInv
import TnNet.Mem.Refs
import TnNet.Mem.CopyWait
import TnNet.Kernel.WaitRun
import TnNet.Kernel.PoolRun
import TnNet.Kernel.CreateRun
import TnNet.Kernel.Spl
import TnNet.Sock.AttachFail
import TnNet.Mutex.Ceiling
import TnNet.Mutex.Inherit
import TnNet.Ip.OutputOnce
import TnNet.Drv.RxRing
import TnNet.Drv.Tx
import TnNet.Arp.Fresh
import TnNet.Dhcp.Expiry
import TnNet.Dhcp.Exchange
import TnNet.Tcp.OwnerErase
import TnNet.Tcp.Blind
import TnNet.Tcp.RttExact
import TnNet.Tcp.FinAcked
import TnNet.Sock.Accept
import TnNet.Tcp.TimerTask
import TnNet.Mem.Recv
import TnNet.Tcp.SendWait
import TnNet.Pcb.Bind
import TnNet.Dhcp.Sockets
import TnNet.Dhcp.Times
import TnNet.Ip.Cksum4
import TnNet.Ip.DontFragment
import TnNet.Icmp.Echo
import TnNet.Udp.Release
import TnNet.Udp.Recv
import TnNet.Dhcp.Reads
import TnNet.Mem.Adj
import TnNet.Kernel.QueueRoom
import TnNet.Kernel.EventSet
import TnNet.Kernel.PriorityLoop
import TnNet.Kernel.DeleteRun
import TnNet.Kernel.InterruptBalance
import TnNet.Ip.Dotted
import TnNet.Mem.Bcopy
import TnNet.Mem.Read
import TnNet.Tcp.Options
import TnNet.Kernel.PoolGeometry
import TnNet.Pcb.Lookup
import TnNet.Tcp.Link
import TnNet.Tcp.Diagram
import TnNet.Udp.Delivery
import TnNet.Arp.Exchange
import TnNet.Dhcp.Servers
import TnNet.Kernel.NoMissed
