import Icmpenguin.Basic
import Icmpenguin.Packet
import Icmpenguin.Callback
import Icmpenguin.Table
import Icmpenguin.Receive
import Icmpenguin.Engine
import Icmpenguin.Descriptors
import Icmpenguin.Delivery
import Icmpenguin.Wakeup
import Icmpenguin.Lifecycle
import Icmpenguin.SendProbe
import Icmpenguin.Reentrancy
import Icmpenguin.PacketSpec
import Icmpenguin.Deadline
import Icmpenguin.Status
import Icmpenguin.Progress
import Icmpenguin.Report
import Icmpenguin.Jni
import Icmpenguin.Socket
