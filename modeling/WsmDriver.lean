import WsmDriver.Dhcp.Encoding
import WsmDriver.Dhcp.Lease
import WsmDriver.Dhcp.Pace
import WsmDriver.Dhcp.Servers
import WsmDriver.Dhcp.Sockets
import WsmDriver.Dns.Names
import WsmDriver.Echo.Streams
import WsmDriver.Http.Answers
import WsmDriver.Mqtt.Packets
import WsmDriver.Mqtt.Conversation
import WsmDriver.Netbios.Service
import WsmDriver.Pppoe.Digest
import WsmDriver.Pppoe.Negotiation
import WsmDriver.Sockets.Service
import WsmDriver.Spi.BringUp
import WsmDriver.Spi.Selection
import WsmDriver.Tftp.Datagrams
import WsmDriver.Tftp.Success
import WsmDriver.Toe.Accept
import WsmDriver.Toe.Blocking
import WsmDriver.Toe.Capacity
import WsmDriver.Toe.Closing
import WsmDriver.Toe.Deadline
import WsmDriver.Toe.EndOfStream
import WsmDriver.Toe.Ephemeral
import WsmDriver.Toe.HalfClose
import WsmDriver.Toe.Handover
import WsmDriver.Toe.Healing
import WsmDriver.Toe.Options
import WsmDriver.Toe.Release
import WsmDriver.Toe.Schedules
import WsmDriver.Toe.Sending
import WsmDriver.Toe.Waiting
import WsmDriver.Upnp.Actions
import WsmDriver.W6300.Commands
import WsmDriver.W6300.Drain
import WsmDriver.W6300.Install
import WsmDriver.W6300.Multicast
import WsmDriver.W6300.Progress
import WsmDriver.W6300.Reception
import WsmDriver.W6300.Transmit
import WsmDriver.Wrap.Datagrams
import WsmDriver.Wrap.Gather
import WsmDriver.Wrap.Scatter
import WsmDriver.Wrap.Sockets
import WsmDriver.Wrap.Timeouts
