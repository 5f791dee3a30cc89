import Datalogger.Capture.Ownership
import Datalogger.Wire.Packets
import Datalogger.Wire.Losses
import Datalogger.Command.Literal
import Datalogger.Command.Assigned
import Datalogger.Command.Reset
import Datalogger.Command.ReplyBounds
import Datalogger.Command.ReadBack
import Datalogger.Session.Segmentation
import Datalogger.Command.Grammar
import Datalogger.Lib.LittleEndian
import Datalogger.Wire.RoundTrip
import Datalogger.Wire.TimeStep
import Datalogger.Command.Integrity
import Datalogger.Session.Framing
import Datalogger.Session.ReceiveBounds
import Datalogger.Lib.Search
import Datalogger.Broadcast.Inet
import Datalogger.Broadcast.Bcast
import Datalogger.Board.Device
import Datalogger.Board.IgnorePhase
import Datalogger.Board.Dhcp
import Datalogger.Board.Main
import Datalogger.Board.Isolation
import Datalogger.Board.ServerSocket
import Datalogger.Board.Callbacks
import Datalogger.Board.Chunk
import Datalogger.Capture.Bounds
import Datalogger.Command.ScanText
import Datalogger.Command.Names
import Datalogger.Command.Words
import Datalogger.Session.Splitting
import Datalogger.Command.Listing
import Datalogger.Command.Accepts
import Datalogger.Capture.Interleaving
import Datalogger.Capture.Restart
import Datalogger.Broadcast.Extract
import Datalogger.Broadcast.Ports
import Datalogger.Session.Display
import Datalogger.Lib.Hexadecimal
import Datalogger.Session.Hello
import Datalogger.Board.Pwm
import Datalogger.Board.WaitDhcp
import Datalogger.Lib.Framing
import Datalogger.Wire.Stream
import Datalogger.Wire.SendStatements
import Datalogger.Wire.Delivery
import Datalogger.Lib.OnesComplement
import Datalogger.Net.Checksum
import Datalogger.Net.ChecksumSpec
import Datalogger.Lib.RefCount
import Datalogger.Net.Netbuf
import Datalogger.Net.NetbufSpec
import Datalogger.Net.NetbufChains
import Datalogger.Net.NetbufCopies
import Datalogger.Net.NetbufPool
import Datalogger.Lib.SerialNumber
import Datalogger.Net.Tcp
import Datalogger.Net.TcpSteps
import Datalogger.Net.TcpSender
import Datalogger.Net.TcpStream
import Datalogger.Net.TcpReceiver
import Datalogger.Net.TcpChannel
import Datalogger.Net.TcpAbandon
