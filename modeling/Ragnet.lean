import Ragnet.Bounds
import Ragnet.Conn.Acceptance
import Ragnet.Conn.AcknowledgementDecoding
import Ragnet.Conn.AcknowledgementRounds
import Ragnet.Conn.AcknowledgementSize
import Ragnet.Conn.Batch
import Ragnet.Conn.Completion
import Ragnet.Conn.Datagrams
import Ragnet.Conn.Fragments
import Ragnet.Conn.Gap
import Ragnet.Conn.Interleaving
import Ragnet.Conn.Overfull
import Ragnet.Conn.ProgramOrder
import Ragnet.Conn.Refusal
import Ragnet.Conn.Retransmission
import Ragnet.Conn.Scratch
import Ragnet.Conn.Shutdown
import Ragnet.Conn.SplitErrors
import Ragnet.Conn.SplitIds
import Ragnet.Conn.Stream
import Ragnet.Conn.Tracking
import Ragnet.Conn.Writing
import Ragnet.DatagramWindow.History
import Ragnet.DatagramWindow.Missing
import Ragnet.Dialer.Attempts
import Ragnet.Dialer.Handshake
import Ragnet.Link
import Ragnet.Link.Serial
import Ragnet.Link.Windows
import Ragnet.Listener.Accept
import Ragnet.Listener.Alone
import Ragnet.Listener.Blocks
import Ragnet.Listener.Channel
import Ragnet.Listener.Close
import Ragnet.Listener.Cookie
import Ragnet.Listener.Registry
import Ragnet.Listener.Retry
import Ragnet.Listener.Survival
import Ragnet.Message
import Ragnet.Packet.Split
import Ragnet.PacketQueue.History
import Ragnet.Reach
import Ragnet.Session.Recovery
