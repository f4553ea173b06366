import MySqlProxy.Lib.Fallible
import MySqlProxy.Lib.Sampling
import MySqlProxy.Lib.Framing
import MySqlProxy.Lib.RawLines
import MySqlProxy.Lib.Simulation
import MySqlProxy.Lib.SharedLog
import MySqlProxy.Lib.Reordering
import MySqlProxy.Lib.BasicString
import MySqlProxy.Packet.Command
import MySqlProxy.Packet.Collect
import MySqlProxy.Packet.FrameWalk
import MySqlProxy.Packet.ClientFields
import MySqlProxy.Packet.Decoding
import MySqlProxy.Packet.ServerWalk
import MySqlProxy.Packet.Counters
import MySqlProxy.Packet.ClientWalk
import MySqlProxy.Packet.Requests
import MySqlProxy.Packet.Extraction
import MySqlProxy.Packet.ReceiveMode
import MySqlProxy.Packet.History
import MySqlProxy.Packet.Rejection
import MySqlProxy.Connection.PacketLogger
import MySqlProxy.Connection.LogText
import MySqlProxy.Connection.Connection
import MySqlProxy.Connection.Logging
import MySqlProxy.Connection.Directions
import MySqlProxy.Connection.Phase
import MySqlProxy.Connection.Interleaving
import MySqlProxy.Connection.LogCuts
import MySqlProxy.Connection.LogTruth
import MySqlProxy.Connection.AuthData
import MySqlProxy.Connection.Exchange
import MySqlProxy.Connection.Session
import MySqlProxy.Connection.Forwarding
import MySqlProxy.Connection.Traffic
import MySqlProxy.Server.Model
import MySqlProxy.Server.Invariants
import MySqlProxy.Server.Containment
import MySqlProxy.Server.Lifetime
import MySqlProxy.Server.Leak
import MySqlProxy.Server.Shutdown
import MySqlProxy.Server.Objects
import MySqlProxy.Server.Operations
import MySqlProxy.Server.Traffic
import MySqlProxy.Server.Loop
import MySqlProxy.Server.CleanEnd
import MySqlProxy.Server.Journal
import MySqlProxy.Server.Sessions
import MySqlProxy.Server.Schedules
