import CifsClientStream.Lib.Cursor
import CifsClientStream.Lib.Async
import CifsClientStream.Lib.Mailbox
import CifsClientStream.Lib.Runs
import CifsClientStream.Lib.Simulation
import CifsClientStream.Lib.Slice
import CifsClientStream.Lib.Tiling
import CifsClientStream.Lib.Backtrack
import CifsClientStream.Lib.Json
import CifsClientStream.Lib.Blocks
import CifsClientStream.Lib.Digits
import CifsClientStream.Lib.KeySort
import CifsClientStream.Lib.Bits
import CifsClientStream.Lib.Boxes
import CifsClientStream.Win
import CifsClientStream.Utils
import CifsClientStream.Utf16
import CifsClientStream.Utf16.Terminated
import CifsClientStream.Smb.Info
import CifsClientStream.Smb.Header
import CifsClientStream.Smb.Reply
import CifsClientStream.Smb.Trans2
import CifsClientStream.Smb.Layout
import CifsClientStream.Smb.ReadReply
import CifsClientStream.Smb.Negotiate
import CifsClientStream.Smb.Entries
import CifsClientStream.Smb.OddName
import CifsClientStream.Smb.Records
import CifsClientStream.Smb.Fragments
import CifsClientStream.Smb.Reassembly
import CifsClientStream.Smb.Msg
import CifsClientStream.Smb.Message
import CifsClientStream.Smb.ShareReply
import CifsClientStream.Smb.OpenReply
import CifsClientStream.Smb.LoginReply
import CifsClientStream.Smb.Transaction
import CifsClientStream.Smb.Framing
import CifsClientStream.Smb.Texts
import CifsClientStream.Smb.Request
import CifsClientStream.Smb.ReadBack
import CifsClientStream.Ntlm
import CifsClientStream.Ntlm.Challenge
import CifsClientStream.Ntlm.Packet
import CifsClientStream.Ntlm.DesKey
import CifsClientStream.Ntlm.Response
import CifsClientStream.NetBios.Frame
import CifsClientStream.NetBios.Alignment
import CifsClientStream.NetBios.Lossless
import CifsClientStream.NetBios.Events
import CifsClientStream.NetBios.SessionName
import CifsClientStream.Error
import CifsClientStream.ErrorText
import CifsClientStream.Cifs.Reply
import CifsClientStream.Cifs.Session
import CifsClientStream.Cifs.Run
import CifsClientStream.Cifs.Correlation
import CifsClientStream.Cifs.Receive
import CifsClientStream.Cifs.Pipeline
import CifsClientStream.Cifs.Leftover
import CifsClientStream.Cifs.MidOverflow
import CifsClientStream.Cifs.Exchange
import CifsClientStream.Cifs.Setup
import CifsClientStream.Cifs.Handshake
import CifsClientStream.Cifs.Directory
import CifsClientStream.Cifs.Enumeration
import CifsClientStream.Cifs.BufferSize
import CifsClientStream.Cifs.Charset
import CifsClientStream.Cifs.Tcp
import CifsClientStream.Cifs.TcpRefines
import CifsClientStream.Cifs.TcpRun
import CifsClientStream.Cifs.Outgoing
import CifsClientStream.Cifs.Awaited
import CifsClientStream.Cifs.Calls
import CifsClientStream.Server.Files
import CifsClientStream.Server.Link
import CifsClientStream.Server.Handles
import CifsClientStream.Server.Login
import CifsClientStream.Server.Agreement
import CifsClientStream.Stream.Options
import CifsClientStream.Stream.Buffer
import CifsClientStream.Stream.State
import CifsClientStream.Stream.Planning
import CifsClientStream.Stream.Queue
import CifsClientStream.Stream.Media
import CifsClientStream.Stream.Invariant
import CifsClientStream.Stream.Open
import CifsClientStream.Stream.Ceiling
import CifsClientStream.Stream.Source
import CifsClientStream.Stream.Fidelity
import CifsClientStream.Stream.Playback
import CifsClientStream.Stream.Progress
import CifsClientStream.Stream.Seek
import CifsClientStream.Media.Entry
import CifsClientStream.Media.NaturalKey
import CifsClientStream.Media.NaturalOrder
import CifsClientStream.Media.Summary
import CifsClientStream.Ffi.Listing
import CifsClientStream.Ffi.Json
import CifsClientStream.Ffi.CText
import CifsClientStream.Ffi.ReadAt
import CifsClientStream.Ffi.Bridge
import CifsClientStream.Ffi.Ownership
import CifsClientStream.Ffi.OpenFiles
import CifsClientStream.Uri.Resolve
import CifsClientStream.Uri.Groups
import CifsClientStream.Uri.RoundTrip
