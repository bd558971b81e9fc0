import NextNfs.Lib.Wire
import NextNfs.Lib.WireSize
import NextNfs.Lib.Framing
import NextNfs.Lib.Run
import NextNfs.Lib.Table
import NextNfs.Lib.Bimap
import NextNfs.Lib.TokenBucket
import NextNfs.Lib.Text
import NextNfs.Lib.NetAddr
import NextNfs.Lib.Slices
import NextNfs.Lib.Blocks
import NextNfs.Lib.ByteBits
import NextNfs.Lib.AbsPath
import NextNfs.Lib.Dialogue
import NextNfs.Lib.ByteFile
import NextNfs.Lib.Recent
import NextNfs.Lib.SlidingWindow
import NextNfs.Proto.Xdr
import NextNfs.Proto.Utf8
import NextNfs.Proto.Serde
import NextNfs.Proto.Attr
import NextNfs.Proto.AttrDecoding
import NextNfs.Proto.Args
import NextNfs.Proto.Compound
import NextNfs.Proto.Results
import NextNfs.Proto.WireNumbering
import NextNfs.Proto.Rpc
import NextNfs.Proto.Record
import NextNfs.Proto.Reply
import NextNfs.Proto.ReplySize
import NextNfs.Krb5.Acceptor
import NextNfs.Krb5.Crypto
import NextNfs.Krb5.NFold
import NextNfs.Krb5.Cfx
import NextNfs.Krb5.Token
import NextNfs.Krb5.Keytab
import NextNfs.Server.Locking
import NextNfs.Server.ByteRangeLocks
import NextNfs.Server.LockOwners
import NextNfs.Server.Vfs
import NextNfs.Server.FlatFs
import NextNfs.Server.Filehandle
import NextNfs.Server.FileManager
import NextNfs.Server.Request
import NextNfs.Server.Perm
import NextNfs.Server.CheckedObject
import NextNfs.Server.Tidy
import NextNfs.Server.System
import NextNfs.Server.Context
import NextNfs.Server.NameOps
import NextNfs.Server.FileOps
import NextNfs.Server.Dispatcher
import NextNfs.Server.Conduct
import NextNfs.Server.Handlers
import NextNfs.Server.Placement
import NextNfs.Server.ExportManager
import NextNfs.Server.ExportContext
import NextNfs.Server.Transcript
import NextNfs.Server.ReplyShape
import NextNfs.Server.ResultEncoding
import NextNfs.Server.ReplyRecords
import NextNfs.Server.ClientAccess
import NextNfs.Server.SecFlavors
import NextNfs.Server.Connections
import NextNfs.Server.ReadOnly
import NextNfs.Server.SessionManager
import NextNfs.Server.Panics
import NextNfs.Server.FileManagerActor
import NextNfs.Server.Sessions
import NextNfs.Server.ClientManager
import NextNfs.Server.ClientIds
import NextNfs.Server.ClientTable
import NextNfs.Server.Leases
import NextNfs.Server.Stateids
import NextNfs.Server.StableWrite
import NextNfs.Server.DataPath
import NextNfs.Server.Durability
import NextNfs.Server.ReadYourWrites
import NextNfs.Server.GssServer
import NextNfs.Server.GssAdmission
import NextNfs.Server.GssReplies
import NextNfs.Server.IdMap
import NextNfs.Server.AccessList
import NextNfs.Server.OpenCreate
import NextNfs.Server.OwnerCalls
import NextNfs.Server.Ownership
import NextNfs.Server.OwnedFs
import NextNfs.Server.OwnersKept
import NextNfs.Server.StateOps
import NextNfs.Server.OpenStates
import NextNfs.Server.StateidTargets
import NextNfs.Server.StateHolders
import NextNfs.Server.CrashRecovery
import NextNfs.Server.Quota
import NextNfs.Server.QuotaAccounting
import NextNfs.Server.RateLimiter
import NextNfs.Server.ExportTable
import NextNfs.Server.ReaddirPages
import NextNfs.Server.Attributes
import NextNfs.Proto.AttrEncoding
import NextNfs.Server.SetAttr
import NextNfs.Server.CopyAcross
import NextNfs.Server.FileContents
import NextNfs.Server.AccessBits
import NextNfs.Server.Verify
import NextNfs.Krb5.Initiator
import NextNfs.Krb5.Exchange
import NextNfs.Server.GssClient
import NextNfs.Server.GssHandshake
import NextNfs.Server.LockLife
import NextNfs.Server.ConnectionLoop
import NextNfs.Server.ReadToEnd
import NextNfs.Server.StateFile
import NextNfs.Server.PseudoRoot
import NextNfs.Server.Squash
import NextNfs.Server.KeepAlive
