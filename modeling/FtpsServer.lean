import FtpsServer.Lib.ByteString
import FtpsServer.Lib.Runs
import FtpsServer.Lib.InputStream
import FtpsServer.Lib.FileTree
import FtpsServer.Lib.PathWalk
import FtpsServer.Lib.Walks
import FtpsServer.Lib.Ownership
import FtpsServer.Lib.Lifetimes
import FtpsServer.Lib.Lines
import FtpsServer.Lib.StdMap
import FtpsServer.FileSystem
import FtpsServer.UserDatabase
import FtpsServer.Process
import FtpsServer.TlsSession
import FtpsServer.TcpTransport
import FtpsServer.FtpCommand
import FtpsServer.FtpSession
import FtpsServer.Traffic
import FtpsServer.Handlers
import FtpsServer.SessionThread
import FtpsServer.FtpServer
import FtpsServer.ServerStatus
import FtpsServer.Replies
import FtpsServer.Renaming
import FtpsServer.DataProtection
import FtpsServer.ControlProtection
import FtpsServer.NullSession
import FtpsServer.TlsHandles
import FtpsServer.SecureFlag
import FtpsServer.DescriptorLog
import FtpsServer.Descriptors
import FtpsServer.DescriptorLeak
import FtpsServer.SideBySide
import FtpsServer.HiddenMembers
import FtpsServer.Initialisation
import FtpsServer.Authentication
import FtpsServer.LoginOrder
import FtpsServer.Lockout
import FtpsServer.Credentials
import FtpsServer.Accounts
import FtpsServer.Truthfulness
import FtpsServer.Upload
import FtpsServer.CanonicalPath
import FtpsServer.RenameProtocol
import FtpsServer.RenameEndToEnd
import FtpsServer.PathRule
import FtpsServer.Deletion
import FtpsServer.WorkingFolder
import FtpsServer.FolderComposition
import FtpsServer.PassivePort
import FtpsServer.PassiveAddress
import FtpsServer.ReplyStream
import FtpsServer.Exceptions
import FtpsServer.MessageBytes
import FtpsServer.Framing
import FtpsServer.PortGrammar
import FtpsServer.CommandText
import FtpsServer.ArgumentReads
import FtpsServer.Observers
import FtpsServer.UserMap
import FtpsServer.DirectoryListing
import FtpsServer.ListDelivery
import FtpsServer.Connections
import FtpsServer.CopyMove
import FtpsServer.Lib.Provenance
import FtpsServer.Lib.FileContents
import FtpsServer.Lib.AppendLog
import FtpsServer.Lib.Fixtures
import FtpsServer.Lib.KeyedStore
import FtpsServer.ServerRuns
import FtpsServer.FileHistory
import FtpsServer.ContentsHidden
import FtpsServer.Conversation
import FtpsServer.ParallelUploads
import FtpsServer.AtomicUploads
import FtpsServer.Notifications
import FtpsServer.SessionsOfServer
import FtpsServer.FileRequests
import FtpsServer.FileStore
import FtpsServer.StopWaits
import FtpsServer.DataConnections
