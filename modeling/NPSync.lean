import NPSync.Library.Table
import NPSync.Library.Run
import NPSync.Library.Interleaving
import NPSync.Library.Ledger
import NPSync.Text
import NPSync.Library.BitText
import NPSync.Base64
import NPSync.PathUtil
import NPSync.IgnoreRules
import NPSync.GlobLanguage
import NPSync.GlobSearch
import NPSync.Merge
import NPSync.Json
import NPSync.VersionVector
import NPSync.Crypto
import NPSync.KeySetup
import NPSync.LocalDb
import NPSync.Engine.Device
import NPSync.KnownAnswers
import NPSync.Engine.Payload
import NPSync.Engine.Upload
import NPSync.Engine.Apply
import NPSync.Server.Mem
import NPSync.Server.Handlers
import NPSync.Server.Calls
import NPSync.Server.Discipline
import NPSync.Server.Answered
import NPSync.Server.VersionChain
import NPSync.Server.Heads
import NPSync.Server.Writes
import NPSync.Server.BlobStores
import NPSync.Server.Blobs
import NPSync.Server.Uploads
import NPSync.Server.Replay
import NPSync.Server.Submitted
import NPSync.Server.Vectors
import NPSync.Server.Retained
import NPSync.Server.Contents
import NPSync.Server.PostgresFeed
import NPSync.Server.AuthStore
import NPSync.Server.AuthHandlers
import NPSync.Server.AuthCalls
import NPSync.Server.Revocation
import NPSync.Server.Pairing
import NPSync.Server.PostgresAuth
import NPSync.Server.PairingPolls
import NPSync.Server.RefreshTokens
import NPSync.Server.DeviceLimit
import NPSync.Library.Pages
import NPSync.Server.CatchUp
import NPSync.Server.Downloads
import NPSync.Server.BatchSingles
import NPSync.Server.KeyTransfer
import NPSync.Server.Accounts
import NPSync.Server.GoogleRequests
import NPSync.Server.GoogleStores
import NPSync.Server.GoogleLogin
import NPSync.Wire
import NPSync.Engine.UploadRuns
import NPSync.Engine.Clients
import NPSync.Engine.ConflictMerge
import NPSync.Engine.Events
import NPSync.Engine.Resolve
import NPSync.Engine.IgnoredUploads
import NPSync.PathAgreement
import NPSync.Engine.LocalEdits
import NPSync.Engine.ResolutionEnds
import NPSync.Engine.Ancestor
import NPSync.Engine.ConflictEnds
import NPSync.Engine.Deletes
import NPSync.Engine.ApiClient
import NPSync.Engine.Responses
import NPSync.Engine.Identity
import NPSync.Engine.Pull
import NPSync.Library.Pending
import NPSync.Engine.Convergence
import NPSync.Engine.OpQueue
import NPSync.Library.Lifetimes
import NPSync.Engine.QueueCrash
import NPSync.Engine.ConflictList
import NPSync.Server.Hub
import NPSync.PathSafety
import NPSync.Library.EditScript
import NPSync.DiffLines
import NPSync.MinimalDiff
import NPSync.MergeAlignment
import NPSync.MergeSymmetry
import NPSync.MergeEndings
import NPSync.Engine.MissingBase
import NPSync.Server.PostgresFiles
import NPSync.Server.StoreCalls
import NPSync.Library.Related
import NPSync.Server.AuthAgreement
import NPSync.Server.FileAgreement
import NPSync.Server.StoreAgreement
import NPSync.IgnoreClosure
import NPSync.RecoveryKeys
import NPSync.KeyInstall
import NPSync.Engine.IdempotencyKeys
import NPSync.Engine.PairingInstall
import NPSync.Engine.RootRules
import NPSync.Engine.Scanner
import NPSync.Engine.SkippedUploads
import NPSync.Library.Spacing
import NPSync.VectorStorage
import NPSync.VectorRows
import NPSync.VectorOrder
import NPSync.Engine.ResolvedRows
import NPSync.Library.Overwrite
import NPSync.Library.Unicode
import NPSync.Engine.ReplacedFiles
import NPSync.Engine.FileKeys
import NPSync.Server.Pruning
import NPSync.Library.Conversations
import NPSync.Server.BatchLimit
import NPSync.Library.NetAddr
import NPSync.Library.HttpHeader
import NPSync.Server.ClientIP
import NPSync.Library.HeaderText
import NPSync.Engine.ProtocolHeader
import NPSync.Library.FixedWindow
import NPSync.Server.RateLimit
import NPSync.Library.Lockout
import NPSync.Server.Lockout
import NPSync.Library.Retention
import NPSync.Engine.BackupHistory
import NPSync.Library.LexicalPath
import NPSync.Library.FileSystem
import NPSync.Server.BlobRuns
import NPSync.Engine.MasterKeys
import NPSync.Library.LittleEndian
import NPSync.Engine.FolderWatcher
import NPSync.Server.BearerRuns
