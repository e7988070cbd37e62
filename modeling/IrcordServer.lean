import IrcordServer.Action
import IrcordServer.Admin.LeetNames
import IrcordServer.Admin.Readings
import IrcordServer.Admin.ReservedIdentity
import IrcordServer.Cabinet
import IrcordServer.ChannelNames
import IrcordServer.Commands.AbuseRecords
import IrcordServer.Commands.Authority
import IrcordServer.Commands.Bans
import IrcordServer.Commands.ChannelKeys
import IrcordServer.Commands.ChannelLists
import IrcordServer.Commands.Dispatch
import IrcordServer.Commands.Effects
import IrcordServer.Commands.Handler
import IrcordServer.Commands.Membership
import IrcordServer.Commands.Nicknames
import IrcordServer.Commands.Replies
import IrcordServer.Commands.Steps
import IrcordServer.Commands.Targets
import IrcordServer.ConfigFiles
import IrcordServer.ConfigLoader
import IrcordServer.ConfiguredPort
import IrcordServer.Container
import IrcordServer.Crypto.FileEncryptor
import IrcordServer.Crypto.MasterKeys
import IrcordServer.Crypto.SealedFiles
import IrcordServer.Crypto.TamperedFiles
import IrcordServer.Crypto.WrappedKeys
import IrcordServer.Db.Database
import IrcordServer.Db.EncryptedChunks
import IrcordServer.Db.FileCabinet
import IrcordServer.Db.FileStore
import IrcordServer.Db.FileTables
import IrcordServer.Db.KeyTables
import IrcordServer.Db.MissingChunks
import IrcordServer.Db.OfflineQueue
import IrcordServer.Db.OfflineStore
import IrcordServer.Db.OtherTables
import IrcordServer.Db.PasswordHashes
import IrcordServer.Db.PendingCounts
import IrcordServer.Db.UserStore
import IrcordServer.Decimal
import IrcordServer.DirectoryBodies
import IrcordServer.DirectoryClient
import IrcordServer.DirectoryMessages
import IrcordServer.DirectoryRuns
import IrcordServer.DirectoryUrls
import IrcordServer.Framing
import IrcordServer.Http
import IrcordServer.Json
import IrcordServer.Mailbox
import IrcordServer.MessageSizes
import IrcordServer.Messages
import IrcordServer.Metering
import IrcordServer.Names
import IrcordServer.Net.Accounts
import IrcordServer.Net.AllOrNothing
import IrcordServer.Net.Apart
import IrcordServer.Net.Authentication
import IrcordServer.Net.Authenticity
import IrcordServer.Net.Connections
import IrcordServer.Net.Delivery
import IrcordServer.Net.Effect
import IrcordServer.Net.Envelope
import IrcordServer.Net.Fanout
import IrcordServer.Net.FileDownloads
import IrcordServer.Net.FileEncryption
import IrcordServer.Net.FileMessages
import IrcordServer.Net.FileOwners
import IrcordServer.Net.FileRoundTrip
import IrcordServer.Net.FileSizes
import IrcordServer.Net.FileTransfer
import IrcordServer.Net.FileUploads
import IrcordServer.Net.Frame
import IrcordServer.Net.FrameSizes
import IrcordServer.Net.Handlers
import IrcordServer.Net.Invariant
import IrcordServer.Net.KeepAlive
import IrcordServer.Net.KeyBundles
import IrcordServer.Net.KeyStrands
import IrcordServer.Net.LoginStrands
import IrcordServer.Net.MessageRates
import IrcordServer.Net.NicknameCases
import IrcordServer.Net.OneTimeKeys
import IrcordServer.Net.PasswordPolicy
import IrcordServer.Net.PresenceStrands
import IrcordServer.Net.ProgressReports
import IrcordServer.Net.Pulses
import IrcordServer.Net.Quiet
import IrcordServer.Net.ReadLoop
import IrcordServer.Net.Registration
import IrcordServer.Net.Registry
import IrcordServer.Net.ReplySizes
import IrcordServer.Net.Reports
import IrcordServer.Net.Resets
import IrcordServer.Net.Senders
import IrcordServer.Net.SeqNumbers
import IrcordServer.Net.Server
import IrcordServer.Net.Session
import IrcordServer.Net.Settings
import IrcordServer.Net.Step
import IrcordServer.Net.Strands
import IrcordServer.Net.Strangers
import IrcordServer.Net.Teardown
import IrcordServer.Net.Traffic
import IrcordServer.Net.UploadDispatch
import IrcordServer.Net.UserRows
import IrcordServer.Net.VoiceSlots
import IrcordServer.Net.Writes
import IrcordServer.Octets
import IrcordServer.Pieces
import IrcordServer.Protobuf
import IrcordServer.ProtobufSizes
import IrcordServer.Query
import IrcordServer.RateLimiter
import IrcordServer.RateWindows
import IrcordServer.Roster
import IrcordServer.RoundTrip
import IrcordServer.Run
import IrcordServer.Search
import IrcordServer.Table
import IrcordServer.Text
import IrcordServer.Tickets
import IrcordServer.TypedFields
import IrcordServer.VirusScanner
import IrcordServer.VoiceRoomManager
import IrcordServer.VoiceRooms
import IrcordServer.VoiceViews
import IrcordServer.Weave
import IrcordServer.Wire
