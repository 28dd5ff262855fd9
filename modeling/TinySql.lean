import TinySql.Auth.Acceptance
import TinySql.Auth.Authenticator
import TinySql.Command.AnswerKinds
import TinySql.Command.AnswerTypes
import TinySql.Command.Answers
import TinySql.Command.AutoIncrement
import TinySql.Command.Catalog
import TinySql.Command.CatalogRefinement
import TinySql.Command.ColumnNames
import TinySql.Command.CommandFrame
import TinySql.Command.CommandHandler
import TinySql.Command.Confinement
import TinySql.Command.DumpRestore
import TinySql.Command.Executor
import TinySql.Command.FailedStatements
import TinySql.Command.FaithfulInsert
import TinySql.Command.InsertForms
import TinySql.Command.InsertReport
import TinySql.Command.InsertThenFind
import TinySql.Command.InsertedRow
import TinySql.Command.Journal
import TinySql.Command.PacketIsolation
import TinySql.Command.PacketLengths
import TinySql.Command.QueryOutcomes
import TinySql.Command.QueryValidity
import TinySql.Command.RepeatedReads
import TinySql.Command.RowShape
import TinySql.Command.SelectAnswer
import TinySql.Command.SequenceNumbers
import TinySql.Command.StatementLaws
import TinySql.Command.TableIntegrity
import TinySql.Command.Totality
import TinySql.Command.TypedStorage
import TinySql.Common.Buffer
import TinySql.Common.BufferLaws
import TinySql.Common.BufferRuns
import TinySql.Common.Bytes
import TinySql.Common.Float
import TinySql.Common.FloatText
import TinySql.Common.LengthEncoding
import TinySql.Lib.Comparison
import TinySql.Lib.Coupling
import TinySql.Lib.Directory
import TinySql.Lib.FloatingPoint
import TinySql.Lib.Frame
import TinySql.Lib.Kleene
import TinySql.Lib.Machine
import TinySql.Lib.NearestNumber
import TinySql.Lib.Padding
import TinySql.Lib.Precedence
import TinySql.Lib.Run
import TinySql.Lib.Wire
import TinySql.Network.Backends
import TinySql.Network.Chunking
import TinySql.Network.ClientIsolation
import TinySql.Network.Clients
import TinySql.Network.EventLoop
import TinySql.Network.LifeCycle
import TinySql.Network.Login
import TinySql.Network.LoopCalls
import TinySql.Network.Output
import TinySql.Network.PacketStream
import TinySql.Network.PendingOutput
import TinySql.Network.Server
import TinySql.Network.ServerLaws
import TinySql.Network.Shutdown
import TinySql.Network.Slots
import TinySql.Network.TcpConnection
import TinySql.Network.Transcript
import TinySql.Network.WakeUps
import TinySql.Network.Wiring
import TinySql.Network.WrittenChanges
import TinySql.Protocol.AuthenticationGate
import TinySql.Protocol.Classification
import TinySql.Protocol.Decoding
import TinySql.Protocol.Exceptions
import TinySql.Protocol.FailedDecodes
import TinySql.Protocol.Handshake
import TinySql.Protocol.Packet
import TinySql.Protocol.PacketBoundaries
import TinySql.Protocol.PacketRoundTrip
import TinySql.Protocol.PacketType
import TinySql.Protocol.PayloadLengths
import TinySql.Protocol.ProtocolHandler
import TinySql.Protocol.Response
import TinySql.Protocol.ResultSet
import TinySql.Session.Session
import TinySql.Sql.Ast
import TinySql.Sql.Comments
import TinySql.Sql.CreateTable
import TinySql.Sql.ErrorReports
import TinySql.Sql.Grammar
import TinySql.Sql.Lexer
import TinySql.Sql.LexerLaws
import TinySql.Sql.Parser
import TinySql.Sql.ParserLaws
import TinySql.Sql.ParserSoundness
import TinySql.Sql.PrecedenceClimbing
import TinySql.Sql.QueryLaws
import TinySql.Sql.Reprinting
import TinySql.Sql.RoundTrip
import TinySql.Sql.StringLiterals
import TinySql.Sql.Termination
import TinySql.Sql.Token
import TinySql.Sql.TokenBoundaries
import TinySql.Sql.TokenPositions
import TinySql.Storage.ExpressionEvaluator
import TinySql.Storage.IntegerComparison
import TinySql.Storage.OperatorSpelling
import TinySql.Storage.StorageEngine
import TinySql.Storage.Table
import TinySql.Storage.Value
import TinySql.Storage.ValueOrder
import TinySql.Storage.WhereLogic
import TinySql.Storage.WhereReach
import TinySql.Storage.WhereSafety
