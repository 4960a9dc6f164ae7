import GameDemoLearn.Lib.Transducer
import GameDemoLearn.Lib.Transition
import GameDemoLearn.Lib.Since
import GameDemoLearn.Lib.LittleEndian
import GameDemoLearn.Lib.CInteger
import GameDemoLearn.Lib.Fifo
import GameDemoLearn.Lib.Format
import GameDemoLearn.Lib.Lines
import GameDemoLearn.Lib.Incremental
import GameDemoLearn.Lib.Loop
import GameDemoLearn.Lib.Table
import GameDemoLearn.Lib.FirstWins
import GameDemoLearn.Lib.Strip
import GameDemoLearn.Lib.Numeral
import GameDemoLearn.Lib.Ledger
import GameDemoLearn.Lib.Ownership
import GameDemoLearn.Lib.Shelf
import GameDemoLearn.Lib.Markers
import GameDemoLearn.Lib.WaitChain
import GameDemoLearn.Lib.Population
import GameDemoLearn.Util.AsyncCallbackProcessor
import GameDemoLearn.Util.Bytes
import GameDemoLearn.Util.ProducerConsumerQueue
import GameDemoLearn.Util.QueueHistory
import GameDemoLearn.Util.Util
import GameDemoLearn.Util.StringConversion
import GameDemoLearn.Util.StringRoundTrip
import GameDemoLearn.Util.TimeUtil
import GameDemoLearn.Util.Log
import GameDemoLearn.Util.LogRotation
import GameDemoLearn.Coroutine.Task
import GameDemoLearn.Coroutine.FinalContinuation
import GameDemoLearn.Coroutine.CallTree
import GameDemoLearn.Coroutine.NestedCalls
import GameDemoLearn.Coroutine.TaskOwnership
import GameDemoLearn.Coroutine.AwaitBoard
import GameDemoLearn.Coroutine.AwaitRules
import GameDemoLearn.Coroutine.AwaitChains
import GameDemoLearn.Coroutine.ComesToRest
import GameDemoLearn.Database.DatabaseWorkerPool
import GameDemoLearn.Database.PoolConnections
import GameDemoLearn.Database.PoolLifecycle
import GameDemoLearn.Database.FreeConnection
import GameDemoLearn.Database.AsyncTasks
import GameDemoLearn.Database.MySqlConnection
import GameDemoLearn.Database.StatementCounts
import GameDemoLearn.Database.StatementValues
import GameDemoLearn.Database.SqlText
import GameDemoLearn.Database.StatementAccess
import GameDemoLearn.Database.Transaction
import GameDemoLearn.Database.MySqlPreparedStatement
import GameDemoLearn.Database.ConnectionResources
import GameDemoLearn.Database.ResourceAccounts
import GameDemoLearn.Database.SqlString
import GameDemoLearn.Database.QueryResult
import GameDemoLearn.Database.FieldValue
import GameDemoLearn.Database.FieldProtocols
import GameDemoLearn.Database.PreparedQueryResult
import GameDemoLearn.Database.ResultSlots
import GameDemoLearn.Database.ResultRows
import GameDemoLearn.Database.ResultCells
import GameDemoLearn.Database.StoredValue
import GameDemoLearn.Database.ResultOwnership
import GameDemoLearn.Database.QueryCallback
import GameDemoLearn.Database.QueryDelivery
import GameDemoLearn.Net.Buffer
import GameDemoLearn.Net.BufferFifo
import GameDemoLearn.Net.TypedStream
import GameDemoLearn.Net.BufferGrowth
import GameDemoLearn.Net.BufferSize
import GameDemoLearn.Net.BufferRelease
import GameDemoLearn.Net.WriteLoop
import GameDemoLearn.Net.WireOrder
import GameDemoLearn.Net.SessionLifetime
import GameDemoLearn.Net.RequestLoss
import GameDemoLearn.Net.ServerTick
import GameDemoLearn.Net.Http.PicoHttpParser
import GameDemoLearn.Net.Http.FindcharFast
import GameDemoLearn.Net.Http.ChunkedDecoder
import GameDemoLearn.Net.Http.ChunkedRefinement
import GameDemoLearn.Net.Http.ChunkedCoding
import GameDemoLearn.Net.Http.HttpParser
import GameDemoLearn.Net.Http.ParserReuse
import GameDemoLearn.Net.Http.QueryString
import GameDemoLearn.Net.Http.QueryValues
import GameDemoLearn.Net.Http.QuerySegments
import GameDemoLearn.Net.Http.ParserResults
import GameDemoLearn.Net.Http.HttpCommon
import GameDemoLearn.Net.Http.HttpRequest
import GameDemoLearn.Net.Http.HttpResponse
import GameDemoLearn.Net.Http.HttpRouter
import GameDemoLearn.Net.Http.ResponseFraming
import GameDemoLearn.Net.Http.HeaderReading
import GameDemoLearn.Net.Http.RequestGrammar
import GameDemoLearn.Net.Http.RequestFronts
import GameDemoLearn.Net.Http.ResponseRoundTrip
import GameDemoLearn.Net.Http.RequestView
import GameDemoLearn.Net.Http.ResponseGrammar
import GameDemoLearn.Net.Http.ResponseFronts
import GameDemoLearn.Net.Http.IsComplete
import GameDemoLearn.Net.Http.RouterKeys
import GameDemoLearn.Net.Http.RouteChoice
import GameDemoLearn.Servers.HttpServer
import GameDemoLearn.Servers.HttpSession
import GameDemoLearn.Servers.PacketContents
import GameDemoLearn.Servers.RequestService
import GameDemoLearn.Servers.Connection
import GameDemoLearn.Servers.RequestDispatch
import GameDemoLearn.Servers.ResponseReuse
import GameDemoLearn.Servers.ParseFailure
import GameDemoLearn.Servers.ResponseOrder
import GameDemoLearn.Servers.DeferredResponse
