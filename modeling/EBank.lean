import EBank.JavaInt
import EBank.Procedure
import EBank.Decimal
import EBank.BFLoggerInstance
import EBank.CallNesting
import EBank.Paging
import EBank.Memo
import EBank.LocalDate
import EBank.Models
import EBank.Page
import EBank.Mappers
import EBank.DateFormatter
import EBank.Store
import EBank.SampleData
import EBank.SampleLoops
import EBank.ConsistentBank
import EBank.ExternalAPIClient
import EBank.TransactionServiceImpl
import EBank.PlainConversion
import EBank.ScriptedConversion
import EBank.OneRate
import EBank.AllOrNothing
import EBank.MonthlyStatement
import EBank.MonthWalk
import EBank.Interchangeable
import EBank.AsyncTransactionService
import EBank.PageMetadata
import EBank.PageTiling
import EBank.PastTheEnd
import EBank.Security
import EBank.Controllers
import EBank.RequestPipeline
import EBank.IdentityClaim
import EBank.DocumentedStatus
import EBank.TwoSources
import EBank.NonInterference
import EBank.KafkaTopics
import EBank.Transition
import EBank.Isolation
import EBank.ThreadPool
import EBank.AsyncRequests
import EBank.AsyncSafety
import EBank.AsyncCapacity
import EBank.AsyncProgress
import EBank.Server
import EBank.PrivateBank
import EBank.MonthText
import EBank.SampleCalls
import EBank.SampleAccess
import EBank.StatementWalk
import EBank.ApiWalk
import EBank.RateRequests
import EBank.BFLogger
import EBank.ThreadNames
import EBank.LogFiles
import EBank.ThreadLog
import EBank.SeparateLog
