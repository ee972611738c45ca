import Outboxy.Delivery.Succeeded
import Outboxy.Delivery.Fencing
import Outboxy.Delivery.Exclusive
import Outboxy.Delivery.Batch
import Outboxy.Delivery.Recovery
import Outboxy.Delivery.RetryBudget
import Outboxy.Delivery.Outcome
import Outboxy.Delivery.Replay
import Outboxy.Delivery.MysqlRecovery
import Outboxy.Delivery.Claimable
import Outboxy.Sdk.Conflation
import Outboxy.Inbox.Calls
import Outboxy.Inbox.ExactlyOnce
import Outboxy.Lifecycle.Cluster
import Outboxy.Lifecycle.ClusterStop
import Outboxy.Lifecycle.KafkaPublisher
import Outboxy.Lifecycle.Writes
import Outboxy.Migrations.Mysql
import Outboxy.Migrations.Postgres
import Outboxy.Delivery.Backoff
import Outboxy.Delivery.Routing
import Outboxy.Inbox.ResultIds
import Outboxy.Sdk.Chunking
import Outboxy.Publisher.HttpDelivery
import Outboxy.Publisher.HttpResults
import Outboxy.Publisher.HttpHeaders
import Outboxy.Publisher.KafkaDelivery
import Outboxy.Publisher.Tracing
import Outboxy.Delivery.FailedClaim
import Outboxy.Delivery.ErrorText
import Outboxy.Delivery.DateRange
import Outboxy.Delivery.CreateOrFind
import Outboxy.Config.Environment
import Outboxy.Config.Polling
import Outboxy.Api.ErrorHandler
import Outboxy.Api.ReplayAnswers
import Outboxy.Lifecycle.OneLoop
import Outboxy.Lifecycle.WorkerIds
import Outboxy.Server.AdapterFactory
import Outboxy.Delivery.OwnCells
import Outboxy.Lifecycle.MaintenanceScheduler
import Outboxy.Chain.Redelivery
import Outboxy.Chain.Retention
import Outboxy.Chain.EndToEnd
import Outboxy.Delivery.Drain
import Outboxy.Migrations.Runners
import Outboxy.Lifecycle.GracefulStop
import Outboxy.Lifecycle.DatabaseAdapter
import Outboxy.Lifecycle.PoolLeaks
