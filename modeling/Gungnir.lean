import Gungnir.Queue.RedisConservation
import Gungnir.Orm.SameRows
import Gungnir.Orm.UpsertAgreement
import Gungnir.Database.Callbacks
import Gungnir.Database.Pool
import Gungnir.View.Escaping
import Gungnir.Queue.JobRoundTrip
import Gungnir.Validation.Noninterference
import Gungnir.Sessions.Revocation
import Gungnir.Cache.Agreement
import Gungnir.Auth.Remember
import Gungnir.Core.Cancellation
import Gungnir.Core.TimerDelivery
import Gungnir.Migrations.Inversion
import Gungnir.Http.RateLimitAgreement
import Gungnir.Scheduler.WallClock
import Gungnir.Scheduler.OneServer
import Gungnir.Queue.Codec
import Gungnir.Http.InputBound
import Gungnir.Http.Chunked
import Gungnir.Orm.Pagination
import Gungnir.Orm.Sync
import Gungnir.Http.Cors
import Gungnir.Language.StringLiteral
import Gungnir.Language.LoweringCost
import Gungnir.Core.TimerWake
import Gungnir.Production.Supervisor
import Gungnir.Routing.Middleware
import Gungnir.Core.Container
