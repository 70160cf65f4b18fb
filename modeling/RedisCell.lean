import RedisCell.Interaction.Program
import RedisCell.Gcra.Schedule
import RedisCell.Machine
import RedisCell.Time.Duration
import RedisCell.Text.ParseInt
import RedisCell.Error
import RedisCell.Cell.Rate
import RedisCell.Cell.Store
import RedisCell.Cell.RateLimit
import RedisCell.Cell.Quotients
import RedisCell.Gcra.TokenBucket
import RedisCell.Cell.RateLimitLaws
import RedisCell.Cell.Run
import RedisCell.Cell.BucketRefinement
import RedisCell.Cell.Window
import RedisCell.Cell.ConfiguredRate
import RedisCell.Cell.Encoding
import RedisCell.Redis.Keyspace
import RedisCell.Cell.RedisStore
import RedisCell.Cell.RedisStoreLaws
import RedisCell.Cell.Expiry
import RedisCell.Redis.Command
import RedisCell.Throttle
import RedisCell.Redis.Arguments
import RedisCell.ThrottleLaws
import RedisCell.Throttle.Failure
import RedisCell.Throttle.Rounding
import RedisCell.Cell.RedisWrites
import RedisCell.Throttle.Exactness
import RedisCell.Cell.Linearizable
import RedisCell.Throttle.Threshold
import RedisCell.Cell.RetryAfter
import RedisCell.Cell.Candidate
import RedisCell.Cell.StoreContract
import RedisCell.Cell.Reconfigure
import RedisCell.Cell.Replication
import RedisCell.Cell.Peek
import RedisCell.Cell.Remaining
import RedisCell.Cell.Fleeting
import RedisCell.Interaction.Protocol
import RedisCell.Cell.Deadlines
import RedisCell.Cell.Split
import RedisCell.Cell.Contention
import RedisCell.Cell.ResetAfter
import RedisCell.Gcra.Greedy
import RedisCell.Gcra.Saturated
import RedisCell.Cell.Throughput
import RedisCell.Interaction.Rivalry
import RedisCell.Cell.Progress
import RedisCell.Gcra.Lapse
import RedisCell.Cell.Lapsing
import RedisCell.Interaction.Session
import RedisCell.Throttle.Effect
import RedisCell.Throttle.Session
import RedisCell.Interaction.Contract
import RedisCell.Interaction.Credits
import RedisCell.Interaction.Ownership
import RedisCell.Redis.Handles
import RedisCell.Throttle.Handled
import RedisCell.Throttle.Bounded
import RedisCell.Redis.Heap
import RedisCell.Interaction.Erasure
import RedisCell.Throttle.Erasure
import RedisCell.Redis.Call
import RedisCell.Redis.Load
import RedisCell.Float.Rounding
import RedisCell.Float.Quotient
import RedisCell.Cell.QuotientLaws
import RedisCell.Text.Signed
import RedisCell.Text.OneLine
import RedisCell.Throttle.Grammar
import RedisCell.Throttle.Conformance
import RedisCell.Throttle.Loading
import RedisCell.Throttle.Replica
import RedisCell.Throttle.FloatingPoint
