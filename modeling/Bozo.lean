import Bozo.Failover.Output
import Bozo.Impl.Cancel
import Bozo.Impl.FailoverRequests
import Bozo.Impl.PoolTimeConstraint
import Bozo.Impl.ProcessErrors
import Bozo.Impl.Sessions
import Bozo.Io.Conformance
import Bozo.Io.Consumption
import Bozo.Io.Echo
import Bozo.Io.Intervals
import Bozo.Io.PriorContents
import Bozo.Io.RowsByName
import Bozo.Io.SizeLimits
import Bozo.Io.TimePoints
import Bozo.Io.Truncation
import Bozo.QueryBuilder.Placeholders
import Bozo.QueryConf.Placeholders
import Bozo.Sqlstate.Text
