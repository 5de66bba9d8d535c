import XeMySql.Properties.Exclusive
import XeMySql.Record
import XeMySql.Properties.Success
import XeMySql.Delivery
import XeMySql.Properties.Delivered
import XeMySql.Properties.Fidelity
import XeMySql.Lib.Solo
import XeMySql.Properties.Shutdown
import XeMySql.Lib.Ledger
import XeMySql.Properties.Handles
import XeMySql.Lib.Replay
import XeMySql.Session
import XeMySql.Properties.Settings
import XeMySql.Properties.Selected
import XeMySql.Custody
import XeMySql.Properties.ResultSets
import XeMySql.Properties.Ordered
import XeMySql.Properties.Drained
import XeMySql.Lib.Reading
import XeMySql.Result
import XeMySql.Properties.Reading
import XeMySql.Initialize
import XeMySql.Properties.AllOrNothing
import XeMySql.Properties.Creates
import XeMySql.Lib.Decimal
import XeMySql.Log
import XeMySql.Properties.Dated
import XeMySql.Properties.Files
import XeMySql.Properties.Verbatim
import XeMySql.Properties.Whole
import XeMySql.Properties.Overloads
import XeMySql.Properties.TaskBuffer
import XeMySql.Lib.DoubleByte
import XeMySql.Strings
import XeMySql.Properties.Gbk
import XeMySql.Properties.Access
import XeMySql.Properties.Integers
import XeMySql.MySqlQuery
import XeMySql.Properties.Readers
import XeMySql.Properties.Reuse
import XeMySql.Properties.Binds
import XeMySql.Properties.Statements
import XeMySql.Properties.Recycling
import XeMySql.Blob
import XeMySql.Properties.Blobs
import XeMySql.MySqlCmd
import XeMySql.Properties.Prepared
import XeMySql.Properties.Told
import XeMySql.Properties.Applied
import XeMySql.Properties.Rotations
import XeMySql.Properties.ThreadList
import XeMySql.RltField
import XeMySql.Properties.Columns
import XeMySql.Lib.Wrap
import XeMySql.Properties.Scan
import XeMySql.Properties.Staleness
import XeMySql.Lib.Monitor
import XeMySql.Lib.Object
import XeMySql.LogCode
import XeMySql.PoolCode
import XeMySql.Properties.LogThreads
import XeMySql.Properties.PoolThreads
import XeMySql.Properties.Progress
import XeMySql.Properties.WorkedOff
import XeMySql.Properties.Owners
import XeMySql.Lib.Audit
import XeMySql.Properties.Audited
import XeMySql.Main
import XeMySql.Properties.Boot
import XeMySql.Memory
import XeMySql.Holdings
import XeMySql.Properties.Lifetimes
import XeMySql.Properties.SameCalls
