import VaireDb.Core.AtMostOnce
import VaireDb.Core.SerialWrites
import VaireDb.Replication.Redelivery
import VaireDb.Replication.ApplyOrder
import VaireDb.Coordinator.PartialCommit
import VaireDb.Sql.Substitution
import VaireDb.Session.FailedBlock
import VaireDb.Session.HalfDone
import VaireDb.Anonymization.NoPlaintext
import VaireDb.Coordinator.BulkLane
import VaireDb.Rows.ReadBack
import VaireDb.Coordinator.WholeTables
import VaireDb.Core.WriterTransactions
import VaireDb.Coordinator.NodeUpdates
import VaireDb.Session.BufferedReads
import VaireDb.Session.Parameters
import VaireDb.Ddl.FailedCreate
import VaireDb.Ddl.FailedRename
import VaireDb.Ddl.IndexHistory
import VaireDb.Scheduler.PrimaryReads
import VaireDb.Read.GroupingSets
import VaireDb.Read.NamedWindows
import VaireDb.Ddl.PhysicalNames
import VaireDb.Scheduler.NestedLoopJoin
import VaireDb.Wire.Interval
import VaireDb.Read.LikeEscape
