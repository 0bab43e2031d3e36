import OnestiLock.FramingRoundTrip
import OnestiLock.SessionSteps
import OnestiLock.SessionMoves
import OnestiLock.SessionClosed
import OnestiLock.SessionFlight
import OnestiLock.Correlation
import OnestiLock.LateAnswers
import OnestiLock.Commands
import OnestiLock.Program
import OnestiLock.Enrollment
import OnestiLock.EnrollmentArguments
import OnestiLock.EnrollmentCrash
import OnestiLock.EnrollmentKept
import OnestiLock.EnrollmentRecovery
import OnestiLock.EnrollmentSaves
import OnestiLock.Coordinator
import OnestiLock.CoordinatorExclusion
import OnestiLock.CoordinatorGuard
import OnestiLock.CoordinatorViews
import OnestiLock.Events
import OnestiLock.WakeEcho
import OnestiLock.Fairness
import OnestiLock.FramingGrammar
import OnestiLock.FramingRecovery
import OnestiLock.GitHub
import OnestiLock.LockClients
import OnestiLock.Notification
import OnestiLock.RegistryDevices
import OnestiLock.RegistryEntities
import OnestiLock.RegistryTables
import OnestiLock.ReleaseBinding
import OnestiLock.ReleaseRuns
import OnestiLock.SessionConnect
import OnestiLock.SessionDrain
import OnestiLock.Settlement
import OnestiLock.StackRoundTrip
import OnestiLock.AnswerClasses
import OnestiLock.DeviceName
import OnestiLock.HeaderCodecs
import OnestiLock.LockTime
import OnestiLock.Redact
import OnestiLock.ZhaSendRuns
import OnestiLock.EnrollFiles
import OnestiLock.LoginRecords
import OnestiLock.KeyAgreement
import OnestiLock.StoredEnrollments
import OnestiLock.ActivityReports
import OnestiLock.OptionsFlowRuns
import OnestiLock.EntryMigration
import OnestiLock.LockFlows
import OnestiLock.ActionKept
import OnestiLock.ReleaseAgain
import OnestiLock.WrappedBullets
import OnestiLock.ZhaWatchVoice
import OnestiLock.TransportTraffic
import OnestiLock.BluetoothRuns
import OnestiLock.SlotRefinement
import OnestiLock.TraceLines
import OnestiLock.CommandTraffic
import OnestiLock.ServiceRecords
import OnestiLock.ServiceSecrecy
