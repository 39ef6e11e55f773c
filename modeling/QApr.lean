import QApr.Scheduler.Coverage
import QApr.Scheduler.Identity
import QApr.Scheduler.DigestUuid
import QApr.Scheduler.RegistrationOrder
import QApr.Scheduler.ExecOrder
import QApr.Scheduler.Representation
import QApr.Scheduler.Exclusion
import QApr.Scheduler.Stats
import QApr.Scheduler.Invocation
import QApr.Scheduler.Restarts
import QApr.Scheduler.EndToEnd
import QApr.Scheduler.TaskTimer
import QApr.Scheduler.TimedPool
import QApr.Scheduler.AgentExecution
import QApr.Scheduler.AgentTasks
import QApr.Interfaces.Atomicity
import QApr.Interfaces.Connections
import QApr.Interfaces.RollbackFlag
import QApr.Interfaces.MenuGroups
import QApr.Interfaces.ControllersCache
import QApr.Mvc.Controller
import QApr.Sessions.Session
import QApr.Sessions.Credential
import QApr.Application.StartLock
import QApr.Application.BreakerState
import QApr.Application.Settings
import QApr.Application.ResourceSettings
import QApr.Application.HostState
import QApr.Application.MainService
import QApr.Application.MobileArguments
import QApr.Application.MobileInit
import QApr.Application.MobileSettings
