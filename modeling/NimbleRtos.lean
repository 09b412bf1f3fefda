import NimbleRtos.SemaphoreUnits
import NimbleRtos.MutexOwnership
import NimbleRtos.WaitEnds
import NimbleRtos.QueueWakeups
import NimbleRtos.BoundedInversion
import NimbleRtos.Preemption
import NimbleRtos.FaultLatch
import NimbleRtos.Foundation.Recency
import NimbleRtos.TimerService
import NimbleRtos.ActiveTimers
import NimbleRtos.TimerDrift
import NimbleRtos.Durations
import NimbleRtos.TimerCalls
import NimbleRtos.TimerStop
import NimbleRtos.TimerSleep
import NimbleRtos.RoundRobin
import NimbleRtos.WakeOrder
import NimbleRtos.Foundation.DescendingStack
import NimbleRtos.Port
import NimbleRtos.ContextSwitch
import NimbleRtos.StackMark
import NimbleRtos.Boot
import NimbleRtos.Demo
import NimbleRtos.FaultSignals
import NimbleRtos.Foundation.LinkedCells
import NimbleRtos.IntrusiveList
import NimbleRtos.ExpiryLoop
import NimbleRtos.Suspension
import NimbleRtos.Foundation.Refinement
import NimbleRtos.Progress
import NimbleRtos.HeapLists
import NimbleRtos.HeapScheduler
import NimbleRtos.HeapObjects
import NimbleRtos.HeapSystem
import NimbleRtos.DemoCode
import NimbleRtos.Callers
import NimbleRtos.StatusLock
import NimbleRtos.DemoView
import NimbleRtos.DemoRefinement
import NimbleRtos.SampleFlow
import NimbleRtos.Foundation.LineSplit
import NimbleRtos.CommandLine
import NimbleRtos.Foundation.WholePieces
import NimbleRtos.CriticalSections
