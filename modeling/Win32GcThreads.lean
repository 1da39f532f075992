import Win32GcThreads.ThreadRep
import Win32GcThreads.PointerChain
import Win32GcThreads.ThreadHashTable
import Win32GcThreads.ThreadTableInvariant
import Win32GcThreads.ThreadLifecycle
import Win32GcThreads.LifecycleInvariant
import Win32GcThreads.WorldStop
import Win32GcThreads.WorldStopInvariant
import Win32GcThreads.StackMinInvariant
import Win32GcThreads.CallerRecord
import Win32GcThreads.MarkLock
import Win32GcThreads.DllThreadTable
import Win32GcThreads.DllSlotInvariant
import Win32GcThreads.StackScan
import Win32GcThreads.MarkEvents
import Win32GcThreads.BlockingBrackets
import Win32GcThreads.MarkerStart
import Win32GcThreads.NextStack
import Win32GcThreads.FinalizerNesting
import Win32GcThreads.MarkerCount
import Win32GcThreads.StackProbe
import Win32GcThreads.FreeDiscipline
import Win32GcThreads.OwnRecord
import Win32GcThreads.Registry
import Win32GcThreads.RecordReclaim
import Win32GcThreads.ProcessReclaim
import Win32GcThreads.ApiContract
import Win32GcThreads.NativeReclaim
import Win32GcThreads.NativeStartRoutine
import Win32GcThreads.WorldRestart
import Win32GcThreads.PthreadRecycling
