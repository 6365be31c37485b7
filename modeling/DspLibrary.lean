import DspLibrary.Foundation.Yields
import DspLibrary.Foundation.Block
import DspLibrary.Foundation.Heap
import DspLibrary.Foundation.Simulation
import DspLibrary.Foundation.Signal
import DspLibrary.Foundation.LinearSignal
import DspLibrary.Foundation.Transfer
import DspLibrary.FuntionsMath
import DspLibrary.DataFilter
import DspLibrary.DataFilterSemantics
import DspLibrary.Specification
import DspLibrary.Tracking
import DspLibrary.Filter
import DspLibrary.FilterSemantics
import DspLibrary.Running
import DspLibrary.Response
import DspLibrary.Kinds
import DspLibrary.Windows
import DspLibrary.Capacity
import DspLibrary.Reconfiguration
import DspLibrary.Lifecycle
import DspLibrary.CheckedLifecycle
import DspLibrary.Room
import DspLibrary.Equivalence
import DspLibrary.Restart
import DspLibrary.Coefficients
import DspLibrary.Chibios.Heap
import DspLibrary.Foundation.Segments
import DspLibrary.Chibios.FreeList
import DspLibrary.Chibios.HeapSemantics
import DspLibrary.Chibios.HeapRuns
import DspLibrary.Chibios.HeapUse
import DspLibrary.Chibios.HeapHistory
import DspLibrary.Foundation.Reservation
import DspLibrary.Chibios.Allocation
import DspLibrary.Chibios.OutputQueue
import DspLibrary.Chibios.Serial
import DspLibrary.Chibios.SerialRuns
import DspLibrary.Chibios.SerialOutput
import DspLibrary.Chibios.SerialProgress
import DspLibrary.Foundation.SinglePrecision
import DspLibrary.Chibios.Printf
import DspLibrary.Chibios.PrintfNumbers
import DspLibrary.Chibios.PrintfFormat
import DspLibrary.Thread1
