import Quadrocopt.AcceptedBytes
import Quadrocopt.BinarySemaphore
import Quadrocopt.ClosedLoopMemory
import Quadrocopt.ClosedLoopThreads
import Quadrocopt.ControlLaw
import Quadrocopt.DoubleLinkedList
import Quadrocopt.EnoughData
import Quadrocopt.FloatPrinting
import Quadrocopt.Integrator
import Quadrocopt.IntegratorMemory
import Quadrocopt.LaggedIntegration
import Quadrocopt.ListenerLoop
import Quadrocopt.Outstanding
import Quadrocopt.Printer
import Quadrocopt.Reference
import Quadrocopt.RunLength
import Quadrocopt.StateLayout
import Quadrocopt.StockLaw
import Quadrocopt.StockOwnership
import Quadrocopt.StopWorkers
import Quadrocopt.WireFormat
