import KernelFacilities.Runs
import KernelFacilities.ByteSpans
import KernelFacilities.MachineIntegers
import KernelFacilities.CharTransfers
import KernelFacilities.CharDriverMultipleDevices
import KernelFacilities.PositionAccounting
import KernelFacilities.CursorStore
import KernelFacilities.StoreRefinement
import KernelFacilities.AccessControl
import KernelFacilities.LockedSections
import KernelFacilities.LockedTransfers
import KernelFacilities.LockedProgress
import KernelFacilities.SpinlockCharDriver
import KernelFacilities.CharDriverLoad
import KernelFacilities.SpinlockCharDriverMultipleDevices
import KernelFacilities.PlatformDriver
import KernelFacilities.PlatformDriverSysfs
import KernelFacilities.PlatformDriverFiles
import KernelFacilities.CharDriverMultipleDevicesLoad
import KernelFacilities.PlatformDriverNumbers
import KernelFacilities.PlatformModules
import KernelFacilities.TransferBounds
import KernelFacilities.WaitQueues
import KernelFacilities.AbsoluteSeeks
import KernelFacilities.ReadLoops
import KernelFacilities.ChunkedTransfers
import KernelFacilities.ProcFile
import KernelFacilities.SentinelScans
import KernelFacilities.PlatformDriverTables
import KernelFacilities.CircularLists
import KernelFacilities.LinkedList
import KernelFacilities.PlatformDriverLeaks
import KernelFacilities.PlatformBus
import KernelFacilities.WaitQueueWakeups
import KernelFacilities.FaultingStore
import KernelFacilities.DeviceFiles
import KernelFacilities.CharDriverFiles
import KernelFacilities.FullDevices
import KernelFacilities.LoadRaces
import KernelFacilities.StructLayouts
import KernelFacilities.DeviceRouting
import KernelFacilities.DriverLife
import KernelFacilities.SharedCells
import KernelFacilities.SharedFiles
import KernelFacilities.LinkedListOutput
