import MiniIotRobotEdge.Aes128
import MiniIotRobotEdge.AiBatchNorm
import MiniIotRobotEdge.AiBumpArenas
import MiniIotRobotEdge.AiClustering
import MiniIotRobotEdge.AiConvolution
import MiniIotRobotEdge.AiGemm
import MiniIotRobotEdge.AiHeadTraining
import MiniIotRobotEdge.AiHuffman
import MiniIotRobotEdge.AiHuffmanOptimality
import MiniIotRobotEdge.AiIm2Col
import MiniIotRobotEdge.AiNms
import MiniIotRobotEdge.AiOnlineStats
import MiniIotRobotEdge.AiPipeline
import MiniIotRobotEdge.AiPriorityQueue
import MiniIotRobotEdge.AiQuantization
import MiniIotRobotEdge.AiRingBuffer
import MiniIotRobotEdge.AiSha256
import MiniIotRobotEdge.AiSparseProduct
import MiniIotRobotEdge.AiTensorLayout
import MiniIotRobotEdge.AiTopK
import MiniIotRobotEdge.AiWakeWord
import MiniIotRobotEdge.BumpRegion
import MiniIotRobotEdge.ByteCounter
import MiniIotRobotEdge.ByteField
import MiniIotRobotEdge.ByteMemory
import MiniIotRobotEdge.ByteText
import MiniIotRobotEdge.CircularBuffer
import MiniIotRobotEdge.ControlDiscrepancy
import MiniIotRobotEdge.ControlImageTable
import MiniIotRobotEdge.ControlModbusCrc
import MiniIotRobotEdge.ControlModbusResponses
import MiniIotRobotEdge.ControlModbusStore
import MiniIotRobotEdge.ControlModbusWrites
import MiniIotRobotEdge.ControlOpcUa
import MiniIotRobotEdge.ControlOpcUaNotifications
import MiniIotRobotEdge.ControlOpcUaSubscriptions
import MiniIotRobotEdge.ControlPlcCounters
import MiniIotRobotEdge.ControlPlcLadder
import MiniIotRobotEdge.ControlPlcPulses
import MiniIotRobotEdge.ControlPlcTimers
import MiniIotRobotEdge.ControlSafetyPlc
import MiniIotRobotEdge.ControlScadaAlarms
import MiniIotRobotEdge.ControlScadaHistory
import MiniIotRobotEdge.ControlTwoHand
import MiniIotRobotEdge.Crc32
import MiniIotRobotEdge.CriticalCode
import MiniIotRobotEdge.CyclicChain
import MiniIotRobotEdge.DecimalText
import MiniIotRobotEdge.EdgeAesStandard
import MiniIotRobotEdge.EdgeAttestation
import MiniIotRobotEdge.EdgeCrcAgreement
import MiniIotRobotEdge.EdgeCrypto
import MiniIotRobotEdge.EdgeFileStore
import MiniIotRobotEdge.EdgeFlows
import MiniIotRobotEdge.EdgeGcm
import MiniIotRobotEdge.EdgeHkdf
import MiniIotRobotEdge.EdgeImageCoverage
import MiniIotRobotEdge.EdgeKeyMgmt
import MiniIotRobotEdge.EdgeKeyRevocation
import MiniIotRobotEdge.EdgeKeystream
import MiniIotRobotEdge.EdgeOta
import MiniIotRobotEdge.EdgeOtaAuthenticity
import MiniIotRobotEdge.EdgeOtaDelta
import MiniIotRobotEdge.EdgeOtaReception
import MiniIotRobotEdge.EdgeOtaVersions
import MiniIotRobotEdge.EdgeSecureBoot
import MiniIotRobotEdge.EdgeSecureStorage
import MiniIotRobotEdge.EdgeSha256
import MiniIotRobotEdge.EdgeShortAuthenticators
import MiniIotRobotEdge.EdgeSignatures
import MiniIotRobotEdge.EdgeStorageReads
import MiniIotRobotEdge.EdgeTrustZone
import MiniIotRobotEdge.ExchangeSort
import MiniIotRobotEdge.GreedySelection
import MiniIotRobotEdge.GuardedRun
import MiniIotRobotEdge.HeapOrder
import MiniIotRobotEdge.Hmac
import MiniIotRobotEdge.InverseSampling
import MiniIotRobotEdge.KeyedList
import MiniIotRobotEdge.LargestPart
import MiniIotRobotEdge.LeastMeanSquares
import MiniIotRobotEdge.LinkedSegment
import MiniIotRobotEdge.LinuxDeviceTree
import MiniIotRobotEdge.LinuxKernelModule
import MiniIotRobotEdge.LoopNests
import MiniIotRobotEdge.McuCrcUnit
import MiniIotRobotEdge.OptimalCodes
import MiniIotRobotEdge.OtaAbBootSelection
import MiniIotRobotEdge.OtaAbIsolation
import MiniIotRobotEdge.OtaAbPersistence
import MiniIotRobotEdge.OtaAbUpdate
import MiniIotRobotEdge.OtaClient
import MiniIotRobotEdge.OtaClientOrdering
import MiniIotRobotEdge.OtaDeltaCompression
import MiniIotRobotEdge.OtaDeltaPatch
import MiniIotRobotEdge.OtaDeltaRoundTrip
import MiniIotRobotEdge.OtaDeltaStream
import MiniIotRobotEdge.OtaImageBuilder
import MiniIotRobotEdge.OtaPayloadEncryption
import MiniIotRobotEdge.OtaRollbackCounter
import MiniIotRobotEdge.OtaServer
import MiniIotRobotEdge.OtaSignedImage
import MiniIotRobotEdge.OtaSuffixSearch
import MiniIotRobotEdge.OtaSuffixSort
import MiniIotRobotEdge.PackedBytes
import MiniIotRobotEdge.PointerChain
import MiniIotRobotEdge.PointerRing
import MiniIotRobotEdge.PricedTree
import MiniIotRobotEdge.PriorityInheritance
import MiniIotRobotEdge.RangeLoop
import MiniIotRobotEdge.RoboticsAstar
import MiniIotRobotEdge.RoboticsAstarPaths
import MiniIotRobotEdge.RoboticsAstarSearch
import MiniIotRobotEdge.RoboticsAstarSteps
import MiniIotRobotEdge.RoboticsFastSlam
import MiniIotRobotEdge.RoboticsGraphSlam
import MiniIotRobotEdge.RoboticsRosBag
import MiniIotRobotEdge.RoboticsRosMessages
import MiniIotRobotEdge.RoboticsRrtStar
import MiniIotRobotEdge.RtosBestFit
import MiniIotRobotEdge.RtosCriticalSections
import MiniIotRobotEdge.RtosDeadlockCheck
import MiniIotRobotEdge.RtosDeadlockSearch
import MiniIotRobotEdge.RtosDelay
import MiniIotRobotEdge.RtosDelayUntil
import MiniIotRobotEdge.RtosEdfList
import MiniIotRobotEdge.RtosEventGroupBitSets
import MiniIotRobotEdge.RtosEventGroupLists
import MiniIotRobotEdge.RtosEventGroupRuns
import MiniIotRobotEdge.RtosEventGroups
import MiniIotRobotEdge.RtosHeapAccounting
import MiniIotRobotEdge.RtosHeapCapacity
import MiniIotRobotEdge.RtosHeapChain
import MiniIotRobotEdge.RtosHeapCoalescing
import MiniIotRobotEdge.RtosHeapHeaders
import MiniIotRobotEdge.RtosHeapMoves
import MiniIotRobotEdge.RtosHeapRealloc
import MiniIotRobotEdge.RtosHeapRegions
import MiniIotRobotEdge.RtosHeapRuns
import MiniIotRobotEdge.RtosHeapSafety
import MiniIotRobotEdge.RtosHeapSearch
import MiniIotRobotEdge.RtosHeapTypeOne
import MiniIotRobotEdge.RtosHeapWatermark
import MiniIotRobotEdge.RtosIpcQueue
import MiniIotRobotEdge.RtosLoadFigures
import MiniIotRobotEdge.RtosMemoryHeap
import MiniIotRobotEdge.RtosMutex
import MiniIotRobotEdge.RtosMutexHandOff
import MiniIotRobotEdge.RtosOneShotTimers
import MiniIotRobotEdge.RtosPriorityInheritance
import MiniIotRobotEdge.RtosPriorityRuns
import MiniIotRobotEdge.RtosQueueCopies
import MiniIotRobotEdge.RtosQueueCreation
import MiniIotRobotEdge.RtosQueueFifo
import MiniIotRobotEdge.RtosQueueMemory
import MiniIotRobotEdge.RtosRateMonotonic
import MiniIotRobotEdge.RtosReadyRings
import MiniIotRobotEdge.RtosRmaTest
import MiniIotRobotEdge.RtosRwlock
import MiniIotRobotEdge.RtosRwlockRuns
import MiniIotRobotEdge.RtosScheduling
import MiniIotRobotEdge.RtosSelection
import MiniIotRobotEdge.RtosSemaphoreTokens
import MiniIotRobotEdge.RtosSoftwareTimers
import MiniIotRobotEdge.RtosSwitching
import MiniIotRobotEdge.RtosSyncRuns
import MiniIotRobotEdge.RtosSynchronization
import MiniIotRobotEdge.RtosTaskOps
import MiniIotRobotEdge.RtosTaskScheduler
import MiniIotRobotEdge.RtosTickHandler
import MiniIotRobotEdge.RtosTickRings
import MiniIotRobotEdge.RtosTimedOutWaits
import MiniIotRobotEdge.RtosTimerChain
import MiniIotRobotEdge.RtosTimerChainRuns
import MiniIotRobotEdge.RtosTimerCommands
import MiniIotRobotEdge.RtosTimerExpiry
import MiniIotRobotEdge.RtosTraceRing
import MiniIotRobotEdge.RtosWaitLists
import MiniIotRobotEdge.SensorDemosaic
import MiniIotRobotEdge.SensorFilters
import MiniIotRobotEdge.SensorPolling
import MiniIotRobotEdge.SensorStepper
import MiniIotRobotEdge.Sha256
import MiniIotRobotEdge.SquaredClusters
import MiniIotRobotEdge.StableInsertion
import MiniIotRobotEdge.StepRuns
import MiniIotRobotEdge.SuffixArrays
import MiniIotRobotEdge.TiledLoops
import MiniIotRobotEdge.TrailingRuns
import MiniIotRobotEdge.UniqueWalk
import MiniIotRobotEdge.WrappedQuotient
import MiniIotRobotEdge.XorRegister
