import Waler.Foundation.Run
import Waler.Foundation.SortedMap
import Waler.Foundation.FiniteMap
import Waler.Foundation.GroupIndex
import Waler.Foundation.PackedLayout
import Waler.Foundation.SwapPool
import Waler.Foundation.IssueLedger
import Waler.Foundation.ByteMemory
import Waler.Foundation.SlidingWindow
import Waler.Foundation.Simulation
import Waler.Foundation.KeyedRun
import Waler.Foundation.BestScan
import Waler.Foundation.OnesComplement
import Waler.Foundation.Interpolation
import Waler.Foundation.LeastSquares
import Waler.Foundation.SampleStatistics
import Waler.Foundation.ErrorFunction
import Waler.MarketData
import Waler.Book.SimpleOrderBook
import Waler.Book.LevelIndex
import Waler.Book.Consistency
import Waler.Book.TopOfBook
import Waler.Book.DepthChart
import Waler.Book.Ladder
import Waler.Book.Conservation
import Waler.Book.Decoder
import Waler.Book.Acceptance
import Waler.Book.Interleaving
import Waler.Book.HostOrder
import Waler.Generator.PacketGenerator
import Waler.Generator.TopScan
import Waler.Strategy.QuoteEncoder
import Waler.Wire.RoundTrip
import Waler.Generator.PoolStep
import Waler.Generator.Lockstep
import Waler.Generator.BestPrice
import Waler.Generator.QuoteSize
import Waler.Generator.FailedBuilds
import Waler.Generator.PriceRange
import Waler.Generator.PacketCount
import Waler.Generator.OrderIds
import Waler.Generator.DepthView
import Waler.Efvi.EfviUdpSender
import Waler.Efvi.Checksum
import Waler.Efvi.TxRing
import Waler.Efvi.Datagram
import Waler.Efvi.EfviInterface
import Waler.Efvi.BufferPool
import Waler.Efvi.FrameLifetime
import Waler.Strategy.QuotePrices
import Waler.Strategy.Receive
import Waler.Strategy.Requote
import Waler.Exchange.ExchangeThread
import Waler.Strategy.RealizedVol
import Waler.Strategy.BlackScholes
import Waler.Strategy.OptionBounds
import Waler.Strategy.AnnualizedVol
import Waler.Common.Stats
import Waler.Common.StatsCompute
import Waler.Common.StatsBounds
import Waler.Common.TscCalibrate
import Waler.Strategy.NicGap
import Waler.Strategy.FrameHandler
import Waler.Strategy.FrameAccounting
import Waler.Efvi.FrameStream
import Waler.Efvi.Attrition
import Waler.Exchange.SendProgress
import Waler.Rig.TwoThreadRig
import Waler.Rig.Pipe
import Waler.Rig.Delivery
import Waler.Rig.KeepingUp
import Waler.Loopback.ClockFit
import Waler.Loopback.Calibration
import Waler.Loopback.PhcCalibration
import Waler.Loopback.ClockMap
import Waler.Loopback.RxRing
import Waler.Loopback.Report
import Waler.Loopback.MainLoop
import Waler.Loopback.ExpressReceive
import Waler.Loopback.HeaderChecksum
import Waler.Kernel.PingPong
