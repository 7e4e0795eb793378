import SoaHomework.FlightLedger
import SoaHomework.FlightDeadlock
import SoaHomework.FlightServer
import SoaHomework.CircuitBreaker
import SoaHomework.BreakerCalls
import SoaHomework.FlightRpc
import SoaHomework.BookingService
import SoaHomework.BookingSaga
import SoaHomework.BookingRequests
import SoaHomework.BookingOutcomes
import SoaHomework.MarketPromos
import SoaHomework.CacheCoherence
import SoaHomework.Retention
import SoaHomework.Redelivery
import SoaHomework.AggregationRuns
import SoaHomework.RepeatedAggregation
import SoaHomework.FailedAggregation
import SoaHomework.ConcurrentAggregation
import SoaHomework.ScheduledRetention
import SoaHomework.KafkaDelivery
import SoaHomework.PromoTurns
import SoaHomework.MarketIntegrity
import SoaHomework.OrderSessions
import SoaHomework.OrderMirrors
import SoaHomework.EventSchema
import SoaHomework.BookingStorage
import SoaHomework.DatedSearch
import SoaHomework.ProductPages
import SoaHomework.RequestLogging
import SoaHomework.CachedVersions
import SoaHomework.OrderTotals
import SoaHomework.SyntheticSessions
import SoaHomework.UpdateChains
import SoaHomework.ConcurrentOrders
import SoaHomework.BackgroundMerges
import SoaHomework.CommitLog
import SoaHomework.SeatReconciliation
import SoaHomework.AuthSessions
import SoaHomework.FlightAtomicity
import SoaHomework.FlightCompletion
import SoaHomework.BreakerOutage
import SoaHomework.BoundedStaleness
