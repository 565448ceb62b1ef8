import Callisto.Backtest.PortfolioBalance
import Callisto.Paper.CallsOnce
import Callisto.Backtest.DisplayedLiquidity
import Callisto.Backtest.FastPathRuns
import Callisto.Backtest.Solvency
import Callisto.Execution.LedgerRuns
import Callisto.Portfolio.SweepOrder
import Callisto.Bus.Replay
import Callisto.Signals.QueueCompaction
import Callisto.Recorder.CompactorRuns
import Callisto.Exits.NoOverExit
import Callisto.Journal.Recovery
import Callisto.Journal.Dedup
import Callisto.Hot.ReseedRuns
import Callisto.Fast.OpenCap
import Callisto.Fast.NoOrphan
import Callisto.Limits.RateLimiter
import Callisto.Optimization.GuaranteedCover
import Callisto.Optimization.HedgeExposure
import Callisto.Chase.ChaseBounds
import Callisto.Recorder.SinkAccounts
import Callisto.Wallet.TradeLedger
import Callisto.Hot.RiskSound
import Callisto.Hot.AuditSafe
import Callisto.Signals.CacheFaithful
import Callisto.Backtest.DecisionParity
import Callisto.Ws.BookAgreement
import Callisto.Bus.RetentionCaps
import Callisto.Ws.PrivateContract
import Callisto.Bus.ExternalFaithful
import Callisto.Backtest.EndOfLifeContract
import Callisto.Backtest.SubmitGate
import Callisto.Paper.BestExecution
import Callisto.Strategies.PersistentState
import Callisto.Backtest.LimitFills
import Callisto.Portfolio.EvidenceSpelling
import Callisto.Signals.RedisEchoes
import Callisto.Exits.PlanTotals
import Callisto.MarketData.ViewReplay
import Callisto.FillSimulator.QueueReplay
import Callisto.Orders.BundleSizing
import Callisto.Wallet.FifoPnl
import Callisto.Optimization.VwapArbitrage
import Callisto.Replay.RunAccounts
import Callisto.Signals.UpsertTwice
import Callisto.Backtest.FoldWindows
import Callisto.Orders.LivePrice
import Callisto.Backtest.SettlementStore
import Callisto.MarketData.DeltaRuns
import Callisto.MarketData.OrderedMerge
import Callisto.Strategies.MultiWindow
import Callisto.Bus.PublishMany
import Callisto.Paper.EvidenceFaithful
import Callisto.Portfolio.Fencing
import Callisto.Ws.Coordinator
import Callisto.Paper.OrderEvents
