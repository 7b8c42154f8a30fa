import TradeDesk.Calendar
import TradeDesk.Main
import TradeDesk.Proofs.Account.Isolation
import TradeDesk.Proofs.Desk.Failure
import TradeDesk.Proofs.Desk.Numbering
import TradeDesk.Proofs.Desk.Redelivery
import TradeDesk.Proofs.Dispatch.Frame
import TradeDesk.Proofs.Engine.Backlog
import TradeDesk.Proofs.Engine.Holdings
import TradeDesk.Proofs.Market.Eviction
import TradeDesk.Proofs.Mavg.Cooldown
import TradeDesk.Proofs.Mavg.Sizing
import TradeDesk.Proofs.Mavg.Rounds
import TradeDesk.Proofs.Mavg.OpenLimit
import TradeDesk.Proofs.Mavg.Counting
import TradeDesk.Proofs.Mavg.LossLimit
import TradeDesk.Proofs.Mavg.WordTimes
import TradeDesk.Proofs.Wire.Lines
import TradeDesk.Proofs.Wire.RoundTrip
import TradeDesk.Proofs.Series.Arena
import TradeDesk.Proofs.Dispatch.Interleaving
import TradeDesk.Proofs.Market.Alignment
import TradeDesk.Proofs.Account.Commuting
import TradeDesk.Proofs.Mavg.LookBack
import TradeDesk.Proofs.Mavg.Mirror
import TradeDesk.Proofs.FirstFault
import TradeDesk.Proofs.Strategy.Registration
import TradeDesk.Proofs.Strategy.Calls
import TradeDesk.Proofs.Strategy.Assembly
import TradeDesk.Proofs.Engine.Assembly
import TradeDesk.Proofs.Console.Lines
import TradeDesk.Proofs.Console.Reader
import TradeDesk.Proofs.Market.NewestQuote
import TradeDesk.Proofs.Account.FloatingProfit
import TradeDesk.Proofs.Market.CrossingRange
