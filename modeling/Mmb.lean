import Mmb.Statistic.Service
import Mmb.Statistic.PartiallyFilled
import Mmb.Statistic.EventHandler
import Mmb.Statistic.Interleaving
import Mmb.Statistic.Feed
import Mmb.Cancel.Order
import Mmb.Cancel.Work
import Mmb.Cancel.Gate
import Mmb.Cancel.Invariant
import Mmb.Cancel.SingleFlight
import Mmb.Cancel.Deadlock
import Mmb.Cancel.Outcome
import Mmb.Cancel.FallbackOnly
import Mmb.Cancel.Conversation
