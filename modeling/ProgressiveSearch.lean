import ProgressiveSearch.Main
import ProgressiveSearch.Program.Scenario
import ProgressiveSearch.Rehearsal.ConnectionStand
import ProgressiveSearch.Rehearsal.ExchangeStand
import ProgressiveSearch.Rehearsal.ServiceStand
import ProgressiveSearch.Rehearsal.SessionStand
import ProgressiveSearch.Proofs.Call.Ending
import ProgressiveSearch.Proofs.Conversation.Agreement
import ProgressiveSearch.Proofs.Conversation.Ending
import ProgressiveSearch.Proofs.Client.Draw
import ProgressiveSearch.Proofs.Ranking.Indifference
import ProgressiveSearch.Proofs.Session.Abort
import ProgressiveSearch.Proofs.Session.Deaf
import ProgressiveSearch.Proofs.Session.Deferred
import ProgressiveSearch.Proofs.Session.Ending
import ProgressiveSearch.Proofs.Session.Strict
import ProgressiveSearch.Proofs.Exchange.Patience
import ProgressiveSearch.Proofs.Exchange.Reporting
import ProgressiveSearch.Proofs.Server.Opening
import ProgressiveSearch.Proofs.Exchange.Requests
import ProgressiveSearch.Proofs.Service.Ending
import ProgressiveSearch.Proofs.Session.Shutdown
