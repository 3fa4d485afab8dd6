import Knoiz.Library.Calendar
import Knoiz.Library.StepRun
import Knoiz.Library.ProgramLogic
import Knoiz.Library.RowTable
import Knoiz.Library.PartialUpdate
import Knoiz.Library.LazyLease
import Knoiz.Library.EventLog
import Knoiz.Library.Interleaving
import Knoiz.Library.PercentEncoding
import Knoiz.Library.Retry
import Knoiz.Library.Tally
import Knoiz.Schema
import Knoiz.Request
import Knoiz.ApplicationController
import Knoiz.HomeController
import Knoiz.StatsController
import Knoiz.PaymentsController
import Knoiz.SessionsController
import Knoiz.Application
import Knoiz.Workers
import Knoiz.Effects
import Knoiz.RequestEffects
import Knoiz.PassWindow
import Knoiz.Purchases
import Knoiz.SessionCoherence
import Knoiz.ConcurrentPurchase
import Knoiz.ConcurrentPlaylist
import Knoiz.ConcurrentLogin
import Knoiz.UniqueUser
import Knoiz.CompleteAccount
import Knoiz.PlaylistPipeline
import Knoiz.StatsWorker
import Knoiz.StatsPage
import Knoiz.Countdown
import Knoiz.PassLength
import Knoiz.Library.Cooldown
import Knoiz.WalletEffects
import Knoiz.PlaylistCharge
import Knoiz.TokenRefresh
import Knoiz.FreshSession
import Knoiz.Library.Migration
import Knoiz.Migrations
import Knoiz.Library.Lookbehind
import Knoiz.PlaylistTitle
import Knoiz.TrackUris
import Knoiz.Tolerance
import Knoiz.StatsSpacing
import Knoiz.StaleSession
import Knoiz.Confinement
import Knoiz.NonInterference
import Knoiz.Authentication
import Knoiz.Permits
import Knoiz.JobProvenance
import Knoiz.StripeCustomer
import Knoiz.StatsViews
import Knoiz.TopsController
import Knoiz.ConcurrentStats
import Knoiz.Messages
import Knoiz.FreePlaylist
import Knoiz.Paywall
import Knoiz.SerialPlaylist
import Knoiz.PlaylistAdmission
import Knoiz.InfoPage
import Knoiz.PlaylistDelivery
