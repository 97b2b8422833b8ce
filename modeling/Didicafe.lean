import Didicafe.Session.Cleanup
import Didicafe.Session.Restart
import Didicafe.Session.Access
import Didicafe.Session.Renewal
import Didicafe.Session.Migration
import Didicafe.Session.Failures
import Didicafe.Store.Devices
import Didicafe.Store.Views
import Didicafe.Store.Statistics
import Didicafe.Portal.Visits
import Didicafe.Portal.Settling
import Didicafe.Portal.CsrfTokens
import Didicafe.Portal.SingleUse
import Didicafe.Portal.Revocation
import Didicafe.Daemon.Lifecycle
import Didicafe.Daemon.Sales
import Didicafe.Daemon.Revenue
import Didicafe.Daemon.Purchases
import Didicafe.Daemon.Timing
import Didicafe.Firewall.Commands
import Didicafe.Limiter.Memory
import Didicafe.Limiter.Reference
import Didicafe.Limiter.Concurrent
import Didicafe.Token.Redeemable
import Didicafe.Token.Format
import Didicafe.Token.Batches
import Didicafe.Web.Allowlist
import Didicafe.Web.Cidr
import Didicafe.Web.MessageArgs
import Didicafe.Admin.FormToken
import Didicafe.Admin.PlanEdits
import Didicafe.Admin.AuditTrail
import Didicafe.Admin.Settings
import Didicafe.Admin.Pages
import Didicafe.Gateway.Lifetimes
import Didicafe.Front.Authority
import Didicafe.Front.Guesses
import Didicafe.Front.Silence
import Didicafe.Daemon.Frames
import Didicafe.Admin.Branding
import Didicafe.Daemon.Hospitality
import Didicafe.Daemon.Countdown
import Didicafe.Front.Hospitality
