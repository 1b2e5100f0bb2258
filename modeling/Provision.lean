import Provision.Config.Schema
import Provision.Portal
import Provision.Proofs.Http.BlankLine
import Provision.Proofs.Http.LengthOpening
import Provision.Proofs.Http.RequestLine
import Provision.Server.Service
import Provision.Proofs.Http.LengthField
import Provision.Proofs.Http.Header
import Provision.Proofs.Http.Form
import Provision.Proofs.Http.Stream
import Provision.Proofs.Page.Visit
import Provision.Proofs.Portal.Handlers
import Provision.Proofs.Portal.Pages
import Provision.Proofs.Portal.Dispatch
import Provision.Proofs.Portal.Credentials
import Provision.Proofs.Portal.Responses
import Provision.Proofs.Page.Incoming
import Provision.Proofs.Portal.Fragments
import Provision.Proofs.Page.Registry
import Provision.Proofs.Http.PlainRequest
import Provision.Proofs.Page.Dispatch
import Provision.Proofs.Page.OwnPath
import Provision.Proofs.Page.Sent
import Provision.Proofs.Device
import Provision.Proofs.Page.Calls
import Provision.Proofs.Portal.Traffic
import Provision.Proofs.Connection
import Provision.Proofs.Text.Numeral
import Provision.Proofs.Page.Framing
import Provision.Proofs.Portal.Writes
import Provision.Proofs.Portal.Pairs
import Provision.Proofs.Http.FormText
import Provision.Proofs.Portal.PostedForm
import Provision.Proofs.Portal.RoundTrip
import Provision.Proofs.Page.Registration
import Provision.Proofs.Device.History
import Provision.Proofs.Server.Start
import Provision.Proofs.Server.Pool
import Provision.Proofs.Server.Contention
import Provision.Proofs.Device.RebootSignal
import Provision.Proofs.Http.DecidingByte
import Provision.Proofs.Http.FormArrival
import Provision.Proofs.Http.Violation
import Provision.Proofs.Wire.Sending
import Provision.Proofs.Page.Lookup
import Provision.Proofs.Text.Html
import Provision.Proofs.Portal.Markup
import Provision.Proofs.Page.Menu
import Provision.Proofs.Http.FormSequence
import Provision.Proofs.Portal.Saving
import Provision.Proofs.Http.FormLines
import Provision.Proofs.Http.FormBuffers
import Provision.Proofs.Http.HeaderBounds
import Provision.Proofs.Server.Listening
import Provision.Proofs.Server.Refusal
