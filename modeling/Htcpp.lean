import Htcpp.StringView
import Htcpp.Connection
import Htcpp.Http.Url
import Htcpp.Http.Message
import Htcpp.Http.Parse
import Htcpp.Http.Wire
import Htcpp.Http.DotSegments
import Htcpp.Http.Rfc3986
import Htcpp.Http.UrlForms
import Htcpp.Server.Session
import Htcpp.Server.Protocol
import Htcpp.Server.Invariant
import Htcpp.Client.Session
import Htcpp.Client.Invariant
import Htcpp.SendLoop
import Htcpp.Server.Exchange
import Htcpp.Client.Exchange
import Htcpp.Client.Callback
import Htcpp.Server.Listener
import Htcpp.Loopback
