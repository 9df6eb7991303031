import Rspf.Lib.Loop
import Rspf.Lib.Machine
import Rspf.Lib.Framing
import Rspf.Lib.Replace
import Rspf.Srs
import Rspf.Config.Load
import Rspf.Whitelist
import Rspf.Proto.Codec
import Rspf.Engine
import Rspf.MailLog
import Rspf.Server.Wire
import Rspf.Server.Connection
import Rspf.Server.Shutdown
import Rspf.Server.Reload
import Rspf.Whitelist.Entries
import Rspf.Whitelist.Matching
import Rspf.Server.EmptyAttributes
import Rspf.Server.Listeners
import Rspf.Srs.RoundTrip
import Rspf.Server.Sighup
import Rspf.Lib.Template
import Rspf.Engine.Messages
import Rspf.Lib.KeyValue
import Rspf.Spf.HeaderReading
import Rspf.Lib.Reads
import Rspf.Server.Service
import Rspf.Server.Answers
import Rspf.MailLog.Reading
import Rspf.Server.Client
import Rspf.Net.RoundTrip
import Rspf.Engine.Strictness
import Rspf.Server.Strictness
import Rspf.Srs.Window
import Rspf.Server.Influence
import Rspf.Config.Faults
import Rspf.Server.Main
import Rspf.Config.ListenAddr
import Rspf.Server.Stopping
import Rspf.Server.Overrides
import Rspf.Server.Isolation
import Rspf.Server.Serving
import Rspf.Server.EndToEnd
