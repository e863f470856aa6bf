import SlmodemSipBridge.Media.Accuracy
import SlmodemSipBridge.Media.Interleaving
import SlmodemSipBridge.Bridge.Streams
import SlmodemSipBridge.Bridge.UserAgent
import SlmodemSipBridge.Bridge.Budget
import SlmodemSipBridge.Bridge.Isolation
import SlmodemSipBridge.Support.Encode
import SlmodemSipBridge.Support.NetDisplay
import SlmodemSipBridge.Media.AudioPath
import SlmodemSipBridge.Media.SampleClock
import SlmodemSipBridge.Media.Hangup
import SlmodemSipBridge.Media.Payload
import SlmodemSipBridge.Sip.Readable
import SlmodemSipBridge.Sip.Credentials
import SlmodemSipBridge.Sip.Challenge
import SlmodemSipBridge.Sip.Sections
import SlmodemSipBridge.Sip.Retransmission
import SlmodemSipBridge.Sip.Backoff
import SlmodemSipBridge.Sip.Provisional
import SlmodemSipBridge.Sip.Identity
import SlmodemSipBridge.Bridge.Identity
import SlmodemSipBridge.Sip.Stale
import SlmodemSipBridge.Sip.Termination
import SlmodemSipBridge.Sip.Registration
import SlmodemSipBridge.Bridge.Matching
import SlmodemSipBridge.Bridge.Tags
import SlmodemSipBridge.Bridge.Acks
import SlmodemSipBridge.Bridge.Failures
import SlmodemSipBridge.Bridge.Endpoint
import SlmodemSipBridge.Bridge.Alignment
import SlmodemSipBridge.Bridge.Consistency
import SlmodemSipBridge.Bridge.StalePolls
import SlmodemSipBridge.Bridge.Rejection
import SlmodemSipBridge.Bridge.Abandonment
import SlmodemSipBridge.Bridge.DialSplits
import SlmodemSipBridge.Bridge.DialGrammar
import SlmodemSipBridge.Sip.RoundTrip
import SlmodemSipBridge.Sip.Addressing
import SlmodemSipBridge.Bridge.Authorization
import SlmodemSipBridge.Bridge.Connects
import SlmodemSipBridge.Bridge.Endings
