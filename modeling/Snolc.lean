import Snolc.Policy.ExactlyOnce
import Snolc.Policy.Provenance
import Snolc.Policy.SessionLimit
import Snolc.Policy.Activation
import Snolc.Policy.Barring
import Snolc.Policy.Conformance
import Snolc.Policy.Ledger
import Snolc.Policy.Caps
import Snolc.Policy.Shares
import Snolc.Policy.Credentials
import Snolc.Policy.Revocation
import Snolc.Policy.Cache
import Snolc.Policy.Delivery
import Snolc.Policy.Hello
import Snolc.Policy.HostHeader
import Snolc.Policy.ClientHello
import Snolc.Policy.FlowLimit
import Snolc.Policy.Frames
import Snolc.Policy.Spellings
import Snolc.Policy.Stored
import Snolc.Policy.Validity
import Snolc.Socks5.Limit
import Snolc.Socks5.Framing
import Snolc.Direct.Exclusive
import Snolc.Direct.Reported
import Snolc.Tcp.Connect
import Snolc.Ssh.Limit
import Snolc.Ssh.Delivered
import Snolc.Noise.Truncation
import Snolc.Noise.Driving
import Snolc.Policy.Channel
import Snolc.Dummy.Polling
import Snolc.Tun.Relay
import Snolc.Policy.Backup
import Snolc.Noise.KeyText
import Snolc.Policy.SniffLoop
import Snolc.Policy.Scan
