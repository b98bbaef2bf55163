import SingBox.AddressLimit
import SingBox.MatchSource
import SingBox.SniffOrder
import SingBox.AdGuardRoundTrip
import SingBox.UploadQueue
import SingBox.DownFramer
import SingBox.XmuxDial
import SingBox.HTTPUpgradeServer
import SingBox.FakeIPCacheFile
import SingBox.DNSClientCache
import SingBox.DNSCacheAgeing
import SingBox.DNSSingleFlight
import SingBox.ConnPoolLeaks
import SingBox.UDPAnswers
import SingBox.RuleInherit
import SingBox.Version
import SingBox.AdGuardSafety
import SingBox.DialHealth
import SingBox.Selector
import SingBox.BinaryStream
import SingBox.BinaryBounds
import SingBox.QUICSafety
import SingBox.DNSProgress
import SingBox.DNSFraming
import SingBox.DNSOverTLS
import SingBox.WaitReadCloser
import SingBox.UploadChunks
import SingBox.TLSFragmentWrite
import SingBox.UTProtoAccept
import SingBox.BalancerSessions
import SingBox.TunnelServer
import SingBox.UserManager
