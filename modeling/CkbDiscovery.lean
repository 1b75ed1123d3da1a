import CkbDiscovery.Deployment.Crawl
import CkbDiscovery.Deployment.Subscriptions
import CkbDiscovery.Dialer.Frames
import CkbDiscovery.Dialer.RoundTrip
import CkbDiscovery.Dialer.Session
import CkbDiscovery.Exposed.Freshness
import CkbDiscovery.Exposed.Locking
import CkbDiscovery.Exposed.Panics
import CkbDiscovery.Exposed.Register
import CkbDiscovery.Marci.Demotion
import CkbDiscovery.Marci.Duplicates
import CkbDiscovery.Marci.Intake
import CkbDiscovery.Marci.Interference
import CkbDiscovery.Marci.Restart
import CkbDiscovery.Marci.Topics
import CkbDiscovery.Marci.Witnesses
import CkbDiscovery.Addresses
import CkbDiscovery.Json
import CkbDiscovery.Marci.Lookups
import CkbDiscovery.Wire
