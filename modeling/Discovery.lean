import Discovery.AvailabilityViews
import Discovery.Cadence
import Discovery.ClientServer
import Discovery.Descriptors
import Discovery.Identities
import Discovery.Interrupts
import Discovery.LastSeen
import Discovery.Partition
import Discovery.Probing
import Discovery.RawReads
import Discovery.Reentrancy
import Discovery.Reordering
import Discovery.Replies
import Discovery.Restart
import Discovery.ServiceNetwork
import Discovery.SizeLimit
import Discovery.TransportAgreement
import Discovery.Truncation
import Discovery.Waiting
import Discovery.WindowsSocket
