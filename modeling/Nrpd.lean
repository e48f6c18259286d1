import Nrpd.Cache.Cleaners
import Nrpd.Client.BackOff
import Nrpd.Client.FollowedRecords
import Nrpd.Client.Iterators
import Nrpd.Client.Rejections
import Nrpd.Client.Scrambling
import Nrpd.Client.TruncatedResponses
import Nrpd.Config.ActiveCounts
import Nrpd.Config.ConfiguredServers
import Nrpd.Config.RecordIdentity
import Nrpd.Exchange
import Nrpd.Network
import Nrpd.Node.Bans
import Nrpd.Node.Chances
import Nrpd.Node.Contacts
import Nrpd.Node.Listings
import Nrpd.Protocol.BoundedValidation
import Nrpd.Server.PacketSizes
import Nrpd.Server.RejectionRoom
import Nrpd.Server.RequestTiling
import Nrpd.Server.SharedConfig
