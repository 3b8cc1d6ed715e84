import LnNode.Storage
import LnNode.ChainConsumers
import LnNode.Node.WalletFollow
import LnNode.Node.MonitorSync
import LnNode.EventHandler
import LnNode.EventHandler.PaymentAck
import LnNode.EventHandler.Obligations
import LnNode.Node.Funding
import LnNode.Lib.Attempts
import LnNode.Node.Build
import LnNode.Node.Payments
import LnNode.Node.PaymentAgreement
import LnNode.Node.PaymentInFlight
import LnNode.Node.SuccessFinal
import LnNode.Lib.ReadModifyWrite
import LnNode.EventHandler.UpdateSerial
import LnNode.Node.InboundKept
import LnNode.Node.PayAllOrNothing
import LnNode.Node.InboundClaimed
import LnNode.Storage.Listing
import LnNode.Storage.Peers
import LnNode.Storage.Refinement
import LnNode.Node.AnchorReserve
import LnNode.Node.PeerRestart
import LnNode.Node.WalletRestart
import LnNode.Lib.Json.CutOff
import LnNode.Server.Exchange
import LnNode.EventHandler.LastEventWins
import LnNode.Lib.KeyedEvents
import LnNode.Node.SentAmount
import LnNode.Node.PollErrors
import LnNode.Server.Clients
import LnNode.Node.HiddenRecords
import LnNode.EventHandler.ChannelPolicy
import LnNode.Node.ConfirmedUtxos
import LnNode.Lib.Refresh
import LnNode.BitcoindClient.FeeEstimates
import LnNode.Server.Receive
import LnNode.OnchainWallet.FirstStart
import LnNode.Lib.Wire.Torn
import LnNode.Storage.Torn
import LnNode.Server.Identifiers
import LnNode.Node.Shutdown
import LnNode.Node.Records
import LnNode.Server.Session
import LnNode.Lib.LockFile
import LnNode.Lib.Simulation
import LnNode.Lnnode
import LnNode.Node.Connect
import LnNode.BitcoindClient.FeeTask
import LnNode.Node.Addresses
import LnNode.Node.Channels
import LnNode.BitcoindClient.Broadcast
import LnNode.Node.WalletLock
import LnNode.BitcoindClient.BestBlock
import LnNode.Config
