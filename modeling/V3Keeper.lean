import V3Keeper.Library.StepRun
import V3Keeper.Library.Growth
import V3Keeper.Library.Python
import V3Keeper.Transaction.Fees
import V3Keeper.Transaction.Manager
import V3Keeper.Transaction.Laws
import V3Keeper.Transaction.Recovery
import V3Keeper.Library.Batched
import V3Keeper.Library.EventLog
import V3Keeper.Contracts.Events
import V3Keeper.ProtocolConfig.Service
import V3Keeper.Library.PyDict
import V3Keeper.Library.PyOrder
import V3Keeper.Library.Counter
import V3Keeper.Common.Address
import V3Keeper.Rewards.Cache
import V3Keeper.Rewards.Service
import V3Keeper.Rewards.Laws
import V3Keeper.Rewards.Nonces
import V3Keeper.Transaction.Confirmation
import V3Keeper.Rewards.Retry
import V3Keeper.Library.Newest
import V3Keeper.Rewards.CacheLaws
import V3Keeper.Rewards.Winner
import V3Keeper.Rewards.Signers
import V3Keeper.Rewards.Quorum
import V3Keeper.Library.Json
import V3Keeper.Rewards.Endpoint
import V3Keeper.Distributor.Service
import V3Keeper.Distributor.Endpoint
import V3Keeper.Rewards.Malformed
import V3Keeper.Distributor.Malformed
import V3Keeper.Distributor.Laws
import V3Keeper.Exits.Crypto
import V3Keeper.Exits.Service
import V3Keeper.Exits.Laws
import V3Keeper.Exits.Quorums
import V3Keeper.Exits.Isolation
import V3Keeper.Exits.Grouping
import V3Keeper.Transaction.Steps
import V3Keeper.Library.Traced
import V3Keeper.Common.AppState
import V3Keeper.Common.Graph
import V3Keeper.ForceExit.Execution
import V3Keeper.ForceExit.Service
import V3Keeper.ForceExit.Positions
import V3Keeper.ForceExit.Items
import V3Keeper.ForceExit.Isolation
import V3Keeper.ForceExit.Throttle
import V3Keeper.ForceExit.Recheck
import V3Keeper.Transaction.Broadcasts
import V3Keeper.Price.Service
import V3Keeper.Price.Spacing
import V3Keeper.Library.Lts
import V3Keeper.Transaction.Interleaving
import V3Keeper.Transaction.Exclusion
import V3Keeper.Transaction.Atomicity
import V3Keeper.ProtocolConfig.Sources
import V3Keeper.Ltv.Service
import V3Keeper.Ltv.Isolation
import V3Keeper.Library.Digits
import V3Keeper.Distributor.Quorum
import V3Keeper.Library.Interpolation
import V3Keeper.Exits.Reconstruction
import V3Keeper.Contracts.Chunks
import V3Keeper.Library.StableSort
import V3Keeper.Distributor.SignerOrder
import V3Keeper.Library.FirstSeen
import V3Keeper.Rewards.ClosedForm
import V3Keeper.Transaction.Replacement
import V3Keeper.Distributor.Redundancy
import V3Keeper.ForceExit.Selection
import V3Keeper.Library.Quorum
import V3Keeper.Library.Component
import V3Keeper.Library.Pacing
import V3Keeper.Library.Gates
import V3Keeper.Transaction.Progress
import V3Keeper.Transaction.Serial
import V3Keeper.Transaction.Account
import V3Keeper.Distributor.Agreement
import V3Keeper.Rewards.Agreement
import V3Keeper.Rewards.VoteLog
import V3Keeper.Exits.Signing
import V3Keeper.ForceExit.ExitRequests
import V3Keeper.Main.Loop
import V3Keeper.Main.Services
import V3Keeper.Main.Rounds
import V3Keeper.Main.Intervals
import V3Keeper.Main.Authority
import V3Keeper.Main.Startup
