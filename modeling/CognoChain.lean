import CognoChain.Substrate.Saturating
import CognoChain.Substrate.StorageMap
import CognoChain.Substrate.StorageIteration
import CognoChain.Substrate.Run
import CognoChain.Model.Types
import CognoChain.Model.State
import CognoChain.Model.Capacity
import CognoChain.Model.Roles
import CognoChain.Model.Gate
import CognoChain.Model.Observer
import CognoChain.Model.Microblog
import CognoChain.Model.Polls
import CognoChain.Model.Dispatch
import CognoChain.Model.Frames
import CognoChain.Meter
import CognoChain.Social
import CognoChain.Close.Tally
import CognoChain.Close.Page
import CognoChain.Close.Paged
import CognoChain.Ledger.Step
import CognoChain.Close.Smear
import CognoChain.Ledger.Axes
import CognoChain.Ledger.Moves
import CognoChain.Ledger.Soundness
import CognoChain.Ledger.Convergence
import CognoChain.Ledger.Frontier
import CognoChain.Ledger.Regression
import CognoChain.Ledger.ScanProgress
import CognoChain.Ledger.Coverage
import CognoChain.Ledger.Agreement
import CognoChain.Substrate.Bytes
import CognoChain.Substrate.Scale
import CognoChain.Model.Reduction
import CognoChain.Read.Vault
import CognoChain.Model.Calidus
import CognoChain.Read.Calidus
import CognoChain.Substrate.Selection
import CognoChain.Read.Roles
import CognoChain.Model.Cip8
import CognoChain.Bind.Cose
import CognoChain.Bind.Payment
import CognoChain.Bind.Kinds
import CognoChain.Model.TalkVault
import CognoChain.Vault.Mint
import CognoChain.Vault.Ledger
import CognoChain.Vault.Spend
import CognoChain.Vault.Confinement
import CognoChain.Ledger.Registers
import CognoChain.Ledger.Backing
import CognoChain.Ledger.Sweep
import CognoChain.Substrate.Backfill
import CognoChain.Substrate.Weight
import CognoChain.Model.Backfill
import CognoChain.Ledger.Backfill
import CognoChain.Ledger.FullScan
import CognoChain.Close.Budget
import CognoChain.Refill
import CognoChain.Ledger.Admission
import CognoChain.Governance
import CognoChain.Close.Chambers
import CognoChain.Ledger.Dreps
import CognoChain.Model.Views
import CognoChain.Social.Follows
import CognoChain.Substrate.AppendLog
import CognoChain.Substrate.Climb
import CognoChain.Views.Author
import CognoChain.Views.Likes
import CognoChain.Views.Thread
import CognoChain.Close.InFlight
import CognoChain.Ledger.Bans
import CognoChain.Ledger.StallAlarm
import CognoChain.Ledger.UpgradeBlock
import CognoChain.Model.Consistency
import CognoChain.Model.ValidatorSet
import CognoChain.Social.Consistency
import CognoChain.Validators
import CognoChain.Bind.Owner
import CognoChain.Ledger.Freeze
import CognoChain.Model.Migrations
import CognoChain.Model.People
import CognoChain.Read.CalidusWork
import CognoChain.Social.Migrations
import CognoChain.Substrate.KeyPages
import CognoChain.Views.People
import CognoChain.Close.View
import CognoChain.FreeCalls
import CognoChain.Ledger.Pools
import CognoChain.Client.Authors
import CognoChain.Client.Draft
import CognoChain.Client.Feeds
import CognoChain.Client.Health
import CognoChain.Client.Lock
import CognoChain.Client.Members
import CognoChain.Client.Mentions
import CognoChain.Client.Nonces
