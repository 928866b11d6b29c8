import CodeChain.Lib.AListTotal
import CodeChain.Lib.Fault
import CodeChain.Lib.FinsetSort
import CodeChain.Lib.ListRemove
import CodeChain.Lib.Wrapping
import CodeChain.Lib.FloorShares
import CodeChain.Lib.Ranking
import CodeChain.Lib.Bech32
import CodeChain.Lib.Bytes
import CodeChain.Stake.ActionData
import CodeChain.Consensus.Message
import CodeChain.Consensus.ValidatorSet
import CodeChain.Consensus.Seal
import CodeChain.Stake.Handler
import CodeChain.Consensus.VoteCollector
import CodeChain.Consensus.Engine
import CodeChain.Stake.Conservation
import CodeChain.Stake.Stakeholders
import CodeChain.Stake.Actions
import CodeChain.Stake.ChangeParams
import CodeChain.Stake.Slashing
import CodeChain.Miner.BlockBody
import CodeChain.Lib.Snapshots
import CodeChain.Lib.Faulty
import CodeChain.Lib.AListMap
import CodeChain.State.WriteBack
import CodeChain.State.WriteBackRun
import CodeChain.State.Shard
import CodeChain.State.TopLevel
import CodeChain.State.Atomicity
import CodeChain.Network.Stream
import CodeChain.Verification.Queue
import CodeChain.Sync.Message
import CodeChain.Sync.Extension
import CodeChain.VM.Instruction
import CodeChain.VM.Executor
import CodeChain.State.InputScript
import CodeChain.State.RegularKey
import CodeChain.Machine.Timelock
import CodeChain.Consensus.Rewards
import CodeChain.Stake.Election
import CodeChain.Key.PlatformAddress
import CodeChain.Types.CommonParams
import CodeChain.Stake.Codec
import CodeChain.Stake.Invariant
import CodeChain.Miner.MemPoolTypes
import CodeChain.Miner.MemPool
import CodeChain.Miner.Recovery
import CodeChain.Timer.Scheduler
import CodeChain.Blockchain.HeaderChain
import CodeChain.Blockchain.Route
import CodeChain.Lib.Subsequence
import CodeChain.VM.MultiSig
import CodeChain.Types.Order
import CodeChain.Types.Transfer
import CodeChain.Types.PartialHashing
import CodeChain.Stake.Priority
import CodeChain.Sync.HeaderDownloader
import CodeChain.Sync.BodyDownloader
import CodeChain.Merkle.NibbleSlice
import CodeChain.Sync.Transactions
import CodeChain.Lib.Worklist
import CodeChain.Sync.Snapshot
import CodeChain.Network.RoutingTable
import CodeChain.Lib.PathMap
import CodeChain.Merkle.Trie
import CodeChain.Merkle.TrieMap
import CodeChain.Merkle.TrieInsert
import CodeChain.Merkle.TrieRemove
import CodeChain.Merkle.TrieRuns
import CodeChain.Lib.SortedMap
import CodeChain.Merkle.TrieHash
import CodeChain.Merkle.TrieRoot
