import Cryptixd.Lib.LittleEndian
import Cryptixd.Lib.MapSum
import Cryptixd.Lib.StateTriple
import Cryptixd.Lib.Trace
import Cryptixd.Lib.SmallestK
import Cryptixd.Lib.Hex
import Cryptixd.Atomic.Uint128
import Cryptixd.Atomic.Types
import Cryptixd.Txscript.Script
import Cryptixd.Txscript.ScriptNum
import Cryptixd.Txscript.Standard
import Cryptixd.Txscript.Push
import Cryptixd.Util.Bech32
import Cryptixd.Wallet.CreateUnsigned
import Cryptixd.Mempool.AtomicSlots
import Cryptixd.Atomic.Owner
import Cryptixd.Atomic.OwnerAddress
import Cryptixd.Atomic.Payload
import Cryptixd.Atomic.PayloadSpec
import Cryptixd.Atomic.LiquidityMath
import Cryptixd.Atomic.Apply
import Cryptixd.Atomic.ApplySpec
import Cryptixd.Atomic.Curve
import Cryptixd.Atomic.Growth
import Cryptixd.Atomic.Run
import Cryptixd.Atomic.Nonces
import Cryptixd.Atomic.Anchors
import Cryptixd.Consensus.AnchorRecount
import Cryptixd.Difficulty.Compact
import Cryptixd.Difficulty.Window
import Cryptixd.Utxo.DiffAlgebra
import Cryptixd.Utxo.DiffSpec
import Cryptixd.Utxo.AddTransaction
import Cryptixd.Antifraud.Snapshot
import Cryptixd.Antifraud.Rollback
import Cryptixd.StrongNodeClaims.Engine
import Cryptixd.StrongNodeClaims.Scores
import Cryptixd.StrongNodeClaims.KnownClaims
import Cryptixd.StrongNodeClaims.Pending
import Cryptixd.StrongNodeClaims.ChainPath
import Cryptixd.StrongNodeClaims.Invariant
import Cryptixd.StrongNodeClaims.Convergence
import Cryptixd.StrongNodeClaims.Persist
import Cryptixd.Lib.GreedyOrder
import Cryptixd.Mining.AtomicOrder
import Cryptixd.Mining.AtomicOrderLoop
import Cryptixd.Mining.AtomicOrderSpec
import Cryptixd.Lib.RecentWindow
import Cryptixd.Antifraud.HashWindow
import Cryptixd.Reachability.Interval
import Cryptixd.Lib.SortSearch
import Cryptixd.Mempool.FeeRateOrder
import Cryptixd.Lib.LinkedTree
import Cryptixd.Reachability.Subtrees
import Cryptixd.Antifraud.WindowRun
import Cryptixd.Util.Bech32RoundTrip
import Cryptixd.Util.Address
import Cryptixd.Consensus.CoinbasePayload
import Cryptixd.Txscript.Stack
import Cryptixd.Txscript.Opcode
import Cryptixd.Txscript.Engine
import Cryptixd.Txscript.EngineRun
import Cryptixd.Txscript.PayToScriptHash
import Cryptixd.Lib.SublistMatch
import Cryptixd.Txscript.MultiSig
import Cryptixd.Txscript.Bounds
