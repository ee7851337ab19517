import BoatFramework.Rlp.SizeAgreement
import BoatFramework.Rlp.Edits
import BoatFramework.Tx.Canonical
import BoatFramework.Tx.Receipt
import BoatFramework.Tx.GroupId
import BoatFramework.Tx.Quorum
import BoatFramework.Tx.CallContract
import BoatFramework.Tx.Amounts
import BoatFramework.Keypair.Atomic
import BoatFramework.Keypair.Consistent
import BoatFramework.Keypair.Readers
import BoatFramework.Keypair.Capacity
import BoatFramework.Keypair.Forgotten
import BoatFramework.Keypair.NvramCipher
import BoatFramework.Keypair.StoredKey
import BoatFramework.Storage.Laws
import BoatFramework.Network.Consistent
import BoatFramework.Network.EthRoundTrip
import BoatFramework.Network.ListReads
import BoatFramework.Web3.ResultGrowth
import BoatFramework.Platon.RoundTrip
import BoatFramework.Platon.Language
import BoatFramework.Cita.Signature
import BoatFramework.Cita.Nonce
import BoatFramework.Http2.SendBuf
import BoatFramework.Chainmaker.Params
import BoatFramework.Hwbcs.Framing
import BoatFramework.Tx.BlockLimit
import BoatFramework.Utility.LengthPrefix
import BoatFramework.Utility.SignatureAsn1
import BoatFramework.Utility.Tlv
import BoatFramework.Platon.Detection
import BoatFramework.Tx.PlatonInit
import BoatFramework.Utility.HexCodec
import BoatFramework.Keypair.Injection
import BoatFramework.Keypair.RecordCodec
import BoatFramework.Platone.NodeInfo
import BoatFramework.Platone.Discovery
import BoatFramework.Utility.ChangeEndian
import BoatFramework.Utility.Itoa
import BoatFramework.Http2.SendBody
import BoatFramework.Web3.Request
import BoatFramework.Utility.Native2Pkcs
import BoatFramework.Hlfabric.Evaluate
import BoatFramework.Hlfabric.History
import BoatFramework.Hlfabric.Passes
import BoatFramework.Network.PackedRuns
import BoatFramework.Tx.SyncSend
import BoatFramework.Base.SolidityAbi
import BoatFramework.Tools.Generated
import BoatFramework.Tools.PlatoneWasm
import BoatFramework.Tools.Eth2cAgain
