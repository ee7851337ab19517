/-
The networks of Ethereum and of the protocols that have its network data:
PlatON, PlatONE, FISCO BCOS, Quorum and Venachain.  The data of a network is
stored as four values behind their lengths.
-/
import BoatFramework.Network.Protocol

namespace BoatFramework

open Fuse

structure BoatEthNetworkConfig where
  chainId : UInt32
  eip155Compatibility : Bool
  nodeUrlStr : Bytes 127

structure BoatEthNetworkData where
  networkIndex : UInt8
  chainId : UInt32
  eip155Compatibility : Bool
  nodeUrlStr : Bytes 127
deriving DecidableEq

/-- The network data that `BoATEthNetworkCreate` fills in. -/
def boatEthNetworkData (networkConfig : BoatEthNetworkConfig)
    (networkIndex : UInt8) : Outcome BoatEthNetworkData := do
  let nodeUrl ← cString networkConfig.nodeUrlStr.1
  let nodeUrlStr ← charField 127 nodeUrl
  pure ⟨networkIndex, networkConfig.chainId, networkConfig.eip155Compatibility,
    nodeUrlStr⟩

/-- The size of the block for a network with a URL. -/
def boatEthGetNetworkDataLen (nodeUrl : CString) : Nat :=
  let param (length : Nat) := length + utilityGetTLVLLFromLen length
  let networkLength := param 1 + param 4 + param 1 +
    param (nodeUrl.bytes.length + 1)
  param networkLength

/-- The stored form of a network; more than its block holds is undefined. -/
def boatEthGetNetworkData (networkData : BoatEthNetworkData) :
    Outcome (List UInt8) := do
  let nodeUrl ← cString networkData.nodeUrlStr.1
  let data := addLWithOffset
    (addLWithOffset [networkData.networkIndex] ++
      (addLWithOffset (enumBytes networkData.chainId) ++
        (addLWithOffset [if networkData.eip155Compatibility then 1 else 0] ++
          addLWithOffset (nodeUrl.bytes ++ [0]))))
  if boatEthGetNetworkDataLen nodeUrl < data.length then .error .undefined
  else pure data

/-- Network data that is being read: where its values begin and how long they
are together. -/
structure NetworkFrame where
  start : Nat
  length : Nat

/-- Read a value, of the given length if there is one, into a field of `size`
bytes; then the offset behind it. -/
def readParam (frame : NetworkFrame) (storeType : BoatStoreType)
    (given : Option Nat) (size offset : Nat) : Nvram (List UInt8 × Nat) := do
  let paramDataLength ← readLength .network offset storeType
  failIf (∃ n ∈ given, paramDataLength ≠ n) (.code boatError)
  let offset := advance offset (utilityGetTLVLLFromLen paramDataLength)
  failIf (frame.length < advance (distance offset frame.start) paramDataLength)
    (.code boatError)
  let value ← boatReadSoftRotNvram .network offset paramDataLength storeType
  failIf (size < value.length) .undefined
  pure (value, advance offset paramDataLength)

/-- Read network data into zeros. -/
def boatEthGetNetworkFromNvram (startAddr : Nat) (storeType : BoatStoreType) :
    Nvram BoatEthNetworkData := do
  let networkDataLength ← readLength .network startAddr storeType
  let start := advance startAddr (utilityGetTLVLLFromLen networkDataLength)
  let frame : NetworkFrame := ⟨start, networkDataLength⟩
  let (networkIndex, offset) ← readParam frame storeType (some 1) 1 start
  let (chainId, offset) ← readParam frame storeType none 4 offset
  let (eip155Compatibility, offset) ← readParam frame storeType none 1 offset
  let (nodeUrl, _) ← readParam frame storeType none 127 offset
  pure ⟨networkIndex.getD 0 0, enumOfBytes chainId,
    decide (eip155Compatibility.getD 0 0 ≠ 0),
    ⟨(nodeUrl ++ List.replicate 127 0).take 127, by simp⟩⟩

/-- The network code that the six protocols share. -/
def ethNetworkKind (protocol : BoatProtocolType) : NetworkKind where
  protocol := protocol
  Config := BoatEthNetworkConfig
  Data := BoatEthNetworkData
  checkConfig _ := .ok ()
  networkData := boatEthNetworkData
  networkIndex := BoatEthNetworkData.networkIndex
  getNetworkData := boatEthGetNetworkData
  mallocError := boatError
  getNetworkFromNvram := boatEthGetNetworkFromNvram

def boatEthNetwork : NetworkKind := ethNetworkKind .ethereum
def boatPlatonNetwork : NetworkKind := ethNetworkKind .platon
def boatPlatoneNetwork : NetworkKind := ethNetworkKind .platone
def boatFiscobcosNetwork : NetworkKind := ethNetworkKind .fiscobcos
def boatQuorumNetwork : NetworkKind := ethNetworkKind .quorum
def boatVenachainNetwork : NetworkKind := ethNetworkKind .venachain

def boatEthNetworkDelete (index : UInt8) : Nvram Unit :=
  networkDelete boatEthNetwork.protocol index

def boatEthGetNetworkByIndex (index : UInt8) : Nvram BoatEthNetworkData :=
  getNetworkByIndex boatEthNetwork index

end BoatFramework
