/-
Networks whose data is stored as one packed protobuf message behind its length,
and the two with a flat message: CITA and ChainMaker.  The generated functions
that unpack a message are parameters.
-/
import BoatFramework.Base.Protobuf
import BoatFramework.Network.Protocol

namespace BoatFramework

open Fuse

/-- The stored form of a packed message; where its block is too small, that is
undefined. -/
def packedNetworkData (packed : List UInt8) : Outcome (List UInt8) :=
  let networkLength := buint32 packed.length
  let networkLengthLen := utilityGetTLVLLFromLen networkLength
  if networkLength = 0 then boatThrow boatError
  else if buint32 (networkLength + networkLengthLen) <
      packed.length + networkLengthLen then .error .undefined
  else .ok (addLWithOffset packed)

/-- Read a packed message and make network data of it. -/
def packedNetworkFromNvram {Message Data : Type}
    (unpack : List UInt8 → Option Message)
    (getNetworkFromProto : Message → Outcome Data) (startAddr : Nat)
    (storeType : BoatStoreType) : Nvram Data := do
  let networkDataLength ← readLength .network startAddr storeType
  boatMalloc boatErrorCommonOutOfMemory
  let networkcontent ← boatReadSoftRotNvram .network
    (advance startAddr (utilityGetTLVLLFromLen networkDataLength))
    networkDataLength storeType
  match unpack networkcontent with
  | none => throw (.code boatError)
  | some message => withCode boatError (ofOutcome (getNetworkFromProto message))

/-- A certificate and its length. -/
structure BoatCertInfoCfg where
  length : UInt32
  content : Bytes 1024
deriving DecidableEq

structure BoatKeypairExtraData where
  valueLen : UInt32
  value : Bytes 512
deriving DecidableEq

/-- Copy a text that was unpacked into a certificate of zeros. -/
def certFromProto (refused : BoatResult) (text : CString) :
    Outcome BoatCertInfoCfg := do
  if 1024 < text.bytes.length then boatThrow refused
  else
    let content ← charField 1024 text
    pure ⟨UInt32.ofNat text.bytes.length, content⟩

/-- One less than the length of a text, as an unsigned 64-bit number. -/
def lengthLessOne (text : CString) : Nat :=
  (text.bytes.length + (2 ^ 64 - 1)) % 2 ^ 64

/-- Copy a text that was unpacked into a certificate for TLS, whose length is
checked less one. -/
def tlsCertFromProto (text : CString) : Outcome BoatCertInfoCfg := do
  if 1024 < lengthLessOne text then boatThrow boatErrorCommonOutOfMemory
  else
    let content ← charField 1024 text
    pure ⟨UInt32.ofNat text.bytes.length, content⟩

def tlsPrikeyFromProto (text : CString) : Outcome BoatKeypairExtraData := do
  if 512 < lengthLessOne text then boatThrow boatErrorCommonOutOfMemory
  else
    let value ← charField 512 text
    pure ⟨UInt32.ofNat text.bytes.length, value⟩

section Cita

structure BoatCitaNetworkConfig where
  version : UInt32
  chainIdBuf : Bytes 32
  nodeUrlBuf : Bytes 127

structure BoatCitaNetworkData where
  networkIndex : UInt8
  version : UInt32
  chainIdBuf : Bytes 32
  nodeUrlBuf : Bytes 127
deriving DecidableEq

/-- The message `citaNetworkData`. -/
structure CitaNetworkData where
  index : UInt32
  version : UInt32
  nodeUrlStr : CString
  chainIdStr : List UInt8
deriving DecidableEq

def CitaNetworkData.pack (message : CitaNetworkData) : List UInt8 :=
  Protobuf.uintField 1 message.index.toNat ++
    (Protobuf.uintField 2 message.version.toNat ++
      (Protobuf.stringField 3 message.nodeUrlStr.bytes ++
        Protobuf.lengthField 4 message.chainIdStr))

def boatCitaNetworkData (networkConfig : BoatCitaNetworkConfig)
    (networkIndex : UInt8) : Outcome BoatCitaNetworkData := do
  let nodeUrl ← cString networkConfig.nodeUrlBuf.1
  let nodeUrlBuf ← charField 127 nodeUrl
  pure ⟨networkIndex, networkConfig.version, networkConfig.chainIdBuf,
    nodeUrlBuf⟩

def boatCitaGetNetworkData (networkData : BoatCitaNetworkData) :
    Outcome (List UInt8) := do
  let nodeUrl ← cString networkData.nodeUrlBuf.1
  let message : CitaNetworkData := ⟨networkData.networkIndex.toUInt32,
    networkData.version, nodeUrl, networkData.chainIdBuf.1⟩
  packedNetworkData message.pack

def boatCitaGetNetworkFromProto (message : CitaNetworkData) :
    Outcome BoatCitaNetworkData := do
  if 127 < message.nodeUrlStr.bytes.length then
    boatThrow boatErrorCommonOutOfMemory
  else if 32 < message.chainIdStr.length then
    boatThrow boatErrorCommonOutOfMemory
  else
    let nodeUrlBuf ← charField 127 message.nodeUrlStr
    pure ⟨message.index.toUInt8, message.version,
      ⟨(message.chainIdStr ++ List.replicate 32 0).take 32, by simp⟩,
      nodeUrlBuf⟩

def boatCitaNetwork (unpack : List UInt8 → Option CitaNetworkData) :
    NetworkKind where
  protocol := .cita
  Config := BoatCitaNetworkConfig
  Data := BoatCitaNetworkData
  checkConfig _ := .ok ()
  networkData := boatCitaNetworkData
  networkIndex := BoatCitaNetworkData.networkIndex
  getNetworkData := boatCitaGetNetworkData
  mallocError := boatErrorCommonOutOfMemory
  getNetworkFromNvram :=
    packedNetworkFromNvram unpack boatCitaGetNetworkFromProto

end Cita

section Chainmaker

/-- Network data, and the configuration, whose index is not looked at. -/
structure BoatChainmakerNetworkData where
  networkIndex : UInt8
  clientMemberType : UInt32
  clientSignCertContent : BoatCertInfoCfg
  nodeUrl : CString
  hostName : CString
  chainId : CString
  orgId : CString
  caTlsCertContent : BoatCertInfoCfg
  clientTlsCertContent : BoatCertInfoCfg
  clientTlsPrivkeyData : BoatKeypairExtraData
deriving DecidableEq

/-- The message `chainmakerNetworkData`. -/
structure ChainmakerNetworkData where
  index : UInt32
  clientMemberType : UInt32
  clientSignCertContent : CString
  nodeUrl : CString
  hostName : CString
  chainId : CString
  orgId : CString
  caTlsCertContent : CString
  clientTlsCertContent : CString
  clientTlsPrivkeyData : CString
deriving DecidableEq

def ChainmakerNetworkData.pack (message : ChainmakerNetworkData) :
    List UInt8 :=
  Protobuf.uintField 1 message.index.toNat ++
    (Protobuf.uintField 2 message.clientMemberType.toNat ++
      (Protobuf.stringField 3 message.clientSignCertContent.bytes ++
        (Protobuf.stringField 4 message.nodeUrl.bytes ++
          (Protobuf.stringField 5 message.hostName.bytes ++
            (Protobuf.stringField 6 message.chainId.bytes ++
              (Protobuf.stringField 7 message.orgId.bytes ++
                (Protobuf.stringField 8 message.caTlsCertContent.bytes ++
                  (Protobuf.stringField 9 message.clientTlsCertContent.bytes ++
                    Protobuf.stringField 10
                      message.clientTlsPrivkeyData.bytes))))))))

def boatChainmakerCheckConfig (networkConfig : BoatChainmakerNetworkData) :
    Outcome Unit := do
  if networkConfig.chainId.bytes = [] ∨ networkConfig.hostName.bytes = [] ∨
      networkConfig.nodeUrl.bytes = [] ∨ networkConfig.orgId.bytes = [] ∨
        networkConfig.clientSignCertContent.length = 0 then
    boatThrow boatErrorCommonInvalidArgument
  else
    let cert ← cString networkConfig.clientSignCertContent.content.1
    if cert.bytes = [] then boatThrow boatErrorCommonInvalidArgument
    else pure ()

def boatChainmakerGetNetworkData (networkData : BoatChainmakerNetworkData) :
    Outcome (List UInt8) := do
  let clientSignCert ← cString networkData.clientSignCertContent.content.1
  let caTlsCert ← cString networkData.caTlsCertContent.content.1
  let clientTlsCert ← cString networkData.clientTlsCertContent.content.1
  let clientTlsPrivkey ← cString networkData.clientTlsPrivkeyData.value.1
  let message : ChainmakerNetworkData := ⟨networkData.networkIndex.toUInt32,
    networkData.clientMemberType, clientSignCert, networkData.nodeUrl,
    networkData.hostName, networkData.chainId, networkData.orgId, caTlsCert,
    clientTlsCert, clientTlsPrivkey⟩
  packedNetworkData message.pack

def boatChainmakerGetNetworkFromProto (message : ChainmakerNetworkData) :
    Outcome BoatChainmakerNetworkData := do
  let clientSignCert ← certFromProto boatErrorCommonOutOfMemory
    message.clientSignCertContent
  let caTlsCert ← tlsCertFromProto message.caTlsCertContent
  let clientTlsCert ← tlsCertFromProto message.clientTlsCertContent
  let clientTlsPrivkey ← tlsPrikeyFromProto message.clientTlsPrivkeyData
  pure ⟨message.index.toUInt8, message.clientMemberType, clientSignCert,
    message.nodeUrl, message.hostName, message.chainId, message.orgId,
    caTlsCert, clientTlsCert, clientTlsPrivkey⟩

def boatChainmakerNetwork
    (unpack : List UInt8 → Option ChainmakerNetworkData) : NetworkKind where
  protocol := .chainmaker
  Config := BoatChainmakerNetworkData
  Data := BoatChainmakerNetworkData
  checkConfig := boatChainmakerCheckConfig
  networkData networkConfig networkIndex :=
    .ok { networkConfig with networkIndex := networkIndex }
  networkIndex := BoatChainmakerNetworkData.networkIndex
  getNetworkData := boatChainmakerGetNetworkData
  mallocError := boatErrorCommonOutOfMemory
  getNetworkFromNvram :=
    packedNetworkFromNvram unpack boatChainmakerGetNetworkFromProto

end Chainmaker

end BoatFramework
