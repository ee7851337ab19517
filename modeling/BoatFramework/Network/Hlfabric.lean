/-
The networks of Hyperledger Fabric and of Huawei BCS, whose network code and
messages are alike: layouts of groups of endorsers and a group of orderers.
Pointers of a configuration are never NULL here.
-/
import BoatFramework.Network.Packed

namespace BoatFramework

open Fuse

/-- An array whose length is kept in a byte. -/
abbrev Counted (α : Type) := {items : List α // items.length < 0x100}

structure BoatHlfabricNodeInfoCfg where
  nodeUrl : CString
  hostName : CString
deriving DecidableEq

structure BoatHlfabricNodeGroupCfg where
  endorser : Counted BoatHlfabricNodeInfoCfg
  quantities : UInt8
  tlsOrgCertContent : BoatCertInfoCfg
deriving DecidableEq

structure BoatHlfabricNodeLayoutCfg where
  groupCfg : Counted BoatHlfabricNodeGroupCfg
deriving DecidableEq

structure BoatHlfabricNodesCfg where
  layoutCfg : Counted BoatHlfabricNodeLayoutCfg
  orderCfg : BoatHlfabricNodeGroupCfg
deriving DecidableEq

structure BoatHlfabricNetworkConfig where
  accountCertContent : BoatCertInfoCfg
  accountClientTlsPrikey : BoatKeypairExtraData
  accountClientTlsCert : BoatCertInfoCfg
  nodesCfg : BoatHlfabricNodesCfg
deriving DecidableEq

structure BoatHlfabricNetworkData where
  index : UInt8
  accountCertContent : BoatCertInfoCfg
  accountClientTlsPrikey : BoatKeypairExtraData
  accountClientTlsCert : BoatCertInfoCfg
  nodesCfg : BoatHlfabricNodesCfg
deriving DecidableEq

/-- A group that has endorsers, and not fewer than it asks for. -/
def BoatHlfabricNodeGroupCfg.checked (groupCfg : BoatHlfabricNodeGroupCfg) :
    Bool :=
  groupCfg.endorser.1.length ≠ 0 &&
    groupCfg.quantities.toNat ≤ groupCfg.endorser.1.length

def BoatHlfabricNodeLayoutCfg.checked
    (layoutCfg : BoatHlfabricNodeLayoutCfg) : Bool :=
  layoutCfg.groupCfg.1.length ≠ 0 &&
    layoutCfg.groupCfg.1.all BoatHlfabricNodeGroupCfg.checked

def boatHlfabricCheckNodefig (nodeCfg : BoatHlfabricNodesCfg) : Outcome Unit :=
  if nodeCfg.layoutCfg.1.length ≠ 0 &&
      nodeCfg.layoutCfg.1.all BoatHlfabricNodeLayoutCfg.checked &&
        nodeCfg.orderCfg.endorser.1.length ≠ 0 then .ok ()
  else boatThrow boatErrorNetworkNodecfgErr

/-- The message `fabricNodeInfo`. -/
structure FabricNodeInfo where
  nodeurl : CString
  hostname : CString
deriving DecidableEq

structure FabricNodeGroupCfg where
  quantities : UInt32
  endorser : List FabricNodeInfo
  tlsorgcertcontent : CString
deriving DecidableEq

structure FabricNodeLayoutCfg where
  groupcfg : List FabricNodeGroupCfg
deriving DecidableEq

structure FabricNetworkData where
  index : UInt32
  accountcertcontent : CString
  accountclienttlsprikey : CString
  accountclienttlscert : CString
  layoutcfg : List FabricNodeLayoutCfg
  ordercfg : Option FabricNodeGroupCfg
deriving DecidableEq

def FabricNodeInfo.pack (message : FabricNodeInfo) : List UInt8 :=
  Protobuf.stringField 1 message.nodeurl.bytes ++
    Protobuf.stringField 2 message.hostname.bytes

def FabricNodeGroupCfg.pack (message : FabricNodeGroupCfg) : List UInt8 :=
  Protobuf.uintField 1 message.quantities.toNat ++
    (Protobuf.repeatedField 2 FabricNodeInfo.pack message.endorser ++
      Protobuf.stringField 3 message.tlsorgcertcontent.bytes)

def FabricNodeLayoutCfg.pack (message : FabricNodeLayoutCfg) : List UInt8 :=
  Protobuf.repeatedField 1 FabricNodeGroupCfg.pack message.groupcfg

def FabricNetworkData.pack (message : FabricNetworkData) : List UInt8 :=
  Protobuf.uintField 1 message.index.toNat ++
    (Protobuf.stringField 2 message.accountcertcontent.bytes ++
      (Protobuf.stringField 3 message.accountclienttlsprikey.bytes ++
        (Protobuf.stringField 4 message.accountclienttlscert.bytes ++
          (Protobuf.repeatedField 5 FabricNodeLayoutCfg.pack
              message.layoutcfg ++
            Protobuf.repeatedField 6 FabricNodeGroupCfg.pack
              message.ordercfg.toList))))

section ToProto

def nodeInfoToProto (endorser : BoatHlfabricNodeInfoCfg) : FabricNodeInfo :=
  ⟨endorser.nodeUrl, endorser.hostName⟩

def groupToProto (groupCfg : BoatHlfabricNodeGroupCfg) :
    Outcome FabricNodeGroupCfg := do
  let tlsOrgCert ← cString groupCfg.tlsOrgCertContent.content.1
  pure ⟨groupCfg.quantities.toUInt32, groupCfg.endorser.1.map nodeInfoToProto,
    tlsOrgCert⟩

def layoutToProto (layoutCfg : BoatHlfabricNodeLayoutCfg) :
    Outcome FabricNodeLayoutCfg := do
  let groupcfg ← layoutCfg.groupCfg.1.mapM groupToProto
  pure ⟨groupcfg⟩

/-- The message of network data; a text without a terminator is undefined. -/
def hlfabricToProto (networkData : BoatHlfabricNetworkData) :
    Outcome FabricNetworkData := do
  let accountCert ← cString networkData.accountCertContent.content.1
  let layoutcfg ← networkData.nodesCfg.layoutCfg.1.mapM layoutToProto
  let ordercfg ← groupToProto networkData.nodesCfg.orderCfg
  let tlsPrikey ← cString networkData.accountClientTlsPrikey.value.1
  let tlsCert ← cString networkData.accountClientTlsCert.content.1
  pure ⟨networkData.index.toUInt32, accountCert, tlsPrikey, tlsCert, layoutcfg,
    some ordercfg⟩

def boatHlfabricGetNetworkData (networkData : BoatHlfabricNetworkData) :
    Outcome (List UInt8) := do
  let message ← hlfabricToProto networkData
  packedNetworkData message.pack

end ToProto

section FromProto

/-- The items that a count of one byte leaves. -/
def counted {α : Type} (items : List α) : Counted α :=
  ⟨items.take (items.length % 0x100), by
    rw [List.length_take]
    omega⟩

def nodeInfoFromProto (message : FabricNodeInfo) : BoatHlfabricNodeInfoCfg :=
  ⟨message.nodeurl, message.hostname⟩

def groupFromProto (refused : BoatResult) (message : FabricNodeGroupCfg) :
    Outcome BoatHlfabricNodeGroupCfg := do
  let tlsOrgCertContent ← certFromProto refused message.tlsorgcertcontent
  pure ⟨counted (message.endorser.map nodeInfoFromProto),
    message.quantities.toUInt8, tlsOrgCertContent⟩

def layoutFromProto (message : FabricNodeLayoutCfg) :
    Outcome BoatHlfabricNodeLayoutCfg := do
  let groupCfg ← (counted message.groupcfg).1.mapM (groupFromProto boatError)
  pure ⟨counted groupCfg⟩

/-- Network data of a message; one without orderers is undefined. -/
def boatHlfabricGetNetworkFromProto (message : FabricNetworkData) :
    Outcome BoatHlfabricNetworkData := do
  let accountCertContent ← certFromProto boatErrorCommonOutOfMemory
    message.accountcertcontent
  let layoutCfg ← (counted message.layoutcfg).1.mapM layoutFromProto
  match message.ordercfg with
  | none => .error .undefined
  | some ordercfg => do
      let orderCfg ← groupFromProto boatErrorCommonOutOfMemory ordercfg
      let accountClientTlsPrikey ← tlsPrikeyFromProto
        message.accountclienttlsprikey
      let accountClientTlsCert ← tlsCertFromProto message.accountclienttlscert
      pure ⟨message.index.toUInt8, accountCertContent, accountClientTlsPrikey,
        accountClientTlsCert, ⟨counted layoutCfg, orderCfg⟩⟩

end FromProto

/-- The network data that `BoatHlfabricNetworkCreate` fills in. -/
def boatHlfabricNetworkData (networkConfig : BoatHlfabricNetworkConfig)
    (networkIndex : UInt8) : BoatHlfabricNetworkData :=
  ⟨networkIndex, networkConfig.accountCertContent,
    networkConfig.accountClientTlsPrikey, networkConfig.accountClientTlsCert,
    networkConfig.nodesCfg⟩

/-- The network code that the two protocols share. -/
def hlfabricNetworkKind (protocol : BoatProtocolType)
    (unpack : List UInt8 → Option FabricNetworkData) : NetworkKind where
  protocol := protocol
  Config := BoatHlfabricNetworkConfig
  Data := BoatHlfabricNetworkData
  checkConfig networkConfig := boatHlfabricCheckNodefig networkConfig.nodesCfg
  networkData networkConfig networkIndex :=
    .ok (boatHlfabricNetworkData networkConfig networkIndex)
  networkIndex := BoatHlfabricNetworkData.index
  getNetworkData := boatHlfabricGetNetworkData
  mallocError := boatErrorCommonOutOfMemory
  getNetworkFromNvram :=
    packedNetworkFromNvram unpack boatHlfabricGetNetworkFromProto

def boatHlfabricNetwork (unpack : List UInt8 → Option FabricNetworkData) :
    NetworkKind :=
  hlfabricNetworkKind .hlfabric unpack

def boatHwbcsNetwork (unpack : List UInt8 → Option FabricNetworkData) :
    NetworkKind :=
  hlfabricNetworkKind .hwbcs unpack

end BoatFramework
