/-
Networks with packed messages that are fetched as they were created: every CITA
network is, and one of ChainMaker, Fabric or Huawei BCS exactly when its
certificates are texts with zeros behind them and those for TLS are not empty.
-/
import BoatFramework.Network.Messages
import BoatFramework.Network.PackedFetch

namespace BoatFramework

open Fuse Exec Protobuf

/-- The generated functions unpack what was packed, where the two bytes of a
length can count it. -/
structure NetworkUnpack.ReadsPacked (unpack : NetworkUnpack) : Prop where
  fabric : ∀ message : FabricNetworkData, message.pack.length < 0x10000 →
    unpack.fabric message.pack = some message
  chainmaker : ∀ message : ChainmakerNetworkData,
    message.pack.length < 0x10000 →
      unpack.chainmaker message.pack = some message
  cita : ∀ message : CitaNetworkData, message.pack.length < 0x10000 →
    unpack.cita message.pack = some message

/-- Messages unpacked as the wire format has them. -/
def wireUnpack : NetworkUnpack :=
  ⟨FabricNetworkData.unpack, ChainmakerNetworkData.unpack,
    CitaNetworkData.unpack⟩

theorem wireUnpack_readsPacked : wireUnpack.ReadsPacked where
  fabric message hshort :=
    message.unpack_pack (Nat.lt_trans hshort (by decide))
  chainmaker message hshort :=
    message.unpack_pack (Nat.lt_trans hshort (by decide))
  cita message hshort :=
    message.unpack_pack (Nat.lt_trans hshort (by decide))

variable {unpack : NetworkUnpack} {d d' : Device}
  {storeType : BoatStoreType} {index : UInt8}

section Texts

variable {text : CString}

/-- A text is copied into a block as it is, with zeros behind it. -/
theorem charField_iff {n : Nat} {field : Bytes n}
    (hshort : text.bytes.length < n) :
    charField n text = .ok field ↔
      field.1 = text.bytes ++ List.replicate (n - text.bytes.length) 0 := by
  rw [charField, dif_pos hshort]
  constructor
  · intro hfield
    rw [← Except.ok.inj hfield]
  · intro hfield
    exact congrArg Except.ok (Subtype.ext hfield.symm)

/-- A certificate whose length is that of its text, with zeros behind it. -/
structure BoatCertInfoCfg.Plain (cert : BoatCertInfoCfg) : Prop where
  padded : cert.content.1 = (CString.ofBuffer cert.content.1).bytes ++
    List.replicate (1024 - (CString.ofBuffer cert.content.1).bytes.length) 0
  counted : cert.length =
    UInt32.ofNat (CString.ofBuffer cert.content.1).bytes.length

structure BoatKeypairExtraData.Plain (extra : BoatKeypairExtraData) : Prop where
  padded : extra.value.1 = (CString.ofBuffer extra.value.1).bytes ++
    List.replicate (512 - (CString.ofBuffer extra.value.1).bytes.length) 0
  counted : extra.valueLen =
    UInt32.ofNat (CString.ofBuffer extra.value.1).bytes.length

theorem certFromProto_iff (refused : BoatResult) {cert : BoatCertInfoCfg}
    (htext : cString cert.content.1 = .ok text) :
    certFromProto refused text = .ok cert ↔ cert.Plain := by
  obtain ⟨hshort, rfl⟩ := cString_eq_ok htext
  rw [cert.content.2] at hshort
  rw [certFromProto, if_neg (by omega), except_bind_eq_ok]
  constructor
  · rintro ⟨content, hcontent, hcert⟩
    have hcert := Except.ok.inj hcert
    have hpadded := (charField_iff hshort).mp hcontent
    refine ⟨?_, (congrArg BoatCertInfoCfg.length hcert).symm⟩
    rw [← hpadded]
    exact congrArg (·.content.1) hcert.symm
  · rintro ⟨hpadded, hcounted⟩
    refine ⟨cert.content, (charField_iff hshort).mpr hpadded, ?_⟩
    rw [← hcounted]
    rfl

/-- The length less one of a text is large only where there is no text. -/
theorem lengthLessOne_le_iff {bound : Nat} (hbound : bound ≤ 1024)
    (hshort : text.bytes.length < bound) :
    ¬bound < lengthLessOne text ↔ text.bytes ≠ [] := by
  rw [← List.length_pos_iff, lengthLessOne]
  omega

theorem tlsCertFromProto_iff {cert : BoatCertInfoCfg}
    (htext : cString cert.content.1 = .ok text) :
    tlsCertFromProto text = .ok cert ↔ text.bytes ≠ [] ∧ cert.Plain := by
  have hshort := (cString_eq_ok htext).1
  rw [cert.content.2] at hshort
  rw [tlsCertFromProto, ← certFromProto_iff boatError htext,
    certFromProto, if_neg (Nat.lt_asymm hshort),
    ← lengthLessOne_le_iff (Nat.le_refl 1024) hshort]
  by_cases hempty : 1024 < lengthLessOne text
  · simp [hempty, boatThrow]
  · simp [hempty]

theorem tlsPrikeyFromProto_iff {extra : BoatKeypairExtraData}
    (htext : cString extra.value.1 = .ok text) :
    tlsPrikeyFromProto text = .ok extra ↔ text.bytes ≠ [] ∧ extra.Plain := by
  obtain ⟨hshort, rfl⟩ := cString_eq_ok htext
  rw [extra.value.2] at hshort
  rw [tlsPrikeyFromProto, ← lengthLessOne_le_iff (by decide) hshort]
  by_cases hempty : 512 < lengthLessOne (CString.ofBuffer extra.value.1)
  · simp [hempty, boatThrow]
  · rw [if_neg hempty, except_bind_eq_ok, and_iff_right hempty]
    constructor
    · rintro ⟨value, hvalue, hextra⟩
      have hextra := Except.ok.inj hextra
      have hpadded := (charField_iff hshort).mp hvalue
      refine ⟨?_, (congrArg BoatKeypairExtraData.valueLen hextra).symm⟩
      rw [← hpadded]
      exact congrArg (·.value.1) hextra.symm
    · rintro ⟨hpadded, hcounted⟩
      refine ⟨extra.value, (charField_iff hshort).mpr hpadded, ?_⟩
      rw [← hcounted]
      rfl

/-- The text of one letter. -/
def letter : CString :=
  ⟨[0x61], fun hzero => by cases hzero with | tail _ hnil => cases hnil⟩

theorem length_letterBlock (n : Nat) :
    (letter.bytes ++ List.replicate n 0).length = 1 + n := by
  rw [List.length_append, List.length_replicate]
  rfl

/-- A block with the one letter in it. -/
def letterBlock (n : Nat) : Bytes (1 + n) :=
  ⟨letter.bytes ++ List.replicate n 0, length_letterBlock n⟩

theorem cString_letterBlock (n : Nat) :
    cString (letterBlock (n + 1)).1 = .ok letter :=
  cString_append letter (List.replicate n 0)

end Texts

section Cita

def citaToProto (networkData : BoatCitaNetworkData) :
    Outcome CitaNetworkData := do
  let nodeUrl ← cString networkData.nodeUrlBuf.1
  pure ⟨networkData.networkIndex.toUInt32, networkData.version, nodeUrl,
    networkData.chainIdBuf.1⟩

theorem boatCitaNetwork_packs (hunpack : unpack.ReadsPacked) :
    (boatCitaNetwork unpack.cita).Packs CitaNetworkData.pack unpack.cita
      citaToProto boatCitaGetNetworkFromProto where
  lawful := boatCitaNetwork_lawful unpack.cita
  sized := CitaNetworkData.pack_sized
  stores networkData := by
    change boatCitaGetNetworkData networkData = _
    unfold boatCitaGetNetworkData citaToProto
    cases cString networkData.nodeUrlBuf.1 <;> rfl
  reads := rfl
  unpacks := hunpack.cita

variable {networkConfig : BoatCitaNetworkConfig}

/-- Network data that a configuration was filled into. -/
theorem boatCitaNetworkData_ok {data : BoatCitaNetworkData}
    (hfilled : boatCitaNetworkData networkConfig index = .ok data) :
    ∃ nodeUrl, nodeUrl.bytes.length < 127 ∧
      charField 127 nodeUrl = .ok data.nodeUrlBuf ∧
      citaToProto data = .ok ⟨index.toUInt32, networkConfig.version, nodeUrl,
        networkConfig.chainIdBuf.1⟩ ∧
      data = ⟨index, networkConfig.version, networkConfig.chainIdBuf,
        data.nodeUrlBuf⟩ := by
  obtain ⟨nodeUrl, hurl, hfilled⟩ := except_bind_eq_ok.mp hfilled
  obtain ⟨nodeUrlBuf, hfield, hfilled⟩ := except_bind_eq_ok.mp hfilled
  obtain rfl := Except.ok.inj hfilled
  have hshort := (cString_eq_ok hurl).1
  rw [networkConfig.nodeUrlBuf.2] at hshort
  obtain ⟨field, hcopy, hblock⟩ := charField_ok hshort
  obtain rfl := Except.ok.inj (hcopy.symm.trans hfield)
  refine ⟨nodeUrl, hshort, hfield, ?_, rfl⟩
  refine except_bind_eq_ok.mpr ⟨nodeUrl, ?_, rfl⟩
  rw [hblock, cString_append]

theorem CitaNetworkData.length_pack (message : CitaNetworkData) :
    message.pack.length ≤
      80 + message.nodeUrlStr.bytes.length + message.chainIdStr.length := by
  have hindex := length_uintField_le 1 message.index.toNat
  have hversion := length_uintField_le 2 message.version.toNat
  have hurl := length_stringField_le 3 message.nodeUrlStr.bytes
  have hchain := length_lengthField_le 4 message.chainIdStr
  unfold CitaNetworkData.pack
  simp only [List.length_append]
  omega

theorem CitaNetworkData.two_le_pack (message : CitaNetworkData) :
    2 ≤ message.pack.length := by
  have hchain := length_lengthField 4 message.chainIdStr
  unfold CitaNetworkData.pack
  simp only [List.length_append]
  omega

/-- A network with a URL that ends in its field fits. -/
theorem boatCitaNetwork_fits (hunpack : unpack.ReadsPacked)
    (hurl : 0 ∈ networkConfig.nodeUrlBuf.1) :
    (boatCitaNetwork unpack.cita).Fits networkConfig := by
  refine (boatCitaNetwork_packs hunpack).fits rfl fun index => ?_
  have hshort := length_ofBuffer hurl
  rw [networkConfig.nodeUrlBuf.2] at hshort
  obtain ⟨field, hfield, _⟩ := charField_ok hshort
  have hfilled : boatCitaNetworkData networkConfig index = .ok ⟨index,
      networkConfig.version, networkConfig.chainIdBuf, field⟩ :=
    except_bind_eq_ok.mpr ⟨_, if_pos hurl,
      except_bind_eq_ok.mpr ⟨field, hfield, rfl⟩⟩
  obtain ⟨nodeUrl, hurlShort, _, hmessage, _⟩ := boatCitaNetworkData_ok hfilled
  have hlength := CitaNetworkData.length_pack ⟨index.toUInt32,
    networkConfig.version, nodeUrl, networkConfig.chainIdBuf.1⟩
  simp only [networkConfig.chainIdBuf.2] at hlength
  exact ⟨_, _, hfilled, hmessage, CitaNetworkData.two_le_pack _, by omega⟩

/-- Every CITA network that is created on a reachable device is fetched by its
index as it was filled in. -/
theorem boatCitaNetwork_roundTrip (hunpack : unpack.ReadsPacked)
    (hreach : NetworksReachable unpack d)
    (hcreate : networkCreate (boatCitaNetwork unpack.cita) networkConfig
      storeType ⟨d, none⟩ = .ok index ⟨d', none⟩) :
    ∃ data, boatCitaNetworkData networkConfig index = .ok data ∧
      getNetworkByIndex (boatCitaNetwork unpack.cita) index ⟨d', none⟩ =
        .ok data ⟨d', none⟩ := by
  obtain ⟨data, hfilled⟩ := networkCreate_filled hcreate
  have hurl : 0 ∈ networkConfig.nodeUrlBuf.1 := by
    obtain ⟨nodeUrl, hurl, _⟩ := except_bind_eq_ok.mp hfilled
    by_contra hnone
    rw [cString, if_neg hnone] at hurl
    cases hurl
  obtain ⟨data', message, hsame, hmessage, hfetch⟩ :=
    (boatCitaNetwork_packs hunpack).fetch (boatCitaNetwork_fits hunpack hurl)
      hreach hcreate
  obtain rfl := Except.ok.inj (hfilled.symm.trans hsame)
  refine ⟨data, hfilled, (hfetch data).mpr ?_⟩
  obtain ⟨nodeUrl, hshort, hfield, hproto, hdata⟩ :=
    boatCitaNetworkData_ok hfilled
  obtain rfl := Except.ok.inj (hproto.symm.trans hmessage)
  unfold boatCitaGetNetworkFromProto
  rw [if_neg (Nat.lt_asymm hshort),
    if_neg (Nat.not_lt.mpr (Nat.le_of_eq networkConfig.chainIdBuf.2)), hfield,
    except_ok_bind]
  have hchain : (networkConfig.chainIdBuf.1 ++ List.replicate 32 0).take 32 =
      networkConfig.chainIdBuf.1 :=
    List.take_left' networkConfig.chainIdBuf.2
  refine congrArg Except.ok ?_
  rw [hdata]
  simp only [hchain, UInt8.toUInt8_toUInt32]

def letterCita : BoatCitaNetworkConfig :=
  ⟨1, ⟨List.replicate 32 0, List.length_replicate⟩, letterBlock 126⟩

def letterCitaMessage : CitaNetworkData :=
  ⟨1, 1, letter, List.replicate 32 0⟩

theorem length_letterCita : letterCitaMessage.pack.length < 0x10000 := by
  have hlength := letterCitaMessage.length_pack
  have hchain : letterCitaMessage.chainIdStr.length = 32 :=
    List.length_replicate
  have hurl : letterCitaMessage.nodeUrlStr.bytes.length = 1 := rfl
  omega

/-- The device with that network only. -/
def letterCitaDevice : Device :=
  blankDevice.writeNetwork 4 0 .cita 1 (LengthValue.encode letterCitaMessage.pack)

theorem networkCreate_letterCita :
    boatCitaNetworkData letterCita 1 =
        .ok ⟨1, 1, letterCita.chainIdBuf, letterBlock 126⟩ ∧
      networkCreate (boatCitaNetwork wireUnpack.cita) letterCita .flash
        ⟨blankDevice, none⟩ = .ok 1 ⟨letterCitaDevice, none⟩ := by
  have hpacks := boatCitaNetwork_packs wireUnpack_readsPacked
  have hfield : charField 127 letter = .ok (letterBlock 126) :=
    (charField_iff (by decide)).mpr rfl
  have hfilled : boatCitaNetworkData letterCita 1 =
      .ok ⟨1, 1, letterCita.chainIdBuf, letterBlock 126⟩ :=
    except_bind_eq_ok.mpr ⟨_, cString_letterBlock 125,
      except_bind_eq_ok.mpr ⟨_, hfield, rfl⟩⟩
  have hmessage : citaToProto ⟨1, 1, letterCita.chainIdBuf, letterBlock 126⟩ =
      .ok letterCitaMessage :=
    except_bind_eq_ok.mpr ⟨_, cString_letterBlock 125, rfl⟩
  have hform : (boatCitaNetwork wireUnpack.cita).storedForm letterCita 1 =
      .ok (LengthValue.encode letterCitaMessage.pack) :=
    hpacks.storedForm_eq rfl hfilled hmessage letterCitaMessage.two_le_pack
      length_letterCita
  exact ⟨hfilled, networkCreate_blank hpacks.lawful length_letterCita hform⟩

/-- A CITA network with a URL of one letter comes back. -/
theorem boatCitaNetwork_roundTrip_letter :
    ∃ data, boatCitaNetworkData letterCita 1 = .ok data ∧
      getNetworkByIndex (boatCitaNetwork wireUnpack.cita) 1
          ⟨letterCitaDevice, none⟩ =
        .ok data ⟨letterCitaDevice, none⟩ :=
  boatCitaNetwork_roundTrip wireUnpack_readsPacked
    (.erased (Or.inl (Nat.zero_le _))) networkCreate_letterCita.2

end Cita

section Chainmaker

def chainmakerToProto (networkData : BoatChainmakerNetworkData) :
    Outcome ChainmakerNetworkData := do
  let clientSignCert ← cString networkData.clientSignCertContent.content.1
  let caTlsCert ← cString networkData.caTlsCertContent.content.1
  let clientTlsCert ← cString networkData.clientTlsCertContent.content.1
  let clientTlsPrivkey ← cString networkData.clientTlsPrivkeyData.value.1
  pure ⟨networkData.networkIndex.toUInt32, networkData.clientMemberType,
    clientSignCert, networkData.nodeUrl, networkData.hostName,
    networkData.chainId, networkData.orgId, caTlsCert, clientTlsCert,
    clientTlsPrivkey⟩

theorem ChainmakerNetworkData.pack_sized (message : ChainmakerNetworkData) :
    Sized message.pack := by
  refine (uintField_sized 1 _).append ?_
  refine (uintField_sized 2 _).append ?_
  refine (stringField_sized 3 _).append ?_
  refine (stringField_sized 4 _).append ?_
  refine (stringField_sized 5 _).append ?_
  refine (stringField_sized 6 _).append ?_
  refine (stringField_sized 7 _).append ?_
  refine (stringField_sized 8 _).append ?_
  exact (stringField_sized 9 _).append (stringField_sized 10 _)

theorem boatChainmakerNetwork_packs (hunpack : unpack.ReadsPacked) :
    (boatChainmakerNetwork unpack.chainmaker).Packs ChainmakerNetworkData.pack
      unpack.chainmaker chainmakerToProto
        boatChainmakerGetNetworkFromProto where
  lawful := boatChainmakerNetwork_lawful unpack.chainmaker
  sized := ChainmakerNetworkData.pack_sized
  stores networkData := by
    change boatChainmakerGetNetworkData networkData = _
    unfold boatChainmakerGetNetworkData chainmakerToProto
    cases cString networkData.clientSignCertContent.content.1 with
    | error failure => rfl
    | ok clientSignCert =>
        cases cString networkData.caTlsCertContent.content.1 with
        | error failure => rfl
        | ok caTlsCert =>
            cases cString networkData.clientTlsCertContent.content.1 with
            | error failure => rfl
            | ok clientTlsCert =>
                cases cString networkData.clientTlsPrivkeyData.value.1 <;> rfl
  reads := rfl
  unpacks := hunpack.chainmaker

/-- A certificate with some text. -/
def BoatCertInfoCfg.HasText (cert : BoatCertInfoCfg) : Prop :=
  (CString.ofBuffer cert.content.1).bytes ≠ []

def BoatKeypairExtraData.HasText (extra : BoatKeypairExtraData) : Prop :=
  (CString.ofBuffer extra.value.1).bytes ≠ []

/-- The certificates are texts with zeros behind them and their lengths in
front, and those for TLS are not empty. -/
structure BoatChainmakerNetworkData.ReadsBack
    (networkConfig : BoatChainmakerNetworkData) : Prop where
  clientSignCert : networkConfig.clientSignCertContent.Plain
  caTlsCert : networkConfig.caTlsCertContent.HasText ∧
    networkConfig.caTlsCertContent.Plain
  clientTlsCert : networkConfig.clientTlsCertContent.HasText ∧
    networkConfig.clientTlsCertContent.Plain
  clientTlsPrivkey : networkConfig.clientTlsPrivkeyData.HasText ∧
    networkConfig.clientTlsPrivkeyData.Plain

variable {networkConfig : BoatChainmakerNetworkData}

/-- Network data is made of its own message where its certificates are. -/
theorem boatChainmakerGetNetworkFromProto_iff
    {message : ChainmakerNetworkData}
    (hmessage : chainmakerToProto networkConfig = .ok message) :
    boatChainmakerGetNetworkFromProto message = .ok networkConfig ↔
      networkConfig.ReadsBack := by
  obtain ⟨clientSignCert, hsign, hmessage⟩ := except_bind_eq_ok.mp hmessage
  obtain ⟨caTlsCert, hca, hmessage⟩ := except_bind_eq_ok.mp hmessage
  obtain ⟨clientTlsCert, hclient, hmessage⟩ := except_bind_eq_ok.mp hmessage
  obtain ⟨clientTlsPrivkey, hprivkey, hmessage⟩ :=
    except_bind_eq_ok.mp hmessage
  obtain rfl := Except.ok.inj hmessage
  obtain ⟨_, rfl⟩ := cString_eq_ok hca
  obtain ⟨_, rfl⟩ := cString_eq_ok hclient
  obtain ⟨_, rfl⟩ := cString_eq_ok hprivkey
  constructor
  · intro hback
    obtain ⟨_, hsignBack, hback⟩ := except_bind_eq_ok.mp hback
    obtain ⟨_, hcaBack, hback⟩ := except_bind_eq_ok.mp hback
    obtain ⟨_, hclientBack, hback⟩ := except_bind_eq_ok.mp hback
    obtain ⟨_, hprivkeyBack, hback⟩ := except_bind_eq_ok.mp hback
    have hback := Except.ok.inj hback
    obtain rfl := congrArg BoatChainmakerNetworkData.clientSignCertContent hback
    obtain rfl := congrArg BoatChainmakerNetworkData.caTlsCertContent hback
    obtain rfl := congrArg BoatChainmakerNetworkData.clientTlsCertContent hback
    obtain rfl := congrArg BoatChainmakerNetworkData.clientTlsPrivkeyData hback
    exact ⟨(certFromProto_iff _ hsign).mp hsignBack,
      (tlsCertFromProto_iff hca).mp hcaBack,
      (tlsCertFromProto_iff hclient).mp hclientBack,
      (tlsPrikeyFromProto_iff hprivkey).mp hprivkeyBack⟩
  · intro hplain
    refine except_bind_eq_ok.mpr
      ⟨_, (certFromProto_iff _ hsign).mpr hplain.clientSignCert, ?_⟩
    refine except_bind_eq_ok.mpr
      ⟨_, (tlsCertFromProto_iff hca).mpr hplain.caTlsCert, ?_⟩
    refine except_bind_eq_ok.mpr
      ⟨_, (tlsCertFromProto_iff hclient).mpr hplain.clientTlsCert, ?_⟩
    refine except_bind_eq_ok.mpr
      ⟨_, (tlsPrikeyFromProto_iff hprivkey).mpr hplain.clientTlsPrivkey, ?_⟩
    simp only [UInt8.toUInt8_toUInt32]
    rfl

/-- A ChainMaker network that is created on a reachable device is fetched by its
index as it was configured exactly when its certificates read back. -/
theorem boatChainmakerNetwork_roundTrip_iff (hunpack : unpack.ReadsPacked)
    (hreach : NetworksReachable unpack d)
    (hfits : (boatChainmakerNetwork unpack.chainmaker).Fits networkConfig)
    (hcreate : networkCreate (boatChainmakerNetwork unpack.chainmaker)
      networkConfig storeType ⟨d, none⟩ = .ok index ⟨d', none⟩) :
    getNetworkByIndex (boatChainmakerNetwork unpack.chainmaker) index
        ⟨d', none⟩ =
      .ok { networkConfig with networkIndex := index } ⟨d', none⟩ ↔
    networkConfig.ReadsBack := by
  obtain ⟨data, message, hfilled, hmessage, hfetch⟩ :=
    (boatChainmakerNetwork_packs hunpack).fetch hfits hreach hcreate
  obtain rfl := Except.ok.inj hfilled
  refine (hfetch _).trans
    ((boatChainmakerGetNetworkFromProto_iff hmessage).trans ?_)
  exact ⟨fun hback => ⟨hback.1, hback.2, hback.3, hback.4⟩,
    fun hback => ⟨hback.1, hback.2, hback.3, hback.4⟩⟩

def letterCert : BoatCertInfoCfg :=
  ⟨1, letterBlock 1023⟩

def letterPrikey : BoatKeypairExtraData :=
  ⟨1, letterBlock 511⟩

theorem letterCert_text : cString letterCert.content.1 = .ok letter :=
  cString_letterBlock 1022

theorem letterPrikey_text : cString letterPrikey.value.1 = .ok letter :=
  cString_letterBlock 510

theorem letterCert_plain : letterCert.HasText ∧ letterCert.Plain := by
  have htext := (cString_eq_ok letterCert_text).2
  unfold BoatCertInfoCfg.HasText
  refine ⟨?_, ?_, ?_⟩ <;> rw [htext]
  · exact List.cons_ne_nil _ _
  · rfl
  · rfl

theorem letterPrikey_plain : letterPrikey.HasText ∧ letterPrikey.Plain := by
  have htext := (cString_eq_ok letterPrikey_text).2
  unfold BoatKeypairExtraData.HasText
  refine ⟨?_, ?_, ?_⟩ <;> rw [htext]
  · exact List.cons_ne_nil _ _
  · rfl
  · rfl

def letterChainmaker : BoatChainmakerNetworkData :=
  ⟨0, 0, letterCert, letter, letter, letter, letter, letterCert, letterCert,
    letterPrikey⟩

/-- The message of the network under an index. -/
def letterChainmakerMessage (index : UInt8) : ChainmakerNetworkData :=
  ⟨index.toUInt32, 0, letter, letter, letter, letter, letter, letter, letter,
    letter⟩

theorem letterChainmaker_toProto (index : UInt8) :
    chainmakerToProto { letterChainmaker with networkIndex := index } =
      .ok (letterChainmakerMessage index) := by
  refine except_bind_eq_ok.mpr ⟨_, letterCert_text, ?_⟩
  refine except_bind_eq_ok.mpr ⟨_, letterCert_text, ?_⟩
  refine except_bind_eq_ok.mpr ⟨_, letterCert_text, ?_⟩
  exact except_bind_eq_ok.mpr ⟨_, letterPrikey_text, rfl⟩

theorem letterChainmaker_checked :
    boatChainmakerCheckConfig letterChainmaker = .ok () := by
  have hcheck : ¬(letter.bytes = [] ∨ letter.bytes = [] ∨ letter.bytes = [] ∨
      letter.bytes = [] ∨ letterCert.length = 0) := by decide
  refine (if_neg hcheck).trans ?_
  exact except_bind_eq_ok.mpr ⟨_, letterCert_text, rfl⟩

theorem length_letterChainmaker (index : UInt8) :
    2 ≤ (letterChainmakerMessage index).pack.length ∧
      (letterChainmakerMessage index).pack.length < 0x10000 := by
  have hindex := length_uintField_le 1 index.toUInt32.toNat
  have hpack : (letterChainmakerMessage index).pack.length =
      (uintField 1 index.toUInt32.toNat).length + 24 :=
    List.length_append
  omega

/-- A ChainMaker network whose certificates have a letter comes back. -/
theorem boatChainmakerNetwork_roundTrip_letter :
    getNetworkByIndex (boatChainmakerNetwork wireUnpack.chainmaker) 1
        ⟨blankDevice.writeNetwork 4 0 .chainmaker 1
          (LengthValue.encode (letterChainmakerMessage 1).pack), none⟩ =
      .ok { letterChainmaker with networkIndex := 1 }
        ⟨blankDevice.writeNetwork 4 0 .chainmaker 1
          (LengthValue.encode (letterChainmakerMessage 1).pack), none⟩ := by
  have hpacks := boatChainmakerNetwork_packs wireUnpack_readsPacked
  obtain ⟨htwo, hlen⟩ := length_letterChainmaker 1
  have hform : (boatChainmakerNetwork wireUnpack.chainmaker).storedForm
      letterChainmaker 1 =
        .ok (LengthValue.encode (letterChainmakerMessage 1).pack) :=
    hpacks.storedForm_eq letterChainmaker_checked rfl
      (letterChainmaker_toProto 1) htwo hlen
  have hfits : (boatChainmakerNetwork wireUnpack.chainmaker).Fits
      letterChainmaker :=
    hpacks.fits letterChainmaker_checked fun index => ⟨_, _, rfl,
      letterChainmaker_toProto index, length_letterChainmaker index⟩
  exact (boatChainmakerNetwork_roundTrip_iff wireUnpack_readsPacked
    (.erased (Or.inl (Nat.zero_le _))) hfits
    (networkCreate_blank hpacks.lawful hlen hform)).mpr
      ⟨letterCert_plain.2, letterCert_plain, letterCert_plain,
        letterPrikey_plain⟩

end Chainmaker

section Hlfabric

/-- A group whose certificate reads back. -/
def BoatHlfabricNodeGroupCfg.Plain (groupCfg : BoatHlfabricNodeGroupCfg) :
    Prop :=
  groupCfg.tlsOrgCertContent.Plain

/-- All certificates are texts with zeros behind them and their lengths in
front, and the key and the certificate for TLS are not empty. -/
structure BoatHlfabricNetworkConfig.ReadsBack
    (networkConfig : BoatHlfabricNetworkConfig) : Prop where
  accountCert : networkConfig.accountCertContent.Plain
  groups : ∀ layoutCfg ∈ networkConfig.nodesCfg.layoutCfg.1,
    ∀ groupCfg ∈ layoutCfg.groupCfg.1, groupCfg.Plain
  orderers : networkConfig.nodesCfg.orderCfg.Plain
  clientTlsPrikey : networkConfig.accountClientTlsPrikey.HasText ∧
    networkConfig.accountClientTlsPrikey.Plain
  clientTlsCert : networkConfig.accountClientTlsCert.HasText ∧
    networkConfig.accountClientTlsCert.Plain

theorem one_lt_byte : 0 + 1 < 0x100 := by
  decide

theorem FabricNetworkData.pack_sized (message : FabricNetworkData) :
    Sized message.pack := by
  refine (uintField_sized 1 _).append ?_
  refine (stringField_sized 2 _).append ?_
  refine (stringField_sized 3 _).append ?_
  refine (stringField_sized 4 _).append ?_
  exact (repeatedField_sized 5 _ _).append (repeatedField_sized 6 _ _)

theorem hlfabricNetworkKind_packs (protocol : BoatProtocolType)
    (hunpack : unpack.ReadsPacked) :
    (hlfabricNetworkKind protocol unpack.fabric).Packs FabricNetworkData.pack
      unpack.fabric hlfabricToProto boatHlfabricGetNetworkFromProto where
  lawful := hlfabricNetworkKind_lawful protocol unpack.fabric
  sized := FabricNetworkData.pack_sized
  stores _ := rfl
  reads := rfl
  unpacks := hunpack.fabric

variable {networkConfig : BoatHlfabricNetworkConfig}

def letterGroup : BoatHlfabricNodeGroupCfg :=
  ⟨⟨[⟨letter, letter⟩], one_lt_byte⟩, 1, letterCert⟩

def letterHlfabric : BoatHlfabricNetworkConfig :=
  ⟨letterCert, letterPrikey, letterCert,
    ⟨⟨[⟨⟨[letterGroup], one_lt_byte⟩⟩], one_lt_byte⟩, letterGroup⟩⟩

def letterGroupMessage : FabricNodeGroupCfg :=
  ⟨1, [⟨letter, letter⟩], letter⟩

def letterHlfabricMessage (index : UInt8) : FabricNetworkData :=
  ⟨index.toUInt32, letter, letter, letter, [⟨[letterGroupMessage]⟩],
    some letterGroupMessage⟩

theorem letterGroup_toProto :
    groupToProto letterGroup = .ok letterGroupMessage :=
  except_bind_eq_ok.mpr ⟨_, letterCert_text, rfl⟩

theorem letterHlfabric_toProto (index : UInt8) :
    hlfabricToProto (boatHlfabricNetworkData letterHlfabric index) =
      .ok (letterHlfabricMessage index) := by
  have hlayout : layoutToProto ⟨⟨[letterGroup], one_lt_byte⟩⟩ =
      .ok ⟨[letterGroupMessage]⟩ := by
    unfold layoutToProto
    rw [List.mapM_cons, letterGroup_toProto]
    rfl
  refine except_bind_eq_ok.mpr ⟨_, letterCert_text, ?_⟩
  refine except_bind_eq_ok.mpr ⟨[⟨[letterGroupMessage]⟩], ?_, ?_⟩
  · change [_].mapM layoutToProto = _
    rw [List.mapM_cons, hlayout]
    rfl
  · refine except_bind_eq_ok.mpr ⟨_, letterGroup_toProto, ?_⟩
    refine except_bind_eq_ok.mpr ⟨_, letterPrikey_text, ?_⟩
    exact except_bind_eq_ok.mpr ⟨_, letterCert_text, rfl⟩

theorem length_letterHlfabric (index : UInt8) :
    2 ≤ (letterHlfabricMessage index).pack.length ∧
      (letterHlfabricMessage index).pack.length < 0x10000 := by
  have hindex := length_uintField_le 1 index.toUInt32.toNat
  have hpack : (letterHlfabricMessage index).pack.length =
      (uintField 1 index.toUInt32.toNat).length + 41 :=
    List.length_append
  omega

theorem letterHlfabric_fits :
    (boatHlfabricNetwork wireUnpack.fabric).Fits letterHlfabric :=
  (hlfabricNetworkKind_packs .hlfabric wireUnpack_readsPacked).fits rfl
    fun index => ⟨_, _, rfl, letterHlfabric_toProto index,
      length_letterHlfabric index⟩

/-- A device with the network alone. -/
def letterHlfabricDevice : Device :=
  blankDevice.writeNetwork 4 0 .hlfabric 1
    (LengthValue.encode (letterHlfabricMessage 1).pack)

theorem networkCreate_letterHlfabric :
    networkCreate (boatHlfabricNetwork wireUnpack.fabric) letterHlfabric .flash
      ⟨blankDevice, none⟩ = .ok 1 ⟨letterHlfabricDevice, none⟩ := by
  have hpacks := hlfabricNetworkKind_packs .hlfabric wireUnpack_readsPacked
  obtain ⟨htwo, hlen⟩ := length_letterHlfabric 1
  have hform : (hlfabricNetworkKind .hlfabric wireUnpack.fabric).storedForm
      letterHlfabric 1 =
        .ok (LengthValue.encode (letterHlfabricMessage 1).pack) :=
    hpacks.storedForm_eq rfl rfl (letterHlfabric_toProto 1) htwo hlen
  exact networkCreate_blank hpacks.lawful hlen hform

end Hlfabric

end BoatFramework
