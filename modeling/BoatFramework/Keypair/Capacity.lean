/-
The capacity of the keypair region: a call of `BoatKeypairCreate` that no fault
hits is refused for want of room exactly where the bytes of its record do not
fit behind the others, and with five keypairs every call is refused.
-/
import BoatFramework.Keypair.Runs
import BoatFramework.Keypair.RecordCodec

namespace BoatFramework

open Fuse

variable {crypto : Crypto} {d : Device} {layout : KeyLayout}
  {ctx : BoatKeypairPriKeyCtx} {index : UInt8} {random : Randomness}
  {keypairConfig : Option BoatKeypairPriKeyCtxConfig}
  {config : BoatKeypairPriKeyCtxConfig} {keypairName : Option CString}
  {key : CreatedKey}

/-- The bytes that are written for a keypair. -/
def BoatKeypairPriKeyCtx.written (ctx : BoatKeypairPriKeyCtx) : List UInt8 :=
  addLWithOffset (addedValues ctx)

theorem length_addL_congr {data other : List UInt8}
    (hsame : data.length = other.length) :
    (addLWithOffset data).length = (addLWithOffset other).length := by
  rw [addLWithOffset, addLWithOffset, hsame]
  split
  · rfl
  · rw [List.length_append, List.length_append, hsame]

/-- The length of what is written depends on the length of the name only. -/
theorem length_written_congr {other : BoatKeypairPriKeyCtx}
    (hname : ctx.keypairName.bytes.length = other.keypairName.bytes.length) :
    ctx.written.length = other.written.length := by
  have hfour (n m : UInt32) : (addLWithOffset (enumBytes n)).length =
      (addLWithOffset (enumBytes m)).length := rfl
  have hone (a b : UInt8) : (addLWithOffset [a]).length =
      (addLWithOffset [b]).length := rfl
  have hpubkey := length_addL_congr
    (ctx.pubkeyContent.2.trans other.pubkeyContent.2.symm)
  apply length_addL_congr
  simp only [addedValues, List.length_append]
  rw [hone ctx.keypairIndex other.keypairIndex, length_addL_congr hname,
    hfour ctx.prikeyFormat other.prikeyFormat,
    hfour ctx.prikeyType other.prikeyType, hpubkey]

/-- The name of a keypair has the same length under every index. -/
theorem length_written_context (key : CreatedKey)
    (keypairName : Option CString) (hindex : index ∈ persistentIndices) :
    (key.context index keypairName).written.length =
      (key.context 0 keypairName).written.length := by
  apply length_written_congr
  cases keypairName with
  | some name => rfl
  | none =>
      revert hindex
      simp only [persistentIndices, List.mem_cons, List.not_mem_nil, or_false]
      rintro (rfl | rfl | rfl | rfl | rfl) <;> rfl

/-- What is written is handed out below `2 ^ 31` bytes, also for an empty name,
and is refused otherwise. -/
theorem getDataCtxData_written
    (hwidth : ctx.keypairName.bytes.length + 83 < 2 ^ 32) :
    boatKeypairGetDataCtxData ctx (boatKeypairGetDataCtxLen ctx) =
      if 2 ^ 31 ≤ ctx.written.length then boatThrow boatError
      else .ok ctx.written := by
  rw [getDataCtxData_eq]
  apply if_neg
  by_cases hempty : ctx.keypairName.bytes = []
  · obtain ⟨hlength, hlen⟩ := emptyName_lengths hempty
    rw [hlength, hlen]
    decide
  · rw [getDataCtxLen_eq hempty hwidth]
    exact Nat.lt_irrefl _

theorem written_ne_nil (ctx : BoatKeypairPriKeyCtx) : ctx.written ≠ [] := by
  have hfirst : addLWithOffset [ctx.keypairIndex] =
      [1, ctx.keypairIndex] := rfl
  have hsome : (addedValues ctx).length ≠ 0 := by
    rw [addedValues, hfirst]
    exact Nat.succ_ne_zero _
  intro hnil
  have hlength := congrArg List.length hnil
  rw [BoatKeypairPriKeyCtx.written, addLWithOffset, if_neg hsome,
    List.length_append, List.length_nil] at hlength
  omega

/-- What a keypair that is written with room leaves in flash. -/
def Device.withWritten (d : Device) (ctxs : List BoatKeypairPriKeyCtx)
    (ctx : BoatKeypairPriKeyCtx) : Device :=
  d.appendRecord .keypair .flash (ctxs.map BoatKeypairPriKeyCtx.record)
    ctx.written

section Append

variable (hhas : d.Has layout) (hnamed : AllNamed layout.keypairs)
  (hwidth : ctx.keypairName.bytes.length + 83 < 2 ^ 32)

include hhas hnamed hwidth

/-- A keypair that has room is written behind the others. -/
theorem appendKeypair_written
    (hfits : 4 + (keypairBytes layout.keypairs).length + ctx.written.length ≤
      717) :
    Spared (appendKeypair ctx .flash layout.keypairs.length) d
      (layout.keypairs.length * 1 + 2 * 1) (.ok ())
      (d.withWritten layout.keypairs ctx) := by
  have hskip := skipKeypairs_runs
    (fun hne => hhas.keypairs.keypairBody hne) (by decide) hnamed
  have hdata := getDataCtxData_written hwidth
  rw [if_neg (by omega)] at hdata
  have hroom : 4 + (layout.keypairs.map
      BoatKeypairPriKeyCtx.record).flatten.length + ctx.written.length ≤
        BoatStoreFile.keypair.room .flash := hfits
  have hwrite := writeRecord_runs (d := d) (by decide) (written_ne_nil ctx) hroom
  rw [List.length_map] at hwrite
  exact hskip.spared.bind (ofOutcome_bind hdata hwrite).spared

/-- A keypair without room is refused and nothing is written. -/
theorem appendKeypair_noRoom
    (hfull : 717 < 4 + (keypairBytes layout.keypairs).length +
      ctx.written.length) :
    ∃ code, Spared (appendKeypair ctx .flash layout.keypairs.length) d
      (layout.keypairs.length * 1 + 0) (.error (.code code)) d := by
  have hskip := skipKeypairs_runs
    (fun hne => hhas.keypairs.keypairBody hne) (by decide) hnamed
  have hdata := getDataCtxData_written hwidth
  have hlength := hhas.keypairs.length_le
  have hlt := keypairRoom_lt .flash
  by_cases hlong : 2 ^ 31 ≤ ctx.written.length
  · rw [if_pos hlong] at hdata
    exact ⟨_, (hskip.bind (ofOutcome_error hdata)).spared⟩
  · rw [if_neg hlong] at hdata
    have hsmall : (keypairBytes layout.keypairs).length < 1000 := by
      rw [keypairBytes]
      omega
    have hrefused : Reads (writeRecord .keypair
        (4 + (keypairBytes layout.keypairs).length) ctx.written
          layout.keypairs.length .flash) d 0
            (.error (.code boatErrorCommonOutOfMemory)) :=
      (store_runs_too_long hfull (by omega)).bind_error
    exact ⟨_, (hskip.bind (ofOutcome_bind hdata hrefused)).spared⟩

/-- Without a fault a keypair is stored exactly where it has room. -/
theorem dataCtxStore_unfaulted (hroom : layout.keypairs.length < 5) :
    Ends (boatKeypairDataCtxStore ctx .flash) ⟨d, none⟩ fun r t =>
      (r = .ok () ∧ t = ⟨d.withWritten layout.keypairs ctx, none⟩ ∧
        4 + (keypairBytes layout.keypairs).length + ctx.written.length ≤ 717) ∨
      (∃ code, r = .error (.code code)) ∧
        ¬4 + (keypairBytes layout.keypairs).length + ctx.written.length ≤
          717 := by
  have hcount : (layout.keypairs.map BoatKeypairPriKeyCtx.record).length <
      boatMaxKeypairNum := by
    rwa [List.length_map]
  by_cases hfits : 4 + (keypairBytes layout.keypairs).length +
      ctx.written.length ≤ 717
  · have hwritten := appendKeypair_written hhas hnamed hwidth hfits
    rw [← List.length_map BoatKeypairPriKeyCtx.record] at hwritten
    have hstored : Spared (boatKeypairDataCtxStore ctx .flash) d _ (.ok ())
        (d.withWritten layout.keypairs ctx) :=
      storeCounted_spared hhas.keypairs hcount (by decide) hwritten
    exact ⟨_, _, hstored.run, Or.inl ⟨rfl, rfl, hfits⟩⟩
  · obtain ⟨code, hrefused⟩ := appendKeypair_noRoom hhas hnamed hwidth
      (Nat.lt_of_not_le hfits)
    rw [← List.length_map BoatKeypairPriKeyCtx.record] at hrefused
    have hstored : Spared (boatKeypairDataCtxStore ctx .flash) d _
        (.error (.code code)) d :=
      storeCounted_spared hhas.keypairs hcount (by decide) hrefused
    exact ⟨_, _, hstored.run, Or.inr ⟨⟨code, rfl⟩, hfits⟩⟩

end Append

/-- Without a fault a private key of a new index is stored. -/
theorem storePrikey_unfaulted {salt : Bytes 16} {secret : List UInt8}
    {prikeys : List PrikeyRecord} (hheld : d.HoldsPrikeys .flash prikeys)
    (hroom : prikeys.length < 5)
    (habsent : ∀ other ∈ prikeys, other.index ≠ index) (hindex : index ≠ 0)
    (hpos : 0 < secret.length) (hlen : secret.length ≤ 47) :
    Ends (storePrikeyOrDelete crypto salt index secret) ⟨d, none⟩
      fun r _ => r = .ok () := by
  obtain ⟨prikey, rfl, hchip⟩ := sealedFor_exists crypto salt index hpos hlen
  have hlength := prikey.length_record
  have hsized := prikey.sized
  have hbytes := length_prikeyBytes_le prikeys
  have hfits : 4 + (prikeyBytes prikeys).length + prikey.record.length ≤
      BoatStoreFile.prikey.room .flash := by
    change 4 + (prikeyBytes prikeys).length + prikey.record.length ≤ 499
    omega
  have hcount : (prikeys.map PrikeyRecord.record).length <
      boatMaxKeypairNum := by
    rwa [List.length_map]
  have hruns := (appendPrikey_runs (fun hne => hheld.prikeyBody hne)
    (by decide) habsent rfl hchip hfits).spared
  rw [← List.length_map PrikeyRecord.record] at hruns
  obtain ⟨ops, t, hstored⟩ : ∃ ops t, Spared (boatKeystoreStorePrikey crypto
      salt prikey.index secret) d ops (.ok ()) t := by
    unfold boatKeystoreStorePrikey
    rw [if_neg hindex]
    exact ⟨_, _, storeCounted_spared hheld hcount (by decide) hruns⟩
  have hlast : Spared (storePrikeyOrDelete crypto salt prikey.index secret) d
      ops (.ok ()) t := (call_ok hstored).map rfl
  exact ⟨_, _, hlast.run, rfl⟩

section Create

variable (hhas : d.Has layout) (htidy : layout.Tidy)

include hhas htidy

/-- With room for one keypair more an index is free. -/
theorem freeIndex_unfaulted (hroom : layout.keypairs.length < 5) :
    Ends boatKeypairGetFreeIndexFromPersistent ⟨d, none⟩ fun r t =>
      t = ⟨d, none⟩ ∧ ∃ index, r = .ok index ∧ index ∈ persistentIndices ∧
        index ∉ layout.keypairs.map (·.keypairIndex) := by
  refine (freeIndex_ends hhas htidy none).mono ?_
  rintro r t ⟨rfl, ⟨index, hok, hfree, _⟩ | ⟨hfull, _⟩⟩
  · exact ⟨rfl, index, hok, firstFree_mem hfree⟩
  · rw [hfull] at hroom
    exact absurd hroom (Nat.lt_irrefl 5)

/-- The private key of a keypair that was written is stored. -/
theorem storePrikey_behind (hkey : 0 < key.prikey.length)
    (hlen : key.prikey.length ≤ 47) (hroom : layout.keypairs.length < 5)
    (hindex : index ∈ persistentIndices)
    (hfree : index ∉ layout.keypairs.map (·.keypairIndex))
    (hfits : 4 + (keypairBytes layout.keypairs).length + ctx.written.length ≤
      717) :
    Ends (storePrikeyOrDelete crypto random.salt index key.prikey)
      ⟨d.withWritten layout.keypairs ctx, none⟩ fun r _ => r = .ok () := by
  have honly : OnlyIn .keypair .flash d (d.withWritten layout.keypairs ctx) :=
    OnlyIn.appendRecord hfits
  have hheld : (d.withWritten layout.keypairs ctx).HoldsPrikeys .flash
      layout.prikeys := honly.region (by decide) hhas.prikeys
  have hroom : layout.prikeys.length < 5 := by
    rwa [htidy.prikeysLength]
  refine storePrikey_unfaulted hheld hroom ?_ (mem_persistentIndices hindex).1
    hkey hlen
  intro other hother heq
  apply hfree
  apply htidy.paired.mem_iff.mp
  exact List.mem_map.mpr ⟨other, hother, heq⟩

/-- Without a fault a key that was made is stored exactly where it has room
behind the others. -/
theorem createFlash_unfaulted
    (hwidth : ∀ name ∈ keypairName, name.bytes.length + 83 < 2 ^ 32)
    (hmade : boatPortKeyCreate crypto random config = .ok key)
    (hkey : 0 < key.prikey.length) (hlen : key.prikey.length ≤ 47)
    (hroom : layout.keypairs.length < 5) :
    Ends (boatKeypairCreate crypto random (some config) keypairName .flash)
      ⟨d, none⟩ fun r _ =>
        (∃ index, r = .ok index) ↔
          4 + (keypairBytes layout.keypairs).length +
            (key.context 0 keypairName).written.length ≤ 717 := by
  change Ends (boatKeypairGetFreeIndexFromPersistent >>= fun index =>
    ofOutcome (boatPortKeyCreate crypto random config) >>= fun key =>
      boatKeypairDataCtxStore (key.context index keypairName) .flash >>=
        fun _ => storePrikeyOrDelete crypto random.salt index key.prikey >>=
          fun _ => pure index) _ _
  refine (freeIndex_unfaulted hhas htidy hroom).bind ?_ ?_
  · rintro index _ ⟨rfl, _, hok, hindex, hfree⟩
    obtain rfl := Except.ok.inj hok
    have hwide : (key.context index keypairName).keypairName.bytes.length +
        83 < 2 ^ 32 := by
      cases keypairName with
      | some name => exact hwidth name rfl
      | none =>
          exact (keypairNameOrDefault_proper (fun _ h => by cases h)
            (Or.inr hindex)).2
    rw [hmade, ← length_written_context key keypairName hindex]
    refine (ofOutcome_ends (.ok key) _).bind ?_ ?_
    · rintro _ _ ⟨hsame, rfl⟩
      obtain rfl := Except.ok.inj hsame
      refine (dataCtxStore_unfaulted hhas htidy.named hwide hroom).bind ?_ ?_
      · rintro _ _ (⟨_, rfl, hfits⟩ | ⟨⟨_, heq⟩, _⟩)
        · refine (storePrikey_behind hhas htidy hkey hlen hroom hindex hfree
            hfits).bind ?_ ?_
          · intro _ _ _
            exact Ends.pure (iff_of_true ⟨index, rfl⟩ hfits)
          · intro _ _ heq
            cases heq
        · cases heq
      · rintro _ _ (⟨heq, _⟩ | ⟨_, hfull⟩)
        · cases heq
        · refine iff_of_false ?_ hfull
          rintro ⟨_, heq⟩
          cases heq
    · rintro _ _ ⟨heq, _⟩
      cases heq
  · rintro _ _ ⟨_, _, heq, _⟩
    cases heq

omit htidy in
/-- With five keypairs none is stored. -/
theorem dataCtxStore_full (ctx : BoatKeypairPriKeyCtx)
    (hfull : layout.keypairs.length = 5) :
    Ends (boatKeypairDataCtxStore ctx .flash) ⟨d, none⟩ fun r t =>
      (∃ code, r = .error (.code code)) ∧ t.state = d := by
  have hcount : boatMaxKeypairNum ≤
      (layout.keypairs.map BoatKeypairPriKeyCtx.record).length := by
    rw [List.length_map, hfull]
    decide
  have hrefused : Spared (boatKeypairDataCtxStore ctx .flash) d 1
      (.error (.code boatErrorKeypairKeyIndexExceed)) d :=
    storeCounted_full hhas.keypairs hcount (by
      rw [List.length_map, hfull]
      decide)
  exact ⟨_, _, hrefused.run, ⟨_, rfl⟩, rfl⟩

/-- With five keypairs every call is refused, whatever fault hits it. -/
theorem createFlash_full
    (hmade : boatPortKeyCreate crypto random config = .ok key)
    (hfull : layout.keypairs.length = 5) (fuse : Option Nat) :
    Ends (boatKeypairCreate crypto random (some config) keypairName .flash)
      ⟨d, fuse⟩ fun r t => (∃ code, r = .error (.code code)) ∧ t.state = d := by
  change Ends (boatKeypairGetFreeIndexFromPersistent >>= fun index =>
    ofOutcome (boatPortKeyCreate crypto random config) >>= fun key =>
      boatKeypairDataCtxStore (key.context index keypairName) .flash >>=
        fun _ => storePrikeyOrDelete crypto random.salt index key.prikey >>=
          fun _ => pure index) _ _
  refine (freeIndex_ends hhas htidy fuse).bind ?_ ?_
  · rintro index _ ⟨rfl, ⟨_, _, _, hburnt⟩ | ⟨_, _, heq⟩⟩
    · -- only an unread count gives an index, and no fault is left behind it
      obtain rfl := hburnt hfull
      rw [hmade]
      refine (ofOutcome_ends (.ok key) _).bind ?_ ?_
      · rintro key _ ⟨_, rfl⟩
        have hleft : leftover (some 0) (listOps layout.keypairs.length) =
            none := if_pos (by rw [listOps]; omega)
        rw [hleft]
        refine (dataCtxStore_full hhas _ hfull).bind ?_ ?_
        · rintro _ _ ⟨⟨_, heq⟩, _⟩
          cases heq
        · rintro _ _ ⟨⟨code, heq⟩, hsame⟩
          obtain rfl := Except.error.inj heq
          exact ⟨⟨code, rfl⟩, hsame⟩
      · rintro _ _ ⟨heq, _⟩
        cases heq
    · cases heq
  · rintro _ _ ⟨rfl, ⟨_, heq, _⟩ | ⟨_, code, heq⟩⟩
    · cases heq
    · obtain rfl := Except.error.inj heq
      exact ⟨⟨code, rfl⟩, rfl⟩

/-- A call that has room adds one keypair. -/
theorem createFlash_adds
    (hproper : ProperCreate crypto random (some config) keypairName)
    (hmade : boatPortKeyCreate crypto random config = .ok key)
    (hroom : layout.keypairs.length < 5)
    (hfits : 4 + (keypairBytes layout.keypairs).length +
      (key.context 0 keypairName).written.length ≤ 717) :
    ∃ index ∈ persistentIndices,
      ((KeypairCall.create random (some config) keypairName .flash).after
        crypto d none).keypairs =
          layout.keypairs ++ [key.context index keypairName] := by
  have hkey := hproper.key config rfl
  rw [KeyFits, hmade] at hkey
  have hstored := createFlash_unfaulted hhas htidy
    (fun name hname => (hproper.name name hname).2) hmade hkey.1 hkey.2 hroom
  have hboth := hstored.and (createFlash_ends hhas htidy hproper
    fun _ hk => by cases hk)
  refine KeypairCall.after_of_ends (P := fun d' => ∃ index ∈ persistentIndices,
    d'.keypairs = layout.keypairs ++ [key.context index keypairName]) hboth ?_
  rintro r t ⟨hstored, hcreated⟩
  obtain ⟨stored, hok⟩ := hstored.mpr hfits
  cases hcreated with
  | added _ config' made index prikey hgiven hmade' hfree hsealed hafter =>
      obtain rfl := Option.some.inj hgiven
      obtain rfl := Except.ok.inj (hmade.symm.trans hmade')
      have hname := keypairNameOrDefault_proper hproper.name (Or.inr hfree.1)
      have htidyAfter := htidy.add (key.context index keypairName) hname.1
        hfree.1 hfree.2 hsealed.index_eq
      exact ⟨index, hfree.1, hafter.keypairs_eq htidyAfter⟩
  | refused _ _ _ _ => cases hok

end Create

/-- On a reachable device a key that was made is stored exactly where its record
has room behind the others, and with five keypairs it never is. -/
theorem boatKeypairCreate_stored_iff (hreach : Reachable crypto d)
    (hwidth : ∀ name ∈ keypairName, name.bytes.length + 83 < 2 ^ 32)
    (hmade : boatPortKeyCreate crypto random config = .ok key)
    (hkey : 0 < key.prikey.length) (hlen : key.prikey.length ≤ 47) :
    (d.keypairs.length < boatMaxKeypairNum →
      ((∃ index t, boatKeypairCreate crypto random (some config) keypairName
          .flash ⟨d, none⟩ = .ok index t) ↔
        4 + (keypairBytes d.keypairs).length +
            (key.context 0 keypairName).written.length ≤
          BoatStoreFile.keypair.room .flash)) ∧
    (d.keypairs.length = boatMaxKeypairNum → ∀ fuse, ∃ code t,
      boatKeypairCreate crypto random (some config) keypairName .flash
        ⟨d, fuse⟩ = .error (.code code) t ∧ t.state = d) := by
  obtain ⟨layout, hhas, htidy⟩ := hreach.tidy
  rw [hhas.keypairs_eq htidy]
  constructor
  · intro hroom
    obtain ⟨r, t, hrun, hstored⟩ :=
      createFlash_unfaulted hhas htidy hwidth hmade hkey hlen hroom
    refine Iff.trans ?_ hstored
    rw [hrun]
    cases r with
    | ok index => exact iff_of_true ⟨index, t, rfl⟩ ⟨index, rfl⟩
    | error e =>
        constructor
        · rintro ⟨_, _, heq⟩
          cases heq
        · rintro ⟨_, heq⟩
          cases heq
  · intro hfull fuse
    obtain ⟨_, t, hrun, ⟨code, rfl⟩, hsame⟩ :=
      createFlash_full hhas htidy hmade hfull fuse
    exact ⟨code, t, hrun, hsame⟩

section Samples

/-- The key that `injectedKey` makes. -/
def madeKey : CreatedKey :=
  ⟨boatKeypairPrikeyFormatNative, boatKeypairPrikeyTypeSecp256k1,
    plainCrypto.publicKey .secp256k1 [7], [7]⟩

theorem madeKey_made :
    boatPortKeyCreate plainCrypto noRandomness injectedKey = .ok madeKey :=
  rfl

theorem boatKeypairCreate_stored_blank :
    ∃ index t, boatKeypairCreate plainCrypto noRandomness (some injectedKey)
      none .flash ⟨blankDevice, none⟩ = .ok index t := by
  have hblank : blankDevice.keypairs = [] :=
    blankDevice_erased.has.keypairs_eq tidy_empty
  have hnoName : ∀ name ∈ (none : Option CString),
      name.bytes.length + 83 < 2 ^ 32 := fun _ hname => by cases hname
  have hiff := (boatKeypairCreate_stored_iff (.erased blankDevice_erased)
    hnoName madeKey_made (by decide) (by decide)).1
  rw [hblank] at hiff
  exact (hiff (by decide)).mpr (by decide)

/-- A name of 64 bytes, the longest that the header file allows. -/
def longName : CString :=
  ⟨List.replicate 64 0x61, by decide⟩

theorem longName_proper :
    ProperCreate plainCrypto noRandomness (some injectedKey) (some longName) where
  name name hname := by
    obtain rfl := Option.some.inj hname
    exact ⟨by decide, by decide⟩
  key := injectedKey_proper.key

theorem length_written_longName {ctx : BoatKeypairPriKeyCtx}
    (hname : ctx.keypairName = longName) : ctx.written.length = 144 := by
  have hbytes : ctx.keypairName.bytes = List.replicate 64 0x61 := by
    rw [hname]
    rfl
  have hsome : ctx.keypairName.bytes ≠ [] := by
    rw [hbytes]
    exact List.cons_ne_nil _ _
  have hvalues := length_addedValues hsome
  rw [hbytes, List.length_replicate] at hvalues
  rw [BoatKeypairPriKeyCtx.written, length_addL_addedValues hsome, hvalues]
  rfl

/-- Up to four keypairs with long names have room. -/
theorem longNames_reachable {n : Nat} (hn : n ≤ 4) :
    ∃ d, Reachable plainCrypto d ∧ d.keypairs.length = n ∧
      (keypairBytes d.keypairs).length = 144 * n := by
  induction n with
  | zero =>
      have hblank : blankDevice.keypairs = [] :=
        blankDevice_erased.has.keypairs_eq tidy_empty
      refine ⟨blankDevice, .erased blankDevice_erased, ?_, ?_⟩
      · rw [hblank]
        rfl
      · rw [hblank]
        rfl
  | succ n ih =>
      obtain ⟨d, hreach, hnum, hbytes⟩ := ih (Nat.le_of_succ_le hn)
      obtain ⟨layout, hhas, htidy⟩ := hreach.tidy
      rw [hhas.keypairs_eq htidy] at hnum hbytes
      have hlong : (madeKey.context 0 (some longName)).written.length = 144 :=
        length_written_longName rfl
      obtain ⟨index, _, hafter⟩ := createFlash_adds hhas htidy longName_proper
        madeKey_made (by omega) (by omega)
      have hrecord : (madeKey.context index (some longName)).record.length =
          144 := by
        have hname : (madeKey.context index
            (some longName)).keypairName.bytes.length = 64 := rfl
        have hupper := (madeKey.context index (some longName)).length_record.2
        have hadded : addLWithOffset (addedValues
            (madeKey.context index (some longName))) =
              (madeKey.context index (some longName)).record :=
          addL_keypair (List.cons_ne_nil _ _) (by omega)
        rw [← hadded]
        exact length_written_longName rfl
      refine ⟨_, hreach.step (.create noRandomness (some injectedKey)
        (some longName) .flash) none ⟨longName_proper, fun _ _ hk => by
          cases hk⟩, ?_, ?_⟩
      · rw [hafter, List.length_append, hnum]
        rfl
      · rw [hafter, keypairBytes, List.map_append, List.flatten_append,
          List.length_append, List.map_singleton, List.flatten_singleton,
          hrecord, ← keypairBytes, hbytes]
        omega

/-- The fifth keypair with a name of 64 bytes has no room. -/
theorem not_boatKeypairCreate_stored :
    ¬∀ d, Reachable plainCrypto d → d.keypairs.length < boatMaxKeypairNum →
      ∃ index t, boatKeypairCreate plainCrypto noRandomness (some injectedKey)
        (some longName) .flash ⟨d, none⟩ = .ok index t := by
  intro hall
  obtain ⟨d, hreach, hnum, hbytes⟩ := longNames_reachable (Nat.le_refl 4)
  obtain ⟨layout, hhas, htidy⟩ := hreach.tidy
  have hfew : d.keypairs.length < boatMaxKeypairNum := by
    rw [hnum]
    decide
  obtain ⟨index, t, hrun⟩ := hall d hreach hfew
  rw [hhas.keypairs_eq htidy] at hfew hbytes
  have hfits := ((createFlash_unfaulted hhas htidy
    (fun name hname => (longName_proper.name name hname).2) madeKey_made
      (by decide) (by decide) hfew).ok hrun).mp ⟨index, rfl⟩
  have hlong : (madeKey.context 0 (some longName)).written.length = 144 :=
    length_written_longName rfl
  omega

end Samples

end BoatFramework
