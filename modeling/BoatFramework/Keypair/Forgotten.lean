/-
After a delete of a persistent keypair its private key is gone for good: no
later call brings it back but one that creates the index anew.  The keypair
store may hold anything.
-/
import BoatFramework.Base.Exec
import BoatFramework.Keypair.Frame
import BoatFramework.Keypair.Runs

namespace BoatFramework

open Fuse

variable {crypto : Crypto} {d : Device} {s : Fused Device}
  {salt : Bytes 16} {index : UInt8} {key : List UInt8}
  {prikeys others : List PrikeyRecord} {storeType : BoatStoreType}

/-- The private keys in flash, no two of them for one index. -/
structure Device.Secrets (d : Device) (prikeys : List PrikeyRecord) :
    Prop where
  held : d.HoldsPrikeys .flash prikeys
  few : prikeys.length ≤ 5
  distinct : (prikeys.map (·.index)).Nodup

theorem KeepsPrikeys.secrets {t : Fused Device} (hkeeps : KeepsPrikeys s t)
    (hsecrets : s.state.Secrets prikeys) : t.state.Secrets prikeys :=
  ⟨hkeeps.region _ hsecrets.held, hsecrets.few, hsecrets.distinct⟩

/-- A write to RAM. -/
theorem storeRam_framed (storeFile : BoatStoreFile) (offset : Nat)
    (data : List UInt8) :
    Framed Anything (boatStoreSoftRotNvram storeFile offset data .ram) := by
  have hput (d : Device) : (d.put storeFile .ram offset data).flash = d.flash := by
    cases storeFile <;> rfl
  unfold boatStoreSoftRotNvram
  refine Framed.pass fun _ => Framed.pass fun _ => ?_
  refine Framed.pass fun _ => Framed.pass fun _ => update_framed ?_
  exact fun d records hregion => region_of_flash (hput d) hregion

theorem skipPrikeys_framed (num offset : Nat) :
    Framed Anything (skipPrikeys index storeType num offset) := by
  induction num generalizing offset with
  | zero => exact Framed.pure trivial
  | succ num ih =>
      have hlength (offset : Nat) :
          Framed Anything (readLength .prikey offset storeType) :=
        (read_framed .prikey offset 3 storeType).bind fun _ _ =>
          Framed.pure trivial
      refine (hlength offset).bind fun _ _ => Framed.pass fun _ => ?_
      refine ((read_framed .prikey _ 1 storeType).bind (Q := Anything)
        fun _ _ => Framed.pure trivial).bind fun _ _ => ?_
      refine Framed.pass fun _ => ?_
      exact (hlength _).bind fun _ _ => ih _

/-- The onetime private key goes to RAM. -/
theorem storeOnetimePrikey_framed :
    Framed Anything (boatKeystoreStorePrikey crypto salt 0 key) := by
  have hnum : Framed Anything (readNumOrZero .prikey .ram) := by
    refine (read_framed .prikey 0 4 .ram).call ?_ fun _ => Framed.pure trivial
    intro numBytes _
    dsimp only
    cases utilityCheckNumBytes numBytes with
    | error code => exact Framed.pure trivial
    | ok num => exact Framed.pure trivial
  refine hnum.bind fun num _ => Framed.pass fun _ => ?_
  refine (skipPrikeys_framed _ 4).bind fun offset _ => ?_
  refine (ofOutcome_framed (P := Anything) fun _ _ => trivial).bind
    fun chip _ => ?_
  exact (storeRam_framed .prikey _ _).bind fun _ _ => storeRam_framed .prikey _ _

/-- How a call changes the private keys: none is new but that of an index that
it created, and where it deleted one without a fault that one is gone. -/
structure Secretive (prikeys : List PrikeyRecord) (created : Option UInt8)
    (t : Fused Device) (after : List PrikeyRecord) : Prop where
  secrets : t.state.Secrets after
  old : ∀ prikey ∈ after, prikey ∈ prikeys ∨ created = some prikey.index

theorem secretive_self {created : Option UInt8} {t : Fused Device}
    (hsecrets : t.state.Secrets prikeys) :
    Secretive prikeys created t prikeys :=
  ⟨hsecrets, fun _ hprikey => Or.inl hprikey⟩

theorem Secretive.trans {created : Option UInt8} {t u : Fused Device}
    {after last : List PrikeyRecord}
    (hfirst : Secretive prikeys created t after)
    (hsecond : Secretive after created u last) :
    Secretive prikeys created u last := by
  refine ⟨hsecond.secrets, fun prikey hprikey => ?_⟩
  rcases hsecond.old prikey hprikey with hold | hcreated
  · exact hfirst.old prikey hold
  · exact Or.inr hcreated

/-- A private key behind the others. -/
theorem secrets_append (prikey : PrikeyRecord) {t : Fused Device}
    (hsecrets : d.Secrets prikeys) (hroom : prikeys.length < 5)
    (habsent : ∀ other ∈ prikeys, other.index ≠ prikey.index)
    (hheld : t.state.HoldsPrikeys .flash (prikeys ++ [prikey])) :
    Secretive prikeys (some prikey.index) t (prikeys ++ [prikey]) := by
  refine ⟨⟨hheld, ?_, ?_⟩, fun other hother => ?_⟩
  · rw [List.length_append, List.length_singleton]
    omega
  · rw [List.map_append, List.map_singleton]
    refine List.Nodup.append hsecrets.distinct (List.nodup_singleton _) ?_
    refine List.disjoint_singleton.mpr fun hmem => ?_
    obtain ⟨other, hother, heq⟩ := List.mem_map.mp hmem
    exact habsent other hother heq
  · rcases List.mem_append.mp hother with hold | hnew
    · exact Or.inl hold
    · rw [List.mem_singleton.mp hnew]
      exact Or.inr rfl

/-- A call that creates a private key of an index where it succeeds; nothing is
said where it runs into undefined behaviour. -/
def Creates {α : Type} (prikeys : List PrikeyRecord) (index : α → Option UInt8) :
    Except Failure α → Fused Device → Prop
  | .ok v, t => ∃ after, Secretive prikeys (index v) t after
  | .error (.code _), t => ∃ after, Secretive prikeys none t after
  | .error .undefined, _ => True

section Store

variable (hsecrets : d.Secrets prikeys)

include hsecrets

theorem appendSecret_creates (hroom : prikeys.length < 5)
    (habsent : ∀ other ∈ prikeys, other.index ≠ index) (fuse : Option Nat) :
    Ends (appendPrikey crypto salt index key .flash prikeys.length) ⟨d, fuse⟩
      (Creates prikeys fun _ => some index) := by
  have hbody : prikeys ≠ [] →
      d.Holds .prikey .flash 4 (prikeyBytes prikeys) :=
    fun hne => hsecrets.held.prikeyBody hne
  cases hchip : encryptPrikey crypto salt key with
  | error failure =>
      have hruns := appendPrikey_refused hbody (by decide) habsent hchip
      refine (hruns.ends fuse).mono ?_
      rintro _ _ (⟨_, rfl, rfl⟩ | ⟨_, _, _, ⟨code, rfl⟩, rfl, rfl, rfl⟩)
      · cases failure with
        | code code => exact ⟨_, secretive_self hsecrets⟩
        | undefined => exact trivial
      · exact ⟨_, secretive_self hsecrets⟩
  | ok chip =>
      let prikey : PrikeyRecord := ⟨index, chip, (encryptPrikey_sized hchip).2⟩
      have hlength := prikey.length_record
      have hsized := prikey.sized
      have hbytes := length_prikeyBytes_le prikeys
      have hfits : 4 + (prikeyBytes prikeys).length + prikey.record.length ≤
          BoatStoreFile.prikey.room .flash := by
        change 4 + (prikeyBytes prikeys).length + prikey.record.length ≤ 499
        omega
      have hruns := appendPrikey_runs hbody (by decide)
        habsent rfl hchip hfits
      refine (hruns.ends fuse).mono ?_
      rintro _ _ (⟨_, rfl, rfl⟩ | ⟨_, _, t, ⟨code, rfl⟩, ht, rfl, rfl⟩)
      · refine ⟨_, secrets_append prikey hsecrets hroom habsent ?_⟩
        rw [Device.HoldsPrikeys, List.map_append]
        exact hsecrets.held.appendRecord hfits
      · rcases ht with rfl | rfl
        · exact ⟨_, secretive_self hsecrets⟩
        · refine ⟨prikeys, secretive_self ⟨?_, hsecrets.few, hsecrets.distinct⟩⟩
          exact hsecrets.held.put_behind hfits (Nat.le_refl _)

/-- A private key that replaces all others. -/
theorem replaceSecret_creates :
    Ends (appendPrikey crypto salt index key .flash 0) ⟨d, none⟩
      (Creates prikeys fun _ => some index) := by
  have hbody : ([] : List PrikeyRecord) ≠ [] →
      d.Holds .prikey .flash 4 (prikeyBytes []) := fun hne => absurd rfl hne
  have habsent : ∀ other ∈ ([] : List PrikeyRecord), other.index ≠ index :=
    fun other hother => by cases hother
  cases hchip : encryptPrikey crypto salt key with
  | error failure =>
      have hruns := appendPrikey_refused hbody (by decide) habsent hchip
      refine ⟨_, _, hruns.spared.run, ?_⟩
      cases failure with
      | code code => exact ⟨_, secretive_self hsecrets⟩
      | undefined => exact trivial
  | ok chip =>
      let prikey : PrikeyRecord := ⟨index, chip, (encryptPrikey_sized hchip).2⟩
      have hlength := prikey.length_record
      have hsized := prikey.sized
      have hfits : 4 + (prikeyBytes []).length + prikey.record.length ≤
          BoatStoreFile.prikey.room .flash := by
        change 4 + 0 + prikey.record.length ≤ 499
        omega
      have hruns := appendPrikey_runs hbody (by decide)
        habsent rfl hchip hfits
      have hheld : (d.appendRecord .prikey .flash [] prikey.record).HoldsPrikeys
          .flash [prikey] := region_replaceRecord d hfits
      refine ⟨_, _, hruns.spared.run, [prikey], ⟨hheld, by simp, ?_⟩, ?_⟩
      · exact List.nodup_singleton _
      · intro other hother
        rw [List.mem_singleton.mp hother]
        exact Or.inr rfl

theorem storeSecret_creates (hindex : index ≠ 0) (fuse : Option Nat) :
    Ends (boatKeystoreStorePrikey crypto salt index key) ⟨d, fuse⟩
      (Creates prikeys fun _ => some index) := by
  have hfew := hsecrets.few
  unfold boatKeystoreStorePrikey
  rw [if_neg hindex]
  refine storeCounted_ends hsecrets.held ?_ (by decide) ?_ ?_ ?_
  · rw [List.length_map]
    omega
  · exact fun _ => replaceSecret_creates hsecrets
  · exact fun _ => ⟨_, secretive_self hsecrets⟩
  · intro hroom _
    rw [List.length_map] at hroom ⊢
    by_cases hmem : index ∈ prikeys.map (·.index)
    · obtain ⟨front, prikey, back, hsplit⟩ :=
        exists_split hmem hsecrets.distinct
      obtain ⟨rfl, rfl, hbefore, _⟩ := hsplit
      have hruns := appendPrikey_duplicate crypto salt key
        (hsecrets.held.prikeyBody (by simp)) (by decide) hbefore
      refine (hruns.ends (spend fuse 1)).mono ?_
      rintro _ _ (⟨_, rfl, rfl⟩ | ⟨_, _, _, ⟨code, rfl⟩, rfl, rfl, rfl⟩)
      · exact ⟨_, secretive_self hsecrets⟩
      · exact ⟨_, secretive_self hsecrets⟩
    · refine appendSecret_creates hsecrets hroom ?_ (spend fuse 1)
      intro other hother heq
      exact hmem (List.mem_map.mpr ⟨other, hother, heq⟩)

end Store

/-- A delete that succeeds and met no fault leaves no private key of its
index. -/
def Forgets (prikeys : List PrikeyRecord) (index : UInt8) (fuse : Option Nat)
    (r : Except Failure Unit) (t : Fused Device) : Prop :=
  r ≠ .error .undefined → ∃ after, Secretive prikeys none t after ∧
    (r = .ok () → (t.fuse = none → fuse = none) →
      ∀ prikey ∈ after, prikey.index ≠ index)

section Delete

variable (hsecrets : d.Secrets prikeys)

include hsecrets

theorem deleteSecret_forgets (hindex : index ≠ 0) (fuse : Option Nat) :
    Ends (boatDeletePirkeyByIndex index) ⟨d, fuse⟩
      (Forgets prikeys index fuse) := by
  have hfew := hsecrets.few
  by_cases hmax : boatMaxKeypairNum < index.toNat
  · have hrun : Spared (boatDeletePirkeyByIndex index) d 0
        (.error (.code boatError)) d :=
      Spared.stop hmax
    exact Ends.of_error (hrun.run_free fuse)
      fun _ => ⟨prikeys, secretive_self hsecrets, fun hok => by cases hok⟩
  · by_cases hmem : index ∈ prikeys.map (·.index)
    · obtain ⟨front, prikey, back, hsplit⟩ :=
        exists_split hmem hsecrets.distinct
      have heq := hsplit.eq
      have hheld := hsecrets.held
      rw [heq] at hheld
      refine (deletePirkey_cases hsecrets.held hsplit (by omega) hindex
        (Nat.not_lt.mp hmax) fuse).mono ?_
      rintro r t (⟨_, rfl, ht⟩ | ⟨k, rfl, _, _, rfl, rfl⟩ |
        ⟨k, code, rfl, _, rfl, rfl⟩) _
      · refine ⟨front ++ back, ⟨⟨?_, ?_, ?_⟩, ?_⟩, fun _ _ other hother => ?_⟩
        · rw [ht]
          exact withoutPrikey_region hheld
        · rw [heq, List.length_append, List.length_cons] at hfew
          rw [List.length_append]
          omega
        · have hsub : (front ++ back).Sublist prikeys := by
            rw [heq]
            exact (List.sublist_cons_self prikey back).append_left front
          exact hsecrets.distinct.sublist (hsub.map _)
        · intro other hother
          refine Or.inl ?_
          rw [heq]
          rcases List.mem_append.mp hother with hfront | hback
          · exact List.mem_append_left _ hfront
          · exact List.mem_append_right _ (List.mem_cons_of_mem _ hback)
        · rcases List.mem_append.mp hother with hfront | hback
          · exact hsplit.before other hfront
          · exact hsplit.behind other hback
      · refine ⟨prikeys, secretive_self ⟨?_, hfew, hsecrets.distinct⟩,
          fun _ hunmet => by cases hunmet rfl⟩
        rw [heq]
        exact prikeysRecounted_region hheld
      · exact ⟨prikeys, secretive_self hsecrets, fun hok => by cases hok⟩
    · have habsent : ∀ other ∈ prikeys, other.index ≠ index := by
        intro other hother heq
        exact hmem (List.mem_map.mpr ⟨other, hother, heq⟩)
      obtain ⟨ops, r, hruns, _⟩ := deletePirkey_absent hsecrets.held habsent
        (by omega) hindex
      refine (hruns.ends fuse).mono ?_
      rintro _ _ (⟨_, rfl, rfl⟩ | ⟨_, _, _, ⟨code, rfl⟩, rfl, rfl, rfl⟩) _
      · exact ⟨prikeys, secretive_self hsecrets, fun _ _ => habsent⟩
      · exact ⟨prikeys, secretive_self hsecrets, fun _ _ => habsent⟩

end Delete

/-- A framed program ends with the private keys that there were. -/
theorem Framed.secretive {α : Type} {P : α → Prop} {c : Nvram α}
    (hframed : Framed P c) (hsecrets : s.state.Secrets prikeys) :
    Ends c s fun _ t => t.state.Secrets prikeys ∧ (s.fuse = none → t.fuse = none) :=
  (hframed s).mono fun _ _ hlast =>
    ⟨hlast.1.secrets hsecrets, hlast.1.fuse⟩

/-- `BoATIotKeypairDelete`, whatever the keypair store holds. -/
theorem delete_forgets (hsecrets : s.state.Secrets prikeys)
    (hindex : index ≠ 0) :
    Ends (boatIotKeypairDelete index) s
      (Forgets prikeys index s.fuse) := by
  by_cases hmax : boatMaxKeypairNum < index.toNat
  · have hrun : Spared (boatIotKeypairDelete index) s.state 0
        (.error (.code boatErrorKeypairKeyIndexExceed)) s.state :=
      Spared.stop hmax
    exact Ends.of_error (hrun.run_free s.fuse)
      fun _ => ⟨prikeys, secretive_self hsecrets, fun hok => by cases hok⟩
  · rw [boatIotKeypairDelete_persistent hindex (Nat.not_lt.mp hmax)]
    refine ((deleteKeypairRecord_framed index).secretive hsecrets).bind ?_ ?_
    · rintro ctx t ⟨hkept, hfuse⟩
      refine call_ends (deleteSecret_forgets hkept hindex t.fuse) ?_ ?_ ?_
      · intro _ u hforgets
        refine Ends.pure fun _ => ?_
        obtain ⟨after, hsecretive, hgone⟩ := hforgets (by simp)
        exact ⟨after, hsecretive, fun _ hunmet =>
          hgone rfl fun hnone => hfuse (hunmet hnone)⟩
      · intro code u hforgets
        obtain ⟨after, hsecretive, _⟩ := hforgets (by simp)
        refine call_ends ((dataCtxStore_framed ctx .flash).secretive
          hsecretive.secrets) ?_ ?_ ?_
        · rintro _ w ⟨hafter, _⟩
          exact Ends.throw fun _ => ⟨after, ⟨hafter, hsecretive.old⟩,
            fun hok => by cases hok⟩
        · rintro _ w ⟨hafter, _⟩
          exact Ends.throw fun _ => ⟨after, ⟨hafter, hsecretive.old⟩,
            fun hok => by cases hok⟩
        · exact fun w _ hdefined => absurd rfl hdefined
      · exact fun u _ hdefined => absurd rfl hdefined
    · rintro e t ⟨hkept, _⟩ _
      exact ⟨prikeys, secretive_self hkept, fun hok => by cases hok⟩

/-- What a call ends with where a part that created nothing has failed. -/
theorem creates_error {α : Type} {created : α → Option UInt8} {e : Failure}
    {t : Fused Device} (hsecrets : t.state.Secrets prikeys) :
    Creates prikeys created (.error e) t := by
  cases e with
  | code code => exact ⟨prikeys, secretive_self hsecrets⟩
  | undefined => trivial

theorem delete_framed_onetime :
    Framed Anything (boatIotKeypairDelete 0) :=
  Framed.pass fun _ => deleteOnetimeKeypair_framed

theorem storePrikeyOrDelete_creates (hsecrets : s.state.Secrets prikeys) :
    Ends (storePrikeyOrDelete crypto salt index key) s
      (Creates prikeys fun _ => some index) := by
  by_cases hindex : index = 0
  · subst hindex
    refine call_ends (storeOnetimePrikey_framed.secretive hsecrets) ?_ ?_ ?_
    · rintro _ t ⟨hkept, _⟩
      exact Ends.pure ⟨prikeys, secretive_self hkept⟩
    · rintro _ t ⟨hkept, _⟩
      refine call_ends (delete_framed_onetime.secretive hkept) ?_ ?_ ?_
      · exact fun _ u hlast => Ends.throw (creates_error hlast.1)
      · exact fun _ u hlast => Ends.throw (creates_error hlast.1)
      · exact fun u _ => trivial
    · exact fun t _ => trivial
  · refine call_ends (storeSecret_creates hsecrets hindex s.fuse) ?_ ?_ ?_
    · exact fun _ t hcreated => Ends.pure hcreated
    · rintro _ t ⟨after, hsecretive⟩
      refine call_ends (delete_forgets hsecretive.secrets hindex) ?_ ?_ ?_
      · intro _ u hforgets
        obtain ⟨last, hlast, _⟩ := hforgets (by simp)
        exact Ends.throw ⟨last, hsecretive.trans hlast⟩
      · intro _ u hforgets
        obtain ⟨last, hlast, _⟩ := hforgets (by simp)
        exact Ends.throw ⟨last, hsecretive.trans hlast⟩
      · exact fun u _ => trivial
    · exact fun t _ => trivial

/-- `BoatKeypairCreate`, whatever the keypair store holds. -/
theorem create_creates (random : Randomness)
    (keypairConfig : Option BoatKeypairPriKeyCtxConfig)
    (keypairName : Option CString) (hsecrets : s.state.Secrets prikeys) :
    Ends (boatKeypairCreate crypto random keypairConfig keypairName storeType)
      s (Creates prikeys some) := by
  cases keypairConfig with
  | none => exact Ends.throw (creates_error hsecrets)
  | some config =>
      have hknown : Framed Anything (failIf (storeType = .unknown)
          (.code boatErrorKeypairKeyStoretypeErr)) :=
        Framed.ite (fun _ => Framed.throw) fun _ => Framed.pure trivial
      have hkey : Framed Anything
          (ofOutcome (boatPortKeyCreate crypto random config)) :=
        ofOutcome_framed fun _ _ => trivial
      refine (hknown.secretive hsecrets).bind ?_
        fun _ t hlast => creates_error hlast.1
      rintro _ t ⟨hkept, _⟩
      refine ((newIndex_framed storeType).secretive hkept).bind ?_
        fun _ t hlast => creates_error hlast.1
      rintro keypairIndex t ⟨hkept, _⟩
      refine (hkey.secretive hkept).bind ?_
        fun _ t hlast => creates_error hlast.1
      rintro key t ⟨hkept, _⟩
      refine ((dataCtxStore_framed _ storeType).secretive hkept).bind ?_
        fun _ t hlast => creates_error hlast.1
      rintro _ t ⟨hkept, _⟩
      refine (storePrikeyOrDelete_creates hkept).bind ?_ ?_
      · exact fun _ t hcreated => Ends.pure hcreated
      · intro e t hcreated
        cases e with
        | code code => exact hcreated
        | undefined => trivial

theorem delete_creates (hsecrets : s.state.Secrets prikeys) :
    Ends (boatIotKeypairDelete index) s
      (Creates prikeys fun _ => none) := by
  by_cases hindex : index = 0
  · subst hindex
    refine (delete_framed_onetime.secretive hsecrets).mono ?_
    rintro r t ⟨hkept, _⟩
    cases r with
    | ok _ => exact ⟨prikeys, secretive_self hkept⟩
    | error e => exact creates_error hkept
  · refine (delete_forgets hsecrets hindex).mono fun r t hforgets => ?_
    match r with
    | .ok _ =>
        obtain ⟨after, hsecretive, _⟩ := hforgets (by simp)
        exact ⟨after, hsecretive⟩
    | .error (.code _) =>
        obtain ⟨after, hsecretive, _⟩ := hforgets (by simp)
        exact ⟨after, hsecretive⟩
    | .error .undefined => trivial

theorem readPrikeyLength_framed (offset : Nat) :
    Framed Anything (readLength .prikey offset storeType) :=
  (read_framed .prikey offset 3 storeType).bind fun _ _ => Framed.pure trivial

theorem decryptPrikeyAt_framed (num offset : Nat) :
    Framed Anything (decryptPrikeyAt crypto index storeType num offset) := by
  induction num generalizing offset with
  | zero => exact Framed.throw
  | succ num ih =>
      refine (readPrikeyLength_framed offset).bind fun _ _ => ?_
      refine Framed.pass fun _ => ?_
      refine ((read_framed .prikey _ 1 storeType).bind (Q := Anything)
        fun _ _ => Framed.pure trivial).bind fun _ _ => ?_
      refine (readPrikeyLength_framed _).bind fun _ _ => ?_
      refine Framed.ite (fun _ => Framed.pass fun _ => ?_)
        fun _ => Framed.pass fun _ => ih _
      refine (read_framed .prikey _ _ storeType).bind fun _ _ => ?_
      exact ofOutcome_framed fun _ _ => trivial

theorem getPirkey_framed :
    Framed Anything (boatGetPirkeyByIndex crypto index) := by
  refine (read_framed .prikey 0 4 _).bind fun numBytes _ => ?_
  cases utilityCheckNumBytes numBytes with
  | error code => exact Framed.throw
  | ok num =>
      exact Framed.ite (fun _ => Framed.throw) fun _ =>
        decryptPrikeyAt_framed num 4

theorem sign_framed (type : BoatKeypairPriKeyType) (digest : List UInt8) :
    Framed Anything (boatKeystoreSign crypto type index digest) :=
  getPirkey_framed.bind fun _ _ => ofOutcome_framed fun _ _ => trivial

/-- A call of an application on its keypairs. -/
inductive KeypairUse where
  | create (random : Randomness)
      (keypairConfig : Option BoatKeypairPriKeyCtxConfig)
      (keypairName : Option CString) (storeType : BoatStoreType)
  | delete (index : UInt8)
  | getPirkey (index : UInt8)
  | sign (type : BoatKeypairPriKeyType) (index : UInt8) (digest : List UInt8)

/-- A call, with the index that it created a keypair for. -/
def KeypairUse.run (crypto : Crypto) : KeypairUse → Nvram (Option UInt8)
  | .create random keypairConfig keypairName storeType => do
      let index ← boatKeypairCreate crypto random keypairConfig keypairName
        storeType
      pure (some index)
  | .delete index => do
      boatIotKeypairDelete index
      pure none
  | .getPirkey index => do
      let _ ← boatGetPirkeyByIndex crypto index
      pure none
  | .sign type index digest => do
      let _ ← boatKeystoreSign crypto type index digest
      pure none

theorem creates_bind {α β : Type} {c : Nvram α} {f : α → Nvram β}
    {created : α → Option UInt8} {created' : β → Option UInt8} {g : α → β}
    (hends : Ends c s (Creates prikeys created)) (hf : ∀ v, f v = pure (g v))
    (hg : ∀ v, created' (g v) = created v) :
    Ends (c >>= f) s (Creates prikeys created') := by
  refine hends.bind (fun v t hcreated => ?_) fun e t hcreated => ?_
  · rw [hf]
    refine Ends.pure ?_
    rw [Creates, hg]
    exact hcreated
  · cases e with
    | code code => exact hcreated
    | undefined => trivial

/-- The step of a run: no private key is new but that of the index that the
call created. -/
theorem KeypairUse.run_creates (use : KeypairUse)
    (hsecrets : s.state.Secrets prikeys) :
    Ends (use.run crypto) s (Creates prikeys id) := by
  have hread {α : Type} {c : Nvram α} (hframed : Framed Anything c) :
      Ends c s (Creates prikeys fun _ => none) := by
    refine (hframed.secretive hsecrets).mono fun r t hlast => ?_
    cases r with
    | ok _ => exact ⟨prikeys, secretive_self hlast.1⟩
    | error e => exact creates_error hlast.1
  cases use with
  | create random keypairConfig keypairName storeType =>
      exact creates_bind (create_creates random keypairConfig keypairName
        hsecrets) (fun _ => rfl) fun _ => rfl
  | delete index =>
      exact creates_bind (g := fun _ => none) (delete_creates hsecrets)
        (fun _ => rfl) fun _ => rfl
  | getPirkey index =>
      exact creates_bind (g := fun _ => none) (hread getPirkey_framed)
        (fun _ => rfl) fun _ => rfl
  | sign type index digest =>
      exact creates_bind (g := fun _ => none) (hread (sign_framed type digest))
        (fun _ => rfl) fun _ => rfl

/-- Any calls in any order, each with a fault or none, that create keypairs of
some indices only.  No call runs into undefined behaviour. -/
inductive KeypairHistory (crypto : Crypto) (creatable : UInt8 → Prop)
    (d : Device) : Device → Prop where
  | start : KeypairHistory crypto creatable d d
  | step {d' : Device} {r : Outcome (Option UInt8)} {t : Fused Device}
      (use : KeypairUse) (fuse : Option Nat)
      (hhistory : KeypairHistory crypto creatable d d')
      (hrun : use.run crypto ⟨d', fuse⟩ = result r t)
      (hdefined : r ≠ .error .undefined)
      (hcreated : ∀ index, r = .ok (some index) → creatable index) :
      KeypairHistory crypto creatable d t.state

theorem KeypairHistory.secrets {creatable : UInt8 → Prop} {d' : Device}
    (hhistory : KeypairHistory crypto creatable d d')
    (hsecrets : d.Secrets prikeys) :
    ∃ after, d'.Secrets after ∧
      ∀ prikey ∈ after, prikey ∈ prikeys ∨ creatable prikey.index := by
  induction hhistory with
  | start => exact ⟨prikeys, hsecrets, fun _ hprikey => Or.inl hprikey⟩
  | @step d' r t use fuse _ hrun hdefined hcreated ih =>
      obtain ⟨before, hbefore, hold⟩ := ih
      have hcreates := Ends.result_eq (s := ⟨d', fuse⟩)
        (use.run_creates hbefore) hrun
      match r with
      | .ok index =>
          obtain ⟨after, hsecretive⟩ := hcreates
          refine ⟨after, hsecretive.secrets, fun prikey hprikey => ?_⟩
          rcases hsecretive.old prikey hprikey with hmem | hnew
          · exact hold prikey hmem
          · refine Or.inr (hcreated prikey.index ?_)
            rw [← hnew]
            rfl
      | .error (.code code) =>
          obtain ⟨after, hsecretive⟩ := hcreates
          refine ⟨after, hsecretive.secrets, fun prikey hprikey => ?_⟩
          rcases hsecretive.old prikey hprikey with hmem | hnew
          · exact hold prikey hmem
          · cases hnew
      | .error .undefined => exact absurd rfl hdefined

theorem Device.Erased.secrets (herased : d.Erased) : d.Secrets [] where
  held := herased.has.prikeys
  few := Nat.zero_le 5
  distinct := List.nodup_nil

/-- The first call of an application. -/
theorem KeypairHistory.first {d' : Device} {v : Option UInt8}
    {fuse : Option Nat} {rest : Option Nat} (use : KeypairUse)
    (hrun : use.run crypto ⟨d, fuse⟩ = .ok v ⟨d', rest⟩) :
    KeypairHistory crypto (fun _ => True) d d' :=
  .step (t := ⟨d', rest⟩) (r := .ok v) use fuse .start hrun (by simp)
    fun _ _ => trivial

end BoatFramework
