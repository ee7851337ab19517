/-
Keys from outside.  A native key comes as bytes, and its public key is computed;
both keys of a PEM text are taken as they are found, and the type is the one the
caller declares.
-/
import BoatFramework.Keypair.Crypto
import BoatFramework.Utility.PkcsOutcome

namespace BoatFramework

open Der Exec

/-- The curve of a key type. -/
def curveOfType (type : BoatKeypairPriKeyType) : Option Curve :=
  if type = boatKeypairPrikeyTypeSecp256k1 then some .secp256k1
  else if type = boatKeypairPrikeyTypeSecp256r1 then some .nist256p1
  else none

/-- The curve that is named in a PEM text, where keys of it have a type. -/
def curveOfAlg : KeypairAlg → Option Curve
  | .secp256k1 => some .secp256k1
  | .secp256r1 => some .nist256p1
  | .sm => none
  | .unknown => none

/-- `memcpy` of `len` bytes from a key. -/
def KeyPointer.copy (pointer : KeyPointer) (len : Nat) :
    Outcome (List UInt8) :=
  if len = 0 then .ok []
  else
    match pointer with
    | live bytes =>
        if len ≤ bytes.length then .ok (bytes.take len) else .error .undefined
    | _ => .error .undefined

/-- `UtilityFreeKeypair`; the caller's pointers are copies. -/
def utilityFreeKeypair (keypair : PkcsKeypair) : Outcome Unit :=
  if keypair.prikeylen ≠ 0 ∧ keypair.prikey = .freed ∨
      keypair.pubkeylen ≠ 0 ∧ keypair.pubkey = .freed then .error .undefined
  else .ok ()

/-- `sBoatPort_keyCreate_external_injection_pkcs`. -/
def keyCreateFromPem (grants : Nat → Bool)
    (config : BoatKeypairPriKeyCtxConfig) : Outcome CreatedKey := do
  let content ← injectedContent config
  let (code, keypair) ← utilityPKCS2Native grants (.ofBuffer content)
  if code ≠ boatSuccess then
    let _ ← utilityFreeKeypair keypair
    boatThrow code
  else
    let prikey ← keypair.prikey.copy keypair.prikeylen
    let pubkey ← keypair.pubkey.copy keypair.pubkeylen
    let pubkey ← pubkeyOfNative pubkey
    let _ ← utilityFreeKeypair keypair
    .ok ⟨boatKeypairPrikeyFormatNative, config.prikeyType, pubkey, prikey⟩

/-- The part of `BoatPort_keyCreate` for keys from outside. -/
def keyCreateExternalInjection (crypto : Crypto) (grants : Nat → Bool)
    (config : BoatKeypairPriKeyCtxConfig) : Outcome CreatedKey :=
  if config.prikeyFormat = boatKeypairPrikeyFormatPkcs then
    keyCreateFromPem grants config
  else if config.prikeyFormat = boatKeypairPrikeyFormatNative then
    keyCreateExternalInjectionNative crypto config
  else boatThrow boatErrorKeypairKeyFormatErr

/-- The curve of the injected key: the one that the PEM text names, or else the
declared one. -/
def injectedCurve (config : BoatKeypairPriKeyCtxConfig) : Option Curve :=
  if config.prikeyFormat = boatKeypairPrikeyFormatPkcs then
    match config.prikeyContent with
    | none => none
    | some content =>
        ((pemMarks (.ofBuffer content)).bind namedAlg).bind curveOfAlg
  else curveOfType config.prikeyType

/-- A key of its curve: of 32 bytes, of that curve's type, with the public key
that belongs to it. -/
structure KeyOfCurve (crypto : Crypto) (curve : Curve) (key : CreatedKey) :
    Prop where
  prikey : key.prikey.length = 32
  type : curveOfType key.prikeyType = some curve
  pubkey : key.pubkey = crypto.publicKey curve key.prikey

/-- What the creation owes: it fails, or yields a key of the injected curve. -/
def InjectedConsistently (crypto : Crypto) (curve : Option Curve)
    (run : Outcome CreatedKey) : Prop :=
  run ≠ .error .undefined ∧ ∀ key, run = .ok key →
    ∃ curve', curve = some curve' ∧ KeyOfCurve crypto curve' key

/-- As many bytes of the last private key as a length of 8 bits says. -/
def copiedKey (marks : Row KeyMark) : List UInt8 :=
  match (keysOf marks).getLast? with
  | none => []
  | some key => key.take (key.length % 2 ^ 8)

/-- The keys in a text belong together, and to the declared type. -/
def KeysAgree (crypto : Crypto) (type : BoatKeypairPriKeyType)
    (marks : Row KeyMark) (point : List UInt8) : Prop :=
  ∃ curve, (namedAlg marks).bind curveOfAlg = some curve ∧
    curveOfType type = some curve ∧ (copiedKey marks).length = 32 ∧
    point = (crypto.publicKey curve (copiedKey marks)).1

/-- The marks that are injected consistently: an error, but no private key that
is freed twice because there is no memory for the public key; or keys that
agree, where a missing public key is zeros. -/
inductive MarksAgree (crypto : Crypto) (grants : Nat → Bool)
    (type : BoatKeypairPriKeyType) (marks : Row KeyMark) : Prop where
  | refused (hrefused : ¬KeysGranted grants marks)
  | malformed (hclosing : closingOf marks = .malformed)
  | otherBits {bits : List UInt8} (hclosing : closingOf marks = .publicKey bits)
      (hbits : bits.length ≠ 66)
  | noMemory {bits : List UInt8} (hclosing : closingOf marks = .publicKey bits)
      (hpoint : ¬PointGranted grants marks) (hkey : copiedKey marks = [])
  | noPublicKey (hclosing : closingOf marks = .whole)
      (hagree : KeysAgree crypto type marks (List.replicate 64 0))
  | publicKey {bits : List UInt8} (hclosing : closingOf marks = .publicKey bits)
      (hbits : bits.length = 66) (hpoint : PointGranted grants marks)
      (hagree : KeysAgree crypto type marks (bits.drop 2))

/-- What a PEM text has to hold, where there is memory to decode it. -/
def PemAgrees (crypto : Crypto) (grants : Nat → Bool)
    (type : BoatKeypairPriKeyType) (content : List UInt8) : Prop :=
  ∀ marks, pemMarks (.ofBuffer content) = some marks → grants 0 →
    MarksAgree crypto grants type marks

section Pem

variable {grants : Nat → Bool} {config : BoatKeypairPriKeyCtxConfig}
  {content : List UInt8} {marks : Row KeyMark} {keypair : PkcsKeypair}

theorem copy_prikey (marks : Row KeyMark) :
    (keypairOf marks).prikey.copy (keypairOf marks).prikeylen =
      .ok (copiedKey marks) := by
  rw [keypairOf, copiedKey]
  cases (keysOf marks).getLast? with
  | none => rfl
  | some key =>
      have hle : key.length % 2 ^ 8 ≤ key.length := Nat.mod_le _ _
      simp only [KeyPointer.copy]
      by_cases hzero : key.length % 2 ^ 8 = 0
      · rw [if_pos hzero, hzero, List.take_zero]
      · rw [if_neg hzero, if_pos hle]

/-- A whole public key is copied as it is. -/
theorem copy_pubkey {point : List UInt8} (hpoint : point.length = 64) :
    ((KeyPointer.live point).copy 64 >>= pubkeyOfNative) =
      .ok ⟨point, hpoint⟩ := by
  have hcopy : (KeyPointer.live point).copy 64 = .ok point := by
    simp only [KeyPointer.copy, hpoint, Nat.le_refl, ↓reduceIte]
    rw [if_neg (by decide), ← hpoint, List.take_length]
  have hfits : point.length ≤ 64 := Nat.le_of_eq hpoint
  have hpad : point ++ List.replicate (64 - point.length) 0 = point := by
    rw [hpoint, Nat.sub_self, List.replicate_zero, List.append_nil]
  rw [hcopy, except_ok_bind, pubkeyOfNative, dif_pos hfits]
  exact congrArg Except.ok (Subtype.ext hpad)

theorem keypairOf_prikey_ne_freed (marks : Row KeyMark) :
    (keypairOf marks).prikey ≠ .freed := by
  rw [keypairOf]
  dsimp only
  cases (keysOf marks).getLast? with
  | none => exact KeyPointer.noConfusion
  | some key => exact KeyPointer.noConfusion

/-- A keypair without a private key that was freed is released. -/
theorem free_of_ne_freed (hprikey : keypair.prikey ≠ .freed)
    (hpubkey : keypair.pubkeylen ≠ 0 → keypair.pubkey ≠ .freed) :
    utilityFreeKeypair keypair = .ok () := by
  refine if_neg ?_
  rintro (⟨-, hfreed⟩ | ⟨hlen, hfreed⟩)
  · exact hprikey hfreed
  · exact hpubkey hlen hfreed

/-- A private key that was freed for want of memory is freed again, if there
was any. -/
theorem free_of_noMemory {len : Nat} (marks : Row KeyMark) :
    utilityFreeKeypair { keypairOf marks with
        pubkey := .null, pubkeylen := len,
        prikey := (keypairOf marks).prikey.release } =
      if copiedKey marks = [] then .ok () else .error .undefined := by
  rw [utilityFreeKeypair, keypairOf, copiedKey]
  cases (keysOf marks).getLast? with
  | none => simp [KeyPointer.release]
  | some key =>
      have hle : key.length % 2 ^ 8 ≤ key.length := Nat.mod_le _ _
      by_cases hzero : key.length % 2 ^ 8 = 0
      · have hnone : key.take (key.length % 2 ^ 8) = [] := by
          rw [hzero, List.take_zero]
        rw [if_pos hnone]
        refine if_neg ?_
        rintro (⟨hlen, -⟩ | ⟨-, hfreed⟩)
        · exact hlen hzero
        · cases hfreed
      · have hsome : key.take (key.length % 2 ^ 8) ≠ [] := by
          intro hnone
          have hlength := congrArg List.length hnone
          rw [List.length_take, Nat.min_eq_left hle] at hlength
          exact hzero hlength
        rw [if_neg hsome]
        exact if_pos (.inl ⟨hzero, rfl⟩)

/-- A PEM text that is refused fails, if the keypair can be released. -/
theorem keyCreateFromPem_error (hcontent : injectedContent config = .ok content)
    (hrun : utilityPKCS2Native grants (.ofBuffer content) =
      .ok (boatError, keypair)) :
    keyCreateFromPem grants config = (do
      let _ ← utilityFreeKeypair keypair
      boatThrow boatError) := by
  rw [keyCreateFromPem, hcontent, except_ok_bind, hrun]
  rfl

theorem keyCreateFromPem_success (hcontent : injectedContent config = .ok content)
    (hrun : utilityPKCS2Native grants (.ofBuffer content) =
      .ok (boatSuccess, keypair))
    (hprikey : keypair.prikey.copy keypair.prikeylen = .ok (copiedKey marks))
    {pubkey : Pubkey} (hpubkey : (keypair.pubkey.copy keypair.pubkeylen >>=
      pubkeyOfNative) = .ok pubkey)
    (hfree : utilityFreeKeypair keypair = .ok ()) :
    keyCreateFromPem grants config =
      .ok ⟨boatKeypairPrikeyFormatNative, config.prikeyType, pubkey,
        copiedKey marks⟩ := by
  obtain ⟨bytes, hcopy, hbytes⟩ := except_bind_eq_ok.mp hpubkey
  rw [keyCreateFromPem, hcontent, except_ok_bind, hrun, except_ok_bind]
  dsimp only
  rw [if_neg (by decide), hprikey, except_ok_bind, hcopy, except_ok_bind,
    hbytes, except_ok_bind, hfree]
  rfl

end Pem

section Injected

variable {crypto : Crypto} {grants : Nat → Bool}
  {config : BoatKeypairPriKeyCtxConfig} {content : List UInt8}
  {curve : Option Curve} {run : Outcome CreatedKey} {key : CreatedKey}

theorem injectedContent_eq_ok :
    injectedContent config = .ok content ↔
      config.prikeyContent = some content ∧ content.length ≤ 512 := by
  unfold injectedContent
  cases config.prikeyContent with
  | none => simp [boatThrow]
  | some given =>
      constructor
      · intro hcontent
        dsimp only at hcontent
        split at hcontent
        · cases hcontent
        next hlength =>
          obtain rfl := Except.ok.inj hcontent
          exact ⟨rfl, Nat.le_of_not_lt hlength⟩
      · rintro ⟨hgiven, hlength⟩
        obtain rfl := Option.some.inj hgiven
        exact if_neg (Nat.not_lt_of_le hlength)

theorem injectedContent_cases (config : BoatKeypairPriKeyCtxConfig) :
    (∃ code, injectedContent config = .error (.code code)) ∨
      ∃ content, injectedContent config = .ok content := by
  unfold injectedContent
  cases config.prikeyContent with
  | none => exact .inl ⟨_, rfl⟩
  | some content =>
      dsimp only
      split
      · exact .inl ⟨_, rfl⟩
      · exact .inr ⟨_, rfl⟩

theorem consistent_error (code : BoatResult) :
    InjectedConsistently crypto curve (.error (.code code)) := by
  constructor
  · intro hundefined
    cases hundefined
  · intro key hkey
    cases hkey

theorem consistent_ok_iff :
    InjectedConsistently crypto curve (.ok key) ↔
      ∃ curve', curve = some curve' ∧ KeyOfCurve crypto curve' key := by
  constructor
  · rintro ⟨-, hkeys⟩
    exact hkeys key rfl
  · intro hkey
    constructor
    · intro hundefined
      cases hundefined
    · intro other hother
      obtain rfl := Except.ok.inj hother
      exact hkey

/-- The curve of a type is the one that its public keys are computed on. -/
theorem boatGetPubkey_eq (type : BoatKeypairPriKeyType) (prikey : List UInt8) :
    boatGetPubkey crypto type prikey =
      match curveOfType type with
      | some curve => .ok (crypto.publicKey curve prikey)
      | none => boatThrow boatErrorKeypairKeyTypeErr := by
  unfold boatGetPubkey curveOfType
  split
  · rfl
  · split
    · rfl
    · rfl

/-- Native bytes are a key of their curve exactly where there are 32. -/
theorem native_consistent_iff
    (hcontent : injectedContent config = .ok content) :
    InjectedConsistently crypto (curveOfType config.prikeyType)
        (keyCreateExternalInjectionNative crypto config) ↔
      curveOfType config.prikeyType = none ∨ content.length = 32 := by
  rw [keyCreateExternalInjectionNative, hcontent, except_ok_bind,
    boatGetPubkey_eq]
  cases hcurve : curveOfType config.prikeyType with
  | none =>
      constructor
      · intro _
        exact .inl rfl
      · intro _
        exact consistent_error _
  | some curve =>
      change InjectedConsistently crypto (some curve) (.ok _) ↔ _
      rw [consistent_ok_iff]
      constructor
      · rintro ⟨curve', -, hkey⟩
        exact .inr hkey.prikey
      · rintro (hnone | hlength)
        · cases hnone
        · exact ⟨curve, rfl, hlength, hcurve, rfl⟩

theorem keysAgree_iff {marks : Row KeyMark} {pubkey : Pubkey}
    (type : BoatKeypairPriKeyType) :
    InjectedConsistently crypto ((namedAlg marks).bind curveOfAlg)
        (.ok ⟨boatKeypairPrikeyFormatNative, type, pubkey, copiedKey marks⟩) ↔
      KeysAgree crypto type marks pubkey.1 := by
  rw [consistent_ok_iff]
  constructor
  · rintro ⟨curve, hcurve, hkey⟩
    exact ⟨curve, hcurve, hkey.type, hkey.prikey,
      congrArg Subtype.val hkey.pubkey⟩
  · rintro ⟨curve, hcurve, htype, hlength, hpublic⟩
    exact ⟨curve, hcurve, hlength, htype, Subtype.ext hpublic⟩

section Closings

variable {type : BoatKeypairPriKeyType} {marks : Row KeyMark}
  {bits : List UInt8}

theorem marksAgree_whole_iff (hkeys : KeysGranted grants marks)
    (hclosing : closingOf marks = .whole) :
    MarksAgree crypto grants type marks ↔
      KeysAgree crypto type marks (List.replicate 64 0) := by
  constructor
  · intro hmarks
    cases hmarks with
    | noPublicKey _ hagree => exact hagree
    | refused hrefused => exact absurd hkeys hrefused
    | malformed hother => cases hclosing.symm.trans hother
    | otherBits hother _ => cases hclosing.symm.trans hother
    | noMemory hother _ _ => cases hclosing.symm.trans hother
    | publicKey hother _ _ _ => cases hclosing.symm.trans hother
  · exact .noPublicKey hclosing

theorem not_marksAgree_cut (hkeys : KeysGranted grants marks)
    (hclosing : closingOf marks = .cut) :
    ¬MarksAgree crypto grants type marks := by
  intro hmarks
  cases hmarks with
  | refused hrefused => exact hrefused hkeys
  | malformed hother => cases hclosing.symm.trans hother
  | otherBits hother _ => cases hclosing.symm.trans hother
  | noMemory hother _ _ => cases hclosing.symm.trans hother
  | noPublicKey hother _ => cases hclosing.symm.trans hother
  | publicKey hother _ _ _ => cases hclosing.symm.trans hother

/-- Marks with a bit string as long as a public key. -/
theorem marksAgree_publicKey_iff (hkeys : KeysGranted grants marks)
    (hclosing : closingOf marks = .publicKey bits) (hbits : bits.length = 66) :
    MarksAgree crypto grants type marks ↔
      if PointGranted grants marks then
        KeysAgree crypto type marks (bits.drop 2)
      else copiedKey marks = [] := by
  constructor
  · intro hmarks
    cases hmarks with
    | publicKey hother _ hpoint hagree =>
        obtain rfl := Closing.publicKey.inj (hclosing.symm.trans hother)
        rwa [if_pos hpoint]
    | noMemory _ hpoint hkey => rwa [if_neg hpoint]
    | otherBits hother hlength =>
        obtain rfl := Closing.publicKey.inj (hclosing.symm.trans hother)
        exact absurd hbits hlength
    | refused hrefused => exact absurd hkeys hrefused
    | malformed hother => cases hclosing.symm.trans hother
    | noPublicKey hother _ => cases hclosing.symm.trans hother
  · intro hagree
    split at hagree
    next hpoint => exact .publicKey hclosing hbits hpoint hagree
    next hpoint => exact .noMemory hclosing hpoint hagree

/-- The creation from a text with such a bit string. -/
theorem publicKey_consistent_iff
    (hcontent : injectedContent config = .ok content)
    (hrun : utilityPKCS2Native grants (.ofBuffer content) =
      (Closing.publicKey bits).result (grants ((keysOf marks).length + 1))
        (keypairOf marks)) (hbits : bits.length = 66) :
    InjectedConsistently crypto ((namedAlg marks).bind curveOfAlg)
        (keyCreateFromPem grants config) ↔
      if PointGranted grants marks then
        KeysAgree crypto config.prikeyType marks (bits.drop 2)
      else copiedKey marks = [] := by
  rw [Closing.result, if_neg (not_not_intro hbits)] at hrun
  by_cases hpoint : PointGranted grants marks
  · have hgranted : grants ((keysOf marks).length + 1) = true := hpoint
    rw [if_pos hgranted] at hrun
    have hlength : (bits.drop 2).length = 64 := by
      rw [List.length_drop, hbits]
    have hfree := @free_of_ne_freed
      { keypairOf marks with
        pubkey := .live (bits.drop 2), pubkeylen := 64 }
      (keypairOf_prikey_ne_freed marks) fun _ => KeyPointer.noConfusion
    rw [if_pos hpoint, keyCreateFromPem_success hcontent hrun
      (copy_prikey marks) (copy_pubkey hlength) hfree, keysAgree_iff]
  · have hrefused : ¬grants ((keysOf marks).length + 1) = true := hpoint
    rw [if_neg hrefused] at hrun
    rw [if_neg hpoint, keyCreateFromPem_error hcontent hrun, free_of_noMemory]
    constructor
    · rintro ⟨hdefined, -⟩
      by_contra hkey
      rw [if_neg hkey] at hdefined
      exact hdefined rfl
    · intro hkey
      rw [if_pos hkey]
      exact consistent_error _

/-- With memory for the private keys, the creation is consistent exactly where
the marks agree. -/
theorem closing_consistent_iff
    (hcontent : injectedContent config = .ok content)
    (hrun : utilityPKCS2Native grants (.ofBuffer content) =
      (closingOf marks).result (grants ((keysOf marks).length + 1))
        (keypairOf marks)) (hkeys : KeysGranted grants marks) :
    InjectedConsistently crypto ((namedAlg marks).bind curveOfAlg)
        (keyCreateFromPem grants config) ↔
      MarksAgree crypto grants config.prikeyType marks := by
  have hplain : utilityFreeKeypair (keypairOf marks) = .ok () :=
    free_of_ne_freed (keypairOf_prikey_ne_freed marks) fun hlen =>
      absurd rfl hlen
  cases hclosing : closingOf marks with
  | whole =>
      rw [hclosing, Closing.result] at hrun
      have hpubkey : ((keypairOf marks).pubkey.copy
          (keypairOf marks).pubkeylen >>= pubkeyOfNative) =
            .ok ⟨List.replicate 64 0, List.length_replicate⟩ := rfl
      rw [keyCreateFromPem_success hcontent hrun (copy_prikey marks) hpubkey
        hplain, keysAgree_iff, marksAgree_whole_iff hkeys hclosing]
  | malformed =>
      rw [hclosing, Closing.result] at hrun
      rw [keyCreateFromPem_error hcontent hrun, hplain]
      exact ⟨fun _ => .malformed hclosing, fun _ => consistent_error _⟩
  | cut =>
      rw [hclosing, Closing.result] at hrun
      have hundefined : keyCreateFromPem grants config =
          .error .undefined := by
        rw [keyCreateFromPem, hcontent, except_ok_bind, hrun]
        rfl
      rw [hundefined]
      constructor
      · rintro ⟨hdefined, -⟩
        exact absurd rfl hdefined
      · intro hmarks
        exact absurd hmarks (not_marksAgree_cut hkeys hclosing)
  | publicKey bits =>
      rw [hclosing] at hrun
      by_cases hbits : bits.length = 66
      · rw [publicKey_consistent_iff hcontent hrun hbits,
          marksAgree_publicKey_iff hkeys hclosing hbits]
      · rw [Closing.result, if_pos hbits] at hrun
        rw [keyCreateFromPem_error hcontent hrun, hplain]
        exact ⟨fun _ => .otherBits hclosing hbits, fun _ => consistent_error _⟩

end Closings

/-- A PEM text is injected consistently exactly where it agrees with itself and
with the declared type. -/
theorem pem_consistent_iff (hcontent : injectedContent config = .ok content)
    (hformat : config.prikeyFormat = boatKeypairPrikeyFormatPkcs) :
    InjectedConsistently crypto (injectedCurve config)
        (keyCreateFromPem grants config) ↔
      PemAgrees crypto grants config.prikeyType content := by
  obtain ⟨hgiven, -⟩ := injectedContent_eq_ok.mp hcontent
  have hcurve : injectedCurve config =
      ((pemMarks (.ofBuffer content)).bind namedAlg).bind curveOfAlg := by
    rw [injectedCurve, if_pos hformat, hgiven]
  rw [hcurve]
  by_cases hread : ∃ marks, pemMarks (.ofBuffer content) = some marks ∧
      grants 0 = true
  · obtain ⟨marks, hmarks, hgranted⟩ := hread
    have honly : PemAgrees crypto grants config.prikeyType content ↔
        MarksAgree crypto grants config.prikeyType marks := by
      constructor
      · intro hall
        exact hall marks hmarks hgranted
      · intro hagree other hother _
        obtain rfl := Option.some.inj (hmarks.symm.trans hother)
        exact hagree
    rw [honly, hmarks, Option.bind_some]
    by_cases hkeys : KeysGranted grants marks
    · exact closing_consistent_iff hcontent
        (utilityPKCS2Native_granted hmarks hgranted hkeys) hkeys
    · obtain ⟨keypair, hrun, hprikey, -, hlen⟩ :=
        utilityPKCS2Native_refused hmarks hgranted hkeys
      have hfree := @free_of_ne_freed keypair
        (by rw [hprikey]; exact KeyPointer.noConfusion)
        (fun hpos => absurd hlen hpos)
      rw [keyCreateFromPem_error hcontent hrun, hfree]
      exact ⟨fun _ => .refused hkeys, fun _ => consistent_error _⟩
  · have hnothing : ∀ marks, pemMarks (.ofBuffer content) = some marks →
        ¬grants 0 := fun marks hmarks hgranted => hread ⟨marks, hmarks, hgranted⟩
    rw [keyCreateFromPem_error hcontent (utilityPKCS2Native_nothing hnothing)]
    exact ⟨fun _ marks hmarks hgranted =>
      absurd hgranted (hnothing marks hmarks), fun _ => consistent_error _⟩

/-- Without content that fits there is an error. -/
theorem keyCreateExternalInjection_refuses
    (hcontent : ∃ code, injectedContent config = .error (.code code)) :
    ∃ code, keyCreateExternalInjection crypto grants config =
      .error (.code code) := by
  obtain ⟨code, hrefuses⟩ := hcontent
  unfold keyCreateExternalInjection
  split
  · refine ⟨code, ?_⟩
    rw [keyCreateFromPem, hrefuses]
    rfl
  · split
    · refine ⟨code, ?_⟩
      rw [keyCreateExternalInjectionNative, hrefuses]
      rfl
    · exact ⟨_, rfl⟩

/-- A key is injected consistently exactly where native bytes are 32, and where
a PEM text agrees with the declared type and holds the public key of its private
key. -/
theorem keyCreateExternalInjection_consistent_iff (crypto : Crypto)
    (grants : Nat → Bool) (config : BoatKeypairPriKeyCtxConfig) :
    InjectedConsistently crypto (injectedCurve config)
        (keyCreateExternalInjection crypto grants config) ↔
      ∀ content, config.prikeyContent = some content → content.length ≤ 512 →
        (config.prikeyFormat = boatKeypairPrikeyFormatPkcs →
          PemAgrees crypto grants config.prikeyType content) ∧
        (config.prikeyFormat = boatKeypairPrikeyFormatNative →
          curveOfType config.prikeyType = none ∨ content.length = 32) := by
  rcases injectedContent_cases config with hrefuses | ⟨content, hcontent⟩
  · obtain ⟨code, hrun⟩ := @keyCreateExternalInjection_refuses crypto grants
      config hrefuses
    rw [hrun]
    constructor
    · intro _ content hgiven hlength
      obtain ⟨code, hrefuses⟩ := hrefuses
      rw [injectedContent_eq_ok.mpr ⟨hgiven, hlength⟩] at hrefuses
      cases hrefuses
    · intro _
      exact consistent_error code
  have hgiven := injectedContent_eq_ok.mp hcontent
  have honly {P : List UInt8 → Prop} :
      (∀ other, config.prikeyContent = some other → other.length ≤ 512 →
        P other) ↔ P content := by
    constructor
    · intro hall
      exact hall content hgiven.1 hgiven.2
    · intro hP other hother _
      obtain rfl := Option.some.inj (hgiven.1.symm.trans hother)
      exact hP
  rw [honly]
  have hnot : boatKeypairPrikeyFormatPkcs ≠ boatKeypairPrikeyFormatNative := by
    decide
  unfold keyCreateExternalInjection
  by_cases hpem : config.prikeyFormat = boatKeypairPrikeyFormatPkcs
  · rw [if_pos hpem, pem_consistent_iff hcontent hpem]
    constructor
    · intro hagrees
      exact ⟨fun _ => hagrees, fun hnative => absurd (hpem.symm.trans hnative)
        hnot⟩
    · rintro ⟨hagrees, -⟩
      exact hagrees hpem
  · rw [if_neg hpem, injectedCurve, if_neg hpem]
    by_cases hnative : config.prikeyFormat = boatKeypairPrikeyFormatNative
    · rw [if_pos hnative, native_consistent_iff hcontent]
      constructor
      · intro hlength
        exact ⟨fun hformat => absurd hformat hpem, fun _ => hlength⟩
      · rintro ⟨-, hlength⟩
        exact hlength hnative
    · rw [if_neg hnative]
      constructor
      · intro _
        exact ⟨fun hformat => absurd hformat hpem,
          fun hformat => absurd hformat hnative⟩
      · intro _
        exact consistent_error _

end Injected

section Sample

/-- A text whose keys are of the curve secp256k1, under the type of the other
curve. -/
def otherCurveConfig : BoatKeypairPriKeyCtxConfig :=
  ⟨boatKeypairPrikeyGenmodeExternalInjection, boatKeypairPrikeyFormatPkcs,
    boatKeypairPrikeyTypeSecp256r1, some (ecPemText wholeKey)⟩

/-- The key is stored under the declared type, whatever curve the text names. -/
theorem not_keyCreateExternalInjection_consistent :
    ¬InjectedConsistently plainCrypto
      (injectedCurve otherCurveConfig)
      (keyCreateExternalInjection plainCrypto (fun _ => true)
        otherCurveConfig) := by
  have hcontent : injectedContent otherCurveConfig =
      .ok (ecPemText wholeKey) := by
    decide +kernel
  intro hconsistent
  have hagree := (@pem_consistent_iff plainCrypto (fun _ => true)
    otherCurveConfig (ecPemText wholeKey) hcontent rfl).mp hconsistent
    wholeMarks pemMarks_wholeKey rfl
  rcases hagree with hrefused | hother | ⟨hother, hlength⟩ | ⟨-, hpoint, -⟩ |
    ⟨hother, -⟩ | ⟨-, -, -, curve, hcurve, htype, -⟩
  · exact hrefused fun _ _ => rfl
  · cases hother
  · cases hother
    exact hlength rfl
  · exact hpoint rfl
  · cases hother
  · cases hcurve
    cases htype

end Sample

end BoatFramework
