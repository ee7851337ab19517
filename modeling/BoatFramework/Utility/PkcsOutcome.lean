/-
What `UtilityPKCS2Native` owes to the caller, and exactly which marks in the
text let it keep that.
-/
import BoatFramework.Utility.PkcsRuns

namespace BoatFramework

open Base64 Der Exec

/-- The private keys in front of the first public key. -/
def keysOf : Row KeyMark → List (List UInt8)
  | .found (.privateKey octets) rest => octets :: keysOf rest
  | .found (.curve _) rest => keysOf rest
  | _ => []

/-- The identifiers in front of the first public key. -/
def identifiersOf : Row KeyMark → List (List UInt8)
  | .found (.privateKey _) rest => identifiersOf rest
  | .found (.curve identifier) rest => identifier :: identifiersOf rest
  | _ => []

/-- A public key, or the end of the text in front of any. -/
inductive Closing where
  | whole
  | malformed
  | cut
  | publicKey (bits : List UInt8)

def closingOf : Row KeyMark → Closing
  | .whole => .whole
  | .malformed => .malformed
  | .cut => .cut
  | .found (.publicKey bits) _ => .publicKey bits
  | .found _ rest => closingOf rest

/-- The curve that the last identifier names. -/
def namedAlg (marks : Row KeyMark) : Option KeypairAlg :=
  (identifiersOf marks).getLast?.bind namedCurve

/-- Memory is there for every private key; the first request is for the text. -/
def KeysGranted (grants : Nat → Bool) (marks : Row KeyMark) : Prop :=
  ∀ i < (keysOf marks).length, grants (i + 1)

/-- Memory is there for a public key behind them. -/
def PointGranted (grants : Nat → Bool) (marks : Row KeyMark) : Prop :=
  grants ((keysOf marks).length + 1)

instance (grants : Nat → Bool) (marks : Row KeyMark) :
    Decidable (PointGranted grants marks) :=
  inferInstanceAs (Decidable (_ = true))

/-- A keypair with both keys and their curve. -/
structure PkcsKeypair.Complete (keypair : PkcsKeypair) : Prop where
  prikey : ∃ key, keypair.prikey = .live key ∧ key.length = 32
  prikeylen : keypair.prikeylen = 32
  pubkey : ∃ point, keypair.pubkey = .live point ∧ point.length = 64
  pubkeylen : keypair.pubkeylen = 64
  alg : keypair.alg ≠ .unknown

/-- What a call owes: it ends without undefined behaviour, success means that
both keys and the curve were found, and an error leaves no key behind. -/
def HandsOut (run : Outcome (BoatResult × PkcsKeypair)) : Prop :=
  ∃ code keypair, run = .ok (code, keypair) ∧
    (code = boatSuccess → keypair.Complete) ∧
    (code ≠ boatSuccess → keypair.prikey = .null ∧ keypair.pubkey = .null)

/-- The marks that let a call keep that: a public key of 66 bytes behind a
private key of 32 bytes and the identifier of a curve, with memory for all keys;
or an error where there is no private key, or no memory for one. -/
inductive Decisive (grants : Nat → Bool) (marks : Row KeyMark) : Prop where
  | complete {bits key : List UInt8} (hgranted : KeysGranted grants marks)
      (hclosing : closingOf marks = .publicKey bits) (hbits : bits.length = 66)
      (hpoint : PointGranted grants marks)
      (hkey : (keysOf marks).getLast? = some key) (hlength : key.length = 32)
      (hcurve : namedAlg marks ≠ none)
  | refused (hrefused : ¬KeysGranted grants marks)
  | malformed (hkeys : keysOf marks = []) (hclosing : closingOf marks = .malformed)
  | publicKey {bits : List UInt8} (hkeys : keysOf marks = [])
      (hclosing : closingOf marks = .publicKey bits)
      (hbits : bits.length = 66 → ¬PointGranted grants marks)

section Follow

def PkcsKeypair.withKey (keypair : PkcsKeypair) (octets : List UInt8) :
    PkcsKeypair :=
  { keypair with
    prikey := .live octets, prikeylen := octets.length % 2 ^ 8 }

/-- The keypair behind the marks in front of a public key. -/
def PkcsKeypair.pass : Row KeyMark → PkcsKeypair → PkcsKeypair
  | .found (.privateKey octets) rest, keypair =>
      pass rest (keypair.withKey octets)
  | .found (.curve identifier) rest, keypair =>
      pass rest { keypair with alg := curveOf identifier }
  | _, keypair => keypair

/-- What is done at the end of the marks. -/
def Closing.run (grants : Nat → Bool) :
    Closing → KeySlots → Outcome (BodyEnd KeySlots)
  | whole, s => .ok (.next s)
  | malformed, s => .ok (.returned boatError s)
  | cut, _ => .error .undefined
  | publicKey bits, s => .ok (storePubkey grants bits s)

variable {grants : Nat → Bool}

theorem keySink_stays (grants : Nat → Bool) : (keySink grants).Stays where
  octetString octets s t := by
    change storePrikey grants octets s ≠ _
    unfold storePrikey
    split
    · exact fun hleft => by cases hleft
    · exact fun hleft => by cases hleft
  bitString bits s t := by
    change storePubkey grants bits s ≠ _
    unfold storePubkey
    split
    · exact fun hleft => by cases hleft
    · split
      · exact fun hleft => by cases hleft
      · exact fun hleft => by cases hleft

theorem storePubkey_andThen (bits : List UInt8) (s : KeySlots)
    (next : KeySlots → Outcome (BodyEnd KeySlots)) :
    (storePubkey grants bits s).andThen next =
      .ok (storePubkey grants bits s) := by
  unfold storePubkey
  split
  · rfl
  · split <;> rfl

/-- With memory for the private keys the marks are gone through up to their
closing. -/
theorem follow_granted {marks : Row KeyMark} {s : KeySlots}
    (hgranted : ∀ i < (keysOf marks).length, grants (s.asked + i)) :
    (keySink grants).follow marks s = (closingOf marks).run grants
      ⟨s.keypair.pass marks, s.asked + (keysOf marks).length⟩ := by
  induction marks generalizing s with
  | whole => rfl
  | malformed => rfl
  | cut => rfl
  | found mark rest ih =>
      cases mark with
      | privateKey octets =>
          have hfirst : grants s.asked = true :=
            hgranted 0 (Nat.succ_pos _)
          have hstored : storePrikey grants octets s =
              .next ⟨s.keypair.withKey octets, s.asked + 1⟩ := if_pos hfirst
          change (storePrikey grants octets s).andThen _ = _
          rw [hstored]
          have hnext := @ih ⟨s.keypair.withKey octets, s.asked + 1⟩
            (fun i hi => by
              have hbehind := hgranted (i + 1) (Nat.succ_lt_succ hi)
              rwa [Nat.add_comm i 1, ← Nat.add_assoc] at hbehind)
          refine hnext.trans ?_
          rw [keysOf, List.length_cons, Nat.add_comm (keysOf rest).length 1,
            ← Nat.add_assoc]
          rfl
      | curve identifier => exact ih hgranted
      | publicKey bits => exact storePubkey_andThen bits s _

/-- Without memory for one of the private keys there is an error, and no key. -/
theorem follow_refused {marks : Row KeyMark} {s : KeySlots}
    (hrefused : ¬∀ i < (keysOf marks).length, grants (s.asked + i))
    (hpubkey : s.keypair.pubkey = .null) (hlen : s.keypair.pubkeylen = 0) :
    ∃ slots, (keySink grants).follow marks s =
        .ok (.returned boatError slots) ∧
      slots.keypair.prikey = .null ∧ slots.keypair.pubkey = .null ∧
      slots.keypair.pubkeylen = 0 := by
  induction marks generalizing s with
  | whole => exact absurd (fun i hi => by cases hi) hrefused
  | malformed => exact absurd (fun i hi => by cases hi) hrefused
  | cut => exact absurd (fun i hi => by cases hi) hrefused
  | found mark rest ih =>
      cases mark with
      | privateKey octets =>
          change ∃ slots, (storePrikey grants octets s).andThen _ = _ ∧ _
          by_cases hfirst : grants s.asked = true
          · have hstored : storePrikey grants octets s =
                .next ⟨s.keypair.withKey octets, s.asked + 1⟩ := if_pos hfirst
            rw [hstored]
            refine ih (fun hall => hrefused fun i hi => ?_) hpubkey hlen
            cases i with
            | zero => exact hfirst
            | succ i =>
                have hbehind := hall i (Nat.lt_of_succ_lt_succ hi)
                rwa [Nat.add_assoc, Nat.add_comm 1 i] at hbehind
          · have hstored : storePrikey grants octets s = .returned boatError
                ⟨{ s.keypair with
                  prikey := .null, pubkey := s.keypair.pubkey.release },
                  s.asked + 1⟩ := if_neg hfirst
            rw [hstored]
            refine ⟨_, rfl, rfl, ?_, hlen⟩
            rw [hpubkey]
            rfl
      | curve identifier => exact ih hrefused hpubkey hlen
      | publicKey bits => exact absurd (fun i hi => by cases hi) hrefused

/-- The keypair that the marks in front of a public key make. -/
def keypairOf (marks : Row KeyMark) : PkcsKeypair where
  alg := (namedAlg marks).getD .unknown
  prikey :=
    match (keysOf marks).getLast? with
    | some key => .live key
    | none => .null
  prikeylen :=
    match (keysOf marks).getLast? with
    | some key => key.length % 2 ^ 8
    | none => 0
  pubkey := .null
  pubkeylen := 0

theorem pass_eq (marks : Row KeyMark) (keypair : PkcsKeypair) :
    keypair.pass marks =
      { keypair with
        alg := match (identifiersOf marks).getLast? with
          | some identifier => curveOf identifier
          | none => keypair.alg
        prikey := match (keysOf marks).getLast? with
          | some key => .live key
          | none => keypair.prikey
        prikeylen := match (keysOf marks).getLast? with
          | some key => key.length % 2 ^ 8
          | none => keypair.prikeylen } := by
  induction marks generalizing keypair with
  | whole => rfl
  | malformed => rfl
  | cut => rfl
  | found mark rest ih =>
      cases mark with
      | privateKey octets =>
          rw [PkcsKeypair.pass, ih, keysOf, List.getLast?_cons, identifiersOf]
          cases (keysOf rest).getLast? <;> rfl
      | curve identifier =>
          rw [PkcsKeypair.pass, ih, identifiersOf, List.getLast?_cons, keysOf]
          cases (identifiersOf rest).getLast? <;> rfl
      | publicKey bits => rfl

theorem pass_empty (marks : Row KeyMark) :
    PkcsKeypair.empty.pass marks = keypairOf marks := by
  rw [pass_eq, keypairOf, namedAlg]
  cases (identifiersOf marks).getLast? with
  | none => rfl
  | some identifier =>
      rw [Option.bind_some, ← curveOf_eq]
      rfl

end Follow

section Results

variable {grants : Nat → Bool} {input : CString} {marks : Row KeyMark}

/-- Without a pair of marks, or without memory for the text between them. -/
theorem utilityPKCS2Native_nothing
    (hnothing : ∀ marks, pemMarks input = some marks → ¬grants 0) :
    utilityPKCS2Native grants input = .ok (boatError, .empty) := by
  rw [utilityPKCS2Native, followKeys_follow (keySink_stays grants)]
  cases hmarks : pemMarks input with
  | none => rfl
  | some marks =>
      simp only [if_neg (hnothing marks hmarks)]
      rfl

theorem utilityPKCS2Native_follow (hmarks : pemMarks input = some marks)
    (hgranted : grants 0) :
    utilityPKCS2Native grants input =
      (fun ended => (ended.result.1, ended.result.2.keypair)) <$>
        (keySink grants).follow marks ⟨.empty, 1⟩ := by
  rw [utilityPKCS2Native, followKeys_follow (keySink_stays grants), hmarks]
  simp only [if_pos hgranted]
  cases (keySink grants).follow marks ⟨.empty, 1⟩ <;> rfl

theorem utilityPKCS2Native_refused (hmarks : pemMarks input = some marks)
    (hgranted : grants 0) (hrefused : ¬KeysGranted grants marks) :
    ∃ keypair, utilityPKCS2Native grants input = .ok (boatError, keypair) ∧
      keypair.prikey = .null ∧ keypair.pubkey = .null ∧
      keypair.pubkeylen = 0 := by
  obtain ⟨slots, hrun, hkeys⟩ := @follow_refused grants marks ⟨.empty, 1⟩
    (fun hall => hrefused fun i hi => by
      have hkey := hall i hi
      rwa [Nat.add_comm] at hkey) rfl rfl
  refine ⟨slots.keypair, ?_, hkeys⟩
  rw [utilityPKCS2Native_follow hmarks hgranted, hrun]
  rfl

/-- How the function ends with its marks. -/
def Closing.result (pointGranted : Bool) (keypair : PkcsKeypair) :
    Closing → Outcome (BoatResult × PkcsKeypair)
  | whole => .ok (boatSuccess, keypair)
  | malformed => .ok (boatError, keypair)
  | cut => .error .undefined
  | publicKey bits =>
      if bits.length ≠ 66 then .ok (boatError, keypair)
      else if pointGranted then
        .ok (boatSuccess, { keypair with
          pubkey := .live (bits.drop 2), pubkeylen := 64 })
      else
        .ok (boatError, { keypair with
          pubkey := .null, pubkeylen := 64,
          prikey := keypair.prikey.release })

theorem utilityPKCS2Native_granted (hmarks : pemMarks input = some marks)
    (hgranted : grants 0) (hkeys : KeysGranted grants marks) :
    utilityPKCS2Native grants input =
      (closingOf marks).result (grants ((keysOf marks).length + 1))
        (keypairOf marks) := by
  have hfollow := @follow_granted grants marks ⟨.empty, 1⟩ fun i hi => by
    have hkey := hkeys i hi
    rwa [Nat.add_comm] at hkey
  rw [utilityPKCS2Native_follow hmarks hgranted, hfollow, pass_empty,
    Nat.add_comm 1]
  cases closingOf marks with
  | whole => rfl
  | malformed => rfl
  | cut => rfl
  | publicKey bits =>
      rw [Closing.result, Closing.run, storePubkey]
      by_cases hbits : bits.length ≠ 66
      · rw [if_pos hbits, if_pos hbits]
        rfl
      · have hlen : bits.length - 2 = 64 := by omega
        rw [if_neg hbits, if_neg hbits, hlen]
        dsimp only
        split <;> rfl

theorem keypairOf_prikey_null_iff (marks : Row KeyMark) :
    (keypairOf marks).prikey = .null ↔ keysOf marks = [] := by
  rw [← List.getLast?_eq_none_iff, keypairOf]
  dsimp only
  cases (keysOf marks).getLast? with
  | none => simp
  | some key => simp

/-- A released pointer is null where it was. -/
theorem release_eq_null_iff (pointer : KeyPointer) :
    pointer.release = .null ↔ pointer = .null := by
  cases pointer <;> simp [KeyPointer.release]

/-- A keypair with a whole public key is complete where there are a private key
of 32 bytes and the name of a curve. -/
theorem keypairOf_complete_iff {bits : List UInt8} (hbits : bits.length = 66) :
    PkcsKeypair.Complete { keypairOf marks with
        pubkey := .live (bits.drop 2), pubkeylen := 64 } ↔
      ∃ key, (keysOf marks).getLast? = some key ∧ key.length = 32 ∧
        namedAlg marks ≠ none := by
  have halg : (keypairOf marks).alg ≠ .unknown ↔ namedAlg marks ≠ none := by
    rw [keypairOf]
    dsimp only
    cases hnamed : namedAlg marks with
    | none => simp
    | some alg =>
        obtain ⟨identifier, -, hcurve⟩ := Option.bind_eq_some_iff.mp hnamed
        have hknown : alg ≠ .unknown := by
          rintro rfl
          exact namedCurve_ne_unknown identifier hcurve
        simpa using hknown
  constructor
  · rintro ⟨⟨key, hlive, hlength⟩, -, -, -, hcurve⟩
    rw [keypairOf] at hlive
    dsimp only at hlive
    cases hlast : (keysOf marks).getLast? with
    | none =>
        rw [hlast] at hlive
        cases hlive
    | some last =>
        rw [hlast] at hlive
        cases hlive
        exact ⟨key, rfl, hlength, halg.mp hcurve⟩
  · rintro ⟨key, hlast, hlength, hnamed⟩
    refine ⟨⟨key, ?_, hlength⟩, ?_, ⟨_, rfl, ?_⟩, rfl, halg.mpr hnamed⟩
    · rw [keypairOf]
      dsimp only
      rw [hlast]
    · rw [keypairOf]
      dsimp only
      rw [hlast]
      exact congrArg (· % 2 ^ 8) hlength
    · rw [List.length_drop, hbits]

/-- What a run that ends with some keypair owes. -/
theorem handsOut_ok_iff {code : BoatResult} {keypair : PkcsKeypair} :
    HandsOut (.ok (code, keypair)) ↔
      (code = boatSuccess → keypair.Complete) ∧
        (code ≠ boatSuccess →
          keypair.prikey = .null ∧ keypair.pubkey = .null) := by
  constructor
  · rintro ⟨code', keypair', hrun, howed⟩
    obtain ⟨rfl, rfl⟩ := Prod.mk.inj (Except.ok.inj hrun)
    exact howed
  · intro howed
    exact ⟨code, keypair, rfl, howed⟩

theorem handsOut_success_iff {keypair : PkcsKeypair} :
    HandsOut (.ok (boatSuccess, keypair)) ↔ keypair.Complete := by
  rw [handsOut_ok_iff]
  exact ⟨fun howed => howed.1 rfl,
    fun hcomplete => ⟨fun _ => hcomplete, fun hfails => absurd rfl hfails⟩⟩

theorem handsOut_error_iff {keypair : PkcsKeypair} :
    HandsOut (.ok (boatError, keypair)) ↔
      keypair.prikey = .null ∧ keypair.pubkey = .null := by
  have hfails : boatError ≠ boatSuccess := by decide
  rw [handsOut_ok_iff]
  exact ⟨fun howed => howed.2 hfails,
    fun hnull => ⟨fun hsuccess => absurd hsuccess hfails, fun _ => hnull⟩⟩

/-- Marks that end with nothing malformed and no bit string. -/
theorem not_decisive (hkeys : KeysGranted grants marks)
    (hmalformed : closingOf marks ≠ .malformed)
    (hnone : ∀ bits, closingOf marks ≠ .publicKey bits) :
    ¬Decisive grants marks := by
  intro hdecisive
  cases hdecisive with
  | complete _ hclosing _ _ _ _ _ => exact hnone _ hclosing
  | refused hrefused => exact hrefused hkeys
  | malformed _ hclosing => exact hmalformed hclosing
  | publicKey _ hclosing _ => exact hnone _ hclosing

/-- Marks that end with a bit string. -/
theorem decisive_publicKey_iff {bits : List UInt8}
    (hkeys : KeysGranted grants marks)
    (hclosing : closingOf marks = .publicKey bits) :
    Decisive grants marks ↔
      if bits.length = 66 ∧ PointGranted grants marks then
        ∃ key, (keysOf marks).getLast? = some key ∧ key.length = 32 ∧
          namedAlg marks ≠ none
      else keysOf marks = [] := by
  constructor
  · intro hdecisive
    cases hdecisive with
    | complete _ hother hbits hpoint hkey hlength hcurve =>
        obtain rfl := Closing.publicKey.inj (hclosing.symm.trans hother)
        rw [if_pos ⟨hbits, hpoint⟩]
        exact ⟨_, hkey, hlength, hcurve⟩
    | publicKey hnone hother hbits =>
        obtain rfl := Closing.publicKey.inj (hclosing.symm.trans hother)
        rw [if_neg fun hgranted => hbits hgranted.1 hgranted.2]
        exact hnone
    | refused hrefused => exact absurd hkeys hrefused
    | malformed _ hother => cases hclosing.symm.trans hother
  · intro hends
    split at hends
    next hgranted =>
      obtain ⟨key, hkey, hlength, hcurve⟩ := hends
      exact .complete hkeys hclosing hgranted.1 hgranted.2 hkey hlength hcurve
    next hnot =>
      exact .publicKey hends hclosing fun hbits hpoint => hnot ⟨hbits, hpoint⟩

/-- What a call hands out whose marks end with a bit string. -/
theorem publicKey_handsOut_iff (marks : Row KeyMark) (bits : List UInt8) :
    HandsOut ((Closing.publicKey bits).result
        (grants ((keysOf marks).length + 1)) (keypairOf marks)) ↔
      if bits.length = 66 ∧ PointGranted grants marks then
        ∃ key, (keysOf marks).getLast? = some key ∧ key.length = 32 ∧
          namedAlg marks ≠ none
      else keysOf marks = [] := by
  have hnull := keypairOf_prikey_null_iff marks
  rw [Closing.result]
  by_cases hbits : bits.length = 66
  · rw [if_neg (not_not_intro hbits)]
    by_cases hpoint : PointGranted grants marks
    · have hgranted : grants ((keysOf marks).length + 1) = true := hpoint
      rw [if_pos hgranted, if_pos ⟨hbits, hpoint⟩, handsOut_success_iff,
        keypairOf_complete_iff hbits]
    · have hrefused : ¬grants ((keysOf marks).length + 1) = true := hpoint
      rw [if_neg hrefused, if_neg fun hboth => hpoint hboth.2,
        handsOut_error_iff, release_eq_null_iff, ← hnull]
      exact and_iff_left rfl
  · rw [if_pos hbits, if_neg fun hboth => hbits hboth.1, handsOut_error_iff,
      ← hnull]
    exact and_iff_left rfl

/-- The end of the marks is what is owed exactly where they are decisive. -/
theorem closing_handsOut_iff (hkeys : KeysGranted grants marks) :
    HandsOut ((closingOf marks).result (grants ((keysOf marks).length + 1))
        (keypairOf marks)) ↔ Decisive grants marks := by
  cases hclosing : closingOf marks with
  | whole =>
      rw [Closing.result, handsOut_success_iff]
      constructor
      · rintro ⟨-, -, ⟨point, hpubkey, -⟩, -⟩
        cases hpubkey
      · intro hdecisive
        refine absurd hdecisive (not_decisive hkeys ?_ ?_) <;>
          simp [hclosing]
  | malformed =>
      rw [Closing.result, handsOut_error_iff, keypairOf_prikey_null_iff]
      constructor
      · rintro ⟨hnone, -⟩
        exact .malformed hnone hclosing
      · intro hdecisive
        cases hdecisive with
        | malformed hnone _ => exact ⟨hnone, rfl⟩
        | publicKey hnone _ _ => exact ⟨hnone, rfl⟩
        | complete _ hother _ _ _ _ _ => cases hclosing.symm.trans hother
        | refused hrefused => exact absurd hkeys hrefused
  | cut =>
      constructor
      · rintro ⟨code, keypair, hrun, -⟩
        cases hrun
      · intro hdecisive
        refine absurd hdecisive (not_decisive hkeys ?_ ?_) <;>
          simp [hclosing]
  | publicKey bits =>
      rw [publicKey_handsOut_iff, decisive_publicKey_iff hkeys hclosing]

/-- A call hands out what it owes exactly where its marks are decisive. -/
theorem handsOut_iff (grants : Nat → Bool) (input : CString) :
    HandsOut (utilityPKCS2Native grants input) ↔
      ∀ marks, pemMarks input = some marks → grants 0 →
        Decisive grants marks := by
  by_cases hread : ∃ marks, pemMarks input = some marks ∧ grants 0 = true
  · obtain ⟨marks, hmarks, hgranted⟩ := hread
    have honly : (∀ other, pemMarks input = some other → grants 0 →
        Decisive grants other) ↔ Decisive grants marks := by
      constructor
      · intro hall
        exact hall marks hmarks hgranted
      · intro hdecisive other hother _
        obtain rfl := Option.some.inj (hmarks.symm.trans hother)
        exact hdecisive
    rw [honly]
    by_cases hkeys : KeysGranted grants marks
    · rw [utilityPKCS2Native_granted hmarks hgranted hkeys]
      exact closing_handsOut_iff hkeys
    · obtain ⟨keypair, hrun, hprikey, hpubkey, -⟩ :=
        utilityPKCS2Native_refused hmarks hgranted hkeys
      rw [hrun, handsOut_error_iff]
      exact ⟨fun _ => .refused hkeys, fun _ => ⟨hprikey, hpubkey⟩⟩
  · have hnothing : ∀ marks, pemMarks input = some marks → ¬grants 0 :=
      fun marks hmarks hgranted => hread ⟨marks, hmarks, hgranted⟩
    rw [utilityPKCS2Native_nothing hnothing, handsOut_error_iff]
    exact ⟨fun _ marks hmarks hgranted =>
      absurd hgranted (hnothing marks hmarks), fun _ => ⟨rfl, rfl⟩⟩

end Results

/-- The values that TLVs in the first `len` bytes can lead to, at any depth. -/
inductive Followed (block : List UInt8) (len : Nat) : Nat → Nat → Prop where
  | outer {tlv : TLVStruct} (htlv : utilityGetTLV block len = .ok tlv) :
      Followed block len tlv.data tlv.len
  | inner {start size offset : Nat} {tlv : TLVStruct}
      (hvalue : Followed block len start size) (hoffset : offset < size)
      (htlv : utilityGetTLV (block.drop (start + offset)) (size - offset) =
        .ok tlv) :
      Followed block len (start + offset + tlv.data) tlv.len

/-- A TLV in `len` bytes at some place: its value ends in front of theirs. -/
theorem utilityGetTLV_inside_region {block : List UInt8} {start offset len : Nat}
    {tlv : TLVStruct} (hoffset : offset < len)
    (htlv : utilityGetTLV (block.drop (start + offset)) (len - offset) =
      .ok tlv) :
    start + offset + tlv.data + tlv.len ≤ start + len := by
  obtain ⟨octets, hheader⟩ := utilityGetTLV_eq_ok.mp htlv
  have hfits := hheader.fits
  rw [hheader.data]
  omega

theorem Followed.inside {block : List UInt8} {len start size : Nat}
    (hfollowed : Followed block len start size) : start + size ≤ len := by
  induction hfollowed with
  | outer htlv =>
      obtain ⟨octets, hheader⟩ := utilityGetTLV_eq_ok.mp htlv
      rw [hheader.data]
      exact hheader.fits
  | inner _ hoffset htlv ih =>
      exact (utilityGetTLV_inside_region hoffset htlv).trans ih

section Room

/-- The octets of every length inside of an element are in the buffer. -/
def HasRoom (element : Element) : Prop :=
  element.size + 3 ≤ element.bytes.length

/-- No reading leaves the buffer. -/
def StaysInside (marks : Row KeyMark) : Prop :=
  marks.Inside fun _ => True

variable {element : Element}

theorem leaf_readable (tag : UInt8) (mark : List UInt8 → KeyMark)
    (element : Element) : StaysInside (leaf tag mark element) := by
  unfold leaf
  split
  · exact ⟨trivial, trivial⟩
  · exact trivial

theorem under_readable (tag : UInt8) {inside : Element → Row KeyMark}
    (hinside : ∀ element, HasRoom element → StaysInside (inside element))
    (hroom : HasRoom element) : StaysInside (under tag inside element) := by
  unfold under
  split
  · exact Row.bind_inside hinside (elementsIn_inside hroom)
  · exact trivial

theorem keyMarks_readable (hroom : HasRoom element) :
    StaysInside (keyMarks element) :=
  Row.andThen_inside (leaf_readable _ _ _)
    (under_readable _ (fun _ _ => leaf_readable _ _ _) hroom)

theorem infoMarks_readable (hroom : HasRoom element) :
    StaysInside (infoMarks element) := by
  unfold infoMarks
  split
  · exact Row.bind_inside (fun _ _ => leaf_readable _ _ _)
      (Row.upTo_inside _ (elementsIn_inside hroom))
  · exact under_readable _ (fun _ hroom => under_readable _
      (fun _ hroom => keyMarks_readable hroom) hroom) hroom

theorem partMarks_readable (passed : Nat) (hroom : HasRoom element) :
    StaysInside (partMarks
      (elementsIn (element.size - passed) (element.bytes.drop passed))) := by
  have hroom : element.size + 3 ≤ element.bytes.length := hroom
  by_cases hpassed : passed ≤ element.size
  · have hpart : element.size - passed + 3 ≤
        (element.bytes.drop passed).length := by
      rw [List.length_drop]
      omega
    exact Row.bind_inside
      (fun _ _ => Row.andThen_inside (leaf_readable _ _ _)
        (leaf_readable _ _ _))
      (Row.upTo_inside _ (elementsIn_inside hpart))
  · have hnone : element.size - passed = 0 := by omega
    rw [hnone]
    exact trivial

theorem ecMarks_readable {row : Row Element} (hrow : row.Inside HasRoom)
    (passed : Nat) : StaysInside (ecMarks passed row) := by
  induction row generalizing passed with
  | whole => exact trivial
  | malformed => exact trivial
  | cut => exact hrow
  | found element rest ih =>
      obtain ⟨hroom, hrest⟩ := hrow
      rw [ecMarks]
      split
      · exact ⟨trivial, ih hrest passed⟩
      · split
        · exact Row.andThen_inside (partMarks_readable passed hroom)
            (ih hrest _)
        · exact ih hrest passed

/-- Bytes with room behind them are read in either container. -/
theorem read_readable {container : Container} {input : CString} {start : Nat}
    (hopened : containerOf input = some (container, start)) {size : Nat}
    {bytes : List UInt8} (hroom : size + 3 ≤ bytes.length) (hpos : 0 < size) :
    StaysInside (container.read size bytes) := by
  have hmarks : ∀ row : Row Element, row.Inside HasRoom →
      StaysInside (container.marks row) := by
    unfold containerOf at hopened
    split at hopened
    · cases hopened
      exact fun row hrow => ecMarks_readable hrow 0
    · split at hopened
      · cases hopened
        exact fun row hrow =>
          Row.bind_inside (fun _ hroom => infoMarks_readable hroom) hrow
      · cases hopened
  rw [Container.read]
  cases hhead : headAt size bytes with
  | malformed => exact trivial
  | cut => exact absurd hhead (headAt_ne_cut hroom hpos)
  | element element =>
      obtain ⟨hbytes, hextent, -⟩ := bytes_of_headAt hhead
      rw [Element.extent] at hextent
      change StaysInside (if element.tag = 0x30 then _ else _)
      split
      · refine hmarks _ (elementsIn_inside ?_)
        rw [hbytes, List.length_drop]
        omega
      · exact trivial

/-- Marks are followed to an end where no reading leaves the buffer. -/
theorem follow_readable {σ : Type} (sink : TlvSink σ) {marks : Row KeyMark}
    (hmarks : StaysInside marks) (s : σ) :
    ∃ ended, sink.follow marks s = .ok ended := by
  induction marks generalizing s with
  | whole => exact ⟨_, rfl⟩
  | malformed => exact ⟨_, rfl⟩
  | cut => exact hmarks.elim
  | found mark rest ih =>
      rw [TlvSink.follow]
      cases sink.take mark s with
      | next t => exact ih hmarks.2 t
      | leave t => exact ⟨_, rfl⟩
      | returned code t => exact ⟨_, rfl⟩

variable {grants : Nat → Bool} {input : CString} {container : Container}
  {chars : List UInt8}

/-- A text that is too long for the block is undefined. -/
theorem utilityPKCS2Native_overflow
    (hcontent : pemContent input = some (container, some chars))
    (hgranted : grants 0) (hlong : ¬DecodesInto160 chars) :
    utilityPKCS2Native grants input = .error .undefined := by
  have hmarks : pemMarks input = some .cut := by
    rw [pemMarks, hcontent]
    exact congrArg some (if_neg hlong)
  rw [utilityPKCS2Native_follow hmarks hgranted]
  rfl

/-- Decoded into 157 bytes or less, the text is followed to an end. -/
theorem utilityPKCS2Native_defined
    (hcontent : pemContent input = some (container, some chars))
    (hfits : DecodesInto160 chars)
    (hshort : Spelled chars → (leadingDigits chars).length ≤ 210) :
    ∃ ended, utilityPKCS2Native grants input = .ok ended := by
  have hopened : ∃ start, containerOf input = some (container, start) := by
    unfold pemContent at hcontent
    split at hcontent
    next => cases hcontent
    next other start hother =>
      obtain ⟨chars, -, hpair⟩ := Option.map_eq_some_iff.mp hcontent
      cases hpair
      exact ⟨start, hother⟩
  obtain ⟨start, hopened⟩ := hopened
  have hmarks : pemMarks input = some (container.marksOf (some chars)) := by
    rw [pemMarks, hcontent]
    rfl
  have hreadable : StaysInside (container.marksOf (some chars)) := by
    unfold Container.marksOf
    dsimp only
    rw [if_pos hfits]
    split
    next hspelled =>
      have hfew := hshort hspelled.1
      refine read_readable hopened ?_ (by omega)
      rw [length_bytesOf]
      omega
    next => exact trivial
  by_cases hgranted : grants 0 = true
  · obtain ⟨ended, hrun⟩ :=
      follow_readable (keySink grants) hreadable ⟨.empty, 1⟩
    rw [utilityPKCS2Native_follow hmarks hgranted, hrun]
    exact ⟨_, rfl⟩
  · rw [utilityPKCS2Native_nothing fun _ _ => hgranted]
    exact ⟨_, rfl⟩

end Room

/-- A call hands out what it owes exactly where the marks in its text are
decisive.  Values are followed inside the decoded bytes only, but a text of more
than 213 digits is decoded past the end of the block. -/
theorem utilityPKCS2Native_handsOut_iff (grants : Nat → Bool)
    (input : CString) :
    (HandsOut (utilityPKCS2Native grants input) ↔
      ∀ marks, pemMarks input = some marks → grants 0 →
        Decisive grants marks) ∧
    (∀ block len start size, Followed block len start size →
      start + size ≤ len) ∧
    ∀ container chars, pemContent input = some (container, some chars) →
      (¬DecodesInto160 chars → grants 0 →
        utilityPKCS2Native grants input = .error .undefined) ∧
      (DecodesInto160 chars →
        (Spelled chars → (leadingDigits chars).length ≤ 210) →
        ∃ ended, utilityPKCS2Native grants input = .ok ended) := by
  refine ⟨handsOut_iff grants input,
    fun block len start size hfollowed => hfollowed.inside, ?_⟩
  intro container chars hcontent
  constructor
  · intro hlong hgranted
    exact utilityPKCS2Native_overflow hcontent hgranted hlong
  · intro hfits hshort
    exact utilityPKCS2Native_defined hcontent hfits hshort

section Sample

def ecPemText (body : List Char) : List UInt8 :=
  prikeyEcPkcsBegin ++ asciiBytes body ++ prikeyEcPkcsEnd

/-- A text between the marks of an `EC PRIVATE KEY`. -/
def ecPem (body : List Char) : CString :=
  .ofBuffer (ecPemText body)

/-- A private key, the curve secp256k1 and a public key. -/
def wholeKey : List Char :=
  "MHQCAQEEIAECAwQFBgcICQoLDA0ODxAR".toList ++
    "EhMUFRYXGBkaGxwdHh8goAcGBSuBBAAK".toList ++
    "oUQDQgAEZGVmZ2hpamtsbW5vcHFyc3R1".toList ++
    "dnd4eXp7fH1+f4CBgoOEhYaHiImKi4yN".toList ++
    "jo+QkZKTlJWWl5iZmpucnZ6foKGiow==".toList

def wholeMarks : Row KeyMark :=
  .found (.privateKey ((List.range 32).map fun i => UInt8.ofNat (1 + i)))
    (.found (.curve [0x2B, 0x81, 0x04, 0x00, 0x0A])
      (.found (.publicKey (0x00 :: 0x04 :: (List.range 64).map fun i =>
        UInt8.ofNat (100 + i))) .whole))

theorem pemMarks_wholeKey : pemMarks (ecPem wholeKey) = some wholeMarks := by
  decide +kernel

theorem utilityPKCS2Native_handsOut_wholeKey :
    HandsOut (utilityPKCS2Native (fun _ => true) (ecPem wholeKey)) := by
  refine (utilityPKCS2Native_handsOut_iff (fun _ => true)
    (ecPem wholeKey)).1.mpr ?_
  intro marks hmarks _
  obtain rfl := Option.some.inj (pemMarks_wholeKey.symm.trans hmarks)
  exact .complete (fun _ _ => rfl) rfl (by decide) rfl rfl (by decide)
    (by decide)

/-- A sequence with a private key of one byte, and nothing else. -/
theorem not_utilityPKCS2Native_handsOut :
    ¬HandsOut (utilityPKCS2Native (fun _ => true)
      (ecPem "MAMEAQU=".toList)) := by
  have hrun : utilityPKCS2Native (fun _ => true) (ecPem "MAMEAQU=".toList) =
      .ok (boatSuccess, ⟨.unknown, .live [0x05], 1, .null, 0⟩) := by
    decide +kernel
  rintro ⟨code, keypair, hhanded, hsuccess, -⟩
  rw [hrun] at hhanded
  obtain ⟨rfl, rfl⟩ := Prod.mk.inj (Except.ok.inj hhanded)
  exact (hsuccess rfl).alg rfl

end Sample

end BoatFramework
