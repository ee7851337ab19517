/-
What `BoatChainmakerAddTxParam` leaves in the parameters of a transaction: the
pairs of the arguments that were read, however the call ends.
-/
import BoatFramework.Chainmaker.Transaction

namespace BoatFramework

namespace BoatTransactionParams

variable (params : BoatTransactionParams)

/-- The key that stands behind the pairs in use. -/
def nextKey : Option ParamText :=
  params.parameters.1[params.nParameters]?.bind BoatKeyValuePair.key

@[simp] theorem list_setKey (key : ParamText) :
    (params.setKey key).list = params.list := by
  change (params.parameters.1.modify params.nParameters _).take
    params.nParameters = _
  rw [List.take_modify, List.modify_eq_self (List.length_take_le _ _)]
  rfl

@[simp] theorem nParameters_setKey (key : ParamText) :
    (params.setKey key).nParameters = params.nParameters :=
  rfl

@[simp] theorem nParameters_setValue (value : ParamText) :
    (params.setValue value).nParameters = params.nParameters + 1 :=
  rfl

variable {params}

theorem nextKey_setKey (key : ParamText)
    (hroom : params.nParameters < boatHlchainmakerArgsMaxNum) :
    (params.setKey key).nextKey = some key := by
  have hslot : params.nParameters < params.parameters.1.length := by
    rw [params.parameters.2]
    exact hroom
  change ((params.parameters.1.modify params.nParameters _)[_]?).bind _ = _
  rw [nParameters_setKey, List.getElem?_modify_eq,
    List.getElem?_eq_getElem hslot]
  rfl

theorem list_setValue (value : ParamText)
    (hroom : params.nParameters < boatHlchainmakerArgsMaxNum) :
    (params.setValue value).list =
      params.list ++ [⟨params.nextKey, some value⟩] := by
  have hslot : params.nParameters < params.parameters.1.length := by
    rw [params.parameters.2]
    exact hroom
  change (params.parameters.1.modify params.nParameters _).take
    (params.nParameters + 1) = _
  have hlength : (params.parameters.1.take params.nParameters).length =
      params.nParameters :=
    List.length_take_of_le hslot.le
  rw [List.modify_eq_take_cons_drop hslot, nextKey,
    List.getElem?_eq_getElem hslot]
  nth_rewrite 1 [← hlength]
  rw [List.take_length_add_append]
  rfl

end BoatTransactionParams

/-- The arguments that are read where that many are wanted, and how the reading
ends. -/
def readArguments : Nat → List (Option ParamText) →
    Outcome Unit × List ParamText
  | 0, _ => (.ok (), [])
  | _ + 1, [] => (.error .undefined, [])
  | _ + 1, none :: _ => (boatThrow boatErrorCommonInvalidArgument, [])
  | wanted + 1, some text :: rest =>
      ((readArguments wanted rest).1, text :: (readArguments wanted rest).2)

/-- The pairs of a list of texts that starts at a place in the arguments: at an
odd one stands the value for the key. -/
def pairsFrom : Nat → Option ParamText → List ParamText → List BoatKeyValuePair
  | _, _, [] => []
  | i, key, text :: rest =>
      if i % 2 = 1 then ⟨key, some text⟩ :: pairsFrom (i + 1) none rest
      else pairsFrom (i + 1) (some text) rest

/-- The loop collects the pairs of what is read. -/
theorem addTxParamLoop_eq {length : Nat} (args : List (Option ParamText))
    {i wanted : Nat} {key : Option ParamText} {params : BoatTransactionParams}
    (hwanted : length - i = wanted) (hkey : i % 2 = 1 → params.nextKey = key)
    (hroom : params.nParameters + wanted ≤ boatHlchainmakerArgsMaxNum) :
    (addTxParamLoop length i args params).1 = (readArguments wanted args).1 ∧
      (addTxParamLoop length i args params).2.list =
        params.list ++ pairsFrom i key (readArguments wanted args).2 := by
  induction args generalizing i wanted key params with
  | nil =>
      unfold addTxParamLoop
      cases wanted with
      | zero =>
          rw [if_neg (by omega)]
          exact ⟨rfl, (List.append_nil _).symm⟩
      | succ wanted =>
          rw [if_pos (by omega)]
          exact ⟨rfl, (List.append_nil _).symm⟩
  | cons head tail ih =>
      unfold addTxParamLoop
      cases wanted with
      | zero =>
          rw [if_neg (by omega)]
          exact ⟨rfl, (List.append_nil _).symm⟩
      | succ wanted =>
          rw [if_pos (by omega)]
          cases head with
          | none => exact ⟨rfl, (List.append_nil _).symm⟩
          | some text =>
              dsimp only [readArguments, pairsFrom]
              by_cases hodd : i % 2 = 1
              · rw [if_pos hodd, if_pos hodd]
                have hrest := @ih (i + 1) wanted none (params.setValue text)
                  (by omega) (by omega) (by
                    rw [BoatTransactionParams.nParameters_setValue]
                    omega)
                rw [BoatTransactionParams.list_setValue text (by omega),
                  hkey hodd, List.append_assoc] at hrest
                exact hrest
              · rw [if_neg hodd, if_neg hodd]
                have hrest := @ih (i + 1) wanted (some text) (params.setKey text)
                  (by omega)
                  (fun _ => BoatTransactionParams.nextKey_setKey text (by omega))
                  (by
                    rw [BoatTransactionParams.nParameters_setKey]
                    omega)
                rw [BoatTransactionParams.list_setKey] at hrest
                exact hrest

section Call

variable (length : UInt8) (arg : Option ParamText)
  (args : List (Option ParamText)) (params : BoatTransactionParams)

/-- The check in front of the arguments. -/
def LengthAllowed : Prop :=
  length.toNat ≤ boatHlchainmakerArgsMaxNum ∧ length.toNat % 2 = 0

instance : Decidable (LengthAllowed length) :=
  inferInstanceAs (Decidable (_ ∧ _))

/-- The first key: the one that is given, or else the one that stands first. -/
def firstKey : Option ParamText :=
  arg.or (params.parameters.1[0]?.bind BoatKeyValuePair.key)

theorem boatChainmakerAddTxParam_rejected (hlength : ¬LengthAllowed length) :
    boatChainmakerAddTxParam length arg args params =
      (boatThrow boatErrorCommonInvalidArgument, params) := by
  unfold LengthAllowed at hlength
  exact if_pos (by omega)

theorem boatChainmakerAddTxParam_read (hlength : LengthAllowed length) :
    (boatChainmakerAddTxParam length arg args params).1 =
        (readArguments (length.toNat - 1) args).1 ∧
      (boatChainmakerAddTxParam length arg args params).2.list =
        pairsFrom 1 (firstKey arg params)
          (readArguments (length.toNat - 1) args).2 := by
  unfold LengthAllowed at hlength
  unfold boatChainmakerAddTxParam
  rw [if_neg (by omega)]
  cases arg with
  | none =>
      exact addTxParamLoop_eq args rfl (fun _ => rfl) (by
        change 0 + _ ≤ _
        omega)
  | some key =>
      exact addTxParamLoop_eq args rfl
        (fun _ => BoatTransactionParams.nextKey_setKey key
          (by decide : 0 < boatHlchainmakerArgsMaxNum)) (by
        change 0 + _ ≤ _
        omega)

end Call

section Outside

/-- No pointer into the frame of a call that runs. -/
def BoatTransactionParams.Outside (params : BoatTransactionParams) : Prop :=
  ∀ pair ∈ params.parameters.1, pair.expire = pair

instance (params : BoatTransactionParams) : Decidable params.Outside :=
  inferInstanceAs (Decidable (∀ pair ∈ params.parameters.1, _))

theorem ParamText.expire_expire (text : ParamText) :
    text.expire.expire = text.expire := by
  cases text <;> rfl

theorem BoatKeyValuePair.expire_expire (pair : BoatKeyValuePair) :
    pair.expire.expire = pair.expire := by
  have htwice : ParamText.expire ∘ ParamText.expire = ParamText.expire :=
    funext ParamText.expire_expire
  simp only [BoatKeyValuePair.expire, Option.map_map, htwice]

theorem outside_expire (params : BoatTransactionParams) :
    params.expire.Outside := by
  intro pair hpair
  obtain ⟨inner, _, rfl⟩ := List.mem_map.mp hpair
  exact inner.expire_expire

theorem BoatTransactionParams.list_expire (params : BoatTransactionParams) :
    params.expire.list = params.list.map BoatKeyValuePair.expire := by
  change (params.parameters.1.map _).take params.nParameters = _
  rw [← List.map_take]
  rfl

variable {params : BoatTransactionParams}

/-- Parameters outside the frame are as they were when it is gone. -/
theorem BoatTransactionParams.Outside.list_expire (houtside : params.Outside) :
    params.expire.list = params.list := by
  rw [BoatTransactionParams.list_expire]
  exact (List.map_congr_left fun pair hpair =>
    houtside pair (List.mem_of_mem_take hpair)).trans (List.map_id _)

theorem BoatTransactionParams.Outside.modifyNext (houtside : params.Outside)
    {change : BoatKeyValuePair → BoatKeyValuePair}
    (hchange : ∀ pair, pair.expire = pair →
      (change pair).expire = change pair) :
    (params.modifyNext change).Outside := by
  intro pair hpair
  change pair ∈ params.parameters.1.modify params.nParameters change at hpair
  by_cases hslot : params.nParameters < params.parameters.1.length
  · obtain ⟨front, old, back, hparameters, _, hmodified⟩ :=
      List.exists_of_modify change hslot
    rw [hmodified] at hpair
    have hmem (other : BoatKeyValuePair)
        (hother : other ∈ front ++ old :: back) : other.expire = other :=
      houtside other (hparameters ▸ hother)
    rcases List.mem_append.mp hpair with hfront | hback
    · exact hmem pair (List.mem_append_left _ hfront)
    · rcases List.mem_cons.mp hback with rfl | hback
      · exact hchange old (hmem old (by simp))
      · exact hmem pair (by simp [hback])
  · rw [List.modify_eq_self (Nat.le_of_not_lt hslot)] at hpair
    exact houtside pair hpair

theorem BoatTransactionParams.Outside.setKey (houtside : params.Outside)
    (key : CString) : (params.setKey (.caller key)).Outside := by
  apply houtside.modifyNext
  intro pair hpair
  have hvalue : pair.value.map ParamText.expire = pair.value :=
    congrArg BoatKeyValuePair.value hpair
  simp only [BoatKeyValuePair.expire, hvalue]
  rfl

theorem BoatTransactionParams.Outside.setValue (houtside : params.Outside)
    (value : CString) : (params.setValue (.caller value)).Outside := by
  have hmodified : (params.modifyNext fun pair =>
      { pair with value := some (.caller value) }).Outside := by
    apply houtside.modifyNext
    intro pair hpair
    have hkey : pair.key.map ParamText.expire = pair.key :=
      congrArg BoatKeyValuePair.key hpair
    simp only [BoatKeyValuePair.expire, hkey]
    rfl
  exact hmodified

/-- The pointers to texts of the caller. -/
def callerTexts (args : List (Option CString)) : List (Option ParamText) :=
  args.map fun arg => arg.map ParamText.caller

theorem addTxParamLoop_outside {length i : Nat} (args : List (Option CString))
    (houtside : params.Outside) :
    (addTxParamLoop length i (callerTexts args) params).2.Outside := by
  induction args generalizing i params with
  | nil =>
      unfold addTxParamLoop
      split <;> exact houtside
  | cons head tail ih =>
      rw [callerTexts, List.map_cons]
      unfold addTxParamLoop
      split
      · cases head with
        | none => exact houtside
        | some text =>
            apply ih
            split
            · exact houtside.setValue text
            · exact houtside.setKey text
      · exact houtside

theorem boatChainmakerAddTxParam_outside (length : UInt8) (arg : Option CString)
    (args : List (Option CString)) (houtside : params.Outside) :
    (boatChainmakerAddTxParam length (arg.map ParamText.caller)
      (callerTexts args) params).2.Outside := by
  unfold boatChainmakerAddTxParam
  split
  · exact houtside
  · apply addTxParamLoop_outside
    have hcleared :
        ({ params with nParameters := 0 } : BoatTransactionParams).Outside :=
      houtside
    cases arg with
    | none => exact hcleared
    | some key => exact hcleared.setKey key

end Outside

end BoatFramework
