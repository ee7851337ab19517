/-
The group id of a FISCO BCOS transaction.  It stands in the signed list in
binary, and in the parameters of the request as the bare hexadecimal digits of
the same bytes, where the node reads a JSON number.
-/
import BoatFramework.Tx.GroupNumber
import BoatFramework.Tx.Sent
import BoatFramework.Tx.Setters
import BoatFramework.Utility.CString
import Mathlib.Data.Bool.AllAny

namespace BoatFramework

open ByteString

/-- The group id that `BoatFiscobcosTxInit` accepts from a text, into cleared
storage. -/
def fiscobcosInitGroupid (groupidStr : List Char) : Option (BoatFieldMax 32) :=
  let groupid := BoatFieldMax.ofHex (.zero 32) groupidStr
  if groupid.fieldLen = 0 then none else some groupid

/-- The request of `web3_fiscobcos_sendRawTransaction`. -/
def fiscobcosRequestText (request : SendRequest) (messageId : Nat) : List Char :=
  ("\x7b\"jsonrpc\":\"2.0\",\"method\":\"".toList ++ request.methodName ++
    "\",\"params\":[".toList ++ request.extra.headD [] ++ ",\"".toList ++
    request.signedtx ++ "\"],\"id\":".toList ++ formatUnsigned messageId ++
    "\x7d".toList)

/-- The text is JSON, and its first parameter is the number. -/
def RoutedTo (text : List Char) (number : Nat) : Prop :=
  ∃ document, JsonText.read text = some document ∧
    (document.member "params".toList).bind (·.item 0) = some (.number number)

/-- The group id in the parameters of the request is the one in the list that
was signed. -/
def GroupConsistent (request : SendRequest) (messageId : Nat) : Prop :=
  ∃ items groupid, request.Carries items ∧ items[8]? = some groupid ∧
    RoutedTo (fiscobcosRequestText request messageId) (ofBigEndian groupid)

section Text

open JsonText

theorem plain_digit {half : Nat} (hhalf : half < 16) :
    Plain (Hex.digit half) := by
  have hall : ∀ h : Fin 16, Plain (Hex.digit h.val) := by decide
  exact hall ⟨half, hhalf⟩

theorem plain_toHex (bytes : List UInt8) : ∀ c ∈ Hex.toHex bytes, Plain c := by
  induction bytes with
  | nil => simp [Hex.toHex]
  | cons octet bytes ih =>
      have hoctet := octet.toNat_lt
      intro c hmem
      rw [Hex.toHex] at hmem
      rcases List.mem_cons.mp hmem with rfl | hmem
      · exact plain_digit (by omega)
      rcases List.mem_cons.mp hmem with rfl | hmem
      · exact plain_digit (by omega)
      · exact ih c hmem

theorem formatUnsigned_head {n : Nat} (hn : n ≠ 0) :
    (formatUnsigned n).head? ≠ some '0' := by
  induction n using Nat.strongRecOn with
  | _ n ih =>
      rw [formatUnsigned, Nat.toDigits_eq_if (by decide)]
      split
      next hlt =>
        have hall : ∀ d : Fin 10, d.val ≠ 0 →
            [Nat.digitChar d.val].head? ≠ some '0' := by decide
        exact hall ⟨n, hlt⟩ hn
      next hge =>
        have hhigh := ih (n / 10) (by omega) (by omega)
        rw [List.head?_append_of_ne_nil _ Nat.toDigits_ne_nil]
        exact hhigh

/-- A decimal number is read to its end. -/
theorem readUnsigned_formatUnsigned (n : Nat) :
    ∃ value, readUnsigned (formatUnsigned n) = some (value, []) := by
  have hdigits : ∀ c ∈ formatUnsigned n, c.isDigit = true := fun c hmem =>
    Nat.isDigit_of_mem_toDigits (by decide) (by decide) hmem
  have hne : formatUnsigned n ≠ [] := Nat.toDigits_ne_nil
  have htake := List.takeWhile_eq_self_iff.mpr hdigits
  have hdrop := List.dropWhile_eq_nil_iff.mpr hdigits
  have hlead : ¬((formatUnsigned n).head? = some '0' ∧
      (formatUnsigned n).length ≠ 1) := by
    rintro ⟨hhead, hlength⟩
    by_cases hn : n = 0
    · subst hn
      exact hlength rfl
    · exact formatUnsigned_head hn hhead
  rw [readUnsigned, readDigits, htake, hdrop]
  simp only [if_neg hne, Option.bind_eq_bind, Option.bind_some, if_neg hlead,
    readFraction, readExponent]
  exact ⟨_, rfl⟩

variable {request : SendRequest} {messageId fuel : Nat} {group : List Char}

/-- The text behind its first members. -/
def paramsText (group signedtx id : List Char) : List Char :=
  '"' :: ("params".toList ++ '"' :: ':' :: '[' :: (group ++ ',' ::
    '"' :: (signedtx ++ '"' :: ']' :: ',' ::
      '"' :: ("id".toList ++ '"' :: ':' :: (id ++ ['}'])))))

theorem fiscobcosRequestText_eq
    (hmethod : request.methodName = "sendRawTransaction".toList) :
    fiscobcosRequestText request messageId =
      '{' :: '"' :: ("jsonrpc".toList ++ '"' :: ':' ::
        '"' :: ("2.0".toList ++ '"' :: ',' ::
          '"' :: ("method".toList ++ '"' :: ':' ::
            '"' :: ("sendRawTransaction".toList ++ '"' :: ',' ::
              paramsText (request.extra.headD []) request.signedtx
                (formatUnsigned messageId))))) := by
  have hfront : "\x7b\"jsonrpc\":\"2.0\",\"method\":\"".toList =
      '{' :: '"' :: ("jsonrpc".toList ++ '"' :: ':' ::
        '"' :: ("2.0".toList ++ '"' :: ',' ::
          '"' :: ("method".toList ++ '"' :: ':' :: ['"']))) := rfl
  have hparams : "\",\"params\":[".toList =
      '"' :: ',' :: '"' :: ("params".toList ++ '"' :: ':' :: ['[']) := rfl
  have hsigned : ",\"".toList = [',', '"'] := rfl
  have hid : "\"],\"id\":".toList =
      '"' :: ']' :: ',' :: '"' :: ("id".toList ++ '"' :: [':']) := rfl
  have hclose : "\x7d".toList = ['}'] := rfl
  unfold fiscobcosRequestText paramsText
  rw [hmethod, hfront, hparams, hsigned, hid, hclose]
  simp only [List.append_assoc, List.cons_append, List.nil_append]

/-- The members in front of the parameters are read whatever stands there. -/
theorem readMembers_front (rest : List Char) :
    readMembers (fuel + 4) ('"' :: ("jsonrpc".toList ++ '"' :: ':' ::
        '"' :: ("2.0".toList ++ '"' :: ',' ::
          '"' :: ("method".toList ++ '"' :: ':' ::
            '"' :: ("sendRawTransaction".toList ++ '"' :: ',' :: rest))))) =
      (readMembers (fuel + 2) rest).map fun (members, rest) =>
        (("jsonrpc".toList, .string "2.0".toList) ::
          ("method".toList, .string "sendRawTransaction".toList) :: members,
            rest) := by
  have hjsonrpc : ∀ c ∈ "jsonrpc".toList, Plain c :=
    List.all_iff_forall_prop.mp rfl
  have hversion : ∀ c ∈ "2.0".toList, Plain c :=
    List.all_iff_forall_prop.mp rfl
  have hmethod : ∀ c ∈ "method".toList, Plain c :=
    List.all_iff_forall_prop.mp rfl
  have hsend : ∀ c ∈ "sendRawTransaction".toList, Plain c :=
    List.all_iff_forall_prop.mp rfl
  rw [readMembers_next hjsonrpc (readValue_string hversion),
    readMembers_next hmethod (readValue_string hsend), Option.map_map]
  rfl

/-- What the node takes for the group id is the first value of the list. -/
theorem read_paramsText {signedtx id rest : List Char} {first : Char}
    {members : List (List Char × Value)}
    (hfirst : first ∉ [' ', '\t', '\n', '\r', ']'])
    (hread : readMembers (fuel + 4) (paramsText (first :: group) signedtx id) =
      some (members, rest)) :
    ∃ items value left, members.head? = some ("params".toList, .array items) ∧
      items.head? = some value ∧
      JsonText.readValue (fuel + 1) (first :: group ++ ',' ::
        '"' :: (signedtx ++ '"' :: ']' :: ',' ::
          '"' :: ("id".toList ++ '"' :: ':' :: (id ++ ['}'])))) =
        some (value, left) ∧
      ∃ tail, skipSpace left = ',' :: tail ∨ skipSpace left = ']' :: tail := by
  have hparams : ∀ c ∈ "params".toList, Plain c :=
    List.all_iff_forall_prop.mp rfl
  obtain ⟨list, left, hlist, hmembers⟩ := readMembers_eq_some hparams hread
  rw [List.cons_append, readValue_array hfirst] at hlist
  obtain ⟨⟨items, left'⟩, hitems, heq⟩ := Option.map_eq_some_iff.mp hlist
  cases heq
  obtain ⟨value, behind, hvalue, hhead, hmark⟩ := readItems_eq_some hitems
  exact ⟨items, value, behind, hmembers, hhead, hvalue, hmark⟩

/-- A number is read up to the character behind it. -/
theorem readValue_number {text : List Char} {number : ℚ} {c : Char}
    (hc : Terminator c) (htext : readUnsigned text = some (number, []))
    (rest : List Char) :
    JsonText.readValue (fuel + 1) (text ++ c :: rest) =
      some (.number number, c :: rest) := by
  obtain ⟨d, tail, rfl, hd⟩ := readUnsigned_first htext
  rw [List.cons_append, readValue_digit hd, ← List.cons_append,
    readUnsigned_append hc, htext]
  rfl

/-- With a number in front, the list and the members behind it are read. -/
theorem read_paramsText_number {signedtx id : List Char} {number value : ℚ}
    (hgroup : readUnsigned group = some (number, []))
    (hsignedtx : ∀ c ∈ signedtx, Plain c)
    (hid : readUnsigned id = some (value, [])) :
    readMembers (fuel + 6) (paramsText group signedtx id) =
      some ([("params".toList, .array [.number number, .string signedtx]),
        ("id".toList, .number value)], []) := by
  have hparams : ∀ c ∈ "params".toList, Plain c :=
    List.all_iff_forall_prop.mp rfl
  have hname : ∀ c ∈ "id".toList, Plain c :=
    List.all_iff_forall_prop.mp rfl
  have hcomma : Terminator ',' := by decide
  have hclose : Terminator '}' := by decide
  obtain ⟨first, group, rfl, hfirst⟩ := readUnsigned_first hgroup
  have hopen : first ∉ [' ', '\t', '\n', '\r', ']'] := by
    intro hmem
    have hall : ∀ c ∈ [' ', '\t', '\n', '\r', ']'], c.isDigit = false :=
      List.all_iff_forall_prop.mp rfl
    rw [hall first hmem] at hfirst
    cases hfirst
  have hnumber (more : List Char) :
      JsonText.readValue (fuel + 3) (first :: group ++ ',' :: more) =
        some (.number number, ',' :: more) :=
    readValue_number hcomma hgroup more
  have hstring (more : List Char) :
      JsonText.readValue (fuel + 2) ('"' :: (signedtx ++ '"' :: ']' :: more)) =
        some (.string signedtx, ']' :: more) :=
    readValue_string hsignedtx
  have hlist (more : List Char) :
      JsonText.readValue (fuel + 5) ('[' :: (first :: group ++ ',' ::
        '"' :: (signedtx ++ '"' :: ']' :: ',' :: more))) =
        some (.array [.number number, .string signedtx], ',' :: more) := by
    rw [List.cons_append, readValue_array hopen, ← List.cons_append,
      readItems_next (hnumber _), readItems_last (hstring _)]
    rfl
  have hlast : JsonText.readValue (fuel + 4) (id ++ ['}']) =
      some (.number value, ['}']) :=
    readValue_number hclose hid []
  rw [paramsText, readMembers_next hparams (hlist _),
    readMembers_last hname hlast]
  rfl

theorem member_params (version method value : Value)
    (rest : List (List Char × Value)) :
    (Value.object (("jsonrpc".toList, version) :: ("method".toList, method) ::
      ("params".toList, value) :: rest)).member "params".toList = some value :=
  rfl

/-- A character of a group id: no mark of the text around it. -/
theorem digit_notMark {halves : List Nat} (hhalves : ∀ h ∈ halves, h < 16)
    {c : Char} (hmem : c ∈ halves.map Hex.digit) :
    c ∉ [' ', '\t', '\n', '\r', ']', ',', '-'] := by
  obtain ⟨h, hh, rfl⟩ := List.mem_map.mp hmem
  have hmark := (digitKind (hhalves h hh)).notMark
  simp only [List.mem_cons, List.not_mem_nil, or_false, not_or] at hmark ⊢
  obtain ⟨hspace, htab, hline, hreturn, -, -, -, -, -, hclose, hcomma, -, hminus,
    -⟩ := hmark
  exact ⟨hspace, htab, hline, hreturn, hclose, hcomma, hminus⟩

/-- A number that is read up to a mark, and not over one, is read to its end. -/
theorem readUnsigned_to_mark {text more left : List Char} {number : ℚ}
    (htext : ∀ c ∈ text, c ∉ [' ', '\t', '\n', '\r', ']', ',', '-'])
    (hread : readUnsigned (text ++ ',' :: more) = some (number, left))
    (hmark : ∃ tail, skipSpace left = ',' :: tail ∨
      skipSpace left = ']' :: tail) :
    readUnsigned text = some (number, []) := by
  have hcomma : Terminator ',' := by decide
  rw [readUnsigned_append hcomma] at hread
  obtain ⟨⟨value, rest⟩, htake, heq⟩ := Option.map_eq_some_iff.mp hread
  cases heq
  have hsuffix := readUnsigned_suffix htake
  cases rest with
  | nil => exact htake
  | cons c rest =>
      have hc := htext c (hsuffix.subset List.mem_cons_self)
      simp only [List.mem_cons, List.not_mem_nil, or_false, not_or] at hc
      obtain ⟨hspace, htab, hline, hreturn, hclose, hother, -⟩ := hc
      have hskip : skipSpace (c :: rest ++ ',' :: more) =
          c :: rest ++ ',' :: more := by
        apply skipSpace_cons
        simp [hspace, htab, hline, hreturn]
      obtain ⟨tail, hmark⟩ := hmark
      simp only [hskip] at hmark
      rcases hmark with hmark | hmark
      · exact absurd (List.cons.inj hmark).1 hother
      · exact absurd (List.cons.inj hmark).1 hclose

/-- The first parameter is a number when the digits of the group id are one. -/
theorem readUnsigned_of_routedTo {halves : List Nat} {number : Nat}
    (hhalves : ∀ h ∈ halves, h < 16) (hne : halves ≠ [])
    (hmethod : request.methodName = "sendRawTransaction".toList)
    (hextra : request.extra = [halves.map Hex.digit])
    (hroute : RoutedTo (fiscobcosRequestText request messageId) number) :
    readUnsigned (halves.map Hex.digit) = some ((number : ℚ), []) := by
  obtain ⟨document, hread, hitem⟩ := hroute
  obtain ⟨first, group, hgroup⟩ := List.exists_cons_of_ne_nil
    (fun h => hne (List.map_eq_nil_iff.mp h) : halves.map Hex.digit ≠ [])
  have hmarks : ∀ c ∈ first :: group, c ∉ [' ', '\t', '\n', '\r', ']', ',', '-'] :=
    fun c hmem => digit_notMark hhalves (hgroup ▸ hmem)
  have hfirst := hmarks first List.mem_cons_self
  rw [JsonText.read, fiscobcosRequestText_eq hmethod, hextra, List.headD_cons,
    hgroup] at hread
  generalize hsize : List.length _ + 1 = size at hread
  obtain ⟨fuel, rfl⟩ : ∃ fuel, size = fuel + 7 := by
    refine ⟨size - 7, ?_⟩
    simp only [List.length_cons, List.length_append] at hsize
    omega
  rw [readValue_object, readMembers_front, Option.map_map] at hread
  split at hread
  next value rest hdocument =>
    obtain ⟨⟨members, left⟩, hmembers, heq⟩ :=
      Option.map_eq_some_iff.mp hdocument
    cases heq
    split at hread
    next =>
      cases hread
      obtain ⟨items, value, left, hhead, hvalue, hnumber, hmark⟩ :=
        read_paramsText (fun hmem => hfirst (List.mem_append_left [',', '-'] hmem))
          hmembers
      obtain ⟨more, rfl⟩ := List.head?_eq_some_iff.mp hhead
      rw [member_params, Option.bind_some, Value.item, ← List.head?_eq_getElem?,
        hvalue] at hitem
      cases hitem
      rw [hgroup]
      rw [List.cons_append] at hnumber
      exact readUnsigned_to_mark hmarks (readUnsigned_of_readValue
        (fun hmem => hfirst (by simp only [List.mem_cons] at hmem ⊢; tauto))
        hnumber) hmark
    next => cases hread
  next => cases hread

/-- The converse: the whole text is read, its first parameter with it. -/
theorem routedTo_of_readUnsigned {halves : List Nat} {number : Nat}
    {signed : List UInt8}
    (hmethod : request.methodName = "sendRawTransaction".toList)
    (hextra : request.extra = [halves.map Hex.digit])
    (hsignedtx : request.signedtx = '0' :: 'x' :: Hex.toHex signed)
    (hread : readUnsigned (halves.map Hex.digit) = some ((number : ℚ), [])) :
    RoutedTo (fiscobcosRequestText request messageId) number := by
  obtain ⟨id, hid⟩ := readUnsigned_formatUnsigned messageId
  have hplain : ∀ c ∈ request.signedtx, Plain c := by
    intro c hmem
    rw [hsignedtx] at hmem
    rcases List.mem_cons.mp hmem with rfl | hmem
    · decide
    rcases List.mem_cons.mp hmem with rfl | hmem
    · decide
    · exact plain_toHex signed c hmem
  rw [RoutedTo, JsonText.read, fiscobcosRequestText_eq hmethod, hextra,
    List.headD_cons]
  generalize hsize : List.length _ + 1 = size
  obtain ⟨fuel, rfl⟩ : ∃ fuel, size = fuel + 9 := by
    refine ⟨size - 9, ?_⟩
    simp only [List.length_cons, List.length_append] at hsize
    omega
  rw [readValue_object, readMembers_front,
    read_paramsText_number hread hplain hid]
  exact ⟨_, rfl, rfl⟩

/-- The node reads the group id of the list when it is one decimal digit, and
never otherwise. -/
theorem routedTo_iff {groupid signed : List UInt8}
    (hmethod : request.methodName = "sendRawTransaction".toList)
    (hextra : request.extra = [(quantityHalves groupid).map Hex.digit])
    (hsignedtx : request.signedtx = '0' :: 'x' :: Hex.toHex signed) :
    RoutedTo (fiscobcosRequestText request messageId) (ofBigEndian groupid) ↔
      ofBigEndian groupid < 10 := by
  have hne : quantityHalves groupid ≠ [] := by
    rcases quantityHalves_lead groupid with h | ⟨half, rest, -, h⟩ <;>
      rw [h] <;> exact List.cons_ne_nil _ _
  rw [← readUnsigned_quantity_iff]
  constructor
  · exact readUnsigned_of_routedTo (quantityHalves_lt groupid) hne hmethod hextra
  · exact routedTo_of_readUnsigned hmethod hextra hsignedtx

end Text

section Run

variable {env : SendEnv} {state : SendState} {request : SendRequest}
  {messageId : Nat}

/-- The group id of an accepted text is not empty. -/
theorem fiscobcosInitGroupid_ne_nil {groupidStr : List Char}
    {fields : RawtxFields}
    (hgroupid : fiscobcosInitGroupid groupidStr = some fields.groupid) :
    fields.bytes .groupid ≠ [] := by
  unfold fiscobcosInitGroupid at hgroupid
  simp only at hgroupid
  split at hgroupid
  · cases hgroupid
  next hlen =>
    rw [Option.some.inj hgroupid] at hlen
    have hstorage := fields.groupid.field.length_bytes
    apply List.ne_nil_of_length_pos
    change 0 < (fields.groupid.field.bytes.take fields.groupid.fieldLen).length
    rw [List.length_take, hstorage]
    omega

/-- The request of a run and the list in it, from the fields of the
transaction. -/
theorem fiscobcosSendRawtx_request (hmalloc : Fresh env.malloc)
    (hgroupid : state.tx.rawtxFields.bytes .groupid ≠ [])
    (hsent : (Exec.final (fiscobcosSendRawtx env state)).sends =
      state.sends ++ [request]) :
    request.methodName = "sendRawTransaction".toList ∧
      request.extra = [(quantityHalves
        (state.tx.rawtxFields.bytes .groupid)).map Hex.digit] ∧
      ∃ items, request.Carries items ∧
        items[8]? = some (state.tx.rawtxFields.bytes .groupid) := by
  rcases sendRawtx_sends (fiscobcosSender_quiet env) state with
    hnone | ⟨signedtx, mid, hbuild, hsends⟩
  · have hsame := hnone.symm.trans hsent
    exact absurd (List.self_eq_append_right.mp hsame) (List.cons_ne_nil _ _)
  have hrequest : fiscobcosSender.request mid.tx signedtx = request := by
    have hboth := hsends.symm.trans hsent
    exact List.singleton_inj.mp (List.append_cancel_left hboth)
  obtain ⟨fields, message, signature, stream, hbuilt, rfl⟩ :=
    buildRawtx_ok fiscobcosSender_wellFormed hmalloc hbuild
  have hfields : fields.bytes .groupid = state.tx.rawtxFields.bytes .groupid :=
    hbuilt.unchanged .groupid (by decide)
  have hmid : mid.tx.rawtxFields.bytes .groupid =
      state.tx.rawtxFields.bytes .groupid :=
    (hbuilt.unsigned .groupid (by decide)).trans hfields
  subst hrequest
  refine ⟨rfl, ?_, fiscobcosSender.leading.map fields.bytes ++
    fiscobcosSender.signatureItems state.tx signature, ⟨?_, ?_⟩, ?_⟩
  · rw [← utilityBinToHex_quantity hgroupid, ← hmid]
    rfl
  · exact hbuilt.streamItems ▸ hbuilt.size
  · rw [← hbuilt.streamItems]
    rfl
  · rw [← hfields]
    rfl

/-- The group id of the request is that of the list when it is one decimal
digit, and never otherwise. -/
theorem groupConsistent_iff (hmalloc : Fresh env.malloc)
    (hgroupid : state.tx.rawtxFields.bytes .groupid ≠ [])
    (hsent : (Exec.final (fiscobcosSendRawtx env state)).sends =
      state.sends ++ [request]) :
    GroupConsistent request messageId ↔
      ofBigEndian (state.tx.rawtxFields.bytes .groupid) < 10 := by
  obtain ⟨hmethod, hextra, items, hcarries, hitem⟩ :=
    fiscobcosSendRawtx_request hmalloc hgroupid hsent
  rw [← routedTo_iff hmethod hextra hcarries.text]
  constructor
  · rintro ⟨others, groupid, hothers, hother, hroute⟩
    rw [hothers.unique hcarries, hitem] at hother
    cases hother
    exact hroute
  · intro hroute
    exact ⟨items, _, hcarries, hitem, hroute⟩

/-- For an accepted group id: the node is asked for the group that was signed
when the group id is below ten, and never otherwise. -/
theorem fiscobcosSendRawtx_groupConsistent_iff {groupidStr : List Char}
    (hmalloc : Fresh env.malloc)
    (hgroupid : fiscobcosInitGroupid groupidStr =
      some state.tx.rawtxFields.groupid)
    (hsent : (Exec.final (fiscobcosSendRawtx env state)).sends =
      state.sends ++ [request]) :
    GroupConsistent request messageId ↔
      ofBigEndian (state.tx.rawtxFields.bytes .groupid) < 10 :=
  groupConsistent_iff hmalloc (fiscobcosInitGroupid_ne_nil hgroupid) hsent

/-- A zero transaction to a group. -/
def groupState (groupidStr : List Char) : SendState :=
  sampleState ⟨1, false⟩
    { RawtxFields.zero with groupid := .ofHex (.zero 32) groupidStr }

theorem groupState_sends (groupidStr : List Char)
    (hlength : (Exec.final (fiscobcosSendRawtx (sampleEnv 1)
      (groupState groupidStr))).sends.length = 1) :
    ∃ request, (Exec.final (fiscobcosSendRawtx (sampleEnv 1)
      (groupState groupidStr))).sends =
        (groupState groupidStr).sends ++ [request] :=
  List.length_eq_one_iff.mp hlength

/-- Group 1 is asked for as it was signed. -/
theorem fiscobcosSendRawtx_groupConsistent_one :
    ∃ request, (Exec.final (fiscobcosSendRawtx (sampleEnv 1)
        (groupState "0x1".toList))).sends = [request] ∧
      (GroupConsistent request 7 ↔
        ofBigEndian ((groupState "0x1".toList).tx.rawtxFields.bytes .groupid) <
          10) := by
  obtain ⟨request, hsent⟩ := groupState_sends "0x1".toList
    (by decide +kernel)
  have hgroupid : fiscobcosInitGroupid "0x1".toList =
      some (groupState "0x1".toList).tx.rawtxFields.groupid := rfl
  exact ⟨request, hsent,
    fiscobcosSendRawtx_groupConsistent_iff zeroMalloc_fresh hgroupid hsent⟩

/-- Group 16 is signed, and group 10 is asked for. -/
theorem not_groupConsistent_sixteen :
    ¬∀ (env : SendEnv) (state : SendState) (request : SendRequest)
        (groupidStr : List Char) (messageId : Nat), Fresh env.malloc →
      fiscobcosInitGroupid groupidStr = some state.tx.rawtxFields.groupid →
      (Exec.final (fiscobcosSendRawtx env state)).sends =
        state.sends ++ [request] →
      GroupConsistent request messageId := by
  intro hall
  obtain ⟨request, hsent⟩ := groupState_sends "0x10".toList
    (by decide +kernel)
  have hgroupid : fiscobcosInitGroupid "0x10".toList =
      some (groupState "0x10".toList).tx.rawtxFields.groupid := rfl
  have hconsistent := hall _ _ _ _ 7 zeroMalloc_fresh hgroupid hsent
  have hsmall := (groupConsistent_iff zeroMalloc_fresh
    (fiscobcosInitGroupid_ne_nil hgroupid) hsent).mp hconsistent
  exact absurd hsmall (by decide)

end Run

end BoatFramework
