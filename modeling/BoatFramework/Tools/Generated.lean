/-
What the functions of the code generators share: the bytes of a variable turned
in place, and a transaction that was sent with the data that was set in it.
-/
import BoatFramework.Tx.SyncSend
import BoatFramework.Utility.ChangeEndian

namespace BoatFramework

/-- `UtilityChangeEndian` on the storage of a variable. -/
def turnStorage (storage : List UInt8) (size : Nat) : Outcome (List UInt8) :=
  (utilityChangeEndian storage (UInt32.ofNat size)).getD (.error .undefined)

theorem turnStorage_eq {storage : List UInt8} {size : Nat}
    (hlength : storage.length = size) (hsize : size ≤ 257) :
    turnStorage storage size = .ok storage.reverse := by
  have hnat : (UInt32.ofNat size).toNat = size := by
    rw [UInt32.toNat_ofNat']
    omega
  rw [turnStorage, utilityChangeEndian_short (by rw [hnat, hlength])
    (by rw [hnat]; exact hsize)]
  rfl

/-- A run sent one transaction, with the bytes as its data. -/
def SendsData (data : List UInt8) (before after : SendState) : Prop :=
  ∃ request items, after.sends = before.sends ++ [request] ∧
    request.Carries items ∧ items[5]? = some data

/-- One transaction carries one data. -/
theorem SendsData.unique {data data' : List UInt8} {before after : SendState}
    (hdata : SendsData data before after)
    (hdata' : SendsData data' before after) : data = data' := by
  obtain ⟨request, items, hsends, hcarries, hitem⟩ := hdata
  obtain ⟨request', items', hsends', hcarries', hitem'⟩ := hdata'
  have hrequest : [request] = [request'] :=
    List.append_cancel_left (hsends.symm.trans hsends')
  obtain rfl := List.singleton_inj.mp hrequest
  obtain rfl := hcarries.unique hcarries'
  exact Option.some.inj (hitem.symm.trans hitem')

section Sends

variable {env : SendEnv} {node : ReceiptAnswers} {isSyncTx : Bool}
  {before after : SendState}

theorem waitReceipt_sends (poll : ReceiptPoll)
    (extra : BoatTx → List (List Char)) :
    Exec.Keeps SendState.sends (waitReceipt env node poll extra) := by
  intro state
  unfold waitReceipt
  split <;> rfl

/-- A send that succeeds is one of the raw transaction, whether or not it waits
for the receipt. -/
theorem SyncSend.txSend_sends {sync : SyncSend}
    (hrun : sync.txSend env node isSyncTx before = .ok () after) :
    ∃ sent, sync.send before = .ok () sent ∧ after.sends = sent.sends := by
  cases isSyncTx with
  | false => exact ⟨after, hrun, rfl⟩
  | true =>
      obtain ⟨_, sent, hsend, hwait⟩ := Exec.bind_eq_ok.mp hrun
      have hkept := @waitReceipt_sends env node sync.poll sync.extra sent
      rw [hwait] at hkept
      exact ⟨sent, hsend, hkept⟩

/-- A raw transaction carries the data that was set, in the sixth place where
its sender lists it there. -/
theorem sendRawtx_data {sender : Sender} (hsender : sender.WellFormed [])
    (hplace : sender.leading[5]? = some .data) (hmalloc : Fresh env.malloc)
    (hrun : sendRawtx sender env before = .ok () after) :
    SendsData (before.tx.rawtxFields.bytes .data) before after := by
  obtain ⟨fields, message, signature, stream, request, hfields, hevents, -, -,
    hstream, hsize, hrequest⟩ := sendRawtx_ok hsender hmalloc hrun
  refine ⟨request, sender.leading.map fields.bytes ++
    sender.signatureItems before.tx signature,
    SendState.sends_of_events hevents, ⟨?_, ?_⟩, ?_⟩
  · exact hstream ▸ hsize
  · exact hstream ▸ hrequest
  · rw [← hfields .data List.not_mem_nil]
    have hdata : (sender.leading.map fields.bytes)[5]? =
        some (fields.bytes .data) := by
      rw [List.getElem?_map, hplace]
      rfl
    rw [List.getElem?_append_left (List.getElem?_eq_some_iff.mp hdata).1, hdata]

/-- The same of a send with or without a wait for the receipt. -/
theorem SyncSend.txSend_data {sync : SyncSend} {sender : Sender}
    (hsync : sync.send = sendRawtx sender env) (hsender : sender.WellFormed [])
    (hplace : sender.leading[5]? = some .data) (hmalloc : Fresh env.malloc)
    (hrun : sync.txSend env node isSyncTx before = .ok () after) :
    SendsData (before.tx.rawtxFields.bytes .data) before after := by
  obtain ⟨sent, hsend, hsends⟩ := sync.txSend_sends hrun
  rw [hsync] at hsend
  obtain ⟨request, items, hrequest, hcarries, hitem⟩ :=
    sendRawtx_data hsender hplace hmalloc hsend
  exact ⟨request, items, hsends.trans hrequest, hcarries, hitem⟩

end Sends

end BoatFramework
