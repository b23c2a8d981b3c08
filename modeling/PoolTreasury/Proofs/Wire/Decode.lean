import PoolTreasury.Proofs.Cell.Read
import PoolTreasury.Wire.Decode

/-! # Decoding a deposit's request -/

namespace PoolTreasury

open Slice

theorem base64Decode_payloadText (payload : List UInt8) :
    base64Decode .standard (payloadText payload) = .ok payload := by
  unfold payloadText base64Encode
  rw [toUTF8_ofList_ascii fun c hc => (standard_readable.encodeChars_ascii hc).1]
  exact standard_readable.base64Decode_encodeChars payload

/-- The fields of a notification after its operation code: the query id, the amount, the sender
and the forward payload, read as they were written. -/
theorem reads_notificationFields {queryId amount : Nat} {sender : MsgAddress} {forward : Cell}
    {tail : List Bool} {refs : List Cell} (hq : queryId < 2 ^ 64) (ha : amount < 2 ^ 120)
    (hhash : sender.hash.length = 32) (hc : Carries forward tail refs) :
    Reads notificationFields
      ⟨bitsOfNat 64 queryId ++ coinsBits amount ++ addressBits sender ++ tail, refs⟩
      fun v _ => v.1 = queryId ∧ v.2.1 = amount ∧ v.2.2.1 = some sender ∧
        v.2.2.2.unread = forward := by
  simp only [List.append_assoc]
  unfold notificationFields
  refine ReadsAs.bind (reads_loadUint (by decide) hq) ?_
  refine ReadsAs.bind (reads_loadCoins ha) ?_
  refine ReadsAs.bind (reads_loadAddress hhash) ?_
  exact Reads.bind (reads_loadEitherRef hc) fun fs _ hfs => Reads.pure ⟨rfl, rfl, rfl, hfs⟩

/-- The body of a forward payload is read back as its request code, its declared length and its
text. -/
theorem reads_forwardBody {opCode : Nat} {text : List UInt8} (hop : opCode < 2 ^ 32)
    (hlen : text.length < 2 ^ 16) (hne : opCode ≠ opTextComment) :
    Reads forwardBody (forwardCell opCode text) fun v _ => v = (opCode, text.length, text) := by
  simp only [forwardCell, List.append_assoc]
  unfold forwardBody
  refine ReadsAs.bind (reads_loadUint (by decide) hop) ?_
  simp only [hne, if_false]
  refine ReadsAs.bind (reads_loadUint (by decide) hlen) ?_
  exact Reads.bind reads_loadSnakeBytes fun v _ hv =>
    Reads.pure (by rw [hv, snakeTail_text])

theorem decodeNotification_run {tx : LedgerTransaction} {s : Slice} {queryId amount opCode : Nat}
    {sender : MsgAddress} {payload : List UInt8} {tail : List Bool} {refs : List Cell}
    (hq : queryId < 2 ^ 64) (ha : amount < 2 ^ 120) (hhash : sender.hash.length = 32)
    (hop : opCode < 2 ^ 32) (hop0 : opCode ≠ opTextComment)
    (htext : (payloadText payload).length < 2 ^ 16)
    (hc : Carries (forwardCell opCode (payloadText payload)) tail refs)
    (hs : s.unread = ⟨bitsOfNat 64 queryId ++ coinsBits amount ++ addressBits sender ++ tail, refs⟩)
    (logs : List LogEvent) :
    ((decodeNotification (m := Logged) tx s).run logs).1 =
      .ok (some
        { opCode, amount, sender := sender.render, payload, queryId,
          tokenWallet := tx.inMsg.bind (·.source), txHash := tx.hash, lt := tx.lt }) := by
  obtain ⟨⟨q, am, snd, fs⟩, s', hrun, hq', ha', hsnd, hfs⟩ := reads_notificationFields hq ha hhash hc s hs
  obtain ⟨v, s'', hbody, hv⟩ := reads_forwardBody hop htext hop0 fs hfs
  have hbits : ¬ fs.remainingBits < payloadHeaderBits := by
    rw [remainingBits_eq, hfs]
    simp [forwardCell, payloadHeaderBits]
    omega
  simp only at hq' ha' hsnd hfs
  subst hq' ha' hsnd hv
  unfold decodeNotification
  -- the decoder's own reads run over slices, in the error monad
  simp only [StateT.run'_eq]
  rw [hrun]
  simp only [Functor.map, Except.map, hbits, if_false]
  rw [hbody]
  simp only [hop0, if_false, Nat.lt_irrefl, List.take_length,
    base64Decode_payloadText]
  rfl

/-- A transaction whose body is a bag holding a transfer notification is decoded as that
notification, read from just after its operation code, whatever was logged before. -/
theorem decodeTransaction_notification {tx : LedgerTransaction} {msg : InboundMessage}
    {body : Cell} {more : List Bool} (hmsg : tx.inMsg = some msg) (hbounce : msg.bounced = false)
    (hne : msg.body ≠ []) (hboc : Cell.ofBoc msg.body = .ok body)
    (hbits : body.bits = bitsOfNat 32 opTransferNotification ++ more) (logs : List LogEvent) :
    ∃ (s : Slice) (logs' : List LogEvent), s.unread = ⟨more, body.refs⟩ ∧
      ((decodeTransaction (m := Logged) tx).run logs).1 =
        ((decodeNotification (m := Logged) tx s).run logs').1 := by
  obtain ⟨op, s, hop, ⟨rfl, hs⟩⟩ :=
    (reads_loadUint (by decide) (by decide) :
      ReadsAs (loadUint 32) ⟨bitsOfNat 32 opTransferNotification ++ more, body.refs⟩
        opTransferNotification ⟨more, body.refs⟩)
      body.slice (by rw [unread_slice, ← hbits, Cell.mk_bits_refs])
  have hop : loadU32.run body.slice = .ok (opTransferNotification, s) := hop
  have hlong : ¬ body.slice.remainingBits < 32 := by
    rw [remainingBits_eq, unread_slice, hbits]
    simp
  have hfull : msg.body.isEmpty = false := List.isEmpty_eq_false_iff.mpr hne
  have hbounce' : opTransferNotification ≠ bouncePrefix := by decide
  unfold decodeTransaction
  simp only [hmsg, hbounce, Bool.false_eq_true, if_false, hfull, hboc, hlong, hop, hbounce',
    if_true]
  -- a note about extra currencies is logged or not; the decoding goes on the same way
  split
  · exact ⟨s, _, hs, rfl⟩
  · exact ⟨s, logs, hs, rfl⟩

/-- A deposit built as a transfer notification around a forward payload, and sent as a bag of
cells in a message that did not bounce, decodes to the request it was built from: the payload
bytes, the request code, amount and query id, the sender's text, and the message's source as
the token wallet. Building never fails on such inputs, inline or not. -/
theorem decodeTransaction_payload_roundTrip {payload : List UInt8} {opCode queryId amount : Nat}
    {sender : MsgAddress} (inline : Bool) (htext : (payloadText payload).length < 2 ^ 16)
    (hop : opCode < 2 ^ 32) (hop0 : opCode ≠ opTextComment) (hq : queryId < 2 ^ 64)
    (ha : amount < 2 ^ 120) (hhash : sender.hash.length = 32) :
    ∃ body, (forwardPayload opCode payload >>= fun forward =>
        transferNotification queryId amount sender forward inline) = .ok body ∧
      ∀ tx msg, tx.inMsg = some msg → msg.bounced = false → msg.body = body.toBoc →
        ∀ logs, ((decodeTransaction (m := Logged) tx).run logs).1 =
          .ok (some { opCode, amount, sender := sender.render, payload, queryId,
                      tokenWallet := msg.source, txHash := tx.hash, lt := tx.lt }) := by
  have hfwd := forwardCell_fits opCode (payloadText payload)
  obtain ⟨tail, refs, hc, hlen, hbuild⟩ :=
    transferNotification_carries hq ha hhash hfwd.refs_length_le inline
  refine ⟨⟨notificationHeader queryId amount sender ++ tail, refs⟩, ?_, ?_⟩
  · rw [forwardPayload_eq hop htext]
    exact hbuild
  intro tx msg hmsg hbounce hbody logs
  -- the bag holds the notification, the forward cell and at most a snake chain's cells
  have hsize : (preorder 0 ⟨notificationHeader queryId amount sender ++ tail, refs⟩).length <
      2 ^ 32 := by
    have := hc.preorder_length_le (preorder_length_forwardCell opCode (payloadText payload))
      (notificationHeader queryId amount sender ++ tail) 0
    omega
  have hboc := Cell.ofBoc_toBoc (hc.fits hfwd hlen) hsize
  rw [← hbody] at hboc
  have hne : msg.body ≠ [] := by
    rw [hbody]
    simp [Cell.toBoc, bocMagic]
  have hbits : (⟨notificationHeader queryId amount sender ++ tail, refs⟩ : Cell).bits =
      bitsOfNat 32 opTransferNotification ++
        (bitsOfNat 64 queryId ++ coinsBits amount ++ addressBits sender ++ tail) := by
    simp [notificationHeader]
  obtain ⟨s, logs', hs, hrun⟩ := decodeTransaction_notification hmsg hbounce hne hboc hbits logs
  rw [hrun, decodeNotification_run hq ha hhash hop hop0 htext hc hs logs', hmsg]
  rfl

theorem decodeTransaction_payload_roundTrip_small :
    ∃ body, (forwardPayload 1 [1, 2, 3] >>= fun forward =>
        transferNotification 7 1000 ⟨0, List.replicate 32 0⟩ forward true) = .ok body ∧
      ∀ tx msg, tx.inMsg = some msg → msg.bounced = false → msg.body = body.toBoc →
        ∀ logs, ((decodeTransaction (m := Logged) tx).run logs).1 =
          .ok (some { opCode := 1, amount := 1000, sender := MsgAddress.render ⟨0, List.replicate 32 0⟩,
                      payload := [1, 2, 3], queryId := 7, tokenWallet := msg.source,
                      txHash := tx.hash, lt := tx.lt }) :=
  decodeTransaction_payload_roundTrip true (by rw [payloadText_length]; decide) (by decide)
    (by decide) (by decide) (by decide) (by decide)

end PoolTreasury
