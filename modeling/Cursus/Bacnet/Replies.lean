/-
The replies of `handle_datagram` of `cursus/bacnet/server.py`. Every one is a BVLC frame of correct
length around the answer to the request of its datagram, and a ComplexACK names the property that was
asked for, as the parser of the server reads it back, and carries one application-tagged element.
-/
import Cursus.Bacnet.Requests

namespace Cursus.Bacnet

open Cursus.Python

/-! ## ComplexACK -/

/-- The object identifier and the property identifier of a ComplexACK are a property reference. -/
theorem parsePropertyReference_encoded {objectType inst p : ℕ} (ht : objectType < 1024) (hi : inst < 2 ^ 22)
    {property : Bytes} (h : encodeContextUnsigned contextTagPropertyIdentifier p = .ok property) :
    parsePropertyReference (0x0C :: (ByteOrder.big.encode 4 (objectType <<< 22 ||| inst) ++ property)) =
      .ok (some (objectType, inst, p)) := by
  obtain ⟨htype, hinst⟩ := objectIdentifier_fields ht hi
  have hoid : (ByteOrder.big.encode 4 (objectType <<< 22 ||| inst)).length = 4 := ByteOrder.length_encode ..
  rw [encodeContextUnsigned_eq_encodeTagged, encodeUnsignedValue_of_nonneg (Int.natCast_nonneg p),
    Int.toNat_natCast] at h
  obtain ⟨content, t, hcontent, -, he, -, htag, hclass⟩ :=
    encodeTagged_eq_ok (show contextTagPropertyIdentifier < 16 by simp) h
  cases hcontent
  have hcontext : isContextTag t.toNat contextTagPropertyIdentifier = true := by
    rw [isContextTag, htag, contextClassBit, hclass]
    rfl
  have he₀ : Element 0x0C (ByteOrder.big.encode 4 (objectType <<< 22 ||| inst))
      (0x0C :: ByteOrder.big.encode 4 (objectType <<< 22 ||| inst)) := .inline (by simp) (by rw [hoid]; rfl)
  have href := Reference.mk (by rfl) he₀ hoid hcontext he .absent
  rw [List.append_nil] at href
  refine parsePropertyReference_eq_some.2 ⟨_, _, href, htype, hinst, ?_⟩
  exact ByteOrder.big.decode_encode (lt_pow_unsignedSize p)

/-! ## Answers -/

/-- The APDUs that answer a request. -/
inductive Answers : Request → Bytes → Prop
  | whoIs {parameters apdu : Bytes} : IAm apdu → Answers (.whoIs parameters) apdu
  | readProperty {invokeId : UInt8} {parameters r v : Bytes} {objectType inst propertyIdentifier : ℕ} :
      parsePropertyReference parameters = .ok (some (objectType, inst, propertyIdentifier)) →
      parsePropertyReference r = .ok (some (objectType, inst, propertyIdentifier)) → ApplicationElement v →
      Answers (.readProperty invokeId parameters) (0x30 :: invokeId :: 0x0C :: (r ++ 0x3E :: (v ++ [0x3F])))
  | writeProperty {invokeId : UInt8} {parameters : Bytes} :
      Answers (.writeProperty invokeId parameters) [0x20, invokeId, 0x0F]

theorem answers_of_answerReadProperty {s : BacnetServer} {invokeId : UInt8} {parameters apdu : Bytes}
    (h : answerReadProperty s invokeId.toNat parameters = .ok (some apdu)) :
    Answers (.readProperty invokeId parameters) apdu := by
  obtain ⟨⟨objectType, inst, p⟩, hparse, h⟩ := chain_eq_some h
  obtain ⟨v, hv, h⟩ := chain_eq_some h
  obtain ⟨ht, hi, hp⟩ := parsePropertyReference_bounds hparse
  obtain ⟨property, hproperty, -, hack⟩ := buildReadAck_ok invokeId ht hi hp v
  rw [hack] at h
  cases h
  have hanswer : Answers (.readProperty invokeId parameters) _ :=
    .readProperty hparse (parsePropertyReference_encoded ht hi hproperty) (applicationElement_readProperty hv)
  simpa using hanswer

theorem answers_of_serve {request : Request} {s : BacnetServer} {apdu : Bytes}
    (h : (serve request s).1 = .ok (some apdu)) : Answers request apdu := by
  cases request with
  | whoIs parameters => exact .whoIs (answerWhoIs_eq_some h)
  | readProperty invokeId parameters =>
    rw [serve_readProperty] at h
    exact answers_of_answerReadProperty h
  | writeProperty invokeId parameters =>
    rw [serve_writeProperty] at h
    rw [handleWriteProperty_eq_some h]
    exact .writeProperty

/-- Every reply is well formed and answers the request of its datagram. -/
theorem reply_answers (payload : Bytes) (s : BacnetServer) (reply : Bytes)
    (h : (handleDatagram payload s).1 = .ok (some reply)) :
    ∃ request hi lo apdu, Requests request payload ∧ Answers request apdu ∧
      reply = 0x81 :: 0x0A :: hi :: lo :: 0x01 :: 0x00 :: apdu ∧ ByteOrder.big.decode [hi, lo] = reply.length := by
  obtain ⟨request, apdu, hr, hs, rfl⟩ := handleDatagram_eq_some h
  obtain ⟨hi, lo, heq, hlen⟩ := bareDatagram_eq apdu
  refine ⟨request, hi, lo, apdu, hr, answers_of_serve hs, heq, ?_⟩
  rw [hlen (length_serve hs), heq]
  simp only [List.length_cons]
  omega

/-- The reply to a ReadProperty of the first present value of the default configuration. -/
theorem reply_answers_presentValue :
    ∃ request hi lo apdu,
      Requests request (bareDatagram [0x00, 0x05, 0x01, 0x0C, 0x0C, 0x00, 0x80, 0x00, 0x01, 0x19, 0x55]) ∧
      Answers request apdu ∧
      bareDatagram [0x30, 0x01, 0x0C, 0x0C, 0x00, 0x80, 0x00, 0x01, 0x19, 0x55, 0x3E, 0x44, 0, 0, 0, 0, 0x3F] =
        0x81 :: 0x0A :: hi :: lo :: 0x01 :: 0x00 :: apdu ∧ ByteOrder.big.decode [hi, lo] = 23 :=
  reply_answers _ (.init {}) _ (by decide +kernel)

end Cursus.Bacnet
