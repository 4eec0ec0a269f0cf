/-
What `cursus/bacnet/server.py` does for one request: ReadProperty and Who-Is leave the server alone,
and WriteProperty changes it exactly when it is acknowledged.
-/
import Cursus.Bacnet.Layers
import Cursus.Bacnet.Properties

namespace Cursus.Bacnet

open Cursus.Python

/-! ## ReadProperty -/

/-- The answer to ReadProperty. -/
def answerReadProperty (s : BacnetServer) (invokeId : ℕ) (parameters : Bytes) : Except PyError (Option Bytes) :=
  chain (parsePropertyReference parameters) fun (objectType, inst, propertyIdentifier) =>
    chain (readProperty s objectType inst propertyIdentifier) fun propertyValue =>
      (buildReadAck invokeId objectType inst propertyIdentifier propertyValue).map some

theorem handleReadProperty_apply (invokeId : ℕ) (parameters : Bytes) (s : BacnetServer) :
    handleReadProperty invokeId parameters s = (answerReadProperty s invokeId parameters, s) := by
  unfold handleReadProperty answerReadProperty
  rcases parsePropertyReference parameters with e | _ | ⟨objectType, inst, propertyIdentifier⟩
  · rfl
  · rfl
  simp only [Py.lift_ok_bind, Py.get_bind, chain_some]
  rcases readProperty s objectType inst propertyIdentifier with e | _ | propertyValue
  · rfl
  · rfl
  simp only [Py.lift_ok_bind, Py.lift_bind_pure, chain_some]

/-- The head of an acknowledgement. -/
theorem bytesOf_ack {pduType service : ℕ} (hp : pduType < 256) (hs : service < 256) (invokeId : UInt8) :
    bytesOf [pduType, invokeId.toNat, service] = .ok [UInt8.ofNat pduType, invokeId, UInt8.ofNat service] := by
  have hi := invokeId.toNat_lt
  unfold bytesOf
  rw [if_pos (by simp only [List.forall_mem_cons]; exact ⟨hp, hi, hs, by simp⟩)]
  simp

/-- The octets of a ComplexACK behind the invoke id, up to the value. -/
theorem buildReadAck_ok (invokeId : UInt8) {objectType inst propertyIdentifier : ℕ} (ht : objectType < 1024)
    (hi : inst < 2 ^ 22) (hp : propertyIdentifier < 256 ^ 255) (propertyValue : Bytes) :
    ∃ property, encodeContextUnsigned contextTagPropertyIdentifier propertyIdentifier = .ok property ∧
      property.length ≤ 257 ∧
      buildReadAck invokeId.toNat objectType inst propertyIdentifier propertyValue =
        .ok (0x30 :: invokeId :: 0x0C :: 0x0C :: (ByteOrder.big.encode 4 (objectType <<< 22 ||| inst) ++
          (property ++ openingTag :: (propertyValue ++ [closingTag])))) := by
  obtain ⟨property, hprop⟩ := (encodeTagged_unsigned_ok_iff (show contextTagPropertyIdentifier < 16 by simp) true
    (propertyIdentifier : ℤ)).2 ⟨by omega, by exact_mod_cast hp⟩
  have hoid : encodeContextObjectIdentifier contextTagObjectIdentifier objectType inst =
      .ok (0x0C :: ByteOrder.big.encode 4 (objectType <<< 22 ||| inst)) := by
    rw [encodeContextObjectIdentifier_eq_encodeTagged, structPack_objectIdentifier ht, if_pos (by omega), encodeTagged,
      ok_bind, ByteOrder.length_encode, Int.toNat_natCast]
    rfl
  have hopen : encodeOpeningTag contextTagPropertyValue = .ok [openingTag] := rfl
  have hclose : encodeClosingTag contextTagPropertyValue = .ok [closingTag] := rfl
  have hhead : bytesOf [pduTypeComplexAck, invokeId.toNat, serviceReadProperty] = .ok [0x30, invokeId, 0x0C] :=
    bytesOf_ack (by simp) (by simp) invokeId
  refine ⟨property, hprop, length_encodeTagged (by simp) hprop, ?_⟩
  unfold buildReadAck
  rw [hoid, encodeContextUnsigned_eq_encodeTagged, hprop]
  simp only [hopen, hclose, hhead, ok_bind, pure_eq_ok]
  simp

theorem readProperty_analogValue (s : BacnetServer) (inst propertyIdentifier : ℕ) :
    readProperty s objectTypeAnalogValue inst propertyIdentifier =
      readAnalogValueProperty s inst propertyIdentifier := by
  unfold readProperty
  rw [if_neg (by simp), if_pos rfl]

/-- The objects of which properties are read. -/
theorem readProperty_cases (s : BacnetServer) (objectType inst propertyIdentifier : ℕ) :
    (objectType = objectTypeDevice ∧ (inst : ℤ) = s.device.inst ∧
      readProperty s objectType inst propertyIdentifier = readDeviceProperty s.device propertyIdentifier) ∨
    (objectType = objectTypeAnalogValue ∧
      readProperty s objectType inst propertyIdentifier = readAnalogValueProperty s inst propertyIdentifier) ∨
    (¬ (objectType = objectTypeDevice ∧ (inst : ℤ) = s.device.inst) ∧ objectType ≠ objectTypeAnalogValue ∧
      readProperty s objectType inst propertyIdentifier = .ok none) := by
  by_cases hd : objectType = objectTypeDevice ∧ (inst : ℤ) = s.device.inst
  · exact .inl ⟨hd.1, hd.2, if_pos hd⟩
  by_cases ha : objectType = objectTypeAnalogValue
  · subst ha
    exact .inr (.inl ⟨rfl, readProperty_analogValue s inst propertyIdentifier⟩)
  · exact .inr (.inr ⟨hd, ha, by rw [readProperty, if_neg hd, if_neg ha]⟩)

/-- A property that is read is one element. -/
theorem applicationElement_readProperty {s : BacnetServer} {objectType inst propertyIdentifier : ℕ} {v : Bytes}
    (h : readProperty s objectType inst propertyIdentifier = .ok (some v)) : ApplicationElement v := by
  rcases readProperty_cases s objectType inst propertyIdentifier with ⟨-, -, hr⟩ | ⟨-, hr⟩ | ⟨-, -, hr⟩
  · rw [hr] at h
    exact applicationElement_readDeviceProperty h
  · rw [hr] at h
    exact applicationElement_readAnalogValueProperty h
  · rw [hr] at h
    cases h

theorem parsePropertyReference_bounds {parameters : Bytes} {objectType inst propertyIdentifier : ℕ}
    (h : parsePropertyReference parameters = .ok (some (objectType, inst, propertyIdentifier))) :
    objectType < 1024 ∧ inst < 2 ^ 22 ∧ propertyIdentifier < 256 ^ 255 := by
  obtain ⟨oid, p, hr, rfl, rfl, rfl⟩ := parsePropertyReference_eq_some.1 h
  exact hr.bounds

/-- ReadProperty raises when its parameters break off in a tag header and when the property cannot be
encoded. -/
theorem answerReadProperty_error_iff (s : BacnetServer) (invokeId : UInt8) (parameters : Bytes) :
    (∃ e, answerReadProperty s invokeId.toNat parameters = .error e) ↔
      BreaksOff referenceSpecs parameters ∨
        ∃ objectType inst propertyIdentifier,
          parsePropertyReference parameters = .ok (some (objectType, inst, propertyIdentifier)) ∧
            ∃ e, readProperty s objectType inst propertyIdentifier = .error e := by
  simp only [answerReadProperty, chain_error_iff, parsePropertyReference_error_iff, Prod.exists]
  refine or_congr Iff.rfl (exists_congr fun objectType => exists_congr fun inst => exists_congr fun p =>
    and_congr_right fun hp => ?_)
  obtain ⟨ht, hi, hp⟩ := parsePropertyReference_bounds hp
  -- the fields of a parsed reference fit the ComplexACK
  apply or_iff_left
  rintro ⟨v, -, e, he⟩
  obtain ⟨property, -, -, hack⟩ := buildReadAck_ok invokeId ht hi hp v
  rw [hack] at he
  cases he

/-- An answer to ReadProperty is a ComplexACK with the invoke id of the request. -/
theorem answerReadProperty_eq_some {s : BacnetServer} {invokeId : UInt8} {parameters reply : Bytes}
    (h : answerReadProperty s invokeId.toNat parameters = .ok (some reply)) :
    reply.length < 65530 ∧ ∃ rest, reply = 0x30 :: invokeId :: 0x0C :: rest := by
  obtain ⟨⟨objectType, inst, p⟩, hparse, h⟩ := chain_eq_some h
  obtain ⟨v, hv, h⟩ := chain_eq_some h
  obtain ⟨ht, hi, hp⟩ := parsePropertyReference_bounds hparse
  obtain ⟨property, -, hlen, hack⟩ := buildReadAck_ok invokeId ht hi hp v
  have hvlen := (applicationElement_readProperty hv).length_le
  rw [hack] at h
  cases h
  refine ⟨?_, _, rfl⟩
  simp only [List.length_cons, List.length_append, ByteOrder.length_encode, List.length_nil]
  omega

/-! ## WriteProperty -/

theorem decodeApplicationReal_real {b : Bytes} (hb : b.length = 4) :
    decodeApplicationReal (0x44 :: b) = .ok (some (floatOfBytes b)) := by
  have hslice : slice (0x44 :: b) 1 applicationRealTotalSize = b := by
    simp [slice, ← hb]
  have hhead : encodeTagHeader applicationTagReal false applicationRealLength = .ok [0x44] := rfl
  unfold decodeApplicationReal
  rw [if_neg (by simp [hb]), hhead, hslice, unpackFloat_of_length hb]
  rfl

theorem decodeApplicationReal_other {v : Bytes} (h : ∀ b : Bytes, b.length = 4 → v ≠ 0x44 :: b) :
    decodeApplicationReal v = .ok none := by
  have hhead : encodeTagHeader applicationTagReal false applicationRealLength = .ok [0x44] := rfl
  by_cases hlen : v.length ≠ applicationRealTotalSize
  · unfold decodeApplicationReal
    rw [if_pos hlen]
    rfl
  · match v with
    | [] => rfl
    | t :: b =>
      have hb : b.length = 4 := by simpa using hlen
      have ht : t.toNat ≠ (0x44 : UInt8).toNat := fun ht => h b hb (by rw [UInt8.toNat_inj.1 ht])
      unfold decodeApplicationReal
      rw [if_neg hlen, hhead]
      simp only [ok_bind, index_zero_cons, if_pos ht]
      rfl

/-- Parameters that ask to write the REAL `b` to the present value of the analog value `n`. -/
inductive WritesPresentValue (n : ℕ) (b parameters : Bytes) : Prop
  | mk {oid p : Bytes} : WriteParameters oid p (0x44 :: b) parameters → objectTypeOf oid = objectTypeAnalogValue →
      instanceOf oid = n → ByteOrder.big.decode p = propertyPresentValue → b.length = 4 →
      WritesPresentValue n b parameters

/-- The server with another present value of `n`. -/
def BacnetServer.writePresentValue (s : BacnetServer) (n : ℤ) (value : PyFloat) : BacnetServer :=
  { s with analogValues := s.analogValues.modify n fun analogValue => { analogValue with presentValue := value } }

theorem writeProperty_presentValue {b : Bytes} (hb : b.length = 4) (n : ℕ) (s : BacnetServer) :
    writeProperty objectTypeAnalogValue n propertyPresentValue (0x44 :: b) s =
      if (s.analogValues.lookup (n : ℤ)).isSome then (.ok true, s.writePresentValue n (floatOfBytes b))
      else (.ok false, s) := by
  unfold writeProperty
  rw [if_neg (by simp), decodeApplicationReal_real hb]
  simp only [Py.lift_ok_bind, Py.get_bind]
  cases h : s.analogValues.lookup (n : ℤ) with
  | none => rfl
  | some analogValue =>
    simp only [Py.set_bind, Py.pure_apply, Option.isSome_some, if_true, BacnetServer.writePresentValue,
      Dict.modify_of_lookup h]

theorem writeProperty_other {objectType n p : ℕ} {v : Bytes}
    (h : objectType = objectTypeAnalogValue → p = propertyPresentValue → ∀ b : Bytes, b.length = 4 → v ≠ 0x44 :: b)
    (s : BacnetServer) : writeProperty objectType n p v s = (.ok false, s) := by
  by_cases hop : objectType ≠ objectTypeAnalogValue ∨ p ≠ propertyPresentValue
  · unfold writeProperty
    rw [if_pos hop]
    rfl
  · unfold writeProperty
    rw [if_neg hop]
    rw [not_or, not_not, not_not] at hop
    rw [decodeApplicationReal_other (h hop.1 hop.2)]
    rfl

theorem handleWriteProperty_of_writes {n : ℕ} {b parameters : Bytes} (h : WritesPresentValue n b parameters)
    (invokeId : UInt8) (s : BacnetServer) :
    handleWriteProperty invokeId.toNat parameters s =
      if (s.analogValues.lookup (n : ℤ)).isSome then
        (.ok (some [0x20, invokeId, 0x0F]), s.writePresentValue n (floatOfBytes b))
      else (.ok none, s) := by
  obtain ⟨hw, ht, hn, hp, hb⟩ := h
  have hparse := parseWritePropertyRequest_eq_some.2 ⟨_, _, hw, ht, hn, hp⟩
  have hhead : bytesOf [pduTypeSimpleAck, invokeId.toNat, serviceWriteProperty] = .ok [0x20, invokeId, 0x0F] :=
    bytesOf_ack (by simp) (by simp) invokeId
  have hwrite := writeProperty_presentValue hb n s
  unfold handleWriteProperty
  rw [hparse, hhead]
  simp only [Py.lift_ok_bind]
  split_ifs at hwrite ⊢ with hsome
  · rw [Py.bind_of_ok hwrite]
    rfl
  · rw [Py.bind_of_ok hwrite]
    rfl

theorem map_none_ne_some {α : Type} {x : Except PyError α} {reply : Bytes} :
    (x.map fun _ => (none : Option Bytes)) ≠ .ok (some reply) := by
  cases x <;> nofun

/-- A WriteProperty that does not ask for a present value is not answered and changes nothing. -/
theorem handleWriteProperty_of_not_writes {parameters : Bytes} (h : ∀ n b, ¬ WritesPresentValue n b parameters)
    (invokeId : UInt8) (s : BacnetServer) :
    handleWriteProperty invokeId.toNat parameters s =
      ((parseWritePropertyRequest parameters).map fun _ => none, s) := by
  unfold handleWriteProperty
  rcases hparse : parseWritePropertyRequest parameters with e | _ | ⟨objectType, n, p, v⟩
  · rfl
  · rfl
  obtain ⟨oid, prop, hw, ht, hn, hp⟩ := parseWritePropertyRequest_eq_some.1 hparse
  have hwrite : writeProperty objectType n p v s = (.ok false, s) := by
    refine writeProperty_other (fun hot hpv b hb hv => ?_) s
    subst hv hot hpv
    exact h n b ⟨hw, ht, hn, hp, hb⟩
  simp only [Py.lift_ok_bind]
  rw [Py.bind_of_ok hwrite]
  rfl

/-- An answer to WriteProperty is a SimpleACK with the invoke id of the request. -/
theorem handleWriteProperty_eq_some {invokeId : UInt8} {parameters apdu : Bytes} {s : BacnetServer}
    (h : (handleWriteProperty invokeId.toNat parameters s).1 = .ok (some apdu)) :
    apdu = [0x20, invokeId, 0x0F] := by
  by_cases hw : ∃ n b, WritesPresentValue n b parameters
  · obtain ⟨n, b, hw⟩ := hw
    rw [handleWriteProperty_of_writes hw] at h
    split_ifs at h
    · cases h
      rfl
    · cases h
  · simp only [not_exists] at hw
    rw [handleWriteProperty_of_not_writes hw] at h
    exact (map_none_ne_some h).elim

theorem WriteParameters.unique {oid oid' p p' v v' parameters : Bytes} (h : WriteParameters oid p v parameters)
    (h' : WriteParameters oid' p' v' parameters) :
    objectTypeOf oid = objectTypeOf oid' ∧ instanceOf oid = instanceOf oid' ∧
      ByteOrder.big.decode p = ByteOrder.big.decode p' ∧ v = v' := by
  have heq := parseWritePropertyRequest_eq_some.2 ⟨_, _, h, rfl, rfl, rfl⟩
  rw [parseWritePropertyRequest_eq_some.2 ⟨_, _, h', rfl, rfl, rfl⟩] at heq
  simp only [Except.ok.injEq, Option.some.injEq, Prod.mk.injEq] at heq
  obtain ⟨h1, h2, h3, h4⟩ := heq
  exact ⟨h1.symm, h2.symm, h3.symm, h4.symm⟩

theorem WritesPresentValue.unique {n n' : ℕ} {b b' parameters : Bytes} (h : WritesPresentValue n b parameters)
    (h' : WritesPresentValue n' b' parameters) : n = n' ∧ b = b' := by
  obtain ⟨hw, -, rfl, -, -⟩ := h
  obtain ⟨hw', -, rfl, -, -⟩ := h'
  obtain ⟨-, hn, -, hv⟩ := hw.unique hw'
  exact ⟨hn, List.tail_eq_of_cons_eq hv⟩

/-! ## Who-Is -/

/-- The limits admit the device instance. -/
def Admits (inst : ℤ) (lowerLimit upperLimit : Option ℕ) : Prop :=
  (∀ lower ∈ lowerLimit, (lower : ℤ) ≤ inst) ∧ ∀ upper ∈ upperLimit, inst ≤ upper

theorem answerWhoIs_of_limits {device : BacnetDevice} {parameters : Bytes} {lowerLimit upperLimit : Option ℕ}
    (h : parseWhoIsLimits parameters = .ok (lowerLimit, upperLimit)) :
    (Admits device.inst lowerLimit upperLimit → answerWhoIs device parameters = (buildIAmApdu device).map some) ∧
      (¬ Admits device.inst lowerLimit upperLimit → answerWhoIs device parameters = .ok none) := by
  have hadmits : ((∃ lower ∈ lowerLimit, device.inst < lower) ∨ ∃ upper ∈ upperLimit, device.inst > upper) ↔
      ¬ Admits device.inst lowerLimit upperLimit := by
    simp only [Admits, not_and_or, not_forall, not_le, exists_prop, gt_iff_lt]
  unfold answerWhoIs
  rw [h]
  exact ⟨fun ha => if_neg (hadmits.not.2 (not_not.2 ha)), fun ha => if_pos (hadmits.2 ha)⟩

/-- An answer to Who-Is is an I-Am. -/
theorem answerWhoIs_eq_some {device : BacnetDevice} {parameters reply : Bytes}
    (h : answerWhoIs device parameters = .ok (some reply)) : IAm reply := by
  rcases hp : parseWhoIsLimits parameters with e | ⟨lowerLimit, upperLimit⟩
  · unfold answerWhoIs at h
    rw [hp] at h
    cases h
  by_cases ha : Admits device.inst lowerLimit upperLimit
  · rw [(answerWhoIs_of_limits hp).1 ha] at h
    rcases hi : buildIAmApdu device with e | apdu
    · rw [hi] at h
      cases h
    · rw [hi] at h
      cases h
      exact iAm_of_buildIAmApdu hi
  · rw [(answerWhoIs_of_limits hp).2 ha] at h
    cases h

/-! ## All requests -/

theorem serve_whoIs (parameters : Bytes) (s : BacnetServer) :
    serve (.whoIs parameters) s = (answerWhoIs s.device parameters, s) := rfl

theorem serve_readProperty (invokeId : UInt8) (parameters : Bytes) (s : BacnetServer) :
    serve (.readProperty invokeId parameters) s = (answerReadProperty s invokeId.toNat parameters, s) :=
  handleReadProperty_apply ..

theorem serve_writeProperty (invokeId : UInt8) (parameters : Bytes) (s : BacnetServer) :
    serve (.writeProperty invokeId parameters) s = handleWriteProperty invokeId.toNat parameters s := rfl

/-- No reply is too long for the BVLC length. -/
theorem length_serve {request : Request} {s : BacnetServer} {reply : Bytes}
    (h : (serve request s).1 = .ok (some reply)) : reply.length < 65530 := by
  cases request with
  | whoIs parameters => exact (answerWhoIs_eq_some h).length_lt
  | readProperty invokeId parameters =>
    rw [serve_readProperty] at h
    exact (answerReadProperty_eq_some h).1
  | writeProperty invokeId parameters =>
    rw [serve_writeProperty] at h
    rw [handleWriteProperty_eq_some h]
    simp

theorem handleDatagram_of_reads {payload parameters : Bytes} {invokeId : UInt8}
    (h : Requests (.readProperty invokeId parameters) payload) (s : BacnetServer) :
    handleDatagram payload s = (encapsulate (answerReadProperty s invokeId.toNat parameters), s) := by
  rw [handleDatagram_of_requests h, serve_readProperty]

/-- The only replies are the answers to requests, with a BVLC and an NPDU header around them. -/
theorem handleDatagram_eq_some {payload reply : Bytes} {s : BacnetServer}
    (h : (handleDatagram payload s).1 = .ok (some reply)) :
    ∃ request apdu, Requests request payload ∧ (serve request s).1 = .ok (some apdu) ∧ reply = bareDatagram apdu := by
  by_cases hr : ∃ request, Requests request payload
  swap
  · rw [handleDatagram_of_not_requests (not_exists.1 hr)] at h
    cases h
  obtain ⟨request, hr⟩ := hr
  rw [handleDatagram_of_requests hr] at h
  rcases hs : (serve request s).1 with e | _ | apdu
  · rw [hs] at h
    cases h
  · rw [hs] at h
    cases h
  · rw [hs, encapsulate_some (length_serve hs)] at h
    cases h
    exact ⟨request, apdu, hr, hs, rfl⟩

end Cursus.Bacnet
