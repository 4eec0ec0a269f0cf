/-
The layers of a BACnet/IP datagram. `handle_datagram` of `cursus/bacnet/server.py` serves exactly the
datagrams that carry a Who-Is, ReadProperty or WriteProperty request: what it does with one depends
on the request alone, and it answers no other datagram and does not change for it.
-/
import Cursus.Bacnet.Parameters
import Cursus.Bacnet.Server

namespace Cursus.Bacnet

open Cursus.Python

/-! ## The address fields of an NPDU -/

/-- A network number, an address with its length and `trailer` more octets; there only when the
control octet has a bit of `mask`. -/
inductive Specifier (mask trailer control : ℕ) : Bytes → Prop
  | absent : control &&& mask = 0 → Specifier mask trailer control []
  | present {net address tail : Bytes} (length : UInt8) : control &&& mask ≠ 0 → net.length = 2 →
      address.length = length.toNat → tail.length = trailer →
      Specifier mask trailer control (net ++ length :: (address ++ tail))

/-- The common form of the two address specifiers of `_handle_npdu`. -/
def skipSpecifier (mask trailer : ℕ) (npdu : Bytes) (control offset : ℕ) : Except PyError (Option ℕ) := do
  if control &&& mask = 0 then return some offset
  if npdu.length < offset + 3 then return none
  let length ← index npdu (offset + 2)
  return some (offset + (3 + length + trailer))

theorem skipDestination_eq_skipSpecifier (npdu : Bytes) (control offset : ℕ) :
    skipDestination npdu control offset = skipSpecifier 0x20 1 npdu control offset := rfl

theorem skipSource_eq_skipSpecifier (npdu : Bytes) (control offset : ℕ) :
    skipSource npdu control offset = skipSpecifier 0x08 0 npdu control offset := rfl

section Specifier

variable {mask trailer control : ℕ}

theorem skipSpecifier_absent (npdu : Bytes) (offset : ℕ) (h : control &&& mask = 0) :
    skipSpecifier mask trailer npdu control offset = .ok (some offset) := by
  simp [skipSpecifier, h]

theorem skipSpecifier_short {npdu : Bytes} {offset : ℕ} (h : control &&& mask ≠ 0)
    (hlen : npdu.length < offset + 3) : skipSpecifier mask trailer npdu control offset = .ok none := by
  simp [skipSpecifier, h, hlen]

theorem skipSpecifier_present (pre : Bytes) (n m l : UInt8) (bs : Bytes) (h : control &&& mask ≠ 0) :
    skipSpecifier mask trailer (pre ++ n :: m :: l :: bs) control pre.length =
      .ok (some (pre.length + (3 + l.toNat + trailer))) := by
  simp [skipSpecifier, h, index_append_right]

theorem skipSpecifier_complete {enc : Bytes} (h : Specifier mask trailer control enc) (pre rest : Bytes) :
    skipSpecifier mask trailer (pre ++ (enc ++ rest)) control pre.length =
      .ok (some (pre ++ enc).length) := by
  rcases h with h | ⟨length, h, hnet, haddress, htail⟩
  · simp [skipSpecifier_absent _ _ h]
  · rename_i net address tail
    obtain ⟨n, m, rfl⟩ := List.length_eq_two.1 hnet
    rw [show [n, m] ++ length :: (address ++ tail) ++ rest = n :: m :: length :: (address ++ tail ++ rest) by simp,
      skipSpecifier_present pre n m length _ h]
    simp [← haddress, ← htail]
    omega

variable (mask trailer control) in
theorem skipSpecifier_ok (npdu : Bytes) (offset : ℕ) :
    ∃ r, skipSpecifier mask trailer npdu control offset = .ok r ∧ ∀ off ∈ r, offset ≤ off := by
  by_cases h : control &&& mask = 0
  · exact ⟨_, skipSpecifier_absent npdu offset h, by simp⟩
  by_cases hlen : npdu.length < offset + 3
  · exact ⟨_, skipSpecifier_short h hlen, by simp⟩
  · have hi : offset + 2 < npdu.length := by omega
    refine ⟨_, by simp only [skipSpecifier, if_neg h, if_neg hlen, index_of_lt hi, ok_bind]; rfl, by simp⟩

/-- An offset that is still within the NPDU stands behind a whole specifier. -/
theorem skipSpecifier_sound {pre bs : Bytes} {off : ℕ}
    (h : skipSpecifier mask trailer (pre ++ bs) control pre.length = .ok (some off))
    (hoff : off ≤ (pre ++ bs).length) :
    ∃ enc rest, Specifier mask trailer control enc ∧ bs = enc ++ rest ∧ off = (pre ++ enc).length := by
  by_cases hc : control &&& mask = 0
  · rw [skipSpecifier_absent _ _ hc] at h
    cases h
    exact ⟨[], bs, .absent hc, rfl, by simp⟩
  · match bs with
    | [] | [_] | [_, _] =>
      rw [skipSpecifier_short hc (by simp)] at h
      cases h
    | n :: m :: l :: bs =>
      rw [skipSpecifier_present pre n m l bs hc] at h
      cases h
      simp only [List.length_append, List.length_cons] at hoff
      refine ⟨[n, m] ++ l :: (bs.take l.toNat ++ (bs.drop l.toNat).take trailer), bs.drop (l.toNat + trailer),
        .present l hc rfl (by simp; omega) (by simp; omega), ?_, ?_⟩
      · rw [← List.drop_drop]
        simp
      · simp
        omega

end Specifier

/-- What the server takes for the fields between the control octet and the APDU: the specifiers, with the hop
count behind the destination and not, as in BACnet, behind both; and an octet more when the control octet
announces a network layer message. -/
inductive AddressFields (control : ℕ) : Bytes → Prop
  | mk {destination source message : Bytes} : Specifier 0x20 1 control destination →
      Specifier 0x08 0 control source → message.length = (if control &&& 0x80 ≠ 0 then 1 else 0) →
      AddressFields control (destination ++ (source ++ message))

theorem apduOffset_complete (version control : UInt8) {fields : Bytes} (h : AddressFields control.toNat fields)
    (apdu : Bytes) :
    apduOffset (version :: control :: (fields ++ apdu)) = .ok (some (2 + fields.length)) := by
  rcases h with ⟨hdestination, hsource, hmessage⟩
  rename_i destination source message
  have hd := skipSpecifier_complete hdestination [version, control] (source ++ message ++ apdu)
  have hs := skipSpecifier_complete hsource ([version, control] ++ destination) (message ++ apdu)
  simp only [List.cons_append, List.nil_append, List.append_assoc, List.length_cons, List.length_nil,
    Nat.zero_add, Nat.reduceAdd] at hd hs
  simp only [apduOffset, index_succ_cons, index_zero_cons, ok_bind, skipDestination_eq_skipSpecifier,
    skipSource_eq_skipSpecifier, List.append_assoc, hd, hs]
  simp [hmessage]
  split_ifs <;> simp <;> omega

/-- Offsets behind the two specifiers and the message type that are within the NPDU are behind whole
fields. -/
theorem addressFields_of_offsets (pre bs : Bytes) {control d o m : ℕ}
    (hd : skipSpecifier 0x20 1 (pre ++ bs) control pre.length = .ok (some d))
    (ho : skipSpecifier 0x08 0 (pre ++ bs) control d = .ok (some o)) (hdo : d ≤ o)
    (hm : m = if control &&& 0x80 ≠ 0 then 1 else 0) (hlen : o + m ≤ (pre ++ bs).length) :
    ∃ fields apdu, AddressFields control fields ∧ bs = fields ++ apdu ∧ o + m = pre.length + fields.length := by
  obtain ⟨destination, rest, hdst, rfl, rfl⟩ := skipSpecifier_sound hd (by omega)
  rw [← List.append_assoc] at ho hlen
  obtain ⟨source, rest', hsrc, rfl, rfl⟩ := skipSpecifier_sound ho (by omega)
  have hrest : m ≤ rest'.length := by
    simp only [List.length_append] at hlen ⊢
    omega
  refine ⟨destination ++ (source ++ rest'.take m), rest'.drop m, .mk hdst hsrc ?_, by simp, ?_⟩
  · rw [← hm, List.length_take]
    omega
  · simp only [List.length_append, List.length_take]
    omega

/-- The offset search never raises, and an offset it finds is behind whole address fields. -/
theorem apduOffset_sound (version control : UInt8) (bs : Bytes) :
    ∃ r, apduOffset (version :: control :: bs) = .ok r ∧
      ∀ off ∈ r, ∃ fields apdu, AddressFields control.toNat fields ∧ bs = fields ++ apdu ∧
        off = 2 + fields.length := by
  obtain ⟨d, hd, -⟩ := skipSpecifier_ok 0x20 1 control.toNat (version :: control :: bs) 2
  simp only [apduOffset, index_succ_cons, index_zero_cons, ok_bind, skipDestination_eq_skipSpecifier,
    skipSource_eq_skipSpecifier, hd]
  cases d with
  | none => exact ⟨none, rfl, by simp⟩
  | some d =>
    obtain ⟨o, ho, hdo⟩ := skipSpecifier_ok 0x08 0 control.toNat (version :: control :: bs) d
    simp only [ho, ok_bind]
    cases o with
    | none => exact ⟨none, rfl, by simp⟩
    | some o =>
      have hdo := hdo o rfl
      dsimp only
      split_ifs with hm hlen hlen
      · exact ⟨none, rfl, by simp⟩
      · refine ⟨some (o + 1), rfl, fun off hoff => ?_⟩
        cases hoff
        exact addressFields_of_offsets [version, control] bs hd ho hdo (by rw [if_pos hm]) (by simpa using hlen)
      · exact ⟨none, rfl, by simp⟩
      · refine ⟨some o, rfl, fun off hoff => ?_⟩
        cases hoff
        exact addressFields_of_offsets [version, control] bs hd ho hdo (by rw [if_neg hm]) (by simpa using hlen)

/-- An NPDU of version 1 in which the server finds the given APDU. -/
inductive NpduCarries (apdu : Bytes) : Bytes → Prop
  | mk {control : UInt8} {fields : Bytes} : AddressFields control.toNat fields →
      NpduCarries apdu (0x01 :: control :: (fields ++ apdu))

/-- The NPDU around a reply. -/
def encapsulateNpdu (reply : Except PyError (Option Bytes)) : Except PyError (Option Bytes) :=
  chain reply fun apdu => .ok (some (0x01 :: 0x00 :: apdu))

theorem handleNpdu_of_carries {npdu apdu : Bytes} (h : NpduCarries apdu npdu) (s : BacnetServer) :
    handleNpdu npdu s = (encapsulateNpdu (handleApdu apdu s).1, (handleApdu apdu s).2) := by
  obtain ⟨h⟩ := h
  rename_i control fields
  have hoff := apduOffset_complete 1 control h apdu
  have hdrop : (1 :: control :: (fields ++ apdu)).drop (2 + fields.length) = apdu := by
    rw [← List.drop_drop]
    simp
  have hhead : bytesOf [npduVersion, npduControlNoExpectingReply] = .ok [0x01, 0x00] := rfl
  have hlen : ¬ (1 :: control :: (fields ++ apdu)).length < npduHeaderSize := by simp
  have hversion : ¬ (1 : UInt8).toNat ≠ npduVersion := by simp
  simp only [handleNpdu, Py.ite_apply, if_neg hlen, index_zero_cons, Py.lift_ok_bind, if_neg hversion, hoff,
    hdrop, hhead]
  exact Py.chain_apply (fun _ => rfl) (fun _ _ => rfl) s

theorem handleNpdu_of_not_carries {npdu : Bytes} (h : ∀ apdu, ¬ NpduCarries apdu npdu) (s : BacnetServer) :
    handleNpdu npdu s = (.ok none, s) := by
  match npdu with
  | [] | [_] => rfl
  | version :: control :: bs =>
    obtain ⟨r, hr, hsound⟩ := apduOffset_sound version control bs
    by_cases hv : version.toNat ≠ npduVersion
    swap
    · cases r with
      | none =>
        simp only [handleNpdu, Py.ite_apply, index_zero_cons, Py.lift_ok_bind, if_neg hv, hr]
        simp
      | some off =>
        obtain ⟨fields, apdu, hf, rfl, -⟩ := hsound off rfl
        obtain rfl : version = 0x01 := UInt8.toNat_inj.1 (not_not.1 hv)
        exact (h apdu (.mk hf)).elim
    · simp only [handleNpdu, Py.ite_apply, index_zero_cons, Py.lift_ok_bind, if_pos hv]
      simp

/-- The NPDU of version 1 without address fields. -/
theorem npduCarries_bare (apdu : Bytes) : NpduCarries apdu (0x01 :: 0x00 :: apdu) :=
  .mk (@AddressFields.mk _ [] [] [] (.absent rfl) (.absent rfl) rfl)

theorem NpduCarries.append {npdu apdu : Bytes} (h : NpduCarries apdu npdu) (bs : Bytes) :
    NpduCarries (apdu ++ bs) (npdu ++ bs) := by
  obtain ⟨hf⟩ := h
  rename_i control fields
  simpa using @NpduCarries.mk (apdu ++ bs) control fields hf

theorem NpduCarries.unique {npdu apdu apdu' : Bytes} (h : NpduCarries apdu npdu) (h' : NpduCarries apdu' npdu) :
    apdu = apdu' := by
  obtain ⟨h⟩ := h
  rename_i control fields
  generalize hnpdu : 1 :: control :: (fields ++ apdu) = npdu at h'
  obtain ⟨h'⟩ := h'
  rename_i control' fields'
  simp only [List.cons.injEq, true_and] at hnpdu
  obtain ⟨rfl, heq⟩ := hnpdu
  have hoff := apduOffset_complete 1 control h apdu
  rw [heq, apduOffset_complete 1 control h' apdu'] at hoff
  simp only [Except.ok.injEq, Option.some.injEq] at hoff
  exact (List.append_inj heq (by omega)).2

/-! ## Datagrams -/

/-- A BACnet/IP datagram with a unicast or broadcast NPDU in which the server finds the given APDU. -/
inductive Carries (apdu : Bytes) : Bytes → Prop
  | mk {function hi lo : UInt8} {npdu : Bytes} : function = 0x0A ∨ function = 0x0B →
      ByteOrder.big.decode [hi, lo] = 4 + npdu.length → NpduCarries apdu npdu →
      Carries apdu (0x81 :: function :: hi :: lo :: npdu)

theorem Carries.unique {d apdu apdu' : Bytes} (h : Carries apdu d) (h' : Carries apdu' d) : apdu = apdu' := by
  cases h with
  | mk _ _ h =>
    cases h' with
    | mk _ _ h' => exact h.unique h'

/-- The datagram around a reply. -/
def encapsulate (reply : Except PyError (Option Bytes)) : Except PyError (Option Bytes) :=
  chain (encapsulateNpdu reply) fun npdu => (buildBvlc bvlcOriginalUnicastNpdu npdu).map some

/-- The datagram with nothing but an NPDU header around the APDU; every reply is one. -/
def bareDatagram (apdu : Bytes) : Bytes :=
  0x81 :: 0x0A :: (ByteOrder.big.encode 2 (6 + apdu.length) ++ 0x01 :: 0x00 :: apdu)

/-- The octets of a bare datagram; its length is right when it fits. -/
theorem bareDatagram_eq (apdu : Bytes) :
    ∃ hi lo, bareDatagram apdu = 0x81 :: 0x0A :: hi :: lo :: 0x01 :: 0x00 :: apdu ∧
      (apdu.length < 65530 → ByteOrder.big.decode [hi, lo] = 6 + apdu.length) := by
  have hlen : (ByteOrder.big.encode 2 (6 + apdu.length)).length = 2 := ByteOrder.length_encode ..
  obtain ⟨hi, lo, hl⟩ := List.length_eq_two.1 hlen
  refine ⟨hi, lo, ?_, fun h => ?_⟩
  · rw [bareDatagram, hl]
    rfl
  · rw [← hl, ByteOrder.decode_encode _ (by omega)]

theorem bareDatagram_inj {apdu apdu' : Bytes} (h : bareDatagram apdu = bareDatagram apdu') : apdu = apdu' := by
  obtain ⟨hi, lo, heq, -⟩ := bareDatagram_eq apdu
  obtain ⟨hi', lo', heq', -⟩ := bareDatagram_eq apdu'
  rw [heq, heq'] at h
  simp only [List.cons.injEq, true_and] at h
  exact h.2.2

theorem carries_bareDatagram {apdu : Bytes} (h : apdu.length < 65530) : Carries apdu (bareDatagram apdu) := by
  obtain ⟨hi, lo, heq, hlen⟩ := bareDatagram_eq apdu
  rw [heq]
  refine .mk (.inl rfl) ?_ (npduCarries_bare apdu)
  rw [hlen h, List.length_cons, List.length_cons]
  omega

theorem encapsulate_some {apdu : Bytes} (h : apdu.length < 65530) :
    encapsulate (.ok (some apdu)) = .ok (some (bareDatagram apdu)) := by
  have hhead : bytesOf [bvlcTypeBacnetIp, bvlcOriginalUnicastNpdu] = .ok [0x81, 0x0A] := rfl
  have hlen : (4 : ℤ) + ((0x01 :: 0x00 :: apdu).length : ℕ) = ((6 + apdu.length : ℕ) : ℤ) := by
    simp only [List.length_cons]
    omega
  have hpack : structPack .big [.H ((6 + apdu.length : ℕ) : ℤ)] = .ok (ByteOrder.big.encode 2 (6 + apdu.length)) := by
    rw [structPack_of_fits (by simp [Field.Fits]; omega)]
    simp only [structRaw, List.flatMap_singleton, Field.raw, Int.toNat_natCast]
  simp only [encapsulate, encapsulateNpdu, chain_some, buildBvlc, hhead, ok_bind]
  push_cast
  rw [hlen, hpack]
  rfl

/-- Wrapping a reply that is not too long does not raise. -/
theorem encapsulate_error_iff {reply : Except PyError (Option Bytes)}
    (h : ∀ apdu, reply = .ok (some apdu) → apdu.length < 65530) :
    (∃ e, encapsulate reply = .error e) ↔ ∃ e, reply = .error e := by
  rcases reply with e | _ | apdu
  · exact Iff.rfl
  · exact Iff.rfl
  · rw [encapsulate_some (h apdu rfl)]
    simp

/-- The checks of the BVLC header. -/
theorem handleDatagram_cons (type function hi lo : UInt8) (npdu : Bytes) (s : BacnetServer) :
    handleDatagram (type :: function :: hi :: lo :: npdu) s =
      if type = 0x81 ∧ (function = 0x0A ∨ function = 0x0B) ∧ ByteOrder.big.decode [hi, lo] = 4 + npdu.length then
        (chain (handleNpdu npdu s).1 fun npdu => (buildBvlc bvlcOriginalUnicastNpdu npdu).map some,
          (handleNpdu npdu s).2)
      else (.ok none, s) := by
  have hlen : ¬ (type :: function :: hi :: lo :: npdu).length < bvlcHeaderSize := by simp
  have htype : type.toNat ≠ bvlcTypeBacnetIp ↔ ¬ type = 0x81 := by
    rw [← UInt8.toNat_inj]; rfl
  have hfunction : function.toNat ≠ bvlcOriginalUnicastNpdu ∧ function.toNat ≠ bvlcOriginalBroadcastNpdu ↔
      ¬ (function = 0x0A ∨ function = 0x0B) := by
    rw [not_or, ← UInt8.toNat_inj, ← UInt8.toNat_inj]; rfl
  have hslice : slice (type :: function :: hi :: lo :: npdu) 2 4 = [hi, lo] := rfl
  have hsize : checkSize 2 [hi, lo] = .ok () := rfl
  have huint : uintAt .big 2 [hi, lo] 0 = ByteOrder.big.decode [hi, lo] := rfl
  have hdrop : (type :: function :: hi :: lo :: npdu).drop bvlcHeaderSize = npdu := rfl
  have hnpdu : ByteOrder.big.decode [hi, lo] ≠ (type :: function :: hi :: lo :: npdu).length ↔
      ¬ ByteOrder.big.decode [hi, lo] = 4 + npdu.length := by
    simp only [List.length_cons]; omega
  simp only [handleDatagram, Py.ite_apply, if_neg hlen, index_zero_cons, index_succ_cons, Py.lift_ok_bind, hslice,
    hsize, huint, hdrop, htype, hfunction, hnpdu, Py.pure_apply]
  -- each of the three checks is enough to drop the datagram
  by_cases ht : type = 0x81
  swap
  · simp [ht]
  by_cases hf : function = 0x0A ∨ function = 0x0B
  swap
  · simp [ht, hf]
  by_cases hl : ByteOrder.big.decode [hi, lo] = 4 + npdu.length
  swap
  · simp [ht, hf, hl]
  rw [if_neg (not_not.2 ht), if_neg (not_not.2 hf), if_neg (not_not.2 hl), if_pos ⟨ht, hf, hl⟩]
  exact Py.chain_apply (fun _ => rfl) (fun _ _ => Py.lift_bind_pure _ _ _) s

theorem handleDatagram_of_carries {d apdu : Bytes} (h : Carries apdu d) (s : BacnetServer) :
    handleDatagram d s = (encapsulate (handleApdu apdu s).1, (handleApdu apdu s).2) := by
  obtain ⟨hf, hl, h⟩ := h
  rw [handleDatagram_cons, if_pos ⟨rfl, hf, hl⟩, handleNpdu_of_carries h]
  rfl

theorem handleDatagram_of_not_carries {d : Bytes} (h : ∀ apdu, ¬ Carries apdu d) (s : BacnetServer) :
    handleDatagram d s = (.ok none, s) := by
  match d with
  | [] | [_] | [_, _] | [_, _, _] => rfl
  | type :: function :: hi :: lo :: npdu =>
    rw [handleDatagram_cons]
    split_ifs with hc
    · obtain ⟨rfl, hf, hl⟩ := hc
      rw [handleNpdu_of_not_carries fun apdu hn => h apdu (.mk hf hl hn)]
      rfl
    · rfl

/-! ## Requests -/

/-- The requests that are served. -/
inductive Request
  | whoIs (parameters : Bytes)
  | readProperty (invokeId : UInt8) (parameters : Bytes)
  | writeProperty (invokeId : UInt8) (parameters : Bytes)

/-- The APDU of a request. The low bits of the first octet and, in a confirmed request, the second
octet are not read. -/
inductive ApduRequests : Request → Bytes → Prop
  | whoIs {t : UInt8} {parameters : Bytes} : t.toNat &&& 0xF0 = 0x10 →
      ApduRequests (.whoIs parameters) (t :: 0x08 :: parameters)
  | readProperty {t m invokeId : UInt8} {parameters : Bytes} : t.toNat &&& 0xF0 = 0x00 →
      ApduRequests (.readProperty invokeId parameters) (t :: m :: invokeId :: 0x0C :: parameters)
  | writeProperty {t m invokeId : UInt8} {parameters : Bytes} : t.toNat &&& 0xF0 = 0x00 →
      ApduRequests (.writeProperty invokeId parameters) (t :: m :: invokeId :: 0x0F :: parameters)

/-- The answer to Who-Is. -/
def answerWhoIs (device : BacnetDevice) (parameters : Bytes) : Except PyError (Option Bytes) :=
  match parseWhoIsLimits parameters with
  | .error e => .error e
  | .ok (lowerLimit, upperLimit) =>
    if (∃ lower ∈ lowerLimit, device.inst < lower) ∨ ∃ upper ∈ upperLimit, device.inst > upper then .ok none
    else (buildIAmApdu device).map some

/-- What the server does for a request. -/
def serve : Request → Py BacnetServer (Option Bytes)
  | .whoIs parameters => fun s => (answerWhoIs s.device parameters, s)
  | .readProperty invokeId parameters => handleReadProperty invokeId.toNat parameters
  | .writeProperty invokeId parameters => handleWriteProperty invokeId.toNat parameters

theorem handleUnconfirmedRequest_cons (t c : UInt8) (bs : Bytes) (s : BacnetServer) :
    handleUnconfirmedRequest (t :: c :: bs) s =
      if c = 0x08 then (answerWhoIs s.device bs, s) else (.ok none, s) := by
  have hc : c.toNat ≠ serviceWhoIs ↔ ¬ c = 0x08 := by rw [← UInt8.toNat_inj]; rfl
  simp only [handleUnconfirmedRequest, Py.ite_apply, index_succ_cons, index_zero_cons, Py.lift_ok_bind, hc]
  by_cases h : c = 0x08
  swap
  · simp [h]
  simp only [h, not_true, if_false, if_true, List.drop_succ_cons, List.drop_zero, answerWhoIs]
  rcases parseWhoIsLimits bs with e | ⟨lowerLimit, upperLimit⟩
  · rfl
  simp only [Py.lift_ok_bind, Py.get_bind, Py.ite_apply, Py.lift_bind_pure, Py.pure_apply]
  by_cases hl : ∃ lower ∈ lowerLimit, s.device.inst < lower
  · rw [if_pos hl, if_pos (.inl hl)]
  by_cases hu : ∃ upper ∈ upperLimit, s.device.inst > upper
  · rw [if_neg hl, if_pos hu, if_pos (.inr hu)]
  · rw [if_neg hl, if_neg hu, if_neg (not_or.2 ⟨hl, hu⟩)]

theorem handleConfirmedRequest_cons (t m i c : UInt8) (bs : Bytes) (s : BacnetServer) :
    handleConfirmedRequest (t :: m :: i :: c :: bs) s =
      if c = 0x0C then handleReadProperty i.toNat bs s
      else if c = 0x0F then handleWriteProperty i.toNat bs s
      else (.ok none, s) := by
  have hread : c.toNat = serviceReadProperty ↔ c = 0x0C := by rw [← UInt8.toNat_inj]; rfl
  have hwrite : c.toNat = serviceWriteProperty ↔ c = 0x0F := by rw [← UInt8.toNat_inj]; rfl
  have hlen : ¬ (t :: m :: i :: c :: bs).length < confirmedRequestHeaderSize := by simp
  simp only [handleConfirmedRequest, Py.ite_apply, if_neg hlen, index_succ_cons, index_zero_cons, Py.lift_ok_bind,
    hread, hwrite, List.drop_succ_cons, List.drop_zero]
  rfl

theorem handleApdu_cons (t c : UInt8) (bs : Bytes) (s : BacnetServer) :
    handleApdu (t :: c :: bs) s =
      if t.toNat &&& 0xF0 = 0x10 then handleUnconfirmedRequest (t :: c :: bs) s
      else if t.toNat &&& 0xF0 = 0x00 then handleConfirmedRequest (t :: c :: bs) s
      else (.ok none, s) := by
  have hlen : ¬ (t :: c :: bs).length < npduHeaderSize := by simp
  simp only [handleApdu, Py.ite_apply, if_neg hlen, index_zero_cons, Py.lift_ok_bind]
  rfl

theorem handleApdu_of_requests {request : Request} {apdu : Bytes} (h : ApduRequests request apdu)
    (s : BacnetServer) : handleApdu apdu s = serve request s := by
  cases h with
  | whoIs h => rw [handleApdu_cons, if_pos h, handleUnconfirmedRequest_cons]; rfl
  | readProperty h => rw [handleApdu_cons, if_neg (by omega), if_pos h, handleConfirmedRequest_cons]; rfl
  | writeProperty h => rw [handleApdu_cons, if_neg (by omega), if_pos h, handleConfirmedRequest_cons]; rfl

theorem handleApdu_of_not_requests {apdu : Bytes} (h : ∀ request, ¬ ApduRequests request apdu)
    (s : BacnetServer) : handleApdu apdu s = (.ok none, s) := by
  match apdu with
  | [] | [_] => rfl
  | t :: c :: bs =>
    rw [handleApdu_cons]
    split_ifs with hu hc
    · rw [handleUnconfirmedRequest_cons, if_neg]
      rintro rfl
      exact h _ (.whoIs hu)
    · match bs with
      | [] | [_] => rfl
      | i :: c' :: bs =>
        rw [handleConfirmedRequest_cons, if_neg, if_neg]
        · rintro rfl
          exact h _ (.writeProperty hc)
        · rintro rfl
          exact h _ (.readProperty hc)
    · rfl

/-- The datagram carries the request. -/
def Requests (request : Request) (d : Bytes) : Prop := ∃ apdu, Carries apdu d ∧ ApduRequests request apdu

theorem requests_bareDatagram {request : Request} {apdu : Bytes} (h : ApduRequests request apdu)
    (hlen : apdu.length < 65530) : Requests request (bareDatagram apdu) :=
  ⟨apdu, carries_bareDatagram hlen, h⟩

theorem Requests.unique {request request' : Request} {d : Bytes} (h : Requests request d)
    (h' : Requests request' d) : request = request' := by
  obtain ⟨apdu, hc, hr⟩ := h
  obtain ⟨apdu', hc', hr'⟩ := h'
  obtain rfl := hc.unique hc'
  cases hr <;> cases hr' <;> first | rfl | (exfalso; omega)

/-- What the server does with a datagram depends on the request it carries. -/
theorem handleDatagram_of_requests {request : Request} {d : Bytes} (h : Requests request d)
    (s : BacnetServer) : handleDatagram d s = (encapsulate (serve request s).1, (serve request s).2) := by
  obtain ⟨apdu, hc, hr⟩ := h
  rw [handleDatagram_of_carries hc, handleApdu_of_requests hr]

/-- A datagram without a request is dropped. -/
theorem handleDatagram_of_not_requests {d : Bytes} (h : ∀ request, ¬ Requests request d) (s : BacnetServer) :
    handleDatagram d s = (.ok none, s) := by
  by_cases hc : ∃ apdu, Carries apdu d
  · obtain ⟨apdu, hc⟩ := hc
    rw [handleDatagram_of_carries hc, handleApdu_of_not_requests fun request hr => h request ⟨apdu, hc, hr⟩]
    rfl
  · exact handleDatagram_of_not_carries (not_exists.1 hc) s

end Cursus.Bacnet
