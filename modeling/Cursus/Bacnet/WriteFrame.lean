/-
The datagrams that `cursus/bacnet/server.py` acknowledges as WriteProperty. The parsers pass over the
network layer bit of the NPDU, the segmentation bit of the APDU, the marks of opening and closing
tags, and whatever stands behind the first closing octet; and with both address specifiers they may look
for the APDU in the wrong place. So a datagram that is malformed there is acknowledged as well.
-/
import Cursus.Bacnet.AddressOrder
import Cursus.Bacnet.Store

namespace Cursus.Bacnet

open Cursus.Python

/-! ## Datagrams -/

/-- A BVLC frame of the right length around the NPDU. -/
inductive Framed (npdu : Bytes) : Bytes → Prop
  | mk {function hi lo : UInt8} : function = 0x0A ∨ function = 0x0B →
      ByteOrder.big.decode [hi, lo] = 4 + npdu.length → Framed npdu (0x81 :: function :: hi :: lo :: npdu)

theorem Framed.unique {npdu npdu' d : Bytes} (h : Framed npdu d) (h' : Framed npdu' d) : npdu = npdu' := by
  cases h
  cases h'
  rfl

/-! ## Service requests -/

/-- The parts of a service request that asks to write a present value. -/
structure WriteRequest where
  objectTag : UInt8
  propertyTag : UInt8
  indexTag : Option UInt8
  inst : ℕ
  value : Bytes
  rest : Bytes

/-- The REAL `value` for the present value of the analog value `inst`, and `rest` behind the closing tag. -/
inductive WriteRequest.Encodes (r : WriteRequest) : Bytes → Prop
  | mk {oid p e₀ e₁ e₂ : Bytes} : isContextTag r.objectTag.toNat contextTagObjectIdentifier = true →
      Element r.objectTag oid e₀ → oid.length = 4 → objectTypeOf oid = objectTypeAnalogValue →
      instanceOf oid = r.inst → isContextTag r.propertyTag.toNat contextTagPropertyIdentifier = true →
      Element r.propertyTag p e₁ → ByteOrder.big.decode p = propertyPresentValue → TaggedIndex r.indexTag e₂ →
      r.value.length = 4 →
      WriteRequest.Encodes r (e₀ ++ (e₁ ++ (e₂ ++ openingTag :: 0x44 :: (r.value ++ closingTag :: r.rest))))

theorem WriteRequest.Encodes.writesPresentValue {r : WriteRequest} {parameters : Bytes} (h : r.Encodes parameters)
    (hc : closingTag ∉ r.value) : WritesPresentValue r.inst r.value parameters := by
  obtain ⟨ht₀, he₀, hoid, htype, hinst, ht₁, he₁, hp, hi, hv⟩ := h
  have hc' : closingTag ∉ 0x44 :: r.value := by
    simp only [List.mem_cons, not_or]
    exact ⟨by decide, hc⟩
  have hw := WriteParameters.mk r.rest (.mk ht₀ he₀ hoid ht₁ he₁ hi.arrayIndex) hc'
  refine .mk (by simpa using hw) htype hinst hp hv

theorem exists_writeRequest {n : ℕ} {b parameters : Bytes} (h : WritesPresentValue n b parameters) :
    ∃ r : WriteRequest, r.Encodes parameters ∧ closingTag ∉ b ∧ r.inst = n ∧ r.value = b := by
  obtain ⟨⟨rest, ⟨ht₀, he₀, hoid, ht₁, he₁, hi⟩, hc⟩, htype, rfl, hp, hb⟩ := h
  rename_i oid p t₀ t₁ e₀ e₁ e₂
  obtain ⟨o, hi⟩ := exists_taggedIndex hi
  have henc := WriteRequest.Encodes.mk (r := ⟨t₀, t₁, o, instanceOf oid, b, rest⟩) ht₀ he₀ hoid htype rfl ht₁ he₁ hp
    hi hb
  exact ⟨⟨t₀, t₁, o, instanceOf oid, b, rest⟩, by simpa using henc, mt (List.mem_cons_of_mem _) hc, rfl, rfl⟩

theorem WriteRequest.Encodes.unique {r r' : WriteRequest} {parameters : Bytes} (h : r.Encodes parameters)
    (h' : r'.Encodes parameters) : r = r' := by
  obtain ⟨-, he₀, -, -, hinst, -, he₁, -, hi, hv⟩ := h
  rename_i oid p e₀ e₁ e₂
  generalize hd : e₀ ++ (e₁ ++ (e₂ ++ openingTag :: 0x44 :: (r.value ++ closingTag :: r.rest))) = parameters at h'
  obtain ⟨-, he₀', -, -, hinst', -, he₁', -, hi', hv'⟩ := h'
  obtain ⟨hobject, rfl, -, hd₁⟩ := he₀.unique he₀' hd
  obtain ⟨hproperty, -, -, hd₂⟩ := he₁.unique he₁' hd₁
  obtain ⟨hindex, hd₃⟩ := hi.unique hi' hd₂
  obtain ⟨hvalue, hrest⟩ := List.append_inj (List.tail_eq_of_cons_eq hd₃) (hv.trans hv'.symm)
  cases r
  cases r'
  simp only [WriteRequest.mk.injEq]
  exact ⟨hobject, hproperty, hindex, hinst.symm.trans hinst', hvalue, List.tail_eq_of_cons_eq hrest⟩

/-- Four octets of content leave no room for a mark in the tag of the object identifier. -/
theorem WriteRequest.Encodes.isPrimitive_objectTag {r : WriteRequest} {parameters : Bytes} (h : r.Encodes parameters) :
    IsPrimitive r.objectTag := by
  obtain ⟨-, he₀, hoid, -⟩ := h
  exact he₀.isPrimitive (by omega)

/-! ## Well-formed writes -/

/-- The priority that may stand behind the value, and nothing else. -/
inductive Trailer : Bytes → Prop
  | nothing : Trailer []
  | priority {t : UInt8} {content e : Bytes} : isContextTag t.toNat 4 = true → IsPrimitive t → Element t content e →
      Trailer e

/-- A confirmed request to write a present value, with what is in front of it in its NPDU. -/
structure WriteFrame where
  control : UInt8
  destination : Option Destination
  source : Option NetworkAddress
  pduType : UInt8
  invokeId : UInt8
  request : WriteRequest

namespace WriteFrame

/-- The frame stands in the datagram, in BACnet order. -/
inductive Stands (f : WriteFrame) : Bytes → Prop
  | mk {flags m : UInt8} {parameters d : Bytes} :
      f.control = controlOctet flags f.destination.isSome f.source.isSome → f.pduType.toNat &&& 0xF0 = 0x00 →
      f.request.Encodes parameters →
      Framed (encodeNpdu flags f.destination f.source (f.pduType :: m :: f.invokeId :: 0x0F :: parameters)) d → f.Stands d

/-- The server takes the datagram apart into the frame. -/
inductive IsRead (f : WriteFrame) : Bytes → Prop
  | mk {m : UInt8} {message parameters d : Bytes} : Announced f.control f.destination f.source →
      message.length = (if f.control.toNat &&& 0x80 ≠ 0 then 1 else 0) → f.pduType.toNat &&& 0xF0 = 0x00 →
      f.request.Encodes parameters →
      Framed (skippedNpdu f.control f.destination f.source message
        (f.pduType :: m :: f.invokeId :: 0x0F :: parameters)) d → f.IsRead d

/-- No network layer message, not segmented, primitive tags, and at most a priority behind the value. -/
structure WellFormed (f : WriteFrame) : Prop where
  application : f.control.toNat &&& 0x80 = 0
  unsegmented : f.pduType.toNat &&& 0x08 = 0
  object : IsPrimitive f.request.objectTag
  property : IsPrimitive f.request.propertyTag
  index : ∀ t ∈ f.request.indexTag, IsPrimitive t
  trailer : Trailer f.request.rest

/-- The present value is there. -/
def Known (f : WriteFrame) (s : BacnetServer) : Prop := (s.analogValues.lookup (f.request.inst : ℤ)).isSome

end WriteFrame

/-- The datagram is a well-formed WriteProperty of a present value that is there. -/
def IsWellFormedWrite (s : BacnetServer) (payload : Bytes) : Prop :=
  ∃ f : WriteFrame, f.Stands payload ∧ f.WellFormed ∧ f.Known s

/-- The datagram is answered with a SimpleACK or changes a present value. -/
def Writes (payload : Bytes) (s : BacnetServer) : Prop :=
  (∃ reply, (handleDatagram payload s).1 = .ok (some reply) ∧ IsSimpleAck reply) ∨
    ∃ n, ((handleDatagram payload s).2.analogValues.lookup n).map BacnetAnalogValue.presentValue ≠
      (s.analogValues.lookup n).map BacnetAnalogValue.presentValue

/-! ## Lapses -/

namespace WriteFrame

/-- The ways in which a request can be malformed for the parsers to pass over it. -/
inductive Malformed (f : WriteFrame) : Prop
  | segmented : f.pduType.toNat &&& 0x08 ≠ 0 → f.Malformed
  | property : ¬ IsPrimitive f.request.propertyTag → f.Malformed
  | index {t : UInt8} : t ∈ f.request.indexTag → ¬ IsPrimitive t → f.Malformed
  | trailer : ¬ Trailer f.request.rest → f.Malformed

/-- With both specifiers, the octet that the server takes for the source length is not the one that stands there in
BACnet order, which it takes for the low octet of the source network. -/
def Misplaced (f : WriteFrame) : Prop := ∃ d ∈ f.destination, ∃ a ∈ f.source, a.networkLo ≠ a.lengthOctet

/-- The ways in which a datagram can be malformed for the server to find the frame in it all the same. When it looks
for the APDU in the wrong place, what matters is what stands in the right one. -/
inductive Lapses (s : BacnetServer) (payload : Bytes) (f : WriteFrame) : Prop
  | networkMessage : f.control.toNat &&& 0x80 ≠ 0 → f.Lapses s payload
  | malformed : ¬ f.Misplaced → f.Malformed → f.Lapses s payload
  | misplaced : f.Misplaced → (∀ g : WriteFrame, g.Stands payload → g.Known s → g.Malformed) → f.Lapses s payload

variable {f g : WriteFrame} {payload : Bytes} {s : BacnetServer}

theorem Stands.control_and (h : f.Stands payload) : f.control.toNat &&& 0x80 = 0 := by
  obtain ⟨hcontrol⟩ := h
  rw [hcontrol]
  exact (controlOctet_and ..).2.2

theorem Stands.unique (h : f.Stands payload) (h' : g.Stands payload) : f = g := by
  obtain ⟨hcontrol, -, hr, hframed⟩ := h
  obtain ⟨hcontrol', -, hr', hframed'⟩ := h'
  obtain ⟨hoctet, hdestination, hsource, happ⟩ := encodeNpdu_inj (hframed.unique hframed')
  simp only [List.cons.injEq, true_and] at happ
  obtain ⟨hpdu, -, hinvoke, rfl⟩ := happ
  have hrequest := hr.unique hr'
  cases f
  cases g
  simp only [WriteFrame.mk.injEq]
  exact ⟨hcontrol.trans (hoctet.trans hcontrol'.symm), hdestination, hsource, hpdu, hinvoke, hrequest⟩

/-- A frame that stands in BACnet order is well-formed unless its request is malformed. -/
theorem Stands.wellFormed_iff (h : f.Stands payload) : f.WellFormed ↔ ¬ f.Malformed := by
  constructor
  · rintro ⟨-, h1, -, h2, h3, h4⟩ hm
    cases hm with
    | segmented hn => exact hn h1
    | property hn => exact hn h2
    | index ht hn => exact hn (h3 _ ht)
    | trailer hn => exact hn h4
  · intro hm
    have hcontrol := h.control_and
    obtain ⟨-, -, hr, -⟩ := h
    exact {
      application := hcontrol
      unsegmented := by_contra fun hn => hm (.segmented hn)
      object := hr.isPrimitive_objectTag
      property := by_contra fun hn => hm (.property hn)
      index := fun t ht => by_contra fun hn => hm (.index ht hn)
      trailer := by_contra fun hn => hm (.trailer hn) }

/-- The control octet has the same place for the server and in BACnet. -/
theorem IsRead.control_eq (h : f.IsRead payload) (h' : g.Stands payload) : f.control = g.control := by
  obtain ⟨-, -, -, -, hframed⟩ := h
  obtain ⟨hcontrol, -, -, hframed'⟩ := h'
  have hnpdu := hframed.unique hframed'
  simp only [skippedNpdu, encodeNpdu, List.cons.injEq, true_and] at hnpdu
  rw [hcontrol]
  exact hnpdu.1

/-- A frame that the server reads in the right place stands there in BACnet order. -/
theorem IsRead.exists_stands (h : f.IsRead payload) (hcontrol : f.control.toNat &&& 0x80 = 0) (hplace : ¬ f.Misplaced) :
    ∃ g : WriteFrame, g.Stands payload ∧ (g.Malformed ↔ f.Malformed) ∧ g.request = f.request := by
  obtain ⟨hannounced, hmessage, hpdu, hr, hframed⟩ := h
  rw [if_neg (not_not_intro hcontrol), List.length_eq_zero_iff] at hmessage
  subst hmessage
  obtain ⟨destination, source, hself, hnpdu⟩ := exists_encodeNpdu hannounced hcontrol fun d hd a ha =>
    by_contra fun hne => hplace ⟨d, hd, a, ha, hne⟩
  rw [hnpdu] at hframed
  refine ⟨⟨f.control, destination, source, f.pduType, f.invokeId, f.request⟩, .mk hself.symm hpdu hr hframed, ?_, rfl⟩
  constructor
  · rintro (h | h | ⟨ht, h⟩ | h)
    · exact .segmented h
    · exact .property h
    · exact .index ht h
    · exact .trailer h
  · rintro (h | h | ⟨ht, h⟩ | h)
    · exact .segmented h
    · exact .property h
    · exact .index ht h
    · exact .trailer h

/-- A datagram with a frame that the server reads is a well-formed write unless the frame lapses. -/
theorem IsRead.isWellFormedWrite_iff (h : f.IsRead payload) (hknown : f.Known s) :
    IsWellFormedWrite s payload ↔ ¬ f.Lapses s payload := by
  constructor
  · rintro ⟨g, hstands, hwf, hg⟩ hl
    have hsound := hstands.wellFormed_iff.1 hwf
    cases hl with
    | networkMessage hn =>
      rw [h.control_eq hstands] at hn
      exact hn hwf.application
    | malformed hplace hm =>
      obtain ⟨g', hstands', hiff, -⟩ := h.exists_stands (by rw [h.control_eq hstands]; exact hwf.application) hplace
      obtain rfl := hstands.unique hstands'
      exact hsound (hiff.2 hm)
    | misplaced _ hm => exact hsound (hm g hstands hg)
  · intro hl
    have hcontrol : f.control.toNat &&& 0x80 = 0 := by_contra fun hn => hl (.networkMessage hn)
    by_cases hplace : f.Misplaced
    · by_contra hnot
      refine hl (.misplaced hplace fun g hstands hg => ?_)
      by_contra hm
      exact hnot ⟨g, hstands, hstands.wellFormed_iff.2 hm, hg⟩
    · obtain ⟨g, hstands, hiff, hrequest⟩ := h.exists_stands hcontrol hplace
      have hm : ¬ g.Malformed := fun hm => hl (.malformed hplace (hiff.1 hm))
      refine ⟨g, hstands, hstands.wellFormed_iff.2 hm, ?_⟩
      rw [Known, hrequest]
      exact hknown

end WriteFrame

/-! ## What is acknowledged -/

/-- The frames that the server takes for writes: the value runs up to the first closing octet. -/
def WriteFrame.Taken (f : WriteFrame) (s : BacnetServer) : Prop := closingTag ∉ f.request.value ∧ f.Known s

theorem WriteFrame.IsRead.requests {f : WriteFrame} {d : Bytes} (h : f.IsRead d) :
    ∃ parameters, Requests (.writeProperty f.invokeId parameters) d ∧ f.request.Encodes parameters := by
  obtain ⟨hannounced, hmessage, hpdu, hr, ⟨hfunction, hlen⟩⟩ := h
  exact ⟨_, ⟨_, .mk hfunction hlen (.mk (addressFields_skippedFields hannounced hmessage)), .writeProperty hpdu⟩, hr⟩

theorem exists_isRead {invokeId : UInt8} {parameters d : Bytes} (h : Requests (.writeProperty invokeId parameters) d)
    {r : WriteRequest} (hr : r.Encodes parameters) : ∃ f : WriteFrame, f.IsRead d ∧ f.request = r := by
  obtain ⟨apdu, ⟨hfunction, hlen, ⟨hfields⟩⟩, hrequests⟩ := h
  rename_i control fields
  obtain ⟨destination, source, message, hannounced, hmessage, rfl⟩ := exists_skippedFields hfields
  cases hrequests with
  | writeProperty ht =>
    exact ⟨⟨control, destination, source, _, invokeId, r⟩, .mk hannounced hmessage ht hr (.mk hfunction hlen), rfl⟩

theorem writes_of_taken {f : WriteFrame} {payload : Bytes} {s : BacnetServer} (h : f.IsRead payload)
    (ht : f.Taken s) : Writes payload s := by
  obtain ⟨parameters, hrequests, hr⟩ := h.requests
  obtain ⟨hclosing, hknown⟩ := ht
  have hlen : [0x20, f.invokeId, 0x0F].length < 65530 := by simp
  refine .inl ⟨bareDatagram [0x20, f.invokeId, 0x0F], ?_, (isSimpleAck_bareDatagram _).2 rfl⟩
  rw [handleDatagram_of_requests hrequests, serve_writeProperty,
    handleWriteProperty_of_writes (hr.writesPresentValue hclosing)]
  rw [WriteFrame.Known] at hknown
  rw [if_pos hknown]
  exact encapsulate_some hlen

theorem exists_taken {payload : Bytes} {s : BacnetServer} (h : Writes payload s) :
    ∃ f : WriteFrame, f.IsRead payload ∧ f.Taken s := by
  rcases handleDatagram_cases payload s with ⟨invokeId, n, b, parameters, hr, hw, hn, -⟩ | ⟨hs, hack⟩
  · obtain ⟨r, henc, hclosing, rfl, rfl⟩ := exists_writeRequest hw
    obtain ⟨f, hread, rfl⟩ := exists_isRead hr henc
    exact ⟨f, hread, hclosing, hn⟩
  · -- otherwise nothing is acknowledged and nothing changes
    rcases h with ⟨reply, hreply, hsimple⟩ | ⟨n, hn⟩
    · exact absurd hsimple (hack reply hreply)
    · rw [hs] at hn
      exact absurd rfl hn

/-- What is acknowledged or changes a present value is a well-formed write, exactly when the server finds no frame in
the datagram that it takes for a write and that lapses in one of the unchecked parts. -/
theorem wellFormed_of_writes_iff (payload : Bytes) (s : BacnetServer) :
    (Writes payload s → IsWellFormedWrite s payload) ↔
      ¬ ∃ f : WriteFrame, f.IsRead payload ∧ f.Taken s ∧ f.Lapses s payload := by
  constructor
  · rintro h ⟨f, hread, ht, hl⟩
    exact (hread.isWellFormedWrite_iff ht.2).1 (h (writes_of_taken hread ht)) hl
  · intro h hw
    obtain ⟨f, hread, ht⟩ := exists_taken hw
    exact (hread.isWellFormedWrite_iff ht.2).2 fun hl => h ⟨f, hread, ht, hl⟩

/-- Ten for the first present value, and an octet behind the closing tag. -/
def trailingWrite : WriteFrame where
  control := 0x00
  destination := none
  source := none
  pduType := 0x00
  invokeId := 0x01
  request := {
    objectTag := 0x0C
    propertyTag := 0x19
    indexTag := none
    inst := 1
    value := [0x41, 0x20, 0x00, 0x00]
    rest := [0xFF] }

theorem isRead_trailingWrite :
    trailingWrite.IsRead (bareDatagram [0x00, 0x05, 0x01, 0x0F, 0x0C, 0x00, 0x80, 0x00, 0x01, 0x19, 0x55, 0x3E, 0x44,
      0x41, 0x20, 0x00, 0x00, 0x3F, 0xFF]) := by
  have he₀ : Element 0x0C [0x00, 0x80, 0x00, 0x01] [0x0C, 0x00, 0x80, 0x00, 0x01] := .inline (by simp) rfl
  have he₁ : Element 0x19 [0x55] [0x19, 0x55] := .inline (by simp) rfl
  have hr := @WriteRequest.Encodes.mk trailingWrite.request _ _ _ _ [] rfl he₀ rfl rfl rfl rfl he₁ rfl .absent rfl
  have hannounced : Announced 0x00 none none := ⟨by decide, by decide⟩
  exact @WriteFrame.IsRead.mk trailingWrite 0x05 [] _ _ hannounced rfl rfl hr (@Framed.mk _ 0x0A 0x00 0x19 (.inl rfl) rfl)

/-- The octet behind the closing tag does not keep the value from being written. -/
theorem not_wellFormed_of_writes_trailing :
    ¬ (Writes (bareDatagram [0x00, 0x05, 0x01, 0x0F, 0x0C, 0x00, 0x80, 0x00, 0x01, 0x19, 0x55, 0x3E, 0x44, 0x41, 0x20,
        0x00, 0x00, 0x3F, 0xFF]) (.init {}) →
      IsWellFormedWrite (.init {}) (bareDatagram [0x00, 0x05, 0x01, 0x0F, 0x0C, 0x00, 0x80, 0x00, 0x01, 0x19, 0x55,
        0x3E, 0x44, 0x41, 0x20, 0x00, 0x00, 0x3F, 0xFF])) := by
  have ht : trailingWrite.Taken (.init {}) := ⟨by decide, rfl⟩
  have htrailer : ¬ Trailer [0xFF] := by
    intro h
    cases h with
    | priority ht _ he =>
      obtain ⟨bs, hbs⟩ := he.eq_cons
      obtain rfl := List.head_eq_of_cons_eq hbs
      revert ht
      decide
  have hplace : ¬ trailingWrite.Misplaced := by
    rintro ⟨d, ⟨⟩, -⟩
  intro h
  have hwf := h (writes_of_taken isRead_trailingWrite ht)
  exact (isRead_trailingWrite.isWellFormedWrite_iff ht.2).1 hwf (.malformed hplace (.trailer htrailer))

end Cursus.Bacnet
