/-
The three views of the identity: its attributes 1 to 8 read one by one, the first seven read at once,
and the item of ListIdentity. They have the same octets, and these determine the identity.
-/
import Cursus.Enip.Bounds

namespace Cursus.Enip

open Cursus.Python

/-! ## The octets of an identity -/

/-- The attributes in a row are the fields in a row, the name behind its length. -/
theorem flatMap_attribute (identity : EnipIdentity) :
    (List.range' 1 8).flatMap identity.attribute =
      (Field.H identity.vendorId).raw .little ++ ((Field.H identity.deviceType).raw .little ++
        ((Field.H identity.productCode).raw .little ++ ((Field.B identity.revisionMajor).raw .little ++
          ((Field.B identity.revisionMinor).raw .little ++ ((Field.H identity.status).raw .little ++
            ((Field.I identity.serialNumber).raw .little ++
              ((Field.B identity.nameOctets.length).raw .little ++
                (identity.nameOctets ++ ((Field.B identity.state).raw .little ++ []))))))))) := by
  have hrows : (List.range' 1 8).flatMap identity.attribute = (identity.table.map Prod.snd).flatten := rfl
  rw [hrows]
  simp [EnipIdentity.table, structRaw]

/-- The name is as long as the octet in front of it says, so the octets are read back in one way. -/
theorem flatMap_attribute_inj {identity identity' : EnipIdentity} (hf : identity.Fits) (hf' : identity'.Fits)
    (h : (List.range' 1 8).flatMap identity.attribute = (List.range' 1 8).flatMap identity'.attribute) :
    identity = identity' := by
  rw [flatMap_attribute, flatMap_attribute] at h
  obtain ⟨hvendor, h⟩ := Field.raw_append_inj hf.vendorId hf'.vendorId h
  obtain ⟨htype, h⟩ := Field.raw_append_inj hf.deviceType hf'.deviceType h
  obtain ⟨hcode, h⟩ := Field.raw_append_inj hf.productCode hf'.productCode h
  obtain ⟨hmajor, h⟩ := Field.raw_append_inj hf.revisionMajor hf'.revisionMajor h
  obtain ⟨hminor, h⟩ := Field.raw_append_inj hf.revisionMinor hf'.revisionMinor h
  obtain ⟨hstatus, h⟩ := Field.raw_append_inj hf.status hf'.status h
  obtain ⟨hserial, h⟩ := Field.raw_append_inj hf.serialNumber hf'.serialNumber h
  obtain ⟨hlen, h⟩ := Field.raw_append_inj hf.nameLength hf'.nameLength h
  obtain ⟨hoctets, h⟩ := List.append_inj h (Int.ofNat.inj hlen)
  obtain ⟨hstate, -⟩ := Field.raw_append_inj hf.state hf'.state h
  have hname := map_ofNat_inj hf.isAscii hf'.isAscii hoctets
  cases identity
  cases identity'
  subst hvendor htype hcode hmajor hminor hstatus hserial hname hstate
  rfl

/-! ## Reading the identity -/

/-- Requests for the service on the identity object are answered with the data. -/
def ServesIdentity (s : EnipServer) (service : UInt8) (attr : Option ℕ) (data : Bytes) : Prop :=
  ∀ cipRequest requestData, Asks cipRequest service identityClass 1 attr requestData →
    handleCipRequest cipRequest s = (.ok (cipReply service.toNat cipStatusSuccess data), s)

variable {s : EnipServer}

theorem servesIdentity_single (hf : s.identity.Fits) {attr : ℕ} (h : attr ∈ List.range' 1 8) :
    ServesIdentity s 0x0E (some attr) (s.identity.attribute attr) := by
  intro cipRequest requestData hasks
  have hget : getAttribute s identityClass 1 attr = .ok (s.identity.attribute attr, cipStatusSuccess) := by
    unfold getAttribute
    rw [if_pos ⟨rfl, rfl⟩, packIdentityAttribute_of_mem hf h]
  rw [handleCipRequest_of_asks hasks]
  unfold dispatchService
  rw [if_neg (by simp), if_pos (by simp)]
  exact read_of_ok (by simp) (by simp) hget rfl

theorem servesIdentity_all (hf : s.identity.Fits) (attr : Option ℕ) :
    ServesIdentity s 0x01 attr ((List.range' 1 7).flatMap s.identity.attribute) := by
  intro cipRequest requestData hasks
  have hget : getAttributesAll s identityClass 1 =
      .ok ((List.range' 1 7).flatMap s.identity.attribute, cipStatusSuccess) := by
    unfold getAttributesAll
    rw [if_pos ⟨rfl, rfl⟩, packIdentityAttributes_all hf]
    rfl
  rw [handleCipRequest_of_asks hasks]
  unfold dispatchService
  rw [if_pos (by simp), Py.get_bind]
  exact read_of_ok (by simp) (by simp) hget rfl

/-- A service on an attribute of the identity object. -/
def identityRequest (service : UInt8) (attr : ℕ) : Bytes := [service, 3, 0x20, 1, 0x24, 1, 0x30, UInt8.ofNat attr]

theorem asks_identityRequest (service : UInt8) {attr : ℕ} (h : attr < 256) :
    Asks (identityRequest service attr) service identityClass 1 (some attr) [] :=
  ⟨3, [0x20, 1, 0x24, 1, 0x30, UInt8.ofNat attr], rfl, rfl, [.value .cls .byte 1 (by decide),
    .value .inst .byte 1 (by decide), .value .attr .byte attr h], rfl, rfl⟩

/-- What is served is one byte string. -/
theorem ServesIdentity.unique {service : UInt8} {attr : ℕ} (hattr : attr < 256) {data data' : Bytes}
    (h : ServesIdentity s service (some attr) data) (h' : ServesIdentity s service (some attr) data') : data = data' := by
  have hasks := asks_identityRequest service hattr
  have heq := (h _ _ hasks).symm.trans (h' _ _ hasks)
  simpa [cipReply] using heq

/-! ## The three views -/

/-- The family, the port, the address and eight zeros. -/
def socketAddress (port : ℤ) (address : Bytes) : Bytes :=
  ByteOrder.big.encode 2 2 ++ (ByteOrder.big.encode 2 port.toNat ++ (address ++ List.replicate 8 0))

/-- The views of the identity of a server, for the data of its attributes. -/
structure IdentityViews (s : EnipServer) (data : ℕ → Bytes) : Prop where
  single : ∀ attr ∈ List.range' 1 8, ServesIdentity s 0x0E (some attr) (data attr)
  all : ∀ attr, ServesIdentity s 0x01 attr ((List.range' 1 7).flatMap data)
  /-- One item, as long as it says: the protocol version, the socket address and the attributes. -/
  list : ∃ address, inetAton (if s.ip ≠ bindAllInterfaces then s.ip else loopbackAddress) = .ok address ∧
    address.length = 4 ∧ buildListIdentityPayload s.ip s.port s.identity = .ok
      (ByteOrder.little.encode 2 1 ++ (ByteOrder.little.encode 2 0x000C ++
        (ByteOrder.little.encode 2 (18 + ((List.range' 1 8).flatMap data).length) ++
          (ByteOrder.little.encode 2 protocolVersion ++ (socketAddress s.port address ++
            (List.range' 1 8).flatMap data)))))

theorem length_socketAddress (port : ℤ) {address : Bytes} (h : address.length = 4) :
    (socketAddress port address).length = 16 := by
  simp [socketAddress, h]

theorem structRaw_socketAddress (port : ℤ) {address : Bytes} (h : address.length = 4) :
    structRaw .big [.H afInet, .H port, .str 4 address, .str 8 (List.replicate 8 0)] = socketAddress port address := by
  have hpadded : (Field.str 4 address).raw .big = address := by simp [Field.raw, h]
  have hzeros : (Field.str 8 (List.replicate 8 0)).raw .big = List.replicate 8 0 := rfl
  have hfamily : (Field.H afInet).raw .big = ByteOrder.big.encode 2 2 := rfl
  simp only [structRaw, List.flatMap_cons, List.flatMap_nil, hpadded, hzeros, hfamily, socketAddress, List.append_nil]
  rfl

theorem identityItemData_eq {address : Bytes} (h : address.length = 4) (port : ℤ) (identity : EnipIdentity) :
    identityItemData address port identity =
      ByteOrder.little.encode 2 protocolVersion ++
        (socketAddress port address ++ (List.range' 1 8).flatMap identity.attribute) := by
  rw [flatMap_attribute, ← structRaw_socketAddress port h]
  simp [identityItemData, structRaw, Field.raw]

theorem identityViews_of_fits (hf : s.identity.Fits) (hip : IsDottedQuad s.ip) (hport : 0 ≤ s.port ∧ s.port < 65536) :
    IdentityViews s s.identity.attribute := by
  refine ⟨fun attr => servesIdentity_single hf, servesIdentity_all hf, ?_⟩
  obtain ⟨address, hinet, haddress, hbuild⟩ := buildListIdentityPayload_eq hip hport hf
  have hlen : (identityItemData address s.port s.identity).length =
      18 + ((List.range' 1 8).flatMap s.identity.attribute).length := by
    rw [identityItemData_eq haddress, List.length_append, List.length_append, length_socketAddress s.port haddress,
      ByteOrder.length_encode]
    omega
  refine ⟨address, hinet, haddress, ?_⟩
  rw [hbuild, hlen, identityItemData_eq haddress]
  generalize (List.range' 1 8).flatMap s.identity.attribute = octets
  have hcast : (18 + (octets.length : ℤ)).toNat = 18 + octets.length := by omega
  simp [structRaw, Field.raw, hcast]

/-- The views agree, and no other identity has the same attributes in a row. -/
theorem identity_views_agree {s : EnipServer} (hf : s.identity.Fits) (hip : IsDottedQuad s.ip)
    (hport : 0 ≤ s.port ∧ s.port < 65536) :
    ∃ data : ℕ → Bytes, IdentityViews s data ∧
      ∀ (s' : EnipServer) (data' : ℕ → Bytes), s'.identity.Fits →
        (∀ attr ∈ List.range' 1 8, ServesIdentity s' 0x0E (some attr) (data' attr)) →
        (List.range' 1 8).flatMap data' = (List.range' 1 8).flatMap data → s'.identity = s.identity := by
  refine ⟨s.identity.attribute, identityViews_of_fits hf hip hport, ?_⟩
  intro s' data' hf' hserves heq
  have hdata : ∀ attr ∈ List.range' 1 8, data' attr = s'.identity.attribute attr := by
    intro attr hmem
    have hlt : attr < 256 := by
      have := (List.mem_range'_1.1 hmem).2
      omega
    exact (hserves attr hmem).unique hlt (servesIdentity_single hf' hmem)
  rw [List.flatMap_congr hdata] at heq
  exact flatMap_attribute_inj hf' hf heq

/-- The default server announces the vendor that it serves. -/
theorem identity_views_agree_default :
    ∃ data, handleCipRequest (identityRequest 0x0E 1) (.init "127.0.0.1" 44818 {}) =
      (.ok (cipReply 0x0E cipStatusSuccess data), .init "127.0.0.1" 44818 {}) := by
  obtain ⟨data, hviews, -⟩ := identity_views_agree (s := .init "127.0.0.1" 44818 {}) inBounds_default.identity
    inBounds_default.ip inBounds_default.port
  exact ⟨data 1, hviews.single 1 (by simp) _ _ (asks_identityRequest 0x0E (by simp))⟩

end Cursus.Enip
