/-
No frame makes the server of `cursus/enip/server.py` raise. The data of an assembly stays at most
65515 octets long: this is both the most that a SendRRData payload of 65535 octets can write, behind
an item header and the shortest path, and the most that a reply with a 16-bit length can carry.
-/
import Cursus.Enip.System

namespace Cursus.Enip

open Cursus.Python Cursus.Run

/-! ## Configurations in bounds -/

/-- The fields of the identity fit the widths they are packed in. -/
structure EnipIdentity.Fits (identity : EnipIdentity) : Prop where
  vendorId : (Field.H identity.vendorId).Fits
  deviceType : (Field.H identity.deviceType).Fits
  productCode : (Field.H identity.productCode).Fits
  revisionMajor : (Field.B identity.revisionMajor).Fits
  revisionMinor : (Field.B identity.revisionMinor).Fits
  status : (Field.H identity.status).Fits
  serialNumber : (Field.I identity.serialNumber).Fits
  state : (Field.B identity.state).Fits
  isAscii : IsAscii identity.productName
  length_productName : identity.productName.length ≤ 255

/-- The longest data that an assembly may have. -/
def maxAssemblyLength : ℕ := 65515

/-- What a configuration must satisfy, and what a server keeps. -/
structure InBounds (ip : String) (port : ℤ) (identity : EnipIdentity) (assemblies : Dict Bytes) : Prop where
  ip : IsDottedQuad ip
  port : 0 ≤ port ∧ port < 65536
  identity : identity.Fits
  assemblies : ∀ inst data, assemblies.lookup inst = some data → data.length ≤ maxAssemblyLength

/-! ## The identity -/

section Identity

variable {identity : EnipIdentity}

/-- The octets of the product name. -/
def EnipIdentity.nameOctets (identity : EnipIdentity) : Bytes :=
  identity.productName.toList.map fun c => UInt8.ofNat c.toNat

theorem EnipIdentity.Fits.length_nameOctets (hf : identity.Fits) : identity.nameOctets.length ≤ 255 := by
  unfold EnipIdentity.nameOctets
  rw [List.length_map, String.length_toList]
  exact hf.length_productName

theorem EnipIdentity.Fits.nameLength (hf : identity.Fits) : (Field.B identity.nameOctets.length).Fits := by
  have hlen := hf.length_nameOctets
  constructor <;> omega

theorem EnipIdentity.Fits.encodeAscii_productName (hf : identity.Fits) :
    encodeAscii identity.productName = .ok identity.nameOctets := encodeAscii_of_isAscii hf.isAscii

theorem structPack_singleton {o : ByteOrder} {f : Field} (h : f.Fits) : structPack o [f] = .ok (structRaw o [f]) :=
  structPack_of_fits (by simpa using h)

/-- The attributes of an identity that fits. -/
def EnipIdentity.table (identity : EnipIdentity) : List (ℕ × Bytes) :=
  [(identityAttrVendorId, structRaw .little [.H identity.vendorId]),
    (identityAttrDeviceType, structRaw .little [.H identity.deviceType]),
    (identityAttrProductCode, structRaw .little [.H identity.productCode]),
    (identityAttrRevision, structRaw .little [.B identity.revisionMajor, .B identity.revisionMinor]),
    (identityAttrStatus, structRaw .little [.H identity.status]),
    (identityAttrSerialNumber, structRaw .little [.I identity.serialNumber]),
    (identityAttrProductName, structRaw .little [.B identity.nameOctets.length] ++ identity.nameOctets),
    (identityAttrState, structRaw .little [.B identity.state])]

theorem packIdentityAttribute_eq (hf : identity.Fits) (attr : ℕ) :
    packIdentityAttribute identity attr =
      match identity.table.lookup attr with
      | some data => .ok data
      | none => .error .keyError := by
  have hrevision : ∀ f ∈ [Field.B identity.revisionMajor, .B identity.revisionMinor], f.Fits := by
    simp only [List.forall_mem_cons]
    exact ⟨hf.revisionMajor, hf.revisionMinor, nofun⟩
  unfold packIdentityAttribute
  rw [hf.encodeAscii_productName, ok_bind, structPack_singleton hf.vendorId, ok_bind,
    structPack_singleton hf.deviceType, ok_bind, structPack_singleton hf.productCode, ok_bind,
    structPack_of_fits hrevision, ok_bind, structPack_singleton hf.status, ok_bind,
    structPack_singleton hf.serialNumber, ok_bind, structPack_singleton hf.nameLength, ok_bind,
    structPack_singleton hf.state, ok_bind]
  rfl

/-- An attribute takes at most 256 octets. -/
theorem EnipIdentity.Fits.length_le_of_lookup (hf : identity.Fits) {attr : ℕ} {data : Bytes}
    (h : identity.table.lookup attr = some data) : data.length ≤ 256 := by
  have hname := hf.length_nameOctets
  refine forall_of_lookup (P := fun data => data.length ≤ 256) ?_ h
  unfold EnipIdentity.table
  simp only [List.forall_mem_cons, length_structRaw, List.length_append, List.map_cons, List.map_nil, List.sum_cons,
    List.sum_nil, Field.width, List.not_mem_nil, false_implies, implies_true, and_true]
  exact ⟨by omega, by omega, by omega, by omega, by omega, by omega, by omega, by omega⟩

/-- The data of an attribute of an identity that fits. -/
def EnipIdentity.attribute (identity : EnipIdentity) (attr : ℕ) : Bytes := (identity.table.lookup attr).getD []

theorem EnipIdentity.Fits.length_attribute (hf : identity.Fits) (attr : ℕ) :
    (identity.attribute attr).length ≤ 256 := by
  unfold EnipIdentity.attribute
  cases hlookup : identity.table.lookup attr with
  | none => exact Nat.zero_le 256
  | some data => exact hf.length_le_of_lookup hlookup

theorem lookup_table_of_mem (identity : EnipIdentity) {attr : ℕ} (h : attr ∈ List.range' 1 8) :
    ∃ data, identity.table.lookup attr = some data := by
  revert attr
  simp only [List.range', List.forall_mem_cons, List.not_mem_nil, false_implies, implies_true, and_true]
  exact ⟨⟨_, rfl⟩, ⟨_, rfl⟩, ⟨_, rfl⟩, ⟨_, rfl⟩, ⟨_, rfl⟩, ⟨_, rfl⟩, ⟨_, rfl⟩, ⟨_, rfl⟩⟩

theorem packIdentityAttribute_of_mem (hf : identity.Fits) {attr : ℕ} (h : attr ∈ List.range' 1 8) :
    packIdentityAttribute identity attr = .ok (identity.attribute attr) := by
  obtain ⟨data, hdata⟩ := lookup_table_of_mem identity h
  rw [packIdentityAttribute_eq hf, EnipIdentity.attribute, hdata]
  rfl

theorem mapM_of_ok {f : ℕ → Except PyError Bytes} {g : ℕ → Bytes} :
    ∀ {ks : List ℕ}, (∀ k ∈ ks, f k = .ok (g k)) → ks.mapM f = .ok (ks.map g)
  | [], _ => rfl
  | k :: ks, h => by
    rw [List.forall_mem_cons] at h
    rw [List.mapM_cons, h.1, ok_bind, mapM_of_ok h.2]
    rfl

theorem packIdentityAttributes_all (hf : identity.Fits) :
    packIdentityAttributes identity identityAttributesAll = .ok ((List.range' 1 7).flatMap identity.attribute) := by
  have hsub : identityAttributesAll ⊆ List.range' 1 8 := by decide
  unfold packIdentityAttributes
  rw [mapM_of_ok fun attr hmem => packIdentityAttribute_of_mem hf (hsub hmem)]
  rfl

theorem readsIdentity_of_fits (hf : identity.Fits) {outcome : Except PyError Bytes}
    (h : ReadsIdentity identity outcome) : ∃ data, outcome = .ok data ∧ data.length ≤ 1792 := by
  rcases h with rfl | ⟨attr, rfl, hne⟩
  · refine ⟨_, packIdentityAttributes_all hf, ?_⟩
    rw [List.length_flatMap]
    refine (List.sum_le_card_nsmul _ 256 fun length hmem => ?_).trans (by simp)
    obtain ⟨attr, -, rfl⟩ := List.mem_map.1 hmem
    exact hf.length_attribute attr
  · rw [packIdentityAttribute_eq hf] at hne ⊢
    cases hlookup : identity.table.lookup attr with
    | none =>
      rw [hlookup] at hne
      exact absurd rfl hne
    | some data => exact ⟨data, rfl, (hf.length_le_of_lookup hlookup).trans (by norm_num)⟩

/-- What the item of ListIdentity holds, for a packed address. -/
def identityItemData (address : Bytes) (port : ℤ) (identity : EnipIdentity) : Bytes :=
  structRaw .little [.H protocolVersion]
    ++ structRaw .big [.H afInet, .H port, .str 4 address, .str 8 (List.replicate 8 0)]
    ++ structRaw .little [.H identity.vendorId, .H identity.deviceType, .H identity.productCode,
      .B identity.revisionMajor, .B identity.revisionMinor, .H identity.status, .I identity.serialNumber]
    ++ structRaw .little [.B identity.nameOctets.length]
    ++ identity.nameOctets
    ++ structRaw .little [.B identity.state]

theorem length_identityItemData (address : Bytes) (port : ℤ) :
    (identityItemData address port identity).length = 34 + identity.nameOctets.length := by
  unfold identityItemData
  simp only [List.length_append, length_structRaw, List.map_cons, List.map_nil, List.sum_cons, List.sum_nil,
    Field.width]
  omega

/-- The payload of ListIdentity: the address is that of the loopback interface for a server on all of them. -/
theorem buildListIdentityPayload_eq {ip : String} {port : ℤ} (hip : IsDottedQuad ip) (hport : 0 ≤ port ∧ port < 65536)
    (hf : identity.Fits) :
    ∃ address, inetAton (if ip ≠ bindAllInterfaces then ip else loopbackAddress) = .ok address ∧ address.length = 4 ∧
      buildListIdentityPayload ip port identity = .ok
        (structRaw .little [.H 1] ++
          structRaw .little [.H listIdentityItem, .H (identityItemData address port identity).length] ++
          identityItemData address port identity) := by
  obtain ⟨address, haddress, hlen⟩ : ∃ address,
      inetAton (if ip ≠ bindAllInterfaces then ip else loopbackAddress) = .ok address ∧ address.length = 4 := by
    split_ifs
    · exact inetAton_of_isDottedQuad hip
    · exact ⟨[127, 0, 0, 1], by decide +kernel, rfl⟩
  have hname := hf.length_nameOctets
  have hsocket : ∀ f ∈ [Field.H afInet, .H port, .str 4 address, .str 8 (List.replicate 8 0)], f.Fits := by
    simp only [List.forall_mem_cons]
    exact ⟨by decide, ⟨hport.1, by omega⟩, trivial, trivial, nofun⟩
  have hfields : ∀ f ∈ [Field.H identity.vendorId, .H identity.deviceType, .H identity.productCode,
      .B identity.revisionMajor, .B identity.revisionMinor, .H identity.status, .I identity.serialNumber],
      f.Fits := by
    simp only [List.forall_mem_cons]
    exact ⟨hf.vendorId, hf.deviceType, hf.productCode, hf.revisionMajor, hf.revisionMinor, hf.status,
      hf.serialNumber, nofun⟩
  have hheader : ∀ f ∈ [Field.H listIdentityItem, .H (identityItemData address port identity).length], f.Fits := by
    rw [length_identityItemData]
    simp only [List.forall_mem_cons]
    exact ⟨by decide, ⟨by omega, by omega⟩, nofun⟩
  have hversion : (Field.H protocolVersion).Fits := by decide
  have hone : (Field.H 1).Fits := by decide
  refine ⟨address, haddress, hlen, ?_⟩
  unfold buildListIdentityPayload
  rw [hf.encodeAscii_productName, ok_bind]
  simp only [haddress, ok_bind, structPack_of_fits hsocket, structPack_singleton hversion,
    structPack_of_fits hfields, structPack_singleton hf.nameLength, structPack_singleton hf.state,
    structPack_singleton hone]
  unfold identityItemData at hheader ⊢
  rw [structPack_of_fits hheader]
  rfl

/-- The identity can be listed. -/
theorem exists_buildListIdentityPayload {ip : String} {port : ℤ} (hip : IsDottedQuad ip)
    (hport : 0 ≤ port ∧ port < 65536) (hf : identity.Fits) :
    ∃ payload, buildListIdentityPayload ip port identity = .ok payload ∧ payload.length < 256 ^ 2 := by
  obtain ⟨address, -, -, hbuild⟩ := buildListIdentityPayload_eq hip hport hf
  have hname := hf.length_nameOctets
  refine ⟨_, hbuild, ?_⟩
  rw [List.length_append, List.length_append, length_identityItemData, length_structRaw, length_structRaw]
  simp only [List.map_cons, List.map_nil, List.sum_cons, List.sum_nil, Field.width]
  omega

end Identity

/-! ## Requests -/

theorem exists_mem_of_foldl_pickData {items : List CpfItem} {cipRequest : Option Bytes} {data : Bytes}
    (h : items.foldl pickData cipRequest = some data) : cipRequest = some data ∨ ∃ item ∈ items, item.data = data := by
  induction items generalizing cipRequest with
  | nil => exact .inl h
  | cons item items ih =>
    rcases ih h with hpick | ⟨item', hmem, hdata⟩
    · unfold pickData at hpick
      split_ifs at hpick
      · exact .inr ⟨item, List.mem_cons_self, Option.some.inj hpick⟩
      · exact .inl hpick
    · exact .inr ⟨item', List.mem_cons_of_mem _ hmem, hdata⟩

/-- The header of the payload and that of the item take 12 octets. -/
theorem Carries.length_le {payload cipRequest : Bytes} {timeout : ℕ} (h : Carries payload timeout cipRequest) :
    cipRequest.length + 12 ≤ payload.length := by
  obtain ⟨items, rest, -, -, rfl, hpick⟩ := h
  rcases exists_mem_of_foldl_pickData hpick with h | ⟨item, hmem, rfl⟩
  · cases h
  have hitem : item.encode.length ≤ (items.flatMap CpfItem.encode).length := by
    obtain ⟨before, after, rfl⟩ := List.append_of_mem hmem
    simp only [List.flatMap_append, List.flatMap_cons, List.length_append]
    omega
  rw [item.length_encode] at hitem
  simp only [List.length_append, ByteOrder.length_encode]
  omega

/-- What a payload can write is no longer than an assembly may be. -/
theorem Writes.length_le {payload data : Bytes} {inst : ℕ} (h : Writes payload inst data)
    (hpayload : payload.length < 256 ^ 2) : data.length ≤ maxAssemblyLength := by
  obtain ⟨timeout, cipRequest, hcarries, words, path, rfl, -, hnames⟩ := h
  -- 12 octets in front of the request, 2 in front of the path and 6 of the path
  have hcarried := hcarries.length_le
  have hpath := hnames.length_le
  simp only [List.length_cons, List.length_append] at hcarried
  unfold maxAssemblyLength
  omega

theorem length_cipReply (service status : ℕ) (data : Bytes) : (cipReply service status data).length = 4 + data.length := by
  simp only [cipReply, List.length_cons]
  omega

variable {ip : String} {port : ℤ} {s : EnipServer}

/-- A response to a request that changes nothing has room in a reply. -/
theorem Unchanged.exists_ok (hs : InBounds s.ip s.port s.identity s.assemblies) {outcome : Except PyError Bytes}
    (h : Unchanged s outcome) : ∃ cipResponse, outcome = .ok cipResponse ∧ cipResponse.length ≤ 4 + maxAssemblyLength := by
  cases h with
  | @assembly service inst value hget hv =>
    refine ⟨_, rfl, ?_⟩
    rw [length_cipReply]
    exact Nat.add_le_add_left (hs.assemblies _ _ hv) 4
  | identity hget ho =>
    obtain ⟨data, rfl, hlen⟩ := readsIdentity_of_fits hs.identity ho
    refine ⟨_, rfl, ?_⟩
    rw [length_cipReply]
    unfold maxAssemblyLength
    omega
  | failure hlt hne =>
    refine ⟨_, rfl, ?_⟩
    rw [length_cipReply]
    exact Nat.add_le_add_left (Nat.zero_le _) 4

/-- A response is packed into a payload with a 16-bit length. -/
theorem exists_packRrData_of_le {timeout : ℕ} (htimeout : timeout < 256 ^ 2) {cipResponse : Bytes}
    (hlen : cipResponse.length ≤ 4 + maxAssemblyLength) :
    ∃ bytes, packRrData timeout cipResponse = .ok bytes ∧ bytes.length < 256 ^ 2 := by
  unfold maxAssemblyLength at hlen
  obtain ⟨bytes, hpack⟩ := exists_packRrData htimeout (show cipResponse.length < 256 ^ 2 by omega)
  refine ⟨bytes, hpack, ?_⟩
  rw [(packRrData_eq_ok hpack).1]
  omega

theorem QuietPayload.exists_ok (hs : InBounds s.ip s.port s.identity s.assemblies) {payload : Except PyError Bytes}
    (h : QuietPayload s payload) : ∃ bytes, payload = .ok bytes ∧ bytes.length < 256 ^ 2 := by
  rcases h with rfl | rfl | rfl | rfl
  · exact ⟨[], rfl, by simp⟩
  · exact ⟨_, rfl, by decide +kernel⟩
  · exact exists_buildListIdentityPayload hs.ip hs.port hs.identity
  · exact ⟨[0, 0], rfl, by simp⟩

/-! ## Frames -/

def EnipServer.InBounds (s : EnipServer) : Prop := Enip.InBounds s.ip s.port s.identity s.assemblies

/-- The lengths that a reply announces are those of what follows: the payload, and the CIP response of
a SendRRData that was executed. -/
structure Sized (command : ℕ) (reply : Bytes) : Prop where
  length_eq : reply.length = 24 + encapLength reply
  item : command = commandSendRrData → encapStatus reply = encapStatusSuccess →
    reply.length = 40 + uintAt .little 2 reply 38

/-- A call of `handle_frame` returns, and what it returns is sized. -/
def Returns (command : ℕ) (o : Outcome) : Prop :=
  ∃ response, o = .ok response ∧ ∀ reply ∈ response, Sized command reply

theorem returns_build {f : WireFrame} {sessionHandle status : ℕ} {payload : Bytes}
    (hhandle : sessionHandle < 256 ^ 4) (hstatus : status < 256 ^ 4) (hpayload : payload.length < 256 ^ 2)
    (hitem : f.command = commandSendRrData → status = encapStatusSuccess →
      payload.length = 16 + uintAt .little 2 payload 14) :
    Returns f.command ((buildEncapsulationResponse f.command sessionHandle f.senderContext payload status).map some) := by
  obtain ⟨reply, hbuild⟩ := exists_buildEncapsulationResponse f.senderContext f.command_lt hhandle hstatus hpayload
  have hr := isReply_of_build hbuild
  rw [hbuild]
  refine ⟨some reply, rfl, ?_⟩
  rintro _ ⟨⟩
  refine ⟨by rw [hr.size_eq, hr.length_eq], ?_⟩
  intro hcommand hsuccess
  have hsize := hitem hcommand (hr.status_eq.symm.trans hsuccess)
  have hread : uintAt .little 2 payload 14 = uintAt .little 2 reply 38 := by
    rw [← hr.payload_eq]
    exact uintAt_drop ..
  have := hr.size_eq
  omega

/-- A response that fits its item is sent in a reply that fits its header. -/
theorem returns_carryReply (f : WireFrame) {timeout : ℕ} {cipResponse : Bytes} (htimeout : timeout < 256 ^ 2)
    (hlen : cipResponse.length ≤ 4 + maxAssemblyLength) :
    Returns f.command (carryReply f.toEncapsulationFrame timeout cipResponse) := by
  obtain ⟨payload, hpack, hpayload⟩ := exists_packRrData_of_le htimeout hlen
  obtain ⟨hsize, -, hitem⟩ := packRrData_eq_ok hpack
  unfold carryReply
  rw [hpack]
  exact returns_build f.sessionHandle_lt (by simp) hpayload fun _ _ => by rw [hsize, hitem]

theorem EnipServer.InBounds.setAssemblyData (hs : s.InBounds) {inst : ℤ} {data : Bytes}
    (hdata : data.length ≤ maxAssemblyLength) : (setAssemblyData inst data s).InBounds := by
  refine ⟨hs.ip, hs.port, hs.identity, fun inst' data' hlookup => ?_⟩
  unfold Enip.setAssemblyData at hlookup
  by_cases hinst : inst' = inst
  · subst hinst
    rw [Finmap.lookup_insert] at hlookup
    cases hlookup
    exact hdata
  · rw [Finmap.lookup_insert_of_ne _ hinst] at hlookup
    exact hs.assemblies inst' data' hlookup

/-- No call of `handle_frame` raises as long as handles fit their field, and the assemblies stay in
bounds. -/
theorem handleFrame_in_bounds (f : WireFrame) {s : Scope} (hs : s.server.InBounds)
    (hnext : f.Registers → s.server.nextSessionHandle < 256 ^ 4) :
    Returns f.command (handleFrame f.toEncapsulationFrame s).1 ∧
      (handleFrame f.toEncapsulationFrame s).2.server.InBounds ∧
      (handleFrame f.toEncapsulationFrame s).2.server.nextSessionHandle =
        s.server.nextSessionHandle + if f.Registers then 1 else 0 := by
  have hcases := handleFrame_cases f.toEncapsulationFrame s
  generalize handleFrame f.toEncapsulationFrame s = result at hcases ⊢
  cases hcases with
  | registered hr =>
    rw [if_pos hr]
    refine ⟨returns_build (hnext hr) (by simp) f.length_payload_lt fun hcommand => ?_, hs, rfl⟩
    exact absurd (hr.2.1.symm.trans hcommand) (by simp)
  | unregistered hu =>
    rw [if_neg fun hr => hr.not_unregisters hu]
    exact ⟨⟨none, rfl, nofun⟩, hs, rfl⟩
  | written hsend _ hwrites _ htimeout =>
    rw [if_neg fun hr => hr.not_sendsRrData hsend]
    refine ⟨returns_carryReply f htimeout ?_, hs.setAssemblyData (hwrites.length_le f.length_payload_lt), rfl⟩
    rw [length_cipReply]
    exact Nat.add_le_add_left (Nat.zero_le _) 4
  | answered hsend _ hunchanged htimeout =>
    rw [if_neg fun hr => hr.not_sendsRrData hsend]
    obtain ⟨cipResponse, rfl, hlen⟩ := hunchanged.exists_ok hs
    exact ⟨returns_carryReply f htimeout hlen, hs, rfl⟩
  | failed hfails =>
    rw [if_neg hfails.not_registers]
    refine ⟨returns_build f.sessionHandle_lt hfails.status_lt (by simp) fun _ hsuccess => ?_, hs, rfl⟩
    exact absurd hsuccess hfails.status_ne
  | quiet hr _ hcommand hhandle hstatus hquiet =>
    rw [if_neg hr]
    obtain ⟨payload, rfl, hlen⟩ := hquiet.exists_ok hs
    refine ⟨returns_build (lt_of_le_of_lt hhandle f.sessionHandle_lt) (by omega) hlen fun hsend => ?_, hs, rfl⟩
    exact absurd hsend hcommand

/-! ## Runs -/

variable {κ : Type}

/-- The event is a RegisterSession that issues a session. -/
def isRegistration : Event κ → Bool
  | .frame _ frame => decide frame.Registers
  | _ => false

/-- How many sessions the events issue. -/
def registrations (es : List (Event κ)) : ℕ := es.countP isRegistration

/-- What `set_assembly_data` is given is no longer than an assembly may be. -/
def Event.InBounds : Event κ → Prop
  | .setAssemblyData _ data => data.length ≤ maxAssemblyLength
  | _ => True

/-- The event did not raise, and the reply to a frame is sized. -/
def Completes : Event κ × Outcome → Prop
  | (.frame _ frame, o) => Returns frame.command o
  | (_, o) => ∃ response, o = .ok response

variable [DecidableEq κ]

theorem step_in_bounds {e : Event κ} (he : e.InBounds) {s : System κ} (hs : s.server.InBounds)
    (hnext : isRegistration e = true → s.server.nextSessionHandle < 256 ^ 4) :
    Completes (e, (step e s).1) ∧ (step e s).2.server.InBounds ∧
      (step e s).2.server.nextSessionHandle =
        s.server.nextSessionHandle + if isRegistration e = true then 1 else 0 := by
  cases e with
  | frame c frame =>
    obtain ⟨hreturns, hbounds, hcount⟩ := handleFrame_in_bounds frame (s := ⟨s.server, s.connections c⟩) hs
      fun hr => hnext (decide_eq_true hr)
    obtain ⟨response, hresponse, hsized⟩ := hreturns
    rw [step_of_ok (Prod.ext hresponse rfl)]
    refine ⟨⟨response, rfl, hsized⟩, hbounds, hcount.trans ?_⟩
    simp only [isRegistration, decide_eq_true_eq]
  | close c =>
    refine ⟨⟨none, rfl⟩, ?_, ?_⟩
    · simp only [step, releaseSessions_eq]
      exact hs
    · simp only [step, releaseSessions_eq]
      rfl
  | setAssemblyData inst data => exact ⟨⟨none, rfl⟩, hs.setAssemblyData he, rfl⟩

theorem run_in_bounds :
    ∀ {es : List (Event κ)} {s : System κ}, (∀ e ∈ es, e.InBounds) → s.server.InBounds →
      s.server.nextSessionHandle + registrations es ≤ 256 ^ 4 →
      (∀ x ∈ trace step es s, Completes x) ∧ (final step es s).server.InBounds
  | [], s, _, hs, _ => ⟨nofun, hs⟩
  | e :: es, s, he, hs, hcount => by
    rw [List.forall_mem_cons] at he
    have hcons : registrations (e :: es) = registrations es + if isRegistration e = true then 1 else 0 :=
      List.countP_cons
    obtain ⟨hcompletes, hbounds, hnext⟩ := step_in_bounds he.1 hs fun hr => by
      rw [hcons, if_pos hr] at hcount
      omega
    obtain ⟨htrace, hfinal⟩ := run_in_bounds he.2 hbounds (by omega)
    rw [trace_cons, List.forall_mem_cons]
    exact ⟨⟨hcompletes, htrace⟩, hfinal⟩

/-- In bounds, no call of `handle_frame` raises as long as at most `2 ^ 32 - 1` sessions have been
issued: every reply has the length that its header announces, every CIP response the length of its
item, and no assembly grows beyond what a reply can carry. -/
theorem frames_in_bounds {ip : String} {port : ℤ} {config : EnipServerConfig}
    (hconfig : InBounds ip port config.identity config.assemblies) (es : List (Event κ))
    (hes : ∀ e ∈ es, e.InBounds) (hregistrations : registrations es ≤ 2 ^ 32 - 1) :
    (∀ x ∈ trace step es (.init ip port config), ∃ response, x.2 = .ok response) ∧
    (∀ inst data, (final step es (.init ip port config)).server.assemblies.lookup inst = some data →
      data.length ≤ 65515) ∧
    (∀ (c : κ) (frame : WireFrame) (reply : Bytes),
      (.frame c frame, .ok (some reply)) ∈ trace step es (.init ip port config) →
        reply.length = 24 + encapLength reply ∧ encapLength reply ≤ 65535 ∧
        (frame.command = commandSendRrData → encapStatus reply = encapStatusSuccess →
          reply.length = 40 + uintAt .little 2 reply 38 ∧ uintAt .little 2 reply 38 ≤ 65535)) := by
  have hinit : (System.init ip port config : System κ).server.nextSessionHandle = 1 := rfl
  obtain ⟨htrace, hfinal⟩ := run_in_bounds (s := .init ip port config) hes hconfig (by omega)
  refine ⟨?_, hfinal.assemblies, ?_⟩
  · rintro ⟨e, o⟩ hx
    have hcompletes := htrace _ hx
    cases e with
    | frame c frame =>
      obtain ⟨response, hresponse, -⟩ := hcompletes
      exact ⟨response, hresponse⟩
    | close c => exact hcompletes
    | setAssemblyData inst data => exact hcompletes
  · intro c frame reply hx
    obtain ⟨response, hresponse, hsized⟩ := htrace _ hx
    cases hresponse
    obtain ⟨hlen, hitem⟩ := hsized reply rfl
    refine ⟨hlen, ?_, fun hcommand hstatus => ⟨hitem hcommand hstatus, ?_⟩⟩
    · exact Nat.le_of_lt_succ (uintAt_lt .little 2 reply 2)
    · exact Nat.le_of_lt_succ (uintAt_lt .little 2 reply 38)

/-- The default configuration is in bounds. -/
theorem inBounds_default : InBounds "127.0.0.1" 44818 ({} : EnipServerConfig).identity ({} : EnipServerConfig).assemblies where
  ip := by
    have hone : IsOctet ['1'] 1 := ⟨by simp, .inr ⟨_, _, rfl, by simp⟩, rfl, by simp⟩
    have hzero : IsOctet ['0'] 0 := ⟨by simp, .inl rfl, rfl, by simp⟩
    have hloop : IsOctet ['1', '2', '7'] 127 := ⟨by simp, .inr ⟨_, _, rfl, by simp⟩, rfl, by simp⟩
    exact ⟨_, _, _, _, _, _, _, _, hloop, hzero, hzero, hone, by decide +kernel⟩
  port := by simp
  identity := by constructor <;> decide +kernel
  assemblies := by
    intro inst data hlookup
    have hdata : data = List.replicate 32 0 := by
      by_cases h100 : inst = 100
      · subst h100
        exact (Option.some.inj ((Finmap.lookup_insert _).symm.trans hlookup)).symm
      have h101 := (Finmap.lookup_insert_of_ne _ h100).symm.trans hlookup
      by_cases hinst : inst = 101
      · subst hinst
        exact (Option.some.inj ((Finmap.lookup_insert _).symm.trans h101)).symm
      have h150 := (Finmap.lookup_insert_of_ne _ hinst).symm.trans h101
      cases (Finmap.mem_singleton _ _ _).1 (Finmap.mem_of_lookup_eq_some h150)
      exact (Option.some.inj (Finmap.lookup_singleton_eq.symm.trans h150)).symm
    rw [hdata]
    decide

/-- What a session is sent that reads back the one octet it has written. -/
def readReply : Bytes :=
  [0x6F, 0, 21, 0, 1, 0, 0, 0, 0, 0, 0, 0, 0, 0, 0, 0, 0, 0, 0, 0, 0, 0, 0, 0, 0, 0, 0, 0, 0, 0, 2, 0, 0, 0, 0, 0, 0xB2,
    0, 5, 0, 0x8E, 0, 0, 0, 0x11]

/-- A connection registers a session and writes an assembly, and another one reads it in that session. -/
def writeAndRead : List (Event Bool) :=
  [.frame true registerFrame, .frame true setAttributeFrame, .frame false getAttributeFrame]

theorem frames_in_bounds_writeAndRead :
    (∀ x ∈ trace step writeAndRead (.init "127.0.0.1" 44818 {}), ∃ response, x.2 = .ok response) ∧
      readReply.length = 24 + encapLength readReply ∧ readReply.length = 40 + uintAt .little 2 readReply 38 := by
  obtain ⟨hreturns, -, hreplies⟩ :=
    frames_in_bounds inBounds_default writeAndRead (by simp [writeAndRead, Event.InBounds]) (by decide)
  have hread : (step (.frame false getAttributeFrame) (final step (writeAndRead.take 2)
      (.init "127.0.0.1" 44818 {}))).1 = .ok (some readReply) := by decide +kernel
  have hmem : (.frame false getAttributeFrame, .ok (some readReply)) ∈
      trace step writeAndRead (.init "127.0.0.1" 44818 {}) := by
    rw [← hread]
    exact List.mem_cons_of_mem _ (List.mem_cons_of_mem _ (List.mem_singleton_self _))
  obtain ⟨hlength, -, hitem⟩ := hreplies false getAttributeFrame readReply hmem
  exact ⟨hreturns, hlength, (hitem (by decide) (by decide)).1⟩

end Cursus.Enip
