/-
The two orders of the address fields of an NPDU. `_handle_npdu` of `cursus/bacnet/server.py` has the hop count in
front of the source specifier, BACnet has it behind. An NPDU in BACnet order has only one APDU, and it is the one
that the server finds whenever the server reads the source length in the right place.
-/
import Cursus.Bacnet.Transparency

namespace Cursus.Bacnet

open Cursus.Python

/-! ## Address fields in the order of the server -/

/-- The control octet announces exactly the specifiers that are there. -/
structure Announced (control : UInt8) (destination : Option Destination) (source : Option NetworkAddress) : Prop where
  destination : control.toNat &&& 0x20 ≠ 0 ↔ destination.isSome
  source : control.toNat &&& 0x08 ≠ 0 ↔ source.isSome

/-- The fields that `_handle_npdu` skips: the destination with the hop count, the source, and an octet for
bit 0x80 of the control octet. -/
def skippedFields (destination : Option Destination) (source : Option NetworkAddress) (message : Bytes) : Bytes :=
  (destination.elim [] fun d => d.encode ++ [d.hopCount]) ++ ((source.elim [] fun a => a.encode) ++ message)

/-- The NPDU as the server takes it apart. -/
def skippedNpdu (control : UInt8) (destination : Option Destination) (source : Option NetworkAddress)
    (message apdu : Bytes) : Bytes :=
  0x01 :: control :: (skippedFields destination source message ++ apdu)

theorem exists_networkAddress {mask trailer control : ℕ} {e : Bytes} (h : Specifier mask trailer control e) :
    (control &&& mask = 0 ∧ e = []) ∨
      control &&& mask ≠ 0 ∧ ∃ (a : NetworkAddress) (tail : Bytes), tail.length = trailer ∧ e = a.encode ++ tail := by
  cases h with
  | absent h => exact .inl ⟨h, rfl⟩
  | @present net address tail length h hnet haddress htail =>
    obtain ⟨n, m, rfl⟩ := List.length_eq_two.1 hnet
    have hle : address.length ≤ 255 := by
      have := length.toNat_lt
      omega
    refine .inr ⟨h, ⟨n, m, address, hle⟩, tail, htail, ?_⟩
    have hlength : length = NetworkAddress.lengthOctet ⟨n, m, address, hle⟩ := by
      rw [← UInt8.toNat_inj, NetworkAddress.toNat_lengthOctet, haddress]
    rw [hlength]
    rfl

theorem addressFields_skippedFields {control : UInt8} {destination : Option Destination}
    {source : Option NetworkAddress} {message : Bytes} (h : Announced control destination source)
    (hmessage : message.length = if control.toNat &&& 0x80 ≠ 0 then 1 else 0) :
    AddressFields control.toNat (skippedFields destination source message) := by
  refine .mk ?_ ?_ hmessage
  · cases destination with
    | none => exact .absent (by simpa using h.destination)
    | some d => exact specifier_encode (h.destination.2 rfl) d.toNetworkAddress [d.hopCount]
  · cases source with
    | none => exact .absent (by simpa using h.source)
    | some a => simpa using specifier_encode (h.source.2 rfl) a []

theorem exists_skippedFields {control : UInt8} {fields : Bytes} (h : AddressFields control.toNat fields) :
    ∃ destination source message, Announced control destination source ∧
      message.length = (if control.toNat &&& 0x80 ≠ 0 then 1 else 0) ∧
      fields = skippedFields destination source message := by
  obtain ⟨hdestination, hsource, hmessage⟩ := h
  rename_i destination source message
  obtain ⟨destination, hd, rfl⟩ : ∃ d : Option Destination, (control.toNat &&& 0x20 ≠ 0 ↔ d.isSome) ∧
      destination = d.elim [] fun d => d.encode ++ [d.hopCount] := by
    rcases exists_networkAddress hdestination with ⟨hc, rfl⟩ | ⟨hc, a, tail, htail, rfl⟩
    · exact ⟨none, by simp [hc], rfl⟩
    · obtain ⟨hop, rfl⟩ := List.length_eq_one_iff.1 htail
      exact ⟨some ⟨a, hop⟩, by simp [hc], rfl⟩
  obtain ⟨source, hs, rfl⟩ : ∃ a : Option NetworkAddress, (control.toNat &&& 0x08 ≠ 0 ↔ a.isSome) ∧
      source = a.elim [] fun a => a.encode := by
    rcases exists_networkAddress hsource with ⟨hc, rfl⟩ | ⟨hc, a, tail, htail, rfl⟩
    · exact ⟨none, by simp [hc], rfl⟩
    · obtain rfl := List.length_eq_zero_iff.1 htail
      exact ⟨some a, by simp [hc], by simp⟩
  exact ⟨destination, source, message, ⟨hd, hs⟩, hmessage, rfl⟩

/-! ## Address fields in BACnet order -/

theorem NetworkAddress.encode_append_inj {a a' : NetworkAddress} {bs bs' : Bytes}
    (h : a.encode ++ bs = a'.encode ++ bs') : a = a' ∧ bs = bs' := by
  simp only [NetworkAddress.encode, List.cons_append, List.cons.injEq] at h
  obtain ⟨hhi, hlo, hlength, happend⟩ := h
  have hlen : a.address.length = a'.address.length := by
    rw [← a.toNat_lengthOctet, ← a'.toNat_lengthOctet, hlength]
  obtain ⟨haddress, hbs⟩ := List.append_inj happend hlen
  cases a
  cases a'
  simp only [NetworkAddress.mk.injEq]
  exact ⟨⟨hhi, hlo, haddress⟩, hbs⟩

theorem specifier_append_inj {a a' : Option NetworkAddress} {bs bs' : Bytes} (hsome : a.isSome = a'.isSome)
    (h : (a.elim [] fun a => a.encode) ++ bs = (a'.elim [] fun a => a.encode) ++ bs') : a = a' ∧ bs = bs' := by
  rcases a with _ | a <;> rcases a' with _ | a' <;> try cases hsome
  · exact ⟨rfl, h⟩
  · obtain ⟨rfl, hbs⟩ := NetworkAddress.encode_append_inj h
    exact ⟨rfl, hbs⟩

/-- An NPDU in BACnet order has one control octet, one destination, one source and one APDU. -/
theorem encodeNpdu_inj {flags flags' : UInt8} {destination destination' : Option Destination}
    {source source' : Option NetworkAddress} {apdu apdu' : Bytes}
    (h : encodeNpdu flags destination source apdu = encodeNpdu flags' destination' source' apdu') :
    controlOctet flags destination.isSome source.isSome = controlOctet flags' destination'.isSome source'.isSome ∧
      destination = destination' ∧ source = source' ∧ apdu = apdu' := by
  simp only [encodeNpdu, List.cons.injEq, true_and] at h
  obtain ⟨hcontrol, h⟩ := h
  obtain ⟨hd, hs, -⟩ := controlOctet_and flags destination.isSome source.isSome
  obtain ⟨hd', hs', -⟩ := controlOctet_and flags' destination'.isSome source'.isSome
  rw [hcontrol] at hd hs
  have hdestination : destination.isSome = destination'.isSome := by
    have hite := hd.symm.trans hd'
    revert hite
    cases destination.isSome <;> cases destination'.isSome <;> decide
  have hsource : source.isSome = source'.isSome := by
    have hite := hs.symm.trans hs'
    revert hite
    cases source.isSome <;> cases source'.isSome <;> decide
  refine ⟨hcontrol, ?_⟩
  rcases destination with _ | d <;> rcases destination' with _ | d' <;> try cases hdestination
  · obtain ⟨rfl, happ⟩ := specifier_append_inj hsource h
    exact ⟨rfl, rfl, happ⟩
  · obtain ⟨haddress, hrest⟩ := NetworkAddress.encode_append_inj h
    obtain ⟨rfl, hhop⟩ := specifier_append_inj hsource hrest
    simp only [Option.elim_some, List.cons_append, List.nil_append, List.cons.injEq] at hhop
    cases d
    cases d'
    simp only [Option.some.injEq, Destination.mk.injEq]
    exact ⟨⟨haddress, hhop.1⟩, trivial, hhop.2⟩

theorem controlOctet_self {control : UInt8} {hasDestination hasSource : Bool} (h : control.toNat &&& 0x80 = 0)
    (hd : control.toNat &&& 0x20 ≠ 0 ↔ hasDestination) (hs : control.toNat &&& 0x08 ≠ 0 ↔ hasSource) :
    controlOctet control hasDestination hasSource = control := by
  have hall : ∀ n : Fin 256, ∀ d s : Bool, n.val &&& 0x80 = 0 → (n.val &&& 0x20 ≠ 0 ↔ d) → (n.val &&& 0x08 ≠ 0 ↔ s) →
      controlOctet (UInt8.ofNat n.val) d s = UInt8.ofNat n.val := by decide +kernel
  have hcontrol := hall ⟨control.toNat, control.toNat_lt⟩ hasDestination hasSource h hd hs
  rwa [UInt8.ofNat_toNat] at hcontrol

/-- When the source length that the server reads is the octet in front of it as well, the NPDU has the same APDU in
BACnet order. -/
theorem exists_encodeNpdu {control : UInt8} {destination : Option Destination} {source : Option NetworkAddress}
    (h : Announced control destination source) (hcontrol : control.toNat &&& 0x80 = 0)
    (hlength : ∀ d ∈ destination, ∀ a ∈ source, a.networkLo = a.lengthOctet) :
    ∃ (destination' : Option Destination) (source' : Option NetworkAddress),
      controlOctet control destination'.isSome source'.isSome = control ∧
        ∀ apdu, skippedNpdu control destination source [] apdu = encodeNpdu control destination' source' apdu := by
  rcases destination with _ | d
  · have hself := controlOctet_self hcontrol h.destination h.source
    exact ⟨none, source, hself, fun apdu => by simpa [skippedNpdu, skippedFields, encodeNpdu] using hself.symm⟩
  rcases source with _ | a
  · have hself := controlOctet_self hcontrol h.destination h.source
    exact ⟨some d, none, hself, fun apdu => by simpa [skippedNpdu, skippedFields, encodeNpdu] using hself.symm⟩
  -- the source that the server reads begins one octet late, and ends with the hop count
  obtain ⟨address, hop, hshift⟩ : ∃ address hop, a.lengthOctet :: a.address = address ++ [hop] :=
    ⟨_, _, (List.dropLast_append_getLast (List.cons_ne_nil _ _)).symm⟩
  have hsame : address.length = a.address.length := by
    have := congrArg List.length hshift
    simpa using this.symm
  have hself := @controlOctet_self control true true hcontrol h.destination h.source
  refine ⟨some ⟨d.toNetworkAddress, hop⟩, some ⟨d.hopCount, a.networkHi, address, hsame ▸ a.length_le⟩, hself, ?_⟩
  intro apdu
  have hoctet : NetworkAddress.lengthOctet ⟨d.hopCount, a.networkHi, address, hsame ▸ a.length_le⟩ = a.networkLo := by
    rw [hlength d rfl a rfl, ← UInt8.toNat_inj, NetworkAddress.toNat_lengthOctet, NetworkAddress.toNat_lengthOctet, hsame]
  have hencode : a.encode = a.networkHi :: a.networkLo :: (address ++ [hop]) := by rw [NetworkAddress.encode, hshift]
  simp only [skippedNpdu, skippedFields, encodeNpdu, Option.elim_some, Option.isSome_some, hself, hencode]
  simp [NetworkAddress.encode, hoctet]

end Cursus.Bacnet
