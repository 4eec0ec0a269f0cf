/-
The address fields of an NPDU. In BACnet the hop count stands behind both specifiers, but
`_handle_npdu` of `cursus/bacnet/server.py` skips it with the destination: with both specifiers it
takes the source length one octet too late, and finds the APDU only when that octet happens to have
the same value.
-/
import Cursus.Bacnet.RoundTrip

namespace Cursus.Bacnet

open Cursus.Python

/-! ## NPDUs in BACnet order -/

/-- A network number and an address whose length fits an octet. -/
structure NetworkAddress where
  networkHi : UInt8
  networkLo : UInt8
  address : Bytes
  length_le : address.length ≤ 255

namespace NetworkAddress

def lengthOctet (a : NetworkAddress) : UInt8 := UInt8.ofNat a.address.length

def encode (a : NetworkAddress) : Bytes := a.networkHi :: a.networkLo :: a.lengthOctet :: a.address

@[simp] theorem toNat_lengthOctet (a : NetworkAddress) : a.lengthOctet.toNat = a.address.length := by
  have := a.length_le
  unfold lengthOctet
  rw [UInt8.toNat_ofNat']
  omega

end NetworkAddress

/-- A destination specifier with its hop count. -/
structure Destination extends NetworkAddress where
  hopCount : UInt8

/-- The control octet: the given flags without the bits that announce specifiers or a network layer
message, and a bit for each specifier. -/
def controlOctet (flags : UInt8) (hasDestination hasSource : Bool) : UInt8 :=
  flags &&& 0x57 ||| (if hasDestination then 0x20 else 0) ||| (if hasSource then 0x08 else 0)

/-- The NPDU in BACnet order: destination, source, hop count, APDU. -/
def encodeNpdu (flags : UInt8) (destination : Option Destination) (source : Option NetworkAddress) (apdu : Bytes) :
    Bytes :=
  0x01 :: controlOctet flags destination.isSome source.isSome ::
    ((destination.elim [] fun d => d.encode) ++ ((source.elim [] fun a => a.encode) ++
      ((destination.elim [] fun d => [d.hopCount]) ++ apdu)))

theorem controlOctet_and (flags : UInt8) (hasDestination hasSource : Bool) :
    (controlOctet flags hasDestination hasSource).toNat &&& 0x20 = (if hasDestination then 0x20 else 0) ∧
      (controlOctet flags hasDestination hasSource).toNat &&& 0x08 = (if hasSource then 0x08 else 0) ∧
      (controlOctet flags hasDestination hasSource).toNat &&& 0x80 = 0 := by
  have h : ∀ m : ℕ, 0x57 &&& m = 0 → flags.toNat &&& 0x57 &&& m = 0 := fun m hm => by
    rw [Nat.and_assoc, hm, Nat.and_zero]
  simp only [controlOctet, UInt8.toNat_or, UInt8.toNat_and, Nat.and_or_distrib_right]
  refine ⟨?_, ?_, ?_⟩ <;> rw [show (0x57 : UInt8).toNat = 0x57 by rfl, h _ (by simp)] <;>
    cases hasDestination <;> cases hasSource <;> rfl

/-- The APDU is handled as if it came without specifiers. -/
def Transparent (flags : UInt8) (destination : Option Destination) (source : Option NetworkAddress) : Prop :=
  ∀ apdu s, handleNpdu (encodeNpdu flags destination source apdu) s = handleNpdu (0x01 :: 0x00 :: apdu) s

/-! ## At most one specifier -/

theorem specifier_encode {mask control : ℕ} (h : control &&& mask ≠ 0) (a : NetworkAddress) (tail : Bytes) :
    Specifier mask tail.length control (a.encode ++ tail) :=
  @Specifier.present mask tail.length control [a.networkHi, a.networkLo] a.address tail a.lengthOctet h rfl
    a.toNat_lengthOctet.symm rfl

theorem npduCarries_encodeNpdu {destination : Option Destination} {source : Option NetworkAddress}
    (h : destination = none ∨ source = none) (flags : UInt8) (apdu : Bytes) :
    NpduCarries apdu (encodeNpdu flags destination source apdu) := by
  obtain ⟨hd, hs, hm⟩ := controlOctet_and flags destination.isSome source.isSome
  have hmessage : ([] : Bytes).length =
      if (controlOctet flags destination.isSome source.isSome).toNat &&& 0x80 ≠ 0 then 1 else 0 := by
    rw [hm]
    rfl
  cases destination with
  | none =>
    cases source with
    | none => exact .mk (.mk (.absent hd) (.absent hs) hmessage)
    | some a =>
      have hsource := specifier_encode (by rw [hs]; simp) a []
      simpa [encodeNpdu] using @NpduCarries.mk apdu _ _ (.mk (.absent hd) hsource hmessage)
  | some d =>
    obtain rfl : source = none := h.resolve_left nofun
    have hdestination := specifier_encode (by rw [hd]; simp) d.toNetworkAddress [d.hopCount]
    simpa [encodeNpdu] using @NpduCarries.mk apdu _ _ (.mk hdestination (.absent hs) hmessage)

/-! ## Both specifiers -/

section Both

variable (flags : UInt8) (d : Destination) (a : NetworkAddress) (apdu : Bytes) {x : UInt8} {rest : Bytes}

/-- With both specifiers the octet behind the source length is taken for it. -/
theorem npduCarries_both (hx : a.address ++ [d.hopCount] = x :: rest) (hlen : x.toNat ≤ (rest ++ apdu).length) :
    NpduCarries ((rest ++ apdu).drop x.toNat) (encodeNpdu flags (some d) (some a) apdu) := by
  obtain ⟨hd, hs, hm⟩ := controlOctet_and flags true true
  -- the first octet of the source network goes with the destination, as its hop count
  have hdestination := specifier_encode (by rw [hd]; decide) d.toNetworkAddress [a.networkHi]
  have hsource := @Specifier.present 0x08 0 (controlOctet flags true true).toNat [a.networkLo, a.lengthOctet]
    ((rest ++ apdu).take x.toNat) [] x (by rw [hs]; decide) rfl (by rw [List.length_take]; omega) rfl
  have hmessage : ([] : Bytes).length = if (controlOctet flags true true).toNat &&& 0x80 ≠ 0 then 1 else 0 := by
    rw [hm]
    rfl
  have h := @NpduCarries.mk ((rest ++ apdu).drop x.toNat) _ _ (.mk hdestination hsource hmessage)
  have heq : a.address ++ d.hopCount :: apdu = x :: (rest ++ apdu) := by
    rw [← List.cons_append, ← hx]
    simp
  simpa [encodeNpdu, NetworkAddress.encode, heq] using h

/-- The APDU that is handled, when there is one. -/
theorem eq_of_npduCarries_both (hx : a.address ++ [d.hopCount] = x :: rest) {apdu' : Bytes}
    (h : NpduCarries apdu' (encodeNpdu flags (some d) (some a) apdu)) :
    x.toNat ≤ (rest ++ apdu).length ∧ apdu' = (rest ++ apdu).drop x.toNat := by
  -- behind enough further octets the NPDU surely carries one
  have hlong := npduCarries_both flags d a (apdu ++ List.replicate x.toNat 0) hx (by simp; omega)
  have happend : encodeNpdu flags (some d) (some a) (apdu ++ List.replicate x.toNat 0) =
      encodeNpdu flags (some d) (some a) apdu ++ List.replicate x.toNat 0 := by
    simp [encodeNpdu]
  rw [happend] at hlong
  have hunique := (h.append _).unique hlong
  have hlen := congrArg List.length hunique
  simp only [List.length_append, List.length_replicate, List.length_drop] at hlen
  have hle : x.toNat ≤ (rest ++ apdu).length := by
    rw [List.length_append]
    omega
  refine ⟨hle, ?_⟩
  rw [← List.append_assoc, List.drop_append_of_le_length hle] at hunique
  exact List.append_cancel_right hunique

end Both

/-! ## What the wrong APDU shows -/

/-- A short APDU is dropped. -/
theorem handleApdu_of_length_lt {apdu : Bytes} (h : apdu.length < 2) (s : BacnetServer) :
    handleApdu apdu s = (.ok none, s) := by
  match apdu with
  | [] | [_] => rfl

/-- A ComplexACK repeats the third octet of the request. -/
theorem invokeId_of_complexAck {apdu reply : Bytes} {s : BacnetServer}
    (h : (handleApdu apdu s).1 = .ok (some reply)) (hack : reply[0]? = some 0x30) : reply[1]? = apdu[2]? := by
  by_cases hr : ∃ request, ApduRequests request apdu
  swap
  · rw [handleApdu_of_not_requests (not_exists.1 hr)] at h
    cases h
  obtain ⟨request, hr⟩ := hr
  rw [handleApdu_of_requests hr] at h
  cases hr with
  | whoIs =>
    obtain ⟨-, -, -, -⟩ := answerWhoIs_eq_some h
    cases hack
  | readProperty =>
    rw [serve_readProperty] at h
    obtain ⟨-, rest, rfl⟩ := answerReadProperty_eq_some h
    rfl
  | writeProperty =>
    rename_i t m invokeId parameters ht
    rw [serve_writeProperty] at h
    by_cases hw : ∃ n b, WritesPresentValue n b parameters
    · obtain ⟨n, b, hw⟩ := hw
      rw [handleWriteProperty_of_writes hw] at h
      split_ifs at h
      · cases h
        cases hack
      · cases h
    · simp only [not_exists] at hw
      rw [handleWriteProperty_of_not_writes hw] at h
      exact (map_none_ne_some h).elim

theorem handleNpdu_bare (apdu : Bytes) (s : BacnetServer) :
    handleNpdu (0x01 :: 0x00 :: apdu) s = (encapsulateNpdu (handleApdu apdu s).1, (handleApdu apdu s).2) :=
  handleNpdu_of_carries (npduCarries_bare apdu) s

theorem encapsulateNpdu_eq_some {r : Except PyError (Option Bytes)} {reply : Bytes}
    (h : encapsulateNpdu r = .ok (some (0x01 :: 0x00 :: reply))) : r = .ok (some reply) := by
  rcases r with e | _ | apdu
  · cases h
  · cases h
  · cases h
    rfl

/-- Octets in front of the APDU are seen: for some request the reply has another invoke id, or there
is none. -/
theorem exists_handleApdu_prefix_ne {p : Bytes} (hp : p ≠ []) :
    ∃ apdu reply, (handleApdu apdu (.init {})).1 = .ok (some reply) ∧
      (handleApdu (p ++ apdu) (.init {})).1 ≠ .ok (some reply) := by
  have hreply : ∀ i ∈ [(0 : UInt8), 1], (handleApdu (0x00 :: 0x05 :: i :: 0x0C :: readParameters 1) (.init {})).1 =
      .ok (some (presentValueAck i 1 [0, 0, 0, 0])) := by decide +kernel
  have hthird : ∀ i : UInt8, (p ++ 0x00 :: 0x05 :: i :: 0x0C :: readParameters 1)[2]? = (p ++ [0x00, 0x05])[2]? := by
    intro i
    rw [show p ++ 0x00 :: 0x05 :: i :: 0x0C :: readParameters 1 =
      (p ++ [0x00, 0x05]) ++ (i :: 0x0C :: readParameters 1) by simp, List.getElem?_append_left]
    have := List.length_pos_iff.2 hp
    simp only [List.length_append, List.length_cons, List.length_nil]
    omega
  -- the invoke id of the request is not the third octet any more, so one of two is not echoed
  obtain ⟨i, hi, hne⟩ : ∃ i ∈ [(0 : UInt8), 1], (p ++ [0x00, 0x05])[2]? ≠ some i := by
    by_cases h0 : (p ++ [0x00, 0x05])[2]? = some 0
    · exact ⟨1, by simp, by rw [h0]; decide⟩
    · exact ⟨0, by simp, h0⟩
  refine ⟨_, _, hreply i hi, fun h => hne ?_⟩
  rw [← hthird i, ← invokeId_of_complexAck h rfl]
  rfl

section Both

variable {flags : UInt8} {d : Destination} {a : NetworkAddress} {x : UInt8} {rest : Bytes}

/-- With too small a length, the APDU that is handled begins with the end of the address and the hop
count. -/
theorem not_transparent_of_lt (hx : a.address ++ [d.hopCount] = x :: rest) (hlt : x.toNat < rest.length) :
    ¬ Transparent flags (some d) (some a) := by
  intro h
  obtain ⟨apdu, reply, hreply, hother⟩ := exists_handleApdu_prefix_ne (p := rest.drop x.toNat)
    (by rw [ne_eq, List.drop_eq_nil_iff]; omega)
  have hcarries := npduCarries_both flags d a apdu hx (by rw [List.length_append]; omega)
  rw [List.drop_append_of_le_length (by omega)] at hcarries
  have heq := congrArg Prod.fst (h apdu (.init {}))
  rw [handleNpdu_of_carries hcarries, handleNpdu_bare, hreply] at heq
  exact hother (encapsulateNpdu_eq_some heq)

/-- With too large a length, a Who-Is loses its first octets. -/
theorem not_transparent_of_gt (hx : a.address ++ [d.hopCount] = x :: rest) (hgt : rest.length < x.toNat) :
    ¬ Transparent flags (some d) (some a) := by
  intro h
  have hnone : (handleNpdu (encodeNpdu flags (some d) (some a) [0x10, 0x08]) (.init {})).1 = .ok none := by
    by_cases hc : ∃ apdu, NpduCarries apdu (encodeNpdu flags (some d) (some a) [0x10, 0x08])
    swap
    · rw [handleNpdu_of_not_carries (not_exists.1 hc)]
    obtain ⟨apdu, hc⟩ := hc
    obtain ⟨-, rfl⟩ := eq_of_npduCarries_both flags d a [0x10, 0x08] hx hc
    rw [handleNpdu_of_carries hc, handleApdu_of_length_lt]
    · rfl
    · simp only [List.length_drop, List.length_append, List.length_cons, List.length_nil]
      omega
  rw [h, handleNpdu_bare] at hnone
  revert hnone
  decide

/-- With the right length, the APDU is found. -/
theorem transparent_of_eq (hx : a.address ++ [d.hopCount] = x :: rest) (heq : x.toNat = rest.length) :
    Transparent flags (some d) (some a) := by
  intro apdu s
  have hcarries := npduCarries_both flags d a apdu hx (by rw [List.length_append]; omega)
  rw [heq, List.drop_left] at hcarries
  rw [handleNpdu_of_carries hcarries, handleNpdu_bare]

end Both

/-- The address fields are transparent exactly when one specifier is missing, or the octet behind the
source length has the value of the source length. -/
theorem transparent_iff (flags : UInt8) (destination : Option Destination) (source : Option NetworkAddress) :
    Transparent flags destination source ↔
      ∀ d ∈ destination, ∀ a ∈ source, (a.address ++ [d.hopCount]).head? = some a.lengthOctet := by
  by_cases hnone : destination = none ∨ source = none
  · refine iff_of_true (fun apdu s => ?_) fun d hd a ha => ?_
    · rw [handleNpdu_of_carries (npduCarries_encodeNpdu hnone flags apdu), handleNpdu_bare]
    · rcases hnone with rfl | rfl
      · cases hd
      · cases ha
  obtain ⟨hd, ha⟩ := not_or.1 hnone
  obtain ⟨d, rfl⟩ := Option.ne_none_iff_exists'.1 hd
  obtain ⟨a, rfl⟩ := Option.ne_none_iff_exists'.1 ha
  simp only [Option.mem_def, Option.some.injEq, forall_eq']
  obtain ⟨x, rest, hx⟩ := List.exists_cons_of_ne_nil (List.append_ne_nil_of_right_ne_nil a.address
    (List.cons_ne_nil d.hopCount []))
  have hlen : rest.length = a.address.length := by
    have := congrArg List.length hx
    simpa using this.symm
  rw [hx, List.head?_cons, Option.some.injEq, ← UInt8.toNat_inj, a.toNat_lengthOctet, ← hlen]
  constructor
  · intro h
    by_contra hne
    rcases lt_or_gt_of_ne hne with hlt | hgt
    · exact not_transparent_of_lt hx hlt h
    · exact not_transparent_of_gt hx hgt h
  · exact transparent_of_eq hx

/-- A Who-Is from the one-octet address 5 on network 1 to all networks is not answered. -/
theorem not_transparent_both :
    ¬ Transparent 0x00 (some ⟨⟨0xFF, 0xFF, [], by decide⟩, 0xFF⟩) (some ⟨0x00, 0x01, [0x05], by decide⟩) := by
  intro h
  have heq := congrArg Prod.fst (h [0x10, 0x08] (.init {}))
  revert heq
  decide

end Cursus.Bacnet
