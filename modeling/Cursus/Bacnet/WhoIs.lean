/-
Who-Is with limits. The limits are context-tagged in BACnet and `_encode_context_unsigned` of
`cursus/bacnet/server.py` writes them so, but `_parse_who_is_limits` looks for application tags: it
never finds a limit in a well-formed request, and the request is answered by every device.
-/
import Cursus.Bacnet.Requests

namespace Cursus.Bacnet

open Cursus.Python

/-- Parameters that begin with a context tag have no limits for the parser. -/
theorem parseWhoIsLimits_of_contextUnsigned {tagNumber : ℕ} (ht : tagNumber < 16) {value : ℤ} {enc : Bytes}
    (h : encodeContextUnsigned tagNumber value = .ok enc) (rest : Bytes) :
    parseWhoIsLimits (enc ++ rest) = .ok (none, none) := by
  rw [encodeContextUnsigned_eq_encodeTagged] at h
  obtain ⟨content, t, -, -, he, -, -, hclass⟩ := encodeTagged_eq_ok ht h
  have htag : isUnsignedTag t.toNat = false := by simp_all [isUnsignedTag]
  have hread : readElement isUnsignedTag (enc ++ rest) = .ok none := by
    cases he with
    | inline => rw [List.cons_append, readElement, if_pos htag]
    | extended => rw [List.cons_append, readElement, if_pos htag]
  rw [parseWhoIsLimits_eq, readLimits, hread]
  rfl

/-- The datagram is answered with the I-Am of the device. -/
def AnswersIAm (s : BacnetServer) (payload : Bytes) : Prop :=
  ∃ apdu, buildIAmApdu s.device = .ok apdu ∧ handleDatagram payload s = (.ok (some (bareDatagram apdu)), s)

theorem answersIAm_iff {s : BacnetServer} {payload parameters : Bytes} (h : Requests (.whoIs parameters) payload)
    (hp : parseWhoIsLimits parameters = .ok (none, none)) : AnswersIAm s payload ↔ s.device.Announces := by
  have hadmits : Admits s.device.inst none none := ⟨nofun, nofun⟩
  rw [← buildIAmApdu_ok_iff, AnswersIAm, handleDatagram_of_requests h, serve_whoIs, (answerWhoIs_of_limits hp).1 hadmits]
  constructor
  · rintro ⟨apdu, ha, -⟩
    exact ⟨apdu, ha⟩
  · rintro ⟨apdu, ha⟩
    exact ⟨apdu, ha, by rw [ha, Except.map, encapsulate_some (iAm_of_buildIAmApdu ha).length_lt]⟩

/-- The limits of Who-Is as BACnet encodes them. -/
def encodeLimits (low high : ℕ) : Except PyError Bytes := do
  return (← encodeContextUnsigned 0 low) ++ (← encodeContextUnsigned 1 high)

theorem parseWhoIsLimits_encodeLimits {low high : ℕ} {parameters : Bytes}
    (h : encodeLimits low high = .ok parameters) : parseWhoIsLimits parameters = .ok (none, none) := by
  obtain ⟨low', hlow, h⟩ := bind_eq_ok h
  obtain ⟨high', -, h⟩ := bind_eq_ok h
  cases h
  exact parseWhoIsLimits_of_contextUnsigned (by simp) hlow high'

/-- The device answers a Who-Is with limits when its instance is within them and is silent otherwise,
and it answers one without limits. -/
structure FiltersWhoIs (s : BacnetServer) (low high : ℕ) (limited unlimited : Bytes) : Prop where
  within : (low : ℤ) ≤ s.device.inst ∧ s.device.inst ≤ high → AnswersIAm s limited
  outside : ¬ ((low : ℤ) ≤ s.device.inst ∧ s.device.inst ≤ high) → (handleDatagram limited s).1 = .ok none
  unlimited : AnswersIAm s unlimited

/-- Limits are respected exactly when they include the device, and its I-Am can be encoded. -/
theorem filtersWhoIs_iff {s : BacnetServer} {low high : ℕ} {parameters limited unlimited : Bytes}
    (h : encodeLimits low high = .ok parameters) (hlimited : Requests (.whoIs parameters) limited)
    (hunlimited : Requests (.whoIs []) unlimited) :
    FiltersWhoIs s low high limited unlimited ↔
      ((low : ℤ) ≤ s.device.inst ∧ s.device.inst ≤ high) ∧ s.device.Announces := by
  have hl := answersIAm_iff (s := s) hlimited (parseWhoIsLimits_encodeLimits h)
  have hu := answersIAm_iff (s := s) hunlimited rfl
  constructor
  · rintro ⟨-, houtside, hall⟩
    have hannounces := hu.1 hall
    refine ⟨by_contra fun hn => ?_, hannounces⟩
    obtain ⟨apdu, -, hanswer⟩ := hl.2 hannounces
    have hnone := houtside hn
    rw [hanswer] at hnone
    cases hnone
  · rintro ⟨hin, hannounces⟩
    exact ⟨fun _ => hl.2 hannounces, fun hn => absurd hin hn, hu.2 hannounces⟩

/-- Device 1234 answers Who-Is for 1000 to 2000. -/
theorem filtersWhoIs_including :
    FiltersWhoIs (.init {}) 1000 2000 (bareDatagram [0x10, 0x08, 0x0A, 0x03, 0xE8, 0x1A, 0x07, 0xD0])
      (bareDatagram [0x10, 0x08]) :=
  (filtersWhoIs_iff (show encodeLimits 1000 2000 = .ok [0x0A, 0x03, 0xE8, 0x1A, 0x07, 0xD0] by decide)
    (requests_bareDatagram (.whoIs rfl) (by simp)) (requests_bareDatagram (.whoIs rfl) (by simp))).2
    ⟨by decide, by decide, by decide, by decide, by decide⟩

/-- Device 1234 also answers Who-Is for 1 to 2. -/
theorem not_filtersWhoIs_excluding :
    encodeLimits 1 2 = .ok [0x09, 0x01, 0x19, 0x02] ∧
    Requests (.whoIs [0x09, 0x01, 0x19, 0x02]) (bareDatagram [0x10, 0x08, 0x09, 0x01, 0x19, 0x02]) ∧
    Requests (.whoIs []) (bareDatagram [0x10, 0x08]) ∧
    ¬ FiltersWhoIs (.init {}) 1 2 (bareDatagram [0x10, 0x08, 0x09, 0x01, 0x19, 0x02]) (bareDatagram [0x10, 0x08]) := by
  refine ⟨by decide, requests_bareDatagram (.whoIs rfl) (by decide),
    requests_bareDatagram (.whoIs rfl) (by simp), fun h => ?_⟩
  have hout : ¬ (((1 : ℕ) : ℤ) ≤ (BacnetServer.init {}).device.inst ∧ (BacnetServer.init {}).device.inst ≤ (2 : ℕ)) := by
    decide
  have hnone := h.outside hout
  revert hnone
  decide

end Cursus.Bacnet
