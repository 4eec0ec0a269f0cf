/-
Writing a present value and reading it back. `_parse_write_property_request` of
`cursus/bacnet/server.py` takes the first octet 0x3F for the closing tag, also one inside the REAL,
so the round trip works exactly for the values without that octet.
-/
import Cursus.Bacnet.Store

namespace Cursus.Bacnet

open Cursus.Python Cursus.Run

/-! ## Well-formed requests -/

/-- The content of the object identifier of the analog value `n`. -/
def analogValueIdentifier (n : ℕ) : Bytes := ByteOrder.big.encode 4 (objectTypeAnalogValue <<< 22 ||| n)

/-- The parameters of ReadProperty for the present value of `n`. -/
def readParameters (n : ℕ) : Bytes := 0x0C :: (analogValueIdentifier n ++ [0x19, 0x55])

/-- The parameters of WriteProperty with the REAL `b` for the present value of `n`. -/
def writeParameters (n : ℕ) (b : Bytes) : Bytes :=
  readParameters n ++ openingTag :: 0x44 :: (b ++ [closingTag])

theorem analogValueIdentifier_fields {n : ℕ} (hn : n < 2 ^ 22) :
    objectTypeOf (analogValueIdentifier n) = objectTypeAnalogValue ∧ instanceOf (analogValueIdentifier n) = n :=
  objectIdentifier_fields (by simp) hn

theorem reference_readParameters (n : ℕ) : Reference (analogValueIdentifier n) [0x55] (readParameters n) := by
  have hlen : (analogValueIdentifier n).length = 4 := ByteOrder.length_encode ..
  have h := @Reference.mk (analogValueIdentifier n) [0x55] 0x0C 0x19 (0x0C :: analogValueIdentifier n) [0x19, 0x55]
    [] rfl (.inline (by simp) (by rw [hlen]; rfl)) hlen rfl (.inline (by simp) rfl) .absent
  simpa [readParameters] using h

theorem readsPresentValue_readParameters {n : ℕ} (hn : n < 2 ^ 22) : ReadsPresentValue n (readParameters n) :=
  .mk (reference_readParameters n) (analogValueIdentifier_fields hn).1 (analogValueIdentifier_fields hn).2 rfl

theorem writesPresentValue_writeParameters {n : ℕ} (hn : n < 2 ^ 22) {b : Bytes} (hb : b.length = 4)
    (hc : closingTag ∉ b) : WritesPresentValue n b (writeParameters n b) := by
  have hc' : closingTag ∉ 0x44 :: b := by
    simp only [List.mem_cons, not_or]
    exact ⟨by decide, hc⟩
  exact .mk (.mk [] (reference_readParameters n) hc') (analogValueIdentifier_fields hn).1
    (analogValueIdentifier_fields hn).2 rfl hb

/-- A closing octet inside the value ends it early. -/
theorem not_writesPresentValue_writeParameters {n : ℕ} {b : Bytes} (hb : b.length = 4) (hc : closingTag ∈ b)
    (n' : ℕ) (b' : Bytes) : ¬ WritesPresentValue n' b' (writeParameters n b) := by
  rintro ⟨hw, -, -, -, hb'⟩
  rename_i oid p
  -- the parser reads a value that ends before the first closing octet of `b`
  obtain ⟨i, hi⟩ := Option.ne_none_iff_exists'.1 (mt findFrom_eq_none (not_not.2 hc))
  obtain ⟨pre, rest, rfl, hpre, -⟩ := findFrom_eq_some hi
  have hpre' : closingTag ∉ 0x44 :: pre := by
    simp only [List.mem_cons, not_or]
    exact ⟨by decide, hpre⟩
  have hw' : WriteParameters (analogValueIdentifier n) [0x55] (0x44 :: pre)
      (writeParameters n (pre ++ closingTag :: rest)) := by
    have h := WriteParameters.mk (rest ++ [closingTag]) (reference_readParameters n) hpre'
    simpa [writeParameters] using h
  have hv := (hw.unique hw').2.2.2
  cases hv
  simp only [List.length_append, List.length_cons] at hb
  omega

/-- The datagram of a WriteProperty that asks to write `b`, for a client that takes 1476 octets. -/
def writeDatagram (invokeId : UInt8) (n : ℕ) (b : Bytes) : Bytes :=
  bareDatagram (0x00 :: 0x05 :: invokeId :: 0x0F :: writeParameters n b)

/-- The datagram of a ReadProperty of a present value. -/
def readDatagram (invokeId : UInt8) (n : ℕ) : Bytes :=
  bareDatagram (0x00 :: 0x05 :: invokeId :: 0x0C :: readParameters n)

theorem requests_writeDatagram (invokeId : UInt8) (n : ℕ) {b : Bytes} (hb : b.length = 4) :
    Requests (.writeProperty invokeId (writeParameters n b)) (writeDatagram invokeId n b) :=
  requests_bareDatagram (.writeProperty rfl) (by simp [writeParameters, readParameters, analogValueIdentifier, hb])

theorem requests_readDatagram (invokeId : UInt8) (n : ℕ) :
    Requests (.readProperty invokeId (readParameters n)) (readDatagram invokeId n) :=
  requests_bareDatagram (.readProperty rfl) (by simp [readParameters, analogValueIdentifier])

/-! ## The round trip -/

/-- A write of `b` to the present value of `n` and a read of it are both answered, the second with
`b`, and no other analog value changes. -/
structure RoundTrip (s : BacnetServer) (n : ℕ) (b : Bytes) (invokeId invokeId' : UInt8) (write read : Bytes) :
    Prop where
  acknowledged : (handleDatagram write s).1 = .ok (some (bareDatagram [0x20, invokeId, 0x0F]))
  others : ∀ m, m ≠ (n : ℤ) →
    (handleDatagram write s).2.analogValues.lookup m = s.analogValues.lookup m
  answered : (handleDatagram read (handleDatagram write s).2).1 =
    .ok (some (bareDatagram (presentValueAck invokeId' n b)))

theorem length_presentValueAck (invokeId : UInt8) (n : ℕ) {b : Bytes} (hb : b.length = 4) :
    (presentValueAck invokeId n b).length < 65530 := by
  simp [presentValueAck, hb]

section

variable {s : BacnetServer} {n : ℕ} {b write : Bytes} {invokeId : UInt8}

theorem handleDatagram_of_writeParameters (hn : n < 2 ^ 22) (hb : b.length = 4) (hc : closingTag ∉ b)
    (hwrite : Requests (.writeProperty invokeId (writeParameters n b)) write)
    (hav : (s.analogValues.lookup (n : ℤ)).isSome) :
    handleDatagram write s =
      (.ok (some (bareDatagram [0x20, invokeId, 0x0F])), s.writePresentValue n (floatOfBytes b)) := by
  rw [handleDatagram_of_requests hwrite, serve_writeProperty,
    handleWriteProperty_of_writes (writesPresentValue_writeParameters hn hb hc), if_pos hav,
    encapsulate_some (by simp)]

theorem not_acknowledged_of_closingTag (hb : b.length = 4) (hc : closingTag ∈ b)
    (hwrite : Requests (.writeProperty invokeId (writeParameters n b)) write) (reply : Bytes) :
    (handleDatagram write s).1 ≠ .ok (some reply) := by
  rw [handleDatagram_of_requests hwrite, serve_writeProperty,
    handleWriteProperty_of_not_writes (not_writesPresentValue_writeParameters hb hc)]
  rcases parseWritePropertyRequest (writeParameters n b) with e | _ <;> nofun

end

/-- The round trip of a REAL works exactly when no octet of it is 0x3F and the other fields of the
object can be encoded. -/
theorem roundTrip_iff {s : BacnetServer} {n : ℕ} (hn : n < 2 ^ 22) {analogValue : BacnetAnalogValue}
    (hav : s.analogValues.lookup (n : ℤ) = some analogValue) {b : Bytes} (hb : b.length = 4)
    {invokeId invokeId' : UInt8} {write read : Bytes}
    (hwrite : Requests (.writeProperty invokeId (writeParameters n b)) write)
    (hread : Requests (.readProperty invokeId' (readParameters n)) read) :
    RoundTrip s n b invokeId invokeId' write read ↔ closingTag ∉ b ∧ analogValue.Encodes := by
  have hlookup : (s.writePresentValue n (floatOfBytes b)).analogValues.lookup (n : ℤ) =
      some { analogValue with presentValue := floatOfBytes b } := by
    unfold BacnetServer.writePresentValue
    rw [Dict.lookup_modify, if_pos rfl, hav]
    rfl
  have hreads := readsPresentValue_readParameters hn
  by_cases hc : closingTag ∈ b
  · refine iff_of_false (fun h => ?_) fun h => h.1 hc
    exact not_acknowledged_of_closingTag hb hc hwrite _ h.acknowledged
  have hstep := handleDatagram_of_writeParameters hn hb hc hwrite (s := s) (by rw [hav]; rfl)
  constructor
  · -- an answer to the read encodes every property of the object
    rintro ⟨-, -, hanswered⟩
    rw [hstep] at hanswered
    obtain ⟨analogValue', b', hav', he, -, -⟩ := handleDatagram_current hread hreads hanswered
    rw [hlookup] at hav'
    cases hav'
    exact ⟨hc, he.withPresentValue analogValue.presentValue⟩
  · rintro ⟨-, he⟩
    refine ⟨by rw [hstep], fun m hm => ?_, ?_⟩
    · rw [hstep, BacnetServer.writePresentValue, Dict.lookup_modify, if_neg hm]
    · rw [hstep, handleDatagram_of_reads hread, answerReadProperty_present hreads invokeId' hlookup
        (he.withPresentValue (floatOfBytes b)) (packFloat_floatOfBytes hb),
        encapsulate_some (length_presentValueAck invokeId' n hb)]

/-- 12.5, which has no octet 0x3F, is written and read back. -/
theorem roundTrip_twelve_and_a_half :
    RoundTrip (.init {}) 1 [0x41, 0x48, 0x00, 0x00] 7 8 (writeDatagram 7 1 [0x41, 0x48, 0x00, 0x00])
      (readDatagram 8 1) :=
  (roundTrip_iff (by simp) (show (BacnetServer.init {}).analogValues.lookup ((1 : ℕ) : ℤ) = some
    { inst := 1, objectName := "AV-1", description := "Analog Value 1" } from rfl) rfl
    (requests_writeDatagram 7 1 rfl) (requests_readDatagram 8 1)).2
    ⟨by decide, by decide, by decide, by decide, by decide⟩

/-- 1.0 is 0x3F800000: the write is refused. -/
theorem not_roundTrip_one :
    Requests (.writeProperty 7 (writeParameters 1 [0x3F, 0x80, 0x00, 0x00]))
      (writeDatagram 7 1 [0x3F, 0x80, 0x00, 0x00]) ∧
    Requests (.readProperty 8 (readParameters 1)) (readDatagram 8 1) ∧
    ((BacnetServer.init {}).analogValues.lookup 1).isSome ∧
    ¬ RoundTrip (.init {}) 1 [0x3F, 0x80, 0x00, 0x00] 7 8 (writeDatagram 7 1 [0x3F, 0x80, 0x00, 0x00])
      (readDatagram 8 1) := by
  refine ⟨requests_writeDatagram 7 1 rfl, requests_readDatagram 8 1, rfl, fun h => ?_⟩
  have hreply : (handleDatagram (writeDatagram 7 1 [0x3F, 0x80, 0x00, 0x00]) (.init {})).1 = .ok none := by decide
  rw [h.acknowledged] at hreply
  cases hreply

end Cursus.Bacnet
