/-
The analog values of `cursus/bacnet/server.py` as a memory of REALs. Threads that handle datagrams of clients
and threads of the program itself read and write present values in whatever way they interleave; what they see
is a memory whose accesses take effect one after the other.
-/
import Cursus.Bacnet.RoundTrip
import Cursus.Bacnet.Threads
import Cursus.Run.Memory

namespace Cursus.Bacnet

open Cursus.Python Cursus.Run

/-! ## Accesses -/

/-- The octets of a REAL that the parser of WriteProperty reads to its end. -/
structure WritableReal where
  octets : Bytes
  length_eq : octets.length = 4
  not_mem : closingTag ∉ octets

/-- A float that fits a REAL. -/
structure Packable where
  value : PyFloat
  octets : Bytes
  packFloat_eq : packFloat value = .ok octets

/-- Reads and writes of present values, by datagrams of clients and by the program. -/
inductive PointCall
  | readProperty (invokeId : UInt8) (n : Fin (2 ^ 22))
  | writeProperty (invokeId : UInt8) (n : Fin (2 ^ 22)) (real : WritableReal)
  | getPresentValue (n : ℤ)
  | setPresentValue (n : ℤ) (value : Packable)

namespace PointCall

/-- The call of the server. -/
def call : PointCall → Call
  | readProperty invokeId n => .handleDatagram (readDatagram invokeId n)
  | writeProperty invokeId n real => .handleDatagram (writeDatagram invokeId n real.octets)
  | getPresentValue n => .getPresentValue n
  | setPresentValue n value => .setPresentValue n value.value

/-- What the call asks of the memory. -/
def access : PointCall → Access ℤ Bytes
  | readProperty _ n => .read (n : ℕ)
  | writeProperty _ n real => .write (n : ℕ) real.octets
  | getPresentValue n => .read n
  | setPresentValue n value => .write n value.octets

end PointCall

/-- What a call has been told: a SimpleACK acknowledges a write, the REAL of a ComplexACK is the value, and a
request that names no analog value is not answered. -/
def answerOf : Returned → Option (Answer Bytes)
  | .response (.ok none) => some .missing
  | .response (.ok (some reply)) =>
    if reply[6]? = some 0x20 then some .done
    else if reply[6]? = some 0x30 then some (.value (slice reply 18 22))
    else none
  | .response (.error _) => none
  | .value (.ok value) =>
    match packFloat value with
    | .ok octets => some (.value octets)
    | .error _ => none
  | .value (.error _) => some .missing
  | .done (.ok _) => some .done
  | .done (.error _) => some .missing

/-! ## The memory -/

/-- The present values are the cells. -/
def BacnetServer.cells (s : BacnetServer) : ℤ → Option Bytes := fun n =>
  (s.analogValues.lookup n).bind fun analogValue => (packFloat analogValue.presentValue).toOption

/-- Every analog value can be read. -/
def BacnetServer.Readable (s : BacnetServer) : Prop :=
  ∀ n analogValue, s.analogValues.lookup n = some analogValue →
    analogValue.Encodes ∧ ∃ b, packFloat analogValue.presentValue = .ok b

/-- A memory that answers every access. -/
def answering : Step (ℤ → Option Bytes) (Access ℤ Bytes) (Option (Answer Bytes)) := fun access m =>
  (some (memory access m).1, (memory access m).2)

section Memory

variable {s : BacnetServer} {n : ℤ}

theorem cells_of_none (h : s.analogValues.lookup n = none) : s.cells n = none := by
  rw [BacnetServer.cells, h]
  rfl

theorem cells_of_some {analogValue : BacnetAnalogValue} (h : s.analogValues.lookup n = some analogValue) {b : Bytes}
    (hb : packFloat analogValue.presentValue = .ok b) : s.cells n = some b := by
  rw [BacnetServer.cells, h]
  simp only [Option.bind_some, hb]
  rfl

/-- A write of the present value is a write to the memory. -/
theorem cells_writePresentValue (h : (s.analogValues.lookup n).isSome) {value : PyFloat} {b : Bytes}
    (hb : packFloat value = .ok b) : (s.writePresentValue n value).cells = Function.update s.cells n (some b) := by
  funext m
  by_cases hm : m = n
  · subst hm
    obtain ⟨analogValue, hav⟩ := Option.isSome_iff_exists.1 h
    rw [Function.update_self]
    have hnew : (s.writePresentValue m value).analogValues.lookup m =
        some { analogValue with presentValue := value } := by
      rw [BacnetServer.writePresentValue, Dict.lookup_modify, if_pos rfl, hav]
      rfl
    exact cells_of_some hnew hb
  · rw [Function.update_of_ne hm, BacnetServer.cells, BacnetServer.cells, BacnetServer.writePresentValue,
      Dict.lookup_modify, if_neg hm]

theorem BacnetServer.Readable.writePresentValue (hs : s.Readable) {value : PyFloat} {b : Bytes}
    (hb : packFloat value = .ok b) : (s.writePresentValue n value).Readable := by
  intro m analogValue hav
  rw [BacnetServer.writePresentValue, Dict.lookup_modify] at hav
  split_ifs at hav with hm
  · obtain ⟨old, hold, rfl⟩ := Option.map_eq_some_iff.1 hav
    exact ⟨(hs m old hold).1.withPresentValue value, b, hb⟩
  · exact hs m analogValue hav

/-- A read finds the value of the cell. -/
theorem answering_read (hs : s.Readable) (n : ℤ) :
    s.analogValues.lookup n = none ∧ answering (.read n) s.cells = (some .missing, s.cells) ∨
      ∃ analogValue b, s.analogValues.lookup n = some analogValue ∧ analogValue.Encodes ∧
        packFloat analogValue.presentValue = .ok b ∧ answering (.read n) s.cells = (some (.value b), s.cells) := by
  cases hav : s.analogValues.lookup n with
  | none =>
    refine .inl ⟨rfl, ?_⟩
    simp only [answering, memory, cells_of_none hav]
  | some analogValue =>
    obtain ⟨hencodes, b, hb⟩ := hs n analogValue hav
    refine .inr ⟨analogValue, b, rfl, hencodes, hb, ?_⟩
    simp only [answering, memory, cells_of_some hav hb]

/-- A write finds the cell, or there is none. -/
theorem answering_write (hs : s.Readable) (n : ℤ) {value : PyFloat} {b : Bytes} (hb : packFloat value = .ok b) :
    answering (.write n b) s.cells =
      if (s.analogValues.lookup n).isSome then (some .done, (s.writePresentValue n value).cells)
      else (some .missing, s.cells) := by
  cases hav : s.analogValues.lookup n with
  | none => simp [answering, memory, cells_of_none hav]
  | some analogValue =>
    obtain ⟨-, b', hb'⟩ := hs n analogValue hav
    rw [Option.isSome_some, if_pos rfl, cells_writePresentValue (by rw [hav]; rfl) hb]
    simp [answering, memory, cells_of_some hav hb']

end Memory

/-! ## Calls -/

theorem length_packFloat {value : PyFloat} {b : Bytes} (h : packFloat value = .ok b) : b.length = 4 := by
  unfold packFloat at h
  split at h
  · cases h
    exact ByteOrder.length_encode ..
  · cases h

theorem answerOf_simpleAck (invokeId : UInt8) :
    answerOf (.response (.ok (some (bareDatagram [0x20, invokeId, 0x0F])))) = some .done := by
  obtain ⟨hi, lo, heq, -⟩ := bareDatagram_eq [0x20, invokeId, 0x0F]
  rw [heq]
  rfl

theorem answerOf_presentValueAck (invokeId : UInt8) (n : ℕ) {b : Bytes} (hb : b.length = 4) :
    answerOf (.response (.ok (some (bareDatagram (presentValueAck invokeId n b))))) = some (.value b) := by
  obtain ⟨hi, lo, heq, -⟩ := bareDatagram_eq (presentValueAck invokeId n b)
  -- 18 octets stand in front of the value
  let front : Bytes := 0x81 :: 0x0A :: hi :: lo :: 0x01 :: 0x00 :: 0x30 :: invokeId :: 0x0C :: 0x0C ::
    (ByteOrder.big.encode 4 (objectTypeAnalogValue <<< 22 ||| n) ++ [0x19, 0x55, openingTag, 0x44])
  have hfront : front.length = 18 := by simp [front]
  have hreply : bareDatagram (presentValueAck invokeId n b) = front ++ (b ++ [closingTag]) := by
    rw [heq]
    simp [front, presentValueAck]
  have hslice : slice (bareDatagram (presentValueAck invokeId n b)) 18 22 = b := by
    rw [hreply, slice, List.drop_left' hfront, List.take_left' hb]
  simp only [answerOf, hslice]
  rw [heq]
  rfl

/-- A call does what its access does to the memory, and is told what the memory answers. -/
theorem callStep_memory (point : PointCall) {s : BacnetServer} (hs : s.Readable) :
    answering point.access s.cells = (answerOf (callStep point.call s).1, (callStep point.call s).2.cells) ∧
      (callStep point.call s).2.Readable := by
  cases point with
  | readProperty invokeId n =>
    have hreads := readsPresentValue_readParameters n.isLt
    simp only [PointCall.access, PointCall.call, callStep, handleDatagram_of_reads (requests_readDatagram invokeId n)]
    refine ⟨?_, hs⟩
    rcases answering_read hs (n : ℕ) with ⟨hav, hread⟩ | ⟨analogValue, b, hav, hencodes, hb, hread⟩
    · rw [hread, answerReadProperty_of_reads hreads, readAnalogValueProperty_none hav]
      rfl
    · rw [hread, answerReadProperty_present hreads invokeId hav hencodes hb,
        encapsulate_some (length_presentValueAck invokeId n (length_packFloat hb)),
        answerOf_presentValueAck invokeId n (length_packFloat hb)]
  | writeProperty invokeId n real =>
    have hwrites := writesPresentValue_writeParameters n.isLt real.length_eq real.not_mem
    simp only [PointCall.access, PointCall.call, callStep]
    rw [handleDatagram_of_requests (requests_writeDatagram invokeId n real.length_eq), serve_writeProperty,
      handleWriteProperty_of_writes hwrites, answering_write hs _ (packFloat_floatOfBytes real.length_eq)]
    split_ifs
    · rw [encapsulate_some (by simp), answerOf_simpleAck]
      exact ⟨rfl, hs.writePresentValue (packFloat_floatOfBytes real.length_eq)⟩
    · exact ⟨rfl, hs⟩
  | getPresentValue n =>
    simp only [PointCall.access, PointCall.call, callStep, getPresentValue_apply]
    refine ⟨?_, hs⟩
    rcases answering_read hs n with ⟨hav, hread⟩ | ⟨analogValue, b, hav, -, hb, hread⟩
    · rw [hread, hav]
      rfl
    · rw [hread, hav]
      simp only [Option.elim_some, answerOf, hb]
  | setPresentValue n value =>
    simp only [PointCall.access, PointCall.call, callStep, setPresentValue_apply]
    rw [answering_write hs n value.packFloat_eq]
    split_ifs
    · exact ⟨rfl, hs.writePresentValue value.packFloat_eq⟩
    · exact ⟨rfl, hs⟩

/-! ## Threads of clients -/

/-- The calls of clients and of the program, in whatever way their threads interleave, are accesses to a memory
that take effect one after the other. -/
theorem points_linearize {κ : Type} [DecidableEq κ] (config : BacnetServerConfig)
    (hconfig : (BacnetServer.init config).Readable) (turns : List (κ × ThreadTurn PointCall)) :
    Linearizes answering (BacnetServer.init config).cells
      ((history (Pool.step fun point : PointCall => point.call.body) Pool.see turns (Pool.init (.init config))).map
        (Seen.map PointCall.access answerOf))
      (final (Pool.step fun point : PointCall => point.call.body) turns (Pool.init (.init config))).shared.cells := by
  have hcalls : Linearizes (fun (point : PointCall) s => callStep point.call s) (.init config)
      (history (Pool.step fun point : PointCall => point.call.body) Pool.see turns (Pool.init (.init config)))
      (final (Pool.step fun point : PointCall => point.call.body) turns (Pool.init (.init config))).shared :=
    Pool.linearizes Threaded.Keeps.refl Threaded.Keeps.trans (fun point => keeps_callStep point.call)
      (fun point => performs_body point.call) turns _
  exact hcalls.map (J := BacnetServer.Readable) (fun point _ hs => (callStep_memory point hs).2)
    (fun point _ hs => (callStep_memory point hs).1) hconfig

theorem readable_default : (BacnetServer.init {}).Readable := by
  intro n analogValue h
  have hzero : packFloat ⟨false, 0, 0, by decide, by decide⟩ = .ok [0, 0, 0, 0] := by decide +kernel
  rcases BacnetServerConfig.lookup_default h with ⟨-, rfl⟩ | ⟨-, rfl⟩
  · exact ⟨⟨by decide, by decide, by decide, by decide⟩, _, hzero⟩
  · exact ⟨⟨by decide, by decide, by decide, by decide⟩, _, hzero⟩

/-- One thread writes 12.5 to the first analog value while another one reads it. -/
def overlappingPoints : List (Bool × ThreadTurn PointCall) :=
  [(true, .call (.writeProperty 7 1 ⟨[0x41, 0x48, 0x00, 0x00], rfl, by decide⟩)), (false, .call (.readProperty 8 1)),
    (false, .advance), (true, .advance), (true, .advance), (false, .advance)]

theorem points_linearize_overlapping :
    Linearizes answering (BacnetServer.init {}).cells
      ((history (Pool.step fun point : PointCall => point.call.body) Pool.see overlappingPoints
        (Pool.init (.init {}))).map (Seen.map PointCall.access answerOf))
      (final (Pool.step fun point : PointCall => point.call.body) overlappingPoints (Pool.init (.init {}))).shared.cells :=
  points_linearize {} readable_default overlappingPoints

end Cursus.Bacnet
