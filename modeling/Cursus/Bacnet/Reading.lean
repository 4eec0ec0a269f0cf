/-
One property asked for in a ReadProperty: what the client of `cursus/bacnet/server.py` gets. The value
that it finds in the ComplexACK is the one that `_read_property` returns, and it gets nothing at all
when there is none or when one of the encoders raises.
-/
import Cursus.Bacnet.Replies

namespace Cursus.Bacnet

open Cursus.Python

/-! ## Asking -/

/-- The datagram asks for a property of an object in a ReadProperty. -/
inductive AsksProperty (objectType inst propertyIdentifier : ℕ) (invokeId : UInt8) (d : Bytes) : Prop
  | mk {parameters : Bytes} : Requests (.readProperty invokeId parameters) d →
      parsePropertyReference parameters = .ok (some (objectType, inst, propertyIdentifier)) →
      AsksProperty objectType inst propertyIdentifier invokeId d

/-- Every property of every object can be asked for. -/
theorem exists_asksProperty {objectType inst propertyIdentifier : ℕ} (ht : objectType < 1024) (hi : inst < 2 ^ 22)
    (hp : propertyIdentifier < 256 ^ 255) (invokeId : UInt8) :
    ∃ d, AsksProperty objectType inst propertyIdentifier invokeId d := by
  obtain ⟨property, hproperty, hlen, -⟩ := buildReadAck_ok invokeId ht hi hp []
  have hoid : (ByteOrder.big.encode 4 (objectType <<< 22 ||| inst)).length = 4 := ByteOrder.length_encode ..
  refine ⟨_, .mk (requests_bareDatagram (.readProperty (t := 0x00) (m := 0x05) rfl) ?_)
    (parsePropertyReference_encoded ht hi hproperty)⟩
  simp only [List.length_cons, List.length_append, hoid]
  omega

section Reading

variable {objectType inst propertyIdentifier : ℕ} {invokeId : UInt8} {d : Bytes}

theorem AsksProperty.bounds (h : AsksProperty objectType inst propertyIdentifier invokeId d) :
    objectType < 1024 ∧ inst < 2 ^ 22 ∧ propertyIdentifier < 256 ^ 255 := by
  obtain ⟨-, hparse⟩ := h
  exact parsePropertyReference_bounds hparse

theorem handleDatagram_of_asks (h : AsksProperty objectType inst propertyIdentifier invokeId d) (s : BacnetServer) :
    handleDatagram d s =
      (encapsulate (chain (readProperty s objectType inst propertyIdentifier) fun propertyValue =>
        (buildReadAck invokeId.toNat objectType inst propertyIdentifier propertyValue).map some), s) := by
  obtain ⟨hrequests, hparse⟩ := h
  rw [handleDatagram_of_reads hrequests, answerReadProperty, hparse, chain_some]

/-! ## What is sent -/

/-- What `_BacnetRequestHandler.handle` sends back: the response to the datagram, and nothing when there
is none or when an exception ends the handler. -/
def BacnetServer.sends (s : BacnetServer) (d : Bytes) : Option Bytes :=
  match (handleDatagram d s).1 with
  | .ok response => response
  | .error _ => none

/-- A datagram that asks for a property is answered with a ComplexACK around its value when there is
one, and not at all otherwise. -/
theorem sends_cases (h : AsksProperty objectType inst propertyIdentifier invokeId d) (s : BacnetServer) :
    (∃ v ack, readProperty s objectType inst propertyIdentifier = .ok (some v) ∧
      buildReadAck invokeId.toNat objectType inst propertyIdentifier v = .ok ack ∧
      s.sends d = some (bareDatagram ack)) ∨
    ((∀ v, readProperty s objectType inst propertyIdentifier ≠ .ok (some v)) ∧ s.sends d = none) := by
  obtain ⟨ht, hi, hp⟩ := h.bounds
  unfold BacnetServer.sends
  rw [handleDatagram_of_asks h]
  rcases hread : readProperty s objectType inst propertyIdentifier with e | _ | v
  · exact .inr ⟨nofun, rfl⟩
  · exact .inr ⟨nofun, rfl⟩
  · obtain ⟨property, -, hlen, hack⟩ := buildReadAck_ok invokeId ht hi hp v
    have hvlen := (applicationElement_readProperty hread).length_le
    refine .inl ⟨v, _, rfl, hack, ?_⟩
    rw [chain_some, hack, Except.map, encapsulate_some]
    simp only [List.length_cons, List.length_append, ByteOrder.length_encode, List.length_nil]
    omega

/-! ## The value in a reply -/

/-- The reply is a ComplexACK with the property and its value `v`. -/
def AcksValue (objectType inst propertyIdentifier : ℕ) (invokeId : UInt8) (v reply : Bytes) : Prop :=
  ∃ ack, buildReadAck invokeId.toNat objectType inst propertyIdentifier v = .ok ack ∧ reply = bareDatagram ack

/-- A ComplexACK has one value. -/
theorem AcksValue.unique {v v' reply : Bytes} (h : AsksProperty objectType inst propertyIdentifier invokeId d)
    (hv : AcksValue objectType inst propertyIdentifier invokeId v reply)
    (hv' : AcksValue objectType inst propertyIdentifier invokeId v' reply) : v = v' := by
  obtain ⟨ht, hi, hp⟩ := h.bounds
  obtain ⟨ack, hack, rfl⟩ := hv
  obtain ⟨ack', hack', heq⟩ := hv'
  obtain ⟨property, hproperty, -, hok⟩ := buildReadAck_ok invokeId ht hi hp v
  obtain ⟨property', hproperty', -, hok'⟩ := buildReadAck_ok invokeId ht hi hp v'
  cases hproperty.symm.trans hproperty'
  cases hack.symm.trans hok
  cases hack'.symm.trans hok'
  -- the replies differ at most in their values
  have hacks := bareDatagram_inj heq
  simpa using hacks

/-- One value is acknowledged with one reply. -/
theorem AcksValue.reply_unique {v reply reply' : Bytes}
    (h : AcksValue objectType inst propertyIdentifier invokeId v reply)
    (h' : AcksValue objectType inst propertyIdentifier invokeId v reply') : reply = reply' := by
  obtain ⟨ack, hack, rfl⟩ := h
  obtain ⟨ack', hack', rfl⟩ := h'
  cases hack.symm.trans hack'
  rfl

theorem sends_eq_some_iff (h : AsksProperty objectType inst propertyIdentifier invokeId d) (s : BacnetServer)
    (v : Bytes) :
    (∃ reply, s.sends d = some reply ∧ AcksValue objectType inst propertyIdentifier invokeId v reply) ↔
      readProperty s objectType inst propertyIdentifier = .ok (some v) := by
  rcases sends_cases h s with ⟨v', ack, hread, hack, hsends⟩ | ⟨hread, hsends⟩
  · rw [hsends, hread]
    constructor
    · rintro ⟨reply, hreply, hv⟩
      cases hreply
      rw [AcksValue.unique h hv ⟨ack, hack, rfl⟩]
    · intro hv
      cases hv
      exact ⟨_, rfl, ack, hack, rfl⟩
  · rw [hsends]
    exact iff_of_false nofun (hread v)

end Reading

/-- Some ReadProperty of the property is answered with the value `v`. -/
def ReadsValue (s : BacnetServer) (objectType inst propertyIdentifier : ℕ) (v : Bytes) : Prop :=
  ∃ invokeId d reply, AsksProperty objectType inst propertyIdentifier invokeId d ∧ s.sends d = some reply ∧
    AcksValue objectType inst propertyIdentifier invokeId v reply

/-- Some ReadProperty of the property is answered. -/
def AnswersProperty (s : BacnetServer) (objectType inst propertyIdentifier : ℕ) : Prop :=
  ∃ invokeId d reply, AsksProperty objectType inst propertyIdentifier invokeId d ∧ s.sends d = some reply

section Bounds

variable {objectType inst propertyIdentifier : ℕ}

theorem readsValue_iff (ht : objectType < 1024) (hi : inst < 2 ^ 22) (hp : propertyIdentifier < 256 ^ 255)
    (s : BacnetServer) (v : Bytes) :
    ReadsValue s objectType inst propertyIdentifier v ↔
      readProperty s objectType inst propertyIdentifier = .ok (some v) := by
  constructor
  · rintro ⟨invokeId, d, reply, hasks, hreply, hv⟩
    exact (sends_eq_some_iff hasks s v).1 ⟨reply, hreply, hv⟩
  · intro hread
    obtain ⟨d, hasks⟩ := exists_asksProperty ht hi hp 0
    obtain ⟨reply, hreply, hv⟩ := (sends_eq_some_iff hasks s v).2 hread
    exact ⟨0, d, reply, hasks, hreply, hv⟩

theorem answersProperty_iff (hp : propertyIdentifier < 256 ^ 255) (s : BacnetServer) :
    AnswersProperty s objectType inst propertyIdentifier ↔
      objectType < 1024 ∧ inst < 2 ^ 22 ∧ ∃ v, readProperty s objectType inst propertyIdentifier = .ok (some v) := by
  constructor
  · rintro ⟨invokeId, d, reply, hasks, hreply⟩
    obtain ⟨ht, hi, -⟩ := hasks.bounds
    rcases sends_cases hasks s with ⟨v, ack, hread, -, -⟩ | ⟨-, hnone⟩
    · exact ⟨ht, hi, v, hread⟩
    · rw [hnone] at hreply
      cases hreply
  · rintro ⟨ht, hi, v, hread⟩
    obtain ⟨invokeId, d, reply, hasks, hreply, -⟩ := (readsValue_iff ht hi hp s v).2 hread
    exact ⟨invokeId, d, reply, hasks, hreply⟩

end Bounds

end Cursus.Bacnet
