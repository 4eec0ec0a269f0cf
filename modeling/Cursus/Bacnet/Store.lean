/-
The analog values of `cursus/bacnet/server.py` as a map: over any sequence of datagrams and
`set_present_value` calls they are the initial ones with the acknowledged writes applied in order,
and a present value that is read is the one in the map.
-/
import Cursus.Bacnet.Requests
import Cursus.Run.Machine

namespace Cursus.Bacnet

open Cursus.Python Cursus.Run

/-! ## The server as a machine -/

inductive Event
  | datagram (payload : Bytes)
  | setPresentValue (inst : ℤ) (value : PyFloat)

inductive Outcome
  | answered (result : Except PyError (Option Bytes))
  | returned (result : Except PyError Unit)

def step : Step BacnetServer Event Outcome
  | .datagram payload, s => (.answered (handleDatagram payload s).1, (handleDatagram payload s).2)
  | .setPresentValue inst value, s =>
    (.returned (setPresentValue inst value s).1, (setPresentValue inst value s).2)

/-! ## Acknowledged writes -/

/-- The reply is a SimpleACK: its APDU stands behind the six octets of the BVLC and NPDU headers. -/
def IsSimpleAck (reply : Bytes) : Prop := reply[6]? = some 0x20

/-- The write was acknowledged to whoever asked for it. -/
def Acknowledged : Event × Outcome → Prop
  | (.datagram _, .answered (.ok (some reply))) => IsSimpleAck reply
  | (.setPresentValue _ _, .returned (.ok _)) => True
  | _ => False

/-- The instance and the value that an event asks to write. -/
inductive Asks : Event × Outcome → ℤ × PyFloat → Prop
  | datagram {payload parameters b : Bytes} {invokeId : UInt8} {n : ℕ} {o : Outcome} :
      Requests (.writeProperty invokeId parameters) payload → WritesPresentValue n b parameters →
      Asks (.datagram payload, o) (n, floatOfBytes b)
  | setPresentValue {n : ℤ} {value : PyFloat} {o : Outcome} : Asks (.setPresentValue n value, o) (n, value)

theorem Asks.unique : ∀ (a : Event × Outcome) (w w' : ℤ × PyFloat), Asks a w → Asks a w' → w = w'
  | _, _, _, .setPresentValue, .setPresentValue => rfl
  | _, _, _, .datagram hr hw, .datagram hr' hw' => by
    cases hr.unique hr'
    obtain ⟨rfl, rfl⟩ := hw.unique hw'
    rfl

/-- One write to the map of analog values. -/
def applyWrite (analogValues : Dict BacnetAnalogValue) (write : ℤ × PyFloat) : Dict BacnetAnalogValue :=
  analogValues.modify write.1 fun analogValue => { analogValue with presentValue := write.2 }

/-! ## One datagram -/

theorem isSimpleAck_bareDatagram (apdu : Bytes) : IsSimpleAck (bareDatagram apdu) ↔ apdu[0]? = some 0x20 := by
  obtain ⟨hi, lo, heq, -⟩ := bareDatagram_eq apdu
  rw [IsSimpleAck, heq]
  rfl

/-- What a datagram can do: it is an acknowledged write to a value that is there, or the server does
not change and does not acknowledge a write. -/
theorem handleDatagram_cases (payload : Bytes) (s : BacnetServer) :
    (∃ invokeId n b parameters, Requests (.writeProperty invokeId parameters) payload ∧
      WritesPresentValue n b parameters ∧ (s.analogValues.lookup (n : ℤ)).isSome ∧
      handleDatagram payload s =
        (.ok (some (bareDatagram [0x20, invokeId, 0x0F])), s.writePresentValue n (floatOfBytes b))) ∨
    ((handleDatagram payload s).2 = s ∧
      ∀ reply, (handleDatagram payload s).1 = .ok (some reply) → ¬ IsSimpleAck reply) := by
  by_cases hr : ∃ request, Requests request payload
  swap
  · rw [handleDatagram_of_not_requests (not_exists.1 hr)]
    exact .inr ⟨rfl, nofun⟩
  obtain ⟨request, hr⟩ := hr
  -- the first octet of the APDU in a reply tells the requests apart
  have hreply : ∀ reply, (handleDatagram payload s).1 = .ok (some reply) →
      ∃ apdu, (serve request s).1 = .ok (some apdu) ∧ reply = bareDatagram apdu := by
    intro reply h
    obtain ⟨request', apdu, hr', hs, rfl⟩ := handleDatagram_eq_some h
    cases hr.unique hr'
    exact ⟨apdu, hs, rfl⟩
  have hstate : (handleDatagram payload s).2 = (serve request s).2 := by rw [handleDatagram_of_requests hr]
  cases request with
  | whoIs parameters =>
    refine .inr ⟨hstate, fun reply h => ?_⟩
    obtain ⟨apdu, ha, rfl⟩ := hreply reply h
    obtain ⟨-, -, -, -⟩ := answerWhoIs_eq_some ha
    simp [isSimpleAck_bareDatagram]
  | readProperty invokeId parameters =>
    rw [serve_readProperty] at hstate
    refine .inr ⟨hstate, fun reply h => ?_⟩
    obtain ⟨apdu, ha, rfl⟩ := hreply reply h
    rw [serve_readProperty] at ha
    obtain ⟨-, rest, rfl⟩ := answerReadProperty_eq_some ha
    simp [isSimpleAck_bareDatagram]
  | writeProperty invokeId parameters =>
    by_cases hw : ∃ n b, WritesPresentValue n b parameters
    · obtain ⟨n, b, hw⟩ := hw
      rw [handleDatagram_of_requests hr, serve_writeProperty, handleWriteProperty_of_writes hw]
      by_cases hn : (s.analogValues.lookup (n : ℤ)).isSome
      · refine .inl ⟨invokeId, n, b, parameters, hr, hw, hn, ?_⟩
        rw [if_pos hn, encapsulate_some (by simp)]
      · rw [if_neg hn]
        exact .inr ⟨rfl, nofun⟩
    · simp only [not_exists] at hw
      rw [serve_writeProperty, handleWriteProperty_of_not_writes hw] at hstate
      refine .inr ⟨hstate, fun reply h => ?_⟩
      obtain ⟨apdu, ha, -⟩ := hreply reply h
      rw [serve_writeProperty, handleWriteProperty_of_not_writes hw] at ha
      exact (map_none_ne_some ha).elim

theorem setPresentValue_apply (n : ℤ) (value : PyFloat) (s : BacnetServer) :
    setPresentValue n value s =
      if (s.analogValues.lookup n).isSome then (.ok (), s.writePresentValue n value) else (.error .keyError, s) := by
  unfold setPresentValue
  cases h : s.analogValues.lookup n with
  | none => simp only [Py.get_bind, h]; rfl
  | some analogValue =>
    simp only [Py.get_bind, h, Option.isSome_some, if_true, BacnetServer.writePresentValue, Dict.modify_of_lookup h]
    rfl

theorem getPresentValue_apply (n : ℤ) (s : BacnetServer) :
    getPresentValue n s =
      ((s.analogValues.lookup n).elim (.error .keyError) fun analogValue => .ok analogValue.presentValue, s) := by
  unfold getPresentValue
  rw [Py.get_bind]
  cases s.analogValues.lookup n <;> rfl

/-- `get_present_value` returns what was set last, and what it returned before for every other instance. -/
theorem getPresentValue_setPresentValue {n : ℤ} {value : PyFloat} {s : BacnetServer}
    (h : (setPresentValue n value s).1 = .ok ()) (m : ℤ) :
    (getPresentValue m (setPresentValue n value s).2).1 = if m = n then .ok value else (getPresentValue m s).1 := by
  rw [setPresentValue_apply] at h ⊢
  split_ifs at h ⊢ with hn hm
  · subst hm
    obtain ⟨analogValue, hav⟩ := Option.isSome_iff_exists.1 hn
    rw [getPresentValue_apply, BacnetServer.writePresentValue, Dict.lookup_modify, if_pos rfl, hav]
    rfl
  · rw [getPresentValue_apply, getPresentValue_apply, BacnetServer.writePresentValue, Dict.lookup_modify, if_neg hm]

/-- Every step applies the write it acknowledges, to a value that is there, or leaves the server as it is. -/
theorem step_log (e : Event) (s : BacnetServer) :
    (Acknowledged (e, (step e s).1) ∧
      ∃ write, Asks (e, (step e s).1) write ∧ (s.analogValues.lookup write.1).isSome ∧
        (step e s).2 = { s with analogValues := applyWrite s.analogValues write }) ∨
    (¬ Acknowledged (e, (step e s).1) ∧ (step e s).2 = s) := by
  cases e with
  | datagram payload =>
    rcases handleDatagram_cases payload s with ⟨invokeId, n, b, parameters, hr, hw, hn, h⟩ | ⟨hs, hack⟩
    · refine .inl ⟨?_, (n, floatOfBytes b), .datagram hr hw, hn, ?_⟩
      · simp only [step, h, Acknowledged, isSimpleAck_bareDatagram]
        rfl
      · simp only [step, h]
        rfl
    · refine .inr ⟨?_, hs⟩
      simp only [step]
      rcases h : (handleDatagram payload s).1 with e | _ | reply
      · exact id
      · exact id
      · exact hack reply h
  | setPresentValue n value =>
    simp only [step, setPresentValue_apply]
    split_ifs with hn
    · exact .inl ⟨trivial, (n, value), .setPresentValue, hn, rfl⟩
    · exact .inr ⟨id, rfl⟩

theorem step_of_not_acknowledged {e : Event} {s : BacnetServer} (h : ¬ Acknowledged (e, (step e s).1)) :
    (step e s).2 = s := by
  rcases step_log e s with ⟨ha, -⟩ | ⟨-, hs⟩
  · exact absurd ha h
  · exact hs

theorem step_device (e : Event) (s : BacnetServer) : (step e s).2.device = s.device := by
  rcases step_log e s with ⟨-, write, -, -, hs⟩ | ⟨-, hs⟩ <;> rw [hs]

/-! ## Reading -/

/-- Parameters that ask for the present value of the analog value `n`. -/
inductive ReadsPresentValue (n : ℕ) (parameters : Bytes) : Prop
  | mk {oid p : Bytes} : Reference oid p parameters → objectTypeOf oid = objectTypeAnalogValue →
      instanceOf oid = n → ByteOrder.big.decode p = propertyPresentValue → ReadsPresentValue n parameters

/-- The ComplexACK that carries the REAL `b` as the present value of `n`. -/
def presentValueAck (invokeId : UInt8) (n : ℕ) (b : Bytes) : Bytes :=
  0x30 :: invokeId :: 0x0C :: 0x0C :: (ByteOrder.big.encode 4 (objectTypeAnalogValue <<< 22 ||| n) ++
    0x19 :: 0x55 :: openingTag :: 0x44 :: (b ++ [closingTag]))

theorem buildReadAck_presentValue (invokeId : UInt8) {n : ℕ} (hn : n < 2 ^ 22) (b : Bytes) :
    buildReadAck invokeId.toNat objectTypeAnalogValue n propertyPresentValue (0x44 :: b) =
      .ok (presentValueAck invokeId n b) := by
  obtain ⟨property, hprop, -, hack⟩ :=
    buildReadAck_ok invokeId (show objectTypeAnalogValue < 1024 by simp) hn
      (Nat.lt_of_lt_of_le (show propertyPresentValue < 256 ^ 1 by simp) (Nat.pow_le_pow_right (by simp)
        (by simp))) (0x44 :: b)
  have h85 : encodeContextUnsigned contextTagPropertyIdentifier propertyPresentValue = .ok [0x19, 0x55] := by decide
  rw [h85] at hprop
  cases hprop
  rw [hack]
  rfl

theorem answerReadProperty_of_reads {n : ℕ} {parameters : Bytes} (h : ReadsPresentValue n parameters)
    (invokeId : UInt8) (s : BacnetServer) :
    answerReadProperty s invokeId.toNat parameters =
      chain (readAnalogValueProperty s n propertyPresentValue) fun propertyValue =>
        (buildReadAck invokeId.toNat objectTypeAnalogValue n propertyPresentValue propertyValue).map some := by
  obtain ⟨hr, ht, hn, hp⟩ := h
  simp only [answerReadProperty, parsePropertyReference_eq_some.2 ⟨_, _, hr, ht, hn, hp⟩, chain_some,
    readProperty_analogValue]

theorem ReadsPresentValue.lt {n : ℕ} {parameters : Bytes} (h : ReadsPresentValue n parameters) : n < 2 ^ 22 := by
  obtain ⟨hr, -, rfl, -⟩ := h
  exact hr.bounds.2.1

/-- A present value is answered when all fields of its object can be encoded. -/
theorem answerReadProperty_present {n : ℕ} {parameters b : Bytes} (h : ReadsPresentValue n parameters)
    (invokeId : UInt8) {s : BacnetServer} {analogValue : BacnetAnalogValue}
    (hav : s.analogValues.lookup (n : ℤ) = some analogValue) (he : analogValue.Encodes)
    (hb : packFloat analogValue.presentValue = .ok b) :
    answerReadProperty s invokeId.toNat parameters = .ok (some (presentValueAck invokeId n b)) := by
  obtain ⟨r, hr⟩ := (readAnalogValueProperty_ok_iff hav propertyPresentValue).2 ⟨he, b, hb⟩
  obtain ⟨b', hb', rfl⟩ := readAnalogValueProperty_presentValue hav hr
  cases hb.symm.trans hb'
  rw [answerReadProperty_of_reads h, hr, chain_some, buildReadAck_presentValue invokeId h.lt]
  rfl

/-- A present value that is answered is the one in the store. -/
theorem answerReadProperty_current {n : ℕ} {parameters reply : Bytes} (h : ReadsPresentValue n parameters)
    (invokeId : UInt8) {s : BacnetServer}
    (ha : answerReadProperty s invokeId.toNat parameters = .ok (some reply)) :
    ∃ analogValue b, s.analogValues.lookup (n : ℤ) = some analogValue ∧ analogValue.Encodes ∧
      packFloat analogValue.presentValue = .ok b ∧ reply = presentValueAck invokeId n b := by
  rw [answerReadProperty_of_reads h] at ha
  obtain ⟨v, hv, ha⟩ := chain_eq_some ha
  cases hav : s.analogValues.lookup (n : ℤ) with
  | none =>
    rw [readAnalogValueProperty_none hav] at hv
    cases hv
  | some analogValue =>
    obtain ⟨he, -⟩ := (readAnalogValueProperty_ok_iff hav propertyPresentValue).1 ⟨_, hv⟩
    obtain ⟨b, hb, hvb⟩ := readAnalogValueProperty_presentValue hav hv
    cases hvb
    rw [buildReadAck_presentValue invokeId h.lt] at ha
    cases ha
    exact ⟨analogValue, b, rfl, he, hb, rfl⟩

/-- A reply to ReadProperty of a present value carries the current one. -/
theorem handleDatagram_current {payload parameters reply : Bytes} {invokeId : UInt8} {n : ℕ}
    (hr : Requests (.readProperty invokeId parameters) payload) (hreads : ReadsPresentValue n parameters)
    {s : BacnetServer} (h : (handleDatagram payload s).1 = .ok (some reply)) :
    ∃ analogValue b, s.analogValues.lookup (n : ℤ) = some analogValue ∧ analogValue.Encodes ∧
      packFloat analogValue.presentValue = .ok b ∧ reply = bareDatagram (presentValueAck invokeId n b) := by
  obtain ⟨request, apdu, hr', ha, rfl⟩ := handleDatagram_eq_some h
  cases hr.unique hr'
  rw [serve_readProperty] at ha
  obtain ⟨analogValue, b, hav, he, hb, rfl⟩ := answerReadProperty_current hreads invokeId ha
  exact ⟨analogValue, b, hav, he, hb, rfl⟩

/-! ## Runs -/

/-- What a write never touches. -/
def BacnetAnalogValue.constant (analogValue : BacnetAnalogValue) : ℤ × String × String × ℤ :=
  (analogValue.inst, analogValue.objectName, analogValue.description, analogValue.units)

theorem lookup_applyWrite_constant (analogValues : Dict BacnetAnalogValue) (write : ℤ × PyFloat) (n : ℤ) :
    ((applyWrite analogValues write).lookup n).map BacnetAnalogValue.constant =
      (analogValues.lookup n).map BacnetAnalogValue.constant :=
  Dict.lookup_modify_map _ _ _ fun _ => rfl

theorem lookup_foldl_constant (n : ℤ) :
    ∀ (writes : List (ℤ × PyFloat)) (analogValues : Dict BacnetAnalogValue),
      ((writes.foldl applyWrite analogValues).lookup n).map BacnetAnalogValue.constant =
        (analogValues.lookup n).map BacnetAnalogValue.constant
  | [], _ => rfl
  | write :: writes, analogValues => by
    rw [List.foldl_cons, lookup_foldl_constant n writes, lookup_applyWrite_constant]

/-- No step adds or removes an analog value. -/
theorem isSome_lookup_step (e : Event) (s : BacnetServer) (n : ℤ) :
    ((step e s).2.analogValues.lookup n).isSome = (s.analogValues.lookup n).isSome := by
  rcases step_log e s with ⟨-, write, -, -, hs⟩ | ⟨-, hs⟩
  · have hconstant := congrArg Option.isSome (lookup_applyWrite_constant s.analogValues write n)
    rw [hs]
    simpa using hconstant
  · rw [hs]

/-- The instances of analog values are those of the configuration. -/
def BacnetServer.HasInstancesOf (config : BacnetServerConfig) (s : BacnetServer) : Prop :=
  ∀ n, (s.analogValues.lookup n).isSome = (config.analogValues.lookup n).isSome

section Instances

variable {config : BacnetServerConfig} {s : BacnetServer}

theorem BacnetServer.HasInstancesOf.step (h : s.HasInstancesOf config) (e : Event) :
    (step e s).2.HasInstancesOf config :=
  fun n => (isSome_lookup_step e s n).trans (h n)

/-- A step applies a write to an instance of the configuration and acknowledges it, or does neither. -/
theorem BacnetServer.HasInstancesOf.step_log (h : s.HasInstancesOf config) (e : Event) :
    (Acknowledged (e, (Bacnet.step e s).1) ∧ ∃ write,
      (Asks (e, (Bacnet.step e s).1) write ∧ (config.analogValues.lookup write.1).isSome) ∧
      (Bacnet.step e s).2.analogValues = applyWrite s.analogValues write) ∨
    (¬ Acknowledged (e, (Bacnet.step e s).1) ∧ (Bacnet.step e s).2.analogValues = s.analogValues) := by
  rcases Bacnet.step_log e s with ⟨ha, write, hw, hn, hs⟩ | ⟨hn, hs⟩
  · exact .inl ⟨ha, write, ⟨hw, h write.1 ▸ hn⟩, by rw [hs]⟩
  · exact .inr ⟨hn, by rw [hs]⟩

end Instances

/-- The analog values after a run are the initial ones with the acknowledged writes applied in order, each to a
value that is there. A datagram that is not acknowledged changes nothing; instances, names, descriptions and
units stay; a present value that is answered is the current one. -/
theorem analogValues_log (config : BacnetServerConfig) (events : List Event) :
    (∃ writes, Log Asks Acknowledged (trace step events (.init config)) writes ∧
      (∀ writes', Log Asks Acknowledged (trace step events (.init config)) writes' → writes' = writes) ∧
      (∀ write ∈ writes, (config.analogValues.lookup write.1).isSome) ∧
      (final step events (.init config)).analogValues = writes.foldl applyWrite config.analogValues ∧
      (final step events (.init config)).device = config.device) ∧
    (∀ payload, ¬ Acknowledged (.datagram payload, (step (.datagram payload) (final step events (.init config))).1) →
      final step (events ++ [.datagram payload]) (.init config) = final step events (.init config)) ∧
    (∀ n, ((final step events (.init config)).analogValues.lookup n).map BacnetAnalogValue.constant =
      (config.analogValues.lookup n).map BacnetAnalogValue.constant) ∧
    (∀ payload invokeId parameters n reply, Requests (.readProperty invokeId parameters) payload →
      ReadsPresentValue n parameters →
      (handleDatagram payload (final step events (.init config))).1 = .ok (some reply) →
      ∃ analogValue b, (final step events (.init config)).analogValues.lookup (n : ℤ) = some analogValue ∧
        packFloat analogValue.presentValue = .ok b ∧ reply = bareDatagram (presentValueAck invokeId n b)) := by
  have hdevice : (final step events (.init config)).device = config.device :=
    final_invariant (I := fun s => s.device = config.device) (fun e s h => (step_device e s).trans h) events rfl
  have hrun : ∃ writes, Log (fun x write => Asks x write ∧ (config.analogValues.lookup write.1).isSome) Acknowledged
      (trace step events (.init config)) writes ∧
      (final step events (.init config)).analogValues = writes.foldl applyWrite config.analogValues :=
    final_eq_foldl_of BacnetServer.analogValues (fun e _ (hs : BacnetServer.HasInstancesOf config _) => hs.step e)
      (fun e _ hs => hs.step_log e) events fun _ => rfl
  obtain ⟨writes, hshown, hfold⟩ := hrun
  have hlog : Log Asks Acknowledged (trace step events (.init config)) writes := hshown.imp fun _ _ h => h.1
  have hthere := hshown.forall_mem fun _ _ h => h.2
  refine ⟨⟨writes, hlog, fun writes' h => h.unique Asks.unique hlog, hthere, hfold, hdevice⟩, ?_, ?_, ?_⟩
  · intro payload hn
    rw [final_snoc]
    exact step_of_not_acknowledged hn
  · intro n
    rw [hfold, lookup_foldl_constant]
  · intro payload invokeId parameters n reply hr hreads h
    obtain ⟨analogValue, b, hav, -, hb, hreply⟩ := handleDatagram_current hr hreads h
    exact ⟨analogValue, b, hav, hb, hreply⟩

end Cursus.Bacnet
