/-
The threads of `cursus/bacnet/server.py`. `ThreadingUDPServer` handles every datagram in a thread of its own,
and the program around the server calls `get_present_value` and `set_present_value` from its threads. They
interleave between the accesses to the analog values: a write is one section under the lock, and a read
looks the object up under the lock and reads its fields behind it.
-/
import Cursus.Bacnet.Store
import Cursus.Run.Sections

namespace Cursus.Bacnet

open Cursus.Python Cursus.Run

namespace Threaded

/-! ## The layers -/

/-- A method whose accesses to the server are sections; what is between them touches no field that
changes. -/
abbrev Method (α : Type) := ExceptT PyError (Sections BacnetServer) α

def atomically {α : Type} (x : Py BacnetServer α) : Method α := Sections.atomically x

/-- `_read_analog_value_property`. -/
def readAnalogValueProperty (inst propertyIdentifier : ℕ) : Method (Option Bytes) := do
  let found ← atomically fun s => (.ok (s.analogValues.lookup (inst : ℤ)).isSome, s)
  if ¬ found then return none
  -- an object is never replaced, so the one found is the one there now; its fields are read without the lock
  atomically fun s => (Bacnet.readAnalogValueProperty s inst propertyIdentifier, s)

/-- `_read_property`. -/
def readProperty (objectType inst propertyIdentifier : ℕ) : Method (Option Bytes) := do
  let device ← atomically fun s => (.ok s.device, s)
  if objectType = objectTypeDevice ∧ (inst : ℤ) = device.inst then
    liftM (readDeviceProperty device propertyIdentifier)
  else if objectType = objectTypeAnalogValue then readAnalogValueProperty inst propertyIdentifier
  else return none

/-- `_write_property`. -/
def writeProperty (objectType inst propertyIdentifier : ℕ) (propertyValue : Bytes) : Method Bool := do
  if objectType ≠ objectTypeAnalogValue ∨ propertyIdentifier ≠ propertyPresentValue then return false
  let some decodedValue ← (liftM (decodeApplicationReal propertyValue) : Method _) | return false
  atomically do
    let s : BacnetServer ← get
    match s.analogValues.lookup (inst : ℤ) with
    | none => return false
    | some analogValue =>
      set { s with
        analogValues := s.analogValues.insert (inst : ℤ) { analogValue with presentValue := decodedValue } }
      return true

/-- `_handle_read_property`. -/
def handleReadProperty (invokeId : ℕ) (payload : Bytes) : Method (Option Bytes) := do
  let some (objectType, inst, propertyIdentifier) ← (liftM (parsePropertyReference payload) : Method _) | return none
  let some propertyValue ← readProperty objectType inst propertyIdentifier | return none
  return some (← liftM (buildReadAck invokeId objectType inst propertyIdentifier propertyValue))

/-- `_handle_write_property`. -/
def handleWriteProperty (invokeId : ℕ) (payload : Bytes) : Method (Option Bytes) := do
  let some (objectType, inst, propertyIdentifier, propertyValue) ←
    (liftM (parseWritePropertyRequest payload) : Method _) | return none
  if ¬ (← writeProperty objectType inst propertyIdentifier propertyValue) then return none
  return some (← liftM (bytesOf [pduTypeSimpleAck, invokeId, serviceWriteProperty]))

/-- `_handle_unconfirmed_request`. -/
def handleUnconfirmedRequest (apdu : Bytes) : Method (Option Bytes) := do
  let serviceChoice ← (liftM (index apdu 1) : Method _)
  if serviceChoice ≠ serviceWhoIs then return none
  let (lowerLimit, upperLimit) ← (liftM (parseWhoIsLimits (apdu.drop 2)) : Method _)
  let device ← atomically fun s => (.ok s.device, s)
  if ∃ lower ∈ lowerLimit, device.inst < lower then return none
  if ∃ upper ∈ upperLimit, device.inst > upper then return none
  return some (← liftM (buildIAmApdu device))

/-- `_handle_confirmed_request`. -/
def handleConfirmedRequest (apdu : Bytes) : Method (Option Bytes) := do
  if apdu.length < confirmedRequestHeaderSize then return none
  let invokeId ← (liftM (index apdu 2) : Method _)
  let serviceChoice ← (liftM (index apdu 3) : Method _)
  let serviceRequest := apdu.drop 4
  if serviceChoice = serviceReadProperty then handleReadProperty invokeId serviceRequest
  else if serviceChoice = serviceWriteProperty then handleWriteProperty invokeId serviceRequest
  else return none

/-- `_handle_apdu`. -/
def handleApdu (apdu : Bytes) : Method (Option Bytes) := do
  if apdu.length < npduHeaderSize then return none
  let pduType := (← (liftM (index apdu 0) : Method _)) &&& 0xF0
  if pduType = pduTypeUnconfirmedRequest then handleUnconfirmedRequest apdu
  else if pduType = pduTypeConfirmedRequest then handleConfirmedRequest apdu
  else return none

/-- `_handle_npdu`. -/
def handleNpdu (npdu : Bytes) : Method (Option Bytes) := do
  if npdu.length < npduHeaderSize then return none
  if (← (liftM (index npdu 0) : Method _)) ≠ npduVersion then return none
  let some offset ← (liftM (apduOffset npdu) : Method _) | return none
  let some responseApdu ← handleApdu (npdu.drop offset) | return none
  return some ((← liftM (bytesOf [npduVersion, npduControlNoExpectingReply])) ++ responseApdu)

/-- `handle_datagram` on the payload of the packet. -/
def handleDatagram (payload : Bytes) : Method (Option Bytes) := do
  if payload.length < bvlcHeaderSize then return none
  if (← (liftM (index payload 0) : Method _)) ≠ bvlcTypeBacnetIp then return none
  let bvlcFunction ← (liftM (index payload 1) : Method _)
  if bvlcFunction ≠ bvlcOriginalUnicastNpdu ∧ bvlcFunction ≠ bvlcOriginalBroadcastNpdu then return none
  liftM (checkSize 2 (slice payload 2 4))
  let bvlcLength := uintAt .big 2 (slice payload 2 4) 0
  if bvlcLength ≠ payload.length then return none
  let some responseNpdu ← handleNpdu (payload.drop bvlcHeaderSize) | return none
  return some (← liftM (buildBvlc bvlcOriginalUnicastNpdu responseNpdu))

/-! ## One effective section -/

/-- What the other threads may do meanwhile: the device stays, and so do the objects that there are. -/
def Keeps (s s' : BacnetServer) : Prop :=
  s'.device = s.device ∧ ∀ n, (s'.analogValues.lookup n).isSome = (s.analogValues.lookup n).isSome

theorem Keeps.refl (s : BacnetServer) : Keeps s s := ⟨rfl, fun _ => rfl⟩

theorem Keeps.trans (s s' s'' : BacnetServer) (h : Keeps s s') (h' : Keeps s' s'') : Keeps s s'' :=
  ⟨h'.1.trans h.1, fun n => (h'.2 n).trans (h.2 n)⟩

variable {s : BacnetServer}

/-- The method does in one of its sections what the method without sections does. -/
def Performs {α : Type} (spec : Py BacnetServer α) (x : Method α) (s : BacnetServer) : Prop :=
  Sections.Performs Keeps spec x s

theorem performs_pure {α : Type} (a : α) : Performs (pure a) (pure a : Method α) s := fun _ _ => rfl

theorem performs_atomically {α : Type} (x : Py BacnetServer α) : Performs x (atomically x) s :=
  Sections.performs_atomically s

/-- Work in front of the first section. -/
theorem performs_lift_bind {α β : Type} (x : Except PyError α) {k : α → Py BacnetServer β} {k' : α → Method β}
    (h : ∀ a, x = .ok a → Performs (k a) (k' a) s) :
    Performs (liftM x >>= k) ((liftM x : Method α) >>= k') s := by
  cases x with
  | ok a => exact h a rfl
  | error e => exact fun _ _ => rfl

/-- Work behind the last section. -/
theorem performs_bind {α β : Type} {spec : Py BacnetServer α} {x : Method α} (h : Performs spec x s)
    {k : α → Py BacnetServer β} {k' : α → Method β} {f : α → Except PyError β} (hk : ∀ a s, k a s = (f a, s))
    (hk' : ∀ a, k' a = Sections.done (f a)) : Performs (spec >>= k) (x >>= k') s := by
  have hmap := Sections.Performs.map (fun r : Except PyError α => r >>= f) h
  have hbind : Sections.map (fun r : Except PyError α => r >>= f) x = x >>= k' := by
    refine congrArg (Sections.bind x) (funext fun r => ?_)
    cases r with
    | ok a => exact (hk' a).symm
    | error e => rfl
  rw [hbind] at hmap
  refine (funext fun s' => ?_ : (fun s => ((spec s).1 >>= f, (spec s).2)) = spec >>= k) ▸ hmap
  rcases hspec : spec s' with ⟨e | a, s''⟩
  · rw [Py.bind_of_error hspec]
    rfl
  · rw [Py.bind_of_ok hspec, hk]
    rfl

/-- Work behind the last section that needs a result. -/
theorem performs_chain {α β : Type} {spec : Py BacnetServer (Option α)} {x : Method (Option α)}
    (h : Performs spec x s) {k : Option α → Py BacnetServer (Option β)} {k' : Option α → Method (Option β)}
    {f : α → Except PyError (Option β)} (hnone : ∀ s, k none s = (.ok none, s))
    (hsome : ∀ a s, k (some a) s = (f a, s)) (hnone' : k' none = Sections.done (.ok none))
    (hsome' : ∀ a, k' (some a) = Sections.done (f a)) : Performs (spec >>= k) (x >>= k') s := by
  refine performs_bind h (f := fun o => o.elim (.ok none) f) (fun o s => ?_) fun o => ?_
  · cases o with
    | none => exact hnone s
    | some a => exact hsome a s
  · cases o with
    | none => exact hnone'
    | some a => exact hsome' a

theorem lift_bind_pure {α β : Type} (x : Except PyError α) (f : α → β) :
    ((liftM x : Method α) >>= fun a => pure (f a)) = Sections.done (x.map f) := by
  cases x <;> rfl

/-- The device does not change, so it does not matter when it is read. -/
theorem performs_device {α : Type} {spec : Py BacnetServer α} {k : BacnetDevice → Method α}
    {g : BacnetDevice → Except PyError α} (hspec : ∀ s, spec s = (g s.device, s))
    (hk : ∀ device, k device = Sections.done (g device)) :
    Performs spec (atomically (fun s => (.ok s.device, s)) >>= k) s := by
  intro s' _
  refine .inl ⟨rfl, ?_⟩
  show Sections.Performs Keeps spec (k s'.device) s'
  rw [hk]
  intro s'' hs
  rw [hspec, hs.1]

theorem performs_ite {α : Type} {c : Prop} [Decidable c] {spec spec' : Py BacnetServer α} {x x' : Method α}
    (h : c → Performs spec x s) (h' : ¬ c → Performs spec' x' s) :
    Performs (if c then spec else spec') (if c then x else x') s := by
  split_ifs with hc
  · exact h hc
  · exact h' hc

/-! ## The methods -/

theorem performs_readAnalogValueProperty (inst p : ℕ) :
    Performs (fun s => (Bacnet.readAnalogValueProperty s inst p, s)) (readAnalogValueProperty inst p) s := by
  intro s' _
  left
  refine ⟨rfl, ?_⟩
  show Sections.Performs _ _ (ite _ _ _) _
  cases hfound : (s'.analogValues.lookup (inst : ℤ)).isSome with
  | true => exact performs_atomically _
  | false =>
    intro s'' hs
    have hnone : s''.analogValues.lookup (inst : ℤ) = none := by
      rw [← Option.not_isSome_iff_eq_none, hs.2, hfound]
      nofun
    exact congrArg (·, s'') (readAnalogValueProperty_none hnone p)

theorem performs_readProperty (objectType inst p : ℕ) :
    Performs (fun s => (Bacnet.readProperty s objectType inst p, s)) (readProperty objectType inst p) s := by
  intro s' _
  left
  refine ⟨rfl, ?_⟩
  show Sections.Performs _ _ (ite _ _ (ite _ _ _)) _
  split_ifs with hdevice hanalog
  · intro s'' hs
    show (Bacnet.readProperty s'' objectType inst p, s'') = (readDeviceProperty s'.device p, s'')
    rw [Bacnet.readProperty, hs.1, if_pos hdevice]
  · subst hanalog
    simp only [readProperty_analogValue]
    exact performs_readAnalogValueProperty inst p
  · intro s'' hs
    show (Bacnet.readProperty s'' objectType inst p, s'') = (.ok none, s'')
    rw [Bacnet.readProperty, hs.1, if_neg hdevice, if_neg hanalog]

theorem performs_writeProperty (objectType inst p : ℕ) (v : Bytes) :
    Performs (Bacnet.writeProperty objectType inst p v) (writeProperty objectType inst p v) s := by
  unfold Bacnet.writeProperty writeProperty
  refine performs_ite (fun _ => performs_pure false) fun _ => ?_
  refine performs_lift_bind _ fun decoded _ => ?_
  cases decoded with
  | none => exact performs_pure false
  | some value => exact performs_atomically _

theorem performs_handleReadProperty (invokeId : ℕ) (payload : Bytes) :
    Performs (Bacnet.handleReadProperty invokeId payload) (handleReadProperty invokeId payload) s := by
  unfold Bacnet.handleReadProperty handleReadProperty
  refine performs_lift_bind _ fun parsed _ => ?_
  rcases parsed with _ | ⟨objectType, inst, p⟩
  · exact performs_pure none
  · exact performs_chain (performs_readProperty objectType inst p) (fun _ => rfl)
      (fun v s => Py.lift_bind_pure (buildReadAck invokeId objectType inst p v) some s) rfl
      fun v => lift_bind_pure (buildReadAck invokeId objectType inst p v) some

theorem performs_handleWriteProperty (invokeId : ℕ) (payload : Bytes) :
    Performs (Bacnet.handleWriteProperty invokeId payload) (handleWriteProperty invokeId payload) s := by
  unfold Bacnet.handleWriteProperty handleWriteProperty
  refine performs_lift_bind _ fun parsed _ => ?_
  rcases parsed with _ | ⟨objectType, inst, p, v⟩
  · exact performs_pure none
  · refine performs_bind (performs_writeProperty objectType inst p v)
      (f := fun written => if ¬ written then .ok none else
        (bytesOf [pduTypeSimpleAck, invokeId, serviceWriteProperty]).map some) (fun written s => ?_) fun written => ?_
    · cases written with
      | false => rfl
      | true => exact Py.lift_bind_pure (bytesOf [pduTypeSimpleAck, invokeId, serviceWriteProperty]) some s
    · cases written with
      | false => rfl
      | true => exact lift_bind_pure (bytesOf [pduTypeSimpleAck, invokeId, serviceWriteProperty]) some

theorem performs_handleUnconfirmedRequest (apdu : Bytes) :
    Performs (Bacnet.handleUnconfirmedRequest apdu) (handleUnconfirmedRequest apdu) s := by
  unfold Bacnet.handleUnconfirmedRequest handleUnconfirmedRequest
  refine performs_lift_bind _ fun serviceChoice _ => performs_ite (fun _ => performs_pure none) fun _ => ?_
  refine performs_lift_bind _ fun limits _ => ?_
  obtain ⟨lowerLimit, upperLimit⟩ := limits
  refine performs_device (g := fun device =>
    if ∃ lower ∈ lowerLimit, device.inst < lower then .ok none
    else if ∃ upper ∈ upperLimit, device.inst > upper then .ok none
    else (buildIAmApdu device).map some) (fun s => ?_) fun device => ?_
  · simp only [Py.get_bind, Py.ite_apply]
    split_ifs
    · rfl
    · rfl
    · exact Py.lift_bind_pure _ some s
  · show ite _ _ (ite _ _ _) = _
    split_ifs
    · rfl
    · rfl
    · exact lift_bind_pure _ some

theorem performs_handleConfirmedRequest (apdu : Bytes) :
    Performs (Bacnet.handleConfirmedRequest apdu) (handleConfirmedRequest apdu) s := by
  unfold Bacnet.handleConfirmedRequest handleConfirmedRequest
  refine performs_ite (fun _ => performs_pure none) fun _ => ?_
  refine performs_lift_bind _ fun invokeId _ => performs_lift_bind _ fun serviceChoice _ => ?_
  refine performs_ite (fun _ => performs_handleReadProperty _ _) fun _ => ?_
  exact performs_ite (fun _ => performs_handleWriteProperty _ _) fun _ => performs_pure none

theorem performs_handleApdu (apdu : Bytes) : Performs (Bacnet.handleApdu apdu) (handleApdu apdu) s := by
  unfold Bacnet.handleApdu handleApdu
  refine performs_ite (fun _ => performs_pure none) fun _ => performs_lift_bind _ fun octet _ => ?_
  refine performs_ite (fun _ => performs_handleUnconfirmedRequest apdu) fun _ => ?_
  exact performs_ite (fun _ => performs_handleConfirmedRequest apdu) fun _ => performs_pure none

theorem performs_handleNpdu (npdu : Bytes) : Performs (Bacnet.handleNpdu npdu) (handleNpdu npdu) s := by
  unfold Bacnet.handleNpdu handleNpdu
  refine performs_ite (fun _ => performs_pure none) fun _ => performs_lift_bind _ fun version _ => ?_
  refine performs_ite (fun _ => performs_pure none) fun _ => performs_lift_bind _ fun offset _ => ?_
  cases offset with
  | none => exact performs_pure none
  | some offset =>
    exact performs_chain (performs_handleApdu _) (fun _ => rfl)
      (fun apdu s => Py.lift_bind_pure _ (fun head => some (head ++ apdu)) s) rfl
      fun apdu => lift_bind_pure _ fun head => some (head ++ apdu)

theorem performs_handleDatagram (payload : Bytes) :
    Performs (Bacnet.handleDatagram payload) (handleDatagram payload) s := by
  unfold Bacnet.handleDatagram handleDatagram
  refine performs_ite (fun _ => performs_pure none) fun _ => performs_lift_bind _ fun type _ => ?_
  refine performs_ite (fun _ => performs_pure none) fun _ => performs_lift_bind _ fun function _ => ?_
  refine performs_ite (fun _ => performs_pure none) fun _ => performs_lift_bind _ fun _ _ => ?_
  refine performs_ite (fun _ => performs_pure none) fun _ => ?_
  exact performs_chain (performs_handleNpdu _) (fun _ => rfl)
    (fun npdu s => Py.lift_bind_pure _ some s) rfl fun npdu => lift_bind_pure _ some

/-- With no other thread in between, a datagram is handled as by the method without sections. -/
theorem run_handleDatagram (payload : Bytes) (s : BacnetServer) :
    Sections.run (handleDatagram payload) s = Bacnet.handleDatagram payload s :=
  Sections.Performs.run Keeps.refl (performs_handleDatagram payload)

end Threaded

/-! ## The threads -/

/-- What a thread calls. -/
inductive Call
  | handleDatagram (payload : Bytes)
  | getPresentValue (inst : ℤ)
  | setPresentValue (inst : ℤ) (value : PyFloat)

/-- What a call returns or raises. -/
inductive Returned
  | response (result : Except PyError (Option Bytes))
  | value (result : Except PyError PyFloat)
  | done (result : Except PyError Unit)

/-- The calls as threads make them. -/
def Call.body : Call → Sections BacnetServer Returned
  | .handleDatagram payload => Sections.map .response (Threaded.handleDatagram payload)
  | .getPresentValue inst => Sections.map .value (Threaded.atomically (Bacnet.getPresentValue inst))
  | .setPresentValue inst value => Sections.map .done (Threaded.atomically (Bacnet.setPresentValue inst value))

/-- The calls one at a time. -/
def callStep : Step BacnetServer Call Returned
  | .handleDatagram payload, s => (.response (handleDatagram payload s).1, (handleDatagram payload s).2)
  | .getPresentValue inst, s => (.value (getPresentValue inst s).1, (getPresentValue inst s).2)
  | .setPresentValue inst value, s => (.done (setPresentValue inst value s).1, (setPresentValue inst value s).2)

theorem performs_body (call : Call) (s : BacnetServer) :
    (call.body).Performs Threaded.Keeps (callStep call) s := by
  cases call with
  | handleDatagram payload => exact (Threaded.performs_handleDatagram payload).map Returned.response
  | getPresentValue inst => exact (Threaded.performs_atomically (getPresentValue inst)).map Returned.value
  | setPresentValue inst value => exact (Threaded.performs_atomically (setPresentValue inst value)).map Returned.done

theorem keeps_writePresentValue (n : ℤ) (value : PyFloat) (s : BacnetServer) :
    Threaded.Keeps s (s.writePresentValue n value) := by
  refine ⟨rfl, fun m => ?_⟩
  rw [BacnetServer.writePresentValue, Dict.lookup_modify]
  split_ifs
  · exact Option.isSome_map ..
  · rfl

theorem keeps_callStep (call : Call) (s : BacnetServer) : Threaded.Keeps s (callStep call s).2 := by
  cases call with
  | handleDatagram payload =>
    rcases handleDatagram_cases payload s with ⟨invokeId, n, b, parameters, -, -, -, h⟩ | ⟨h, -⟩
    · rw [callStep, h]
      exact keeps_writePresentValue ..
    · rw [callStep, h]
      exact .refl s
  | getPresentValue inst =>
    rw [callStep, getPresentValue_apply]
    exact .refl s
  | setPresentValue inst value =>
    rw [callStep, setPresentValue_apply]
    split_ifs
    · exact keeps_writePresentValue ..
    · exact .refl s

/-- Whatever way the threads interleave, what they see is what whole calls one after the other would have
shown them, each taking effect between its beginning and its return. -/
theorem threads_linearize {κ : Type} [DecidableEq κ] (config : BacnetServerConfig) (turns : List (κ × ThreadTurn Call)) :
    Linearizes callStep (.init config) (history (Pool.step Call.body) Pool.see turns (Pool.init (.init config)))
      (final (Pool.step Call.body) turns (Pool.init (.init config))).shared :=
  Pool.linearizes Threaded.Keeps.refl Threaded.Keeps.trans keeps_callStep performs_body turns _

end Cursus.Bacnet
