/-
What a UDP network may do to the datagrams of `cursus/bacnet/server.py`. A datagram is about one analog
value or about none, and datagrams about different values commute; a datagram that comes a second time at
once gets the same answer and changes nothing. So a network that swaps the ones and repeats the others is
not noticed, and a value may be left alone without any other client seeing it.
-/
import Cursus.Bacnet.RoundTrip
import Cursus.Run.Commute

namespace Cursus.Bacnet

open Cursus.Python Cursus.Run

/-! ## What an event is about -/

/-- The event reads a property of the analog value `n`, or asks to write its present value. -/
inductive Event.About (n : ℤ) : Event → Prop
  | reads {payload parameters : Bytes} {invokeId : UInt8} {inst p : ℕ} :
      Requests (.readProperty invokeId parameters) payload →
      parsePropertyReference parameters = .ok (some (objectTypeAnalogValue, inst, p)) → n = inst →
      Event.About n (.datagram payload)
  | writes {payload parameters b : Bytes} {invokeId : UInt8} {inst : ℕ} :
      Requests (.writeProperty invokeId parameters) payload → WritesPresentValue inst b parameters → n = inst →
      Event.About n (.datagram payload)
  | setPresentValue {value : PyFloat} : Event.About n (.setPresentValue n value)

/-- No analog value is what both events are about. -/
def Independent (e f : Event) : Prop := ∀ n, e.About n → ¬ f.About n

/-- The server behind a write, or behind none. -/
def BacnetServer.written (s : BacnetServer) : Option (ℤ × PyFloat) → BacnetServer
  | none => s
  | some (n, value) => s.writePresentValue n value

/-- The states agree on the device and on what the event is about. -/
structure Agree (e : Event) (s s' : BacnetServer) : Prop where
  device : s'.device = s.device
  lookup : ∀ n, e.About n → s'.analogValues.lookup n = s.analogValues.lookup n

section Agree

variable {s s' : BacnetServer}

theorem readProperty_agree {objectType inst p : ℕ} (hdevice : s'.device = s.device)
    (hlookup : objectType = objectTypeAnalogValue →
      s'.analogValues.lookup (inst : ℤ) = s.analogValues.lookup (inst : ℤ)) :
    readProperty s' objectType inst p = readProperty s objectType inst p := by
  unfold readProperty
  rw [hdevice]
  split_ifs with hd ha
  · rfl
  · unfold readAnalogValueProperty
    rw [hlookup ha]
  · rfl

/-- On states that agree, an event has the same outcome and the same effect, which is a write of what it is
about or none. -/
theorem step_agree {e : Event} (h : Agree e s s') : ∃ write, (∀ n value, write = some (n, value) → e.About n) ∧
    (step e s).2 = s.written write ∧ step e s' = ((step e s).1, s'.written write) := by
  cases e with
  | setPresentValue n value =>
    simp only [step, setPresentValue_apply, h.lookup n .setPresentValue]
    split_ifs
    · refine ⟨some (n, value), ?_, rfl, rfl⟩
      rintro m w ⟨⟩
      exact .setPresentValue
    · exact ⟨none, by rintro _ _ ⟨⟩, rfl, rfl⟩
  | datagram payload =>
    by_cases hr : ∃ request, Requests request payload
    swap
    · simp only [step, handleDatagram_of_not_requests (not_exists.1 hr)]
      exact ⟨none, by rintro _ _ ⟨⟩, rfl, rfl⟩
    obtain ⟨request, hr⟩ := hr
    simp only [step, handleDatagram_of_requests hr]
    cases request with
    | whoIs parameters =>
      simp only [serve_whoIs, h.device]
      exact ⟨none, by rintro _ _ ⟨⟩, rfl, rfl⟩
    | readProperty invokeId parameters =>
      have hanswer : answerReadProperty s' invokeId.toNat parameters = answerReadProperty s invokeId.toNat parameters := by
        unfold answerReadProperty
        rcases hparse : parsePropertyReference parameters with e | _ | ⟨objectType, inst, p⟩
        · rfl
        · rfl
        · have hread : readProperty s' objectType inst p = readProperty s objectType inst p := by
            refine readProperty_agree h.device ?_
            rintro rfl
            exact h.lookup _ (.reads hr hparse rfl)
          simp only [chain_some, hread]
      simp only [serve_readProperty, hanswer]
      exact ⟨none, by rintro _ _ ⟨⟩, rfl, rfl⟩
    | writeProperty invokeId parameters =>
      simp only [serve_writeProperty]
      by_cases hw : ∃ n b, WritesPresentValue n b parameters
      · obtain ⟨n, b, hw⟩ := hw
        have habout : Event.About (n : ℤ) (.datagram payload) := .writes hr hw rfl
        simp only [handleWriteProperty_of_writes hw, h.lookup n habout]
        split_ifs
        · refine ⟨some (n, floatOfBytes b), ?_, rfl, rfl⟩
          rintro m w ⟨⟩
          exact habout
        · exact ⟨none, by rintro _ _ ⟨⟩, rfl, rfl⟩
      · simp only [not_exists] at hw
        simp only [handleWriteProperty_of_not_writes hw]
        exact ⟨none, by rintro _ _ ⟨⟩, rfl, rfl⟩

end Agree

/-! ## Events that commute -/

section Commute

variable {s : BacnetServer}

theorem written_device (write : Option (ℤ × PyFloat)) : (s.written write).device = s.device := by
  rcases write with _ | ⟨n, value⟩ <;> rfl

theorem lookup_written {write : Option (ℤ × PyFloat)} {m : ℤ} (h : ∀ value, write ≠ some (m, value)) :
    (s.written write).analogValues.lookup m = s.analogValues.lookup m := by
  rcases write with _ | ⟨n, value⟩
  · rfl
  · have hne : m ≠ n := by
      rintro rfl
      exact h value rfl
    exact (Dict.lookup_modify ..).trans (if_neg hne)

/-- Writes of different analog values commute. -/
theorem written_comm {w w' : Option (ℤ × PyFloat)}
    (h : ∀ n value n' value', w = some (n, value) → w' = some (n', value') → n ≠ n') :
    (s.written w).written w' = (s.written w').written w := by
  rcases w with _ | ⟨n, value⟩
  · rfl
  rcases w' with _ | ⟨n', value'⟩
  · rfl
  have hne := h n value n' value' rfl rfl
  simp only [BacnetServer.written, BacnetServer.writePresentValue, BacnetServer.mk.injEq, true_and]
  refine Finmap.ext_lookup fun m => ?_
  simp only [Dict.lookup_modify]
  split_ifs with h1 h2
  · exact absurd (h2.symm.trans h1) hne
  · rfl
  · rfl
  · rfl

/-- An event does not see what an independent one does. -/
theorem agree_of_independent {e f : Event} (h : Independent e f) {w : Option (ℤ × PyFloat)}
    (hw : ∀ n value, w = some (n, value) → e.About n) : Agree f s (s.written w) :=
  ⟨written_device w, fun n hn => lookup_written fun value hvalue => h n (hw n value hvalue) hn⟩

theorem commutes_of_independent {e f : Event} (h : Independent e f) : Commutes step e f := by
  intro s
  have h' : Independent f e := fun n hf he => h n he hf
  obtain ⟨w, hw, hstate, -⟩ := step_agree (e := e) (s := s) ⟨rfl, fun _ _ => rfl⟩
  obtain ⟨w', hw', hstate', hafter'⟩ := step_agree (agree_of_independent h hw)
  obtain ⟨v, hv, hsame, hafter⟩ := step_agree (agree_of_independent h' hw')
  rw [hstate', hstate, hafter', hafter]
  refine ⟨rfl, rfl, ?_⟩
  have hcomm : (s.written v).written w' = (s.written w').written v := by
    refine written_comm fun n value n' value' hn hn' heq => ?_
    subst heq
    exact h n (hv n value hn) (hw' n value' hn')
  rw [← hcomm, ← hsame, hstate]

/-- What was done to the value at once before is not done again. -/
theorem written_self (write : Option (ℤ × PyFloat)) : (s.written write).written write = s.written write := by
  rcases write with _ | ⟨n, value⟩
  · rfl
  · simp only [BacnetServer.written, BacnetServer.writePresentValue, BacnetServer.mk.injEq, true_and]
    refine Finmap.ext_lookup fun m => ?_
    simp only [Dict.lookup_modify]
    split_ifs
    · rw [Option.map_map]
      rfl
    · rfl

/-- A datagram that comes a second time at once is answered as before and changes nothing. -/
theorem repeats_datagram (payload : Bytes) : Repeats step (.datagram payload) := by
  intro s
  rcases handleDatagram_cases payload s with ⟨invokeId, n, b, parameters, hr, hw, hn, h⟩ | ⟨h, -⟩
  · have hstep : step (.datagram payload) s = (.answered (.ok (some (bareDatagram [0x20, invokeId, 0x0F]))),
        s.writePresentValue n (floatOfBytes b)) := by
      rw [step, h]
    have hn' : ((s.writePresentValue n (floatOfBytes b)).analogValues.lookup (n : ℤ)).isSome := by
      rw [BacnetServer.writePresentValue, Dict.lookup_modify, if_pos rfl]
      exact (Option.isSome_map ..).trans hn
    have hself : (s.writePresentValue n (floatOfBytes b)).writePresentValue n (floatOfBytes b) =
        s.writePresentValue n (floatOfBytes b) := written_self (some ((n : ℤ), floatOfBytes b))
    rw [hstep, step, handleDatagram_of_requests hr, serve_writeProperty, handleWriteProperty_of_writes hw, if_pos hn',
      encapsulate_some (by simp), hself]
  · have hstate : (step (.datagram payload) s).2 = s := h
    rw [hstate]

end Commute

/-! ## The network -/

/-- A network that swaps neighbours about different analog values, and repeats datagrams before anything
else arrives. The labels tell the datagrams apart. -/
def Network {ι : Type} : List (ι × Event) → List (ι × Event) → Prop :=
  Delivers (fun e f => Independent e.2 f.2) fun e => ∃ payload, e.2 = .datagram payload

/-- What such a network does is not seen: the analog values in the end are the same, and every copy of a
datagram gets the answer that the datagram gets. -/
theorem network_unseen {ι : Type} (s : BacnetServer) {es es' : List (ι × Event)} (h : Network es es') :
    final (labelled step) es' s = final (labelled step) es s ∧
      ∀ x, x ∈ trace (labelled step) es' s ↔ x ∈ trace (labelled step) es s := by
  refine h.same (fun e f hef => ?_) (fun e he => ?_) s
  · exact commutes_of_independent hef
  · obtain ⟨payload, he⟩ := he
    intro s
    rw [labelled, labelled, he]
    exact repeats_datagram payload s

/-- A WriteProperty is about the analog value that it writes, and no other one. -/
theorem eq_of_about_writeDatagram {invokeId : UInt8} {n : ℕ} {m : ℤ} {b : Bytes} (hn : n < 2 ^ 22) (hb : b.length = 4)
    (hc : closingTag ∉ b) (h : Event.About m (.datagram (writeDatagram invokeId n b))) : m = n := by
  have hr := requests_writeDatagram invokeId n hb
  rcases h with ⟨hr', -, -⟩ | ⟨hr', hw, rfl⟩
  · cases hr.unique hr'
  · cases hr.unique hr'
    rw [(hw.unique (writesPresentValue_writeParameters hn hb hc)).1]

/-- WriteProperty of 10.0 and 12.5 to the first two analog values. -/
def sentWrites : List (ℕ × Event) :=
  [(0, .datagram (writeDatagram 7 1 [0x41, 0x20, 0x00, 0x00])), (1, .datagram (writeDatagram 8 2 [0x41, 0x48, 0x00, 0x00]))]

/-- The datagrams have changed places, and one comes twice. -/
def arrivedWrites : List (ℕ × Event) :=
  [(1, .datagram (writeDatagram 8 2 [0x41, 0x48, 0x00, 0x00])), (1, .datagram (writeDatagram 8 2 [0x41, 0x48, 0x00, 0x00])),
    (0, .datagram (writeDatagram 7 1 [0x41, 0x20, 0x00, 0x00]))]

theorem network_unseen_swapped :
    final (labelled step) arrivedWrites (.init {}) = final (labelled step) sentWrites (.init {}) ∧
      ∀ x, x ∈ trace (labelled step) arrivedWrites (.init {}) ↔ x ∈ trace (labelled step) sentWrites (.init {}) := by
  have hind : Independent (.datagram (writeDatagram 7 1 [0x41, 0x20, 0x00, 0x00]))
      (.datagram (writeDatagram 8 2 [0x41, 0x48, 0x00, 0x00])) := by
    intro n h h'
    have hn := eq_of_about_writeDatagram (by decide) rfl (by decide) h
    cases hn.symm.trans (eq_of_about_writeDatagram (by decide) rfl (by decide) h')
  exact network_unseen (.init {}) (.trans (.swap hind) (.again ⟨_, rfl⟩))

/-! ## Leaving values alone -/

/-- Whatever is done to analog values that the rest of a run is not about does not show in the rest. -/
theorem outcomes_without (s : BacnetServer) (keep : Event → Bool) (es : List Event)
    (h : ∀ e ∈ es, ∀ f ∈ es, keep e = false → keep f = true → Independent e f) :
    (trace step es s).filter (fun x => keep x.1) = trace step (es.filter keep) s :=
  trace_filter keep (fun e he f hf hdrop hkeep => commutes_of_independent (h e he f hf hdrop hkeep)) s

/-- Without the writes of the first analog value, those of the second one are answered as before. -/
theorem outcomes_without_first :
    (trace step [.setPresentValue 1 (floatOfBytes [0, 0, 0, 0]), .setPresentValue 2 (floatOfBytes [0x41, 0x48, 0, 0])]
        (.init {})).filter (fun x => match x.1 with | .setPresentValue n _ => n != 1 | .datagram _ => true) =
      trace step [.setPresentValue 2 (floatOfBytes [0x41, 0x48, 0, 0])] (.init {}) :=
  outcomes_without (.init {}) (fun | .setPresentValue n _ => n != 1 | .datagram _ => true)
    [.setPresentValue 1 (floatOfBytes [0, 0, 0, 0]), .setPresentValue 2 (floatOfBytes [0x41, 0x48, 0, 0])]
    fun e he f hf hdrop hkeep n hen hfn => by
      simp only [List.mem_cons, List.not_mem_nil, or_false] at he hf
      rcases he with rfl | rfl <;> rcases hf with rfl | rfl <;> cases hen <;> cases hfn <;> simp at hdrop hkeep

end Cursus.Bacnet
