/-
The assemblies of `cursus/enip/server.py` as a memory: a SendRRData that asks to read or to write the data of
an assembly is answered, when it is executed, as a memory of the assemblies answers. Whichever way the threads
of the connections interleave, their accesses and the calls of `set_assembly_data` are a run of the memory.
-/
import Cursus.Enip.Assembly
import Cursus.Enip.Bounds
import Cursus.Enip.DeadSession
import Cursus.Run.Memory

namespace Cursus.Enip

open Cursus.Python Cursus.Run

/-! ## Accesses -/

/-- The assemblies are the cells. -/
def EnipServer.cells (s : EnipServer) : ℤ → Option Bytes := fun inst => s.assemblies.lookup inst

/-- The access that a SendRRData asks for. -/
inductive AsksFor (payload : Bytes) : Access ℤ Bytes → Prop
  | read {inst : ℕ} : Reads payload inst → AsksFor payload (.read inst)
  | write {inst : ℕ} {data : Bytes} : Writes payload inst data → AsksFor payload (.write inst data)

/-- What the reply to an access says. -/
def answerOf (reply : Bytes) : Option (Answer Bytes) :=
  if encapStatus reply ≠ encapStatusSuccess then none
  else if reply[42]? = some (UInt8.ofNat cipStatusSuccess) then
    some (if reply[40]? = some 0x90 then .done else .value (reply.drop 44))
  else if reply[42]? = some (UInt8.ofNat cipStatusPathDestinationUnknown) then some .missing
  else none

/-- The data of the assemblies is short enough to be sent. -/
def EnipServer.Sendable (s : EnipServer) : Prop :=
  ∀ inst data, s.assemblies.lookup inst = some data → data.length ≤ maxAssemblyLength

section Access

variable {s : EnipServer}

theorem cells_setAssemblyData (inst : ℤ) (data : Bytes) (s : EnipServer) :
    (setAssemblyData inst data s).cells = Function.update s.cells inst (some data) := by
  funext n
  by_cases hn : n = inst
  · subst hn
    rw [Function.update_self]
    exact Finmap.lookup_insert ..
  · rw [Function.update_of_ne hn]
    exact Finmap.lookup_insert_of_ne _ hn

theorem EnipServer.Sendable.setAssemblyData (hs : s.Sendable) {inst : ℤ} {data : Bytes}
    (hdata : data.length ≤ maxAssemblyLength) : (setAssemblyData inst data s).Sendable := by
  intro n value hv
  have hcells := congrFun (cells_setAssemblyData inst data s) n
  simp only [EnipServer.cells, hv] at hcells
  by_cases hn : n = inst
  · subst hn
    rw [Function.update_self] at hcells
    cases hcells
    exact hdata
  · rw [Function.update_of_ne hn] at hcells
    exact hs n value hcells.symm

/-- The CIP response to an access: it is the answer of the memory. -/
def responseOf (service : ℕ) : Answer Bytes → Bytes
  | .value data => cipReply service cipStatusSuccess data
  | .done => cipReply service cipStatusSuccess []
  | .missing => cipReply service cipStatusPathDestinationUnknown []

theorem memory_read (inst : ℤ) (s : EnipServer) :
    memory (.read inst) s.cells =
      (match s.assemblies.lookup inst with | some data => .value data | none => .missing, s.cells) := by
  cases hlookup : s.assemblies.lookup inst <;> simp [memory, EnipServer.cells, hlookup]

theorem getAttribute_assembly (inst : ℕ) (s : EnipServer) :
    getAttribute s assemblyClass inst assemblyDataAttribute =
      match s.assemblies.lookup (inst : ℤ) with
      | some data => .ok (data, cipStatusSuccess)
      | none => .ok ([], cipStatusPathDestinationUnknown) := by
  unfold getAttribute
  rw [if_neg (by simp), if_pos rfl, if_neg (not_not_intro rfl)]
  cases s.assemblies.lookup (inst : ℤ) <;> rfl

/-- A read is answered with the data of the assembly. -/
theorem dispatchService_read {service : ℕ} {attr : Option ℕ} {inst : ℕ} (data : Bytes)
    (h : service = cipServiceGetAttributesAll ∨
      service = cipServiceGetAttributeSingle ∧ attr = some assemblyDataAttribute) (s : EnipServer) :
    dispatchService service assemblyClass inst attr data s =
      (.ok (responseOf service (memory (.read (inst : ℤ)) s.cells).1), s) := by
  rw [memory_read]
  rcases h with rfl | ⟨rfl, rfl⟩
  · unfold dispatchService
    rw [if_pos rfl, Py.get_bind]
    unfold getAttributesAll
    rw [if_neg (by simp), if_pos rfl, getAttribute_assembly]
    cases s.assemblies.lookup (inst : ℤ) <;> rfl
  · unfold dispatchService
    rw [if_neg (by decide), if_pos rfl]
    simp only [Py.get_bind, getAttribute_assembly]
    cases s.assemblies.lookup (inst : ℤ) <;> rfl

theorem memory_write (inst : ℤ) (data : Bytes) (s : EnipServer) :
    memory (.write inst data) s.cells =
      if s.assemblies.lookup inst = none then (.missing, s.cells) else (.done, (setAssemblyData inst data s).cells) := by
  rw [cells_setAssemblyData]
  cases hlookup : s.assemblies.lookup inst <;> simp [memory, EnipServer.cells, hlookup]

/-- A write stores its data when the assembly is there. -/
theorem dispatchService_write {inst : ℕ} (data : Bytes) (s : EnipServer) :
    dispatchService cipServiceSetAttributeSingle assemblyClass inst (some assemblyDataAttribute) data s =
      (.ok (responseOf cipServiceSetAttributeSingle (memory (.write (inst : ℤ) data) s.cells).1),
        if s.assemblies.lookup (inst : ℤ) = none then s else setAssemblyData inst data s) := by
  have hset : setAttribute assemblyClass inst assemblyDataAttribute data s =
      if s.assemblies.lookup (inst : ℤ) = none then (.ok cipStatusPathDestinationUnknown, s)
      else (.ok cipStatusSuccess, setAssemblyData inst data s) := by
    unfold setAttribute
    rw [if_pos rfl, if_neg (not_not_intro rfl), Py.get_bind]
    split_ifs <;> rfl
  unfold dispatchService
  rw [if_neg (by decide), if_neg (by decide), if_pos rfl, memory_write]
  show (setAttribute assemblyClass inst assemblyDataAttribute data >>= _) s = _
  split_ifs at hset ⊢
  · rw [Py.bind_of_ok hset]
    rfl
  · rw [Py.bind_of_ok hset]
    rfl

/-! ## Answers -/

/-- The services that ask for an access. -/
inductive ServiceOf : Access ℤ Bytes → ℕ → Prop
  | all {inst : ℤ} : ServiceOf (.read inst) cipServiceGetAttributesAll
  | single {inst : ℤ} : ServiceOf (.read inst) cipServiceGetAttributeSingle
  | write {inst : ℤ} {data : Bytes} : ServiceOf (.write inst data) cipServiceSetAttributeSingle

theorem handleSendRrData_of_dispatch {payload cipRequest data response : Bytes} {timeout : ℕ} {service : UInt8}
    {classCode inst : ℕ} {attr : Option ℕ} {s s' : EnipServer} (hcarries : Carries payload timeout cipRequest)
    (hasks : Asks cipRequest service classCode inst attr data)
    (hdispatch : dispatchService service.toNat classCode inst attr data s = (.ok response, s')) :
    handleSendRrData payload s = ((packRrData timeout response).map some, s') := by
  rw [handleSendRrData_of_carries hcarries, handleCipRequest_of_asks hasks, hdispatch]
  rfl

/-- A SendRRData that asks for an access is answered as the memory answers, and leaves what it leaves. -/
theorem handleSendRrData_memory {payload : Bytes} {access : Access ℤ Bytes} (h : AsksFor payload access)
    (s : EnipServer) :
    ∃ timeout service, timeout < 256 ^ 2 ∧ ServiceOf access service ∧
      (handleSendRrData payload s).1 = (packRrData timeout (responseOf service (memory access s.cells).1)).map some ∧
      (handleSendRrData payload s).2.cells = (memory access s.cells).2 := by
  cases h with
  | @read inst hreads =>
    obtain ⟨timeout, cipRequest, data, hcarries, hasks⟩ := hreads
    obtain ⟨-, -, htimeout, -⟩ := id hcarries
    rcases hasks with hasks | ⟨attr, hasks⟩
    · rw [handleSendRrData_of_dispatch hcarries hasks (dispatchService_read data (.inr ⟨rfl, rfl⟩) s)]
      exact ⟨timeout, _, htimeout, .single, rfl, by rw [memory_read]⟩
    · rw [handleSendRrData_of_dispatch hcarries hasks (dispatchService_read data (.inl rfl) s)]
      exact ⟨timeout, _, htimeout, .all, rfl, by rw [memory_read]⟩
  | @write inst data hwrites =>
    obtain ⟨timeout, cipRequest, hcarries, hasks⟩ := hwrites
    obtain ⟨-, -, htimeout, -⟩ := id hcarries
    rw [handleSendRrData_of_dispatch hcarries hasks (dispatchService_write data s)]
    refine ⟨timeout, _, htimeout, .write, rfl, ?_⟩
    rw [memory_write]
    split_ifs <;> rfl

/-- The reply says the answer of the memory. -/
theorem answerOf_carryReply {f : EncapsulationFrame} {timeout service : ℕ} {access : Access ℤ Bytes} {s : EnipServer}
    (hservice : ServiceOf access service) {reply : Bytes}
    (h : carryReply f timeout (responseOf service (memory access s.cells).1) = .ok (some reply)) :
    answerOf reply = some (memory access s.cells).1 := by
  obtain ⟨hstatus, hdrop⟩ := carryReply_eq_ok h
  have h0 := getElem?_of_drop hdrop 0
  have h2 := getElem?_of_drop hdrop 2
  have h4 : reply.drop 44 = (responseOf service (memory access s.cells).1).drop 4 := by
    rw [← hdrop, List.drop_drop]
  unfold answerOf
  rw [if_neg (not_not_intro hstatus), h0, h2, h4]
  cases hservice with
  | all | single =>
    rw [memory_read]
    cases s.assemblies.lookup _ <;> rfl
  | @write inst data =>
    rw [memory_write]
    by_cases hnone : s.assemblies.lookup inst = none
    · rw [if_pos hnone]
      rfl
    · rw [if_neg hnone]
      rfl

theorem length_responseOf {service : ℕ} {access : Access ℤ Bytes} {s : EnipServer} (hs : s.Sendable)
    (hservice : ServiceOf access service) :
    (responseOf service (memory access s.cells).1).length ≤ 4 + maxAssemblyLength := by
  have hempty : ∀ status, (cipReply service status []).length ≤ 4 + maxAssemblyLength := by
    intro status
    rw [length_cipReply]
    simp
  cases hservice with
  | @all inst | @single inst =>
    rw [memory_read]
    cases hlookup : s.assemblies.lookup inst with
    | none => exact hempty _
    | some data =>
      have hdata := hs inst data hlookup
      show (cipReply _ cipStatusSuccess data).length ≤ _
      rw [length_cipReply]
      omega
  | write =>
    rw [memory_write]
    split_ifs <;> exact hempty _

/-- A write leaves data that a SendRRData can carry. -/
theorem EnipServer.Sendable.memory {payload : Bytes} (hpayload : payload.length < 256 ^ 2) {access : Access ℤ Bytes}
    (h : AsksFor payload access) {s s' : EnipServer} (hs : s.Sendable)
    (hcells : s'.cells = (Run.memory access s.cells).2) : s'.Sendable := by
  cases h with
  | read hreads =>
    rw [memory_read] at hcells
    intro inst data hdata
    exact hs inst data ((congrFun hcells inst).symm.trans hdata)
  | write hwrites =>
    rw [memory_write] at hcells
    split_ifs at hcells
    · intro inst data hdata
      exact hs inst data ((congrFun hcells inst).symm.trans hdata)
    · intro inst data hdata
      exact hs.setAssemblyData (hwrites.length_le hpayload) inst data ((congrFun hcells inst).symm.trans hdata)

/-- Behind the session test an access gets the answer of the memory. -/
theorem executeSendRrData_memory {frame : WireFrame} {access : Access ℤ Bytes} (h : AsksFor frame.payload access)
    {s : Scope} (hs : s.server.Sendable) :
    ∃ reply, (executeSendRrData frame.toEncapsulationFrame s).1 = .ok (some reply) ∧
      answerOf reply = some (memory access s.server.cells).1 ∧
      (executeSendRrData frame.toEncapsulationFrame s).2.server.cells = (memory access s.server.cells).2 ∧
      (executeSendRrData frame.toEncapsulationFrame s).2.server.Sendable := by
  obtain ⟨timeout, service, htimeout, hservice, hresult, hcells⟩ := handleSendRrData_memory h s.server
  have hlen := length_responseOf hs hservice
  obtain ⟨reply, hreply⟩ := exists_carryReply (f := frame.toEncapsulationFrame) frame.command_lt frame.sessionHandle_lt
    htimeout (show 16 + (responseOf service (memory access s.server.cells).1).length < 256 ^ 2 by
      unfold maxAssemblyLength at hlen
      omega)
  rw [executeSendRrData_eq, hresult]
  exact ⟨reply, hreply, answerOf_carryReply hservice hreply, hcells, .memory frame.length_payload_lt h hs hcells⟩

end Access

/-! ## Threads -/

variable {κ : Type}

/-- The access that a turn executes. -/
inductive TurnAccess (s : Threads κ) : Turn κ → Access ℤ Bytes → Prop
  | execute {c : κ} {frame : WireFrame} {access : Access ℤ Bytes} : s.threads c = .tested frame →
      AsksFor frame.payload access → TurnAccess s (.execute c) access
  | setAssemblyData {inst : ℤ} {data : Bytes} : TurnAccess s (.setAssemblyData inst data) (.put inst data)

/-- What the turn answers. -/
def turnAnswer : Turn κ → Option (Call κ) → Option (Answer Bytes)
  | .setAssemblyData _ _, none => some .done
  | _, some ⟨_, _, .ok (some reply)⟩ => answerOf reply
  | _, _ => none

/-- The turn executes the access and answers it. -/
def ShowsAccess (x : ThreadStep κ) (entry : Access ℤ Bytes × Answer Bytes) : Prop :=
  TurnAccess x.before x.event entry.1 ∧ turnAnswer x.event x.outcome = some entry.2

/-- What is put can be sent. -/
def Turn.Fits : Turn κ → Prop
  | .setAssemblyData _ data => data.length ≤ maxAssemblyLength
  | _ => True

variable [DecidableEq κ]

/-- A turn is an access to the memory, or leaves it alone. -/
theorem turn_memory (e : Turn κ) {s : Threads κ} (hs : s.server.Sendable) :
    ((∃ access, TurnAccess s e access) ∧ ∃ access,
      ShowsAccess ⟨s, e, (Threads.step e s).1, (Threads.step e s).2⟩ (access, (memory access s.server.cells).1) ∧
        (memory access s.server.cells).2 = (Threads.step e s).2.server.cells) ∨
    (¬ (∃ access, TurnAccess s e access) ∧ (Threads.step e s).2.server.cells = s.server.cells) := by
  by_cases h : ∃ access, TurnAccess s e access
  · refine .inl ⟨h, ?_⟩
    obtain ⟨access, h⟩ := h
    refine ⟨access, ?_⟩
    cases h with
    | @execute c frame access htested hasks =>
      obtain ⟨reply, hreply, hanswer, hcells, -⟩ := executeSendRrData_memory hasks (s := s.scope c) hs
      have hstep : Threads.step (.execute c) s =
          s.complete c frame (executeSendRrData frame.toEncapsulationFrame (s.scope c)) := by
        rw [Threads.step, htested]
      refine ⟨⟨.execute htested hasks, ?_⟩, ?_⟩
      · rw [hstep]
        simp only [Threads.complete, hreply]
        exact hanswer
      · rw [hstep]
        exact hcells.symm
    | setAssemblyData => exact ⟨⟨.setAssemblyData, rfl⟩, (cells_setAssemblyData ..).symm⟩
  · refine .inr ⟨h, ?_⟩
    have hset : ∀ inst data, e ≠ .setAssemblyData inst data := by
      rintro inst data rfl
      exact h ⟨_, .setAssemblyData⟩
    have hwrites : ∀ c frame, ¬ WritesAssembly c frame s e := by
      rintro c frame ⟨rfl, htested, inst, data, hwrites, -⟩
      exact h ⟨_, .execute htested (.write hwrites)⟩
    unfold EnipServer.cells
    rw [assemblies_of_not_writes hset hwrites]

theorem sendable_turn (e : Turn κ) {s : Threads κ} (he : e.Fits) (hs : s.server.Sendable) :
    (Threads.step e s).2.server.Sendable := by
  rcases turn_memory e hs with ⟨-, access, ⟨haccess, -⟩, hcells⟩ | ⟨-, hcells⟩
  · cases haccess with
    | @execute c frame access htested hasks => exact hs.memory frame.length_payload_lt hasks hcells.symm
    | setAssemblyData => exact hs.setAssemblyData he
  · intro inst data hdata
    exact hs inst data ((congrFun hcells inst).symm.trans hdata)

/-- In every run of the threads the accesses that are executed are a run of the memory, each answered as the
memory answers it; no other turn touches the memory. -/
theorem threads_refine_memory (ip : String) (port : ℤ) (config : EnipServerConfig)
    (hconfig : (EnipServer.init ip port config).Sendable) (turns : List (Turn κ)) (hturns : ∀ e ∈ turns, e.Fits) :
    Refines memory ShowsAccess (fun x => ∃ access, TurnAccess x.before x.event access)
      (EnipServer.init ip port config).cells (transitions Threads.step turns (.init ip port config))
      (final Threads.step turns (.init ip port config)).server.cells :=
  refines_of_steps (fun s : Threads κ => s.server.cells) (J := fun s : Threads κ => s.server.Sendable)
    (C := Turn.Fits) (fun e _ he hs => sendable_turn e he hs) (fun e _ _ hs => turn_memory e hs) turns hconfig hturns

theorem sendable_default : (EnipServer.init "127.0.0.1" 44818 {}).Sendable := inBounds_default.assemblies

/-- A connection writes an assembly while `set_assembly_data` makes another one. -/
def storingTurns : List (Turn Bool) :=
  [.take true registerFrame, .take true setAttributeFrame, .setAssemblyData 7 [1], .execute true]

theorem threads_refine_memory_storing :
    Refines memory ShowsAccess (fun x => ∃ access, TurnAccess x.before x.event access)
      (EnipServer.init "127.0.0.1" 44818 {}).cells
      (transitions Threads.step storingTurns (.init "127.0.0.1" 44818 {}))
      (final Threads.step storingTurns (.init "127.0.0.1" 44818 {})).server.cells :=
  threads_refine_memory "127.0.0.1" 44818 {} sendable_default storingTurns (by
    simp only [storingTurns, List.forall_mem_cons]
    exact ⟨trivial, trivial, show 1 ≤ 65515 by decide, trivial, nofun⟩)

end Cursus.Enip
