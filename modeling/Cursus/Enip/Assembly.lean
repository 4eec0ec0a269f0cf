/-
The assemblies of `cursus/enip/server.py` as a map: over any sequence of frames, of ends of
connections and of `set_assembly_data` calls they are the initial ones with the acknowledged writes
applied in order, and an assembly that is read is the one in the map.
-/
import Cursus.Enip.System

namespace Cursus.Enip

open Cursus.Python Cursus.Run

variable {κ : Type}

/-! ## Acknowledged writes -/

/-- The write was acknowledged to whoever asked for it: the reply has encapsulation status 0, CIP
service 0x90 and general status 0. -/
def Acknowledged : Event κ × Outcome → Prop
  | (.frame _ frame, .ok (some reply)) =>
    frame.command = commandSendRrData ∧ encapStatus reply = encapStatusSuccess ∧
      reply[40]? = some 0x90 ∧ reply[42]? = some 0
  | (.setAssemblyData _ _, _) => True
  | _ => False

theorem acknowledged_frame_iff {c : κ} {frame : WireFrame} {o : Outcome} :
    Acknowledged (.frame c frame, o) ↔ ∃ reply, o = .ok (some reply) ∧ frame.command = commandSendRrData ∧
      encapStatus reply = encapStatusSuccess ∧ reply[40]? = some 0x90 ∧ reply[42]? = some 0 := by
  rcases o with e | _ | reply
  · exact iff_of_false id (by simp)
  · exact iff_of_false id (by simp)
  · exact ⟨fun h => ⟨reply, rfl, h⟩, fun ⟨_, heq, h⟩ => by cases heq; exact h⟩

/-- The instance and the bytes that an event asks to write. -/
inductive AsksToWrite : Event κ × Outcome → ℤ × Bytes → Prop
  | frame {c : κ} {frame : WireFrame} {inst : ℕ} {data : Bytes} {o : Outcome} :
      Writes frame.payload inst data → AsksToWrite (.frame c frame, o) (inst, data)
  | setAssemblyData {inst : ℤ} {data : Bytes} {o : Outcome} :
      AsksToWrite (.setAssemblyData inst data, o) (inst, data)

theorem AsksToWrite.unique :
    ∀ (a : Event κ × Outcome) (w w' : ℤ × Bytes), AsksToWrite a w → AsksToWrite a w' → w = w'
  | _, _, _, .setAssemblyData, .setAssemblyData => rfl
  | _, _, _, .frame h, .frame h' => by
    obtain ⟨rfl, rfl⟩ := h.unique h'
    rfl

/-- One write to the map of assemblies. -/
def applyWrite (assemblies : Dict Bytes) (write : ℤ × Bytes) : Dict Bytes := assemblies.insert write.1 write.2

/-! ## One frame -/

variable [DecidableEq κ]

theorem assemblies_step_frame (c : κ) (frame : WireFrame) (s : System κ) :
    (step (.frame c frame) s).2.server.assemblies =
      (handleFrame frame.toEncapsulationFrame ⟨s.server, s.connections c⟩).2.server.assemblies := by
  rcases h : handleFrame frame.toEncapsulationFrame ⟨s.server, s.connections c⟩ with ⟨e | response, scope⟩
  · rw [step_of_error h, releaseSessions_eq]
  · rw [step_of_ok h]

theorem getElem?_of_drop {reply cipResponse : Bytes} (h : reply.drop 40 = cipResponse) (i : ℕ) :
    reply[40 + i]? = cipResponse[i]? := by
  rw [← h, List.getElem?_drop]

/-- A frame is an acknowledged write to an assembly that is there, or it changes no assembly and is
not acknowledged as a write. -/
theorem step_frame_log (c : κ) (frame : WireFrame) (s : System κ) :
    (Acknowledged (.frame c frame, (step (.frame c frame) s).1) ∧
      ∃ inst data, Writes frame.payload inst data ∧ s.server.assemblies.lookup (inst : ℤ) ≠ none ∧
        (step (.frame c frame) s).2.server.assemblies = s.server.assemblies.insert (inst : ℤ) data) ∨
    (¬ Acknowledged (.frame c frame, (step (.frame c frame) s).1) ∧
      (step (.frame c frame) s).2.server.assemblies = s.server.assemblies) := by
  rw [assemblies_step_frame, step_frame_fst]
  -- a frame with another command is not acknowledged as a write
  have hother : frame.command ≠ commandSendRrData → ∀ o, ¬ Acknowledged (.frame c frame, o) := by
    intro hcommand o h
    obtain ⟨reply, -, hsend, -⟩ := acknowledged_frame_iff.1 h
    exact hcommand hsend
  have hcases := handleFrame_cases frame.toEncapsulationFrame ⟨s.server, s.connections c⟩
  generalize handleFrame frame.toEncapsulationFrame ⟨s.server, s.connections c⟩ = result at hcases ⊢
  cases hcases with
  | registered hr => exact .inr ⟨hother (by rw [hr.2.1]; decide) _, rfl⟩
  | unregistered hu => exact .inr ⟨hother (by rw [hu.2]; decide) _, rfl⟩
  | written hs _ hwrites hlookup htimeout =>
    obtain ⟨reply, hreply⟩ := exists_carryReply frame.command_lt frame.sessionHandle_lt htimeout
      (show 16 + (cipReply 0x10 cipStatusSuccess []).length < 256 ^ 2 by decide)
    obtain ⟨hstatus, hdrop⟩ := carryReply_eq_ok hreply
    refine .inl ⟨acknowledged_frame_iff.2 ⟨reply, hreply, hs.2, hstatus, ?_, ?_⟩, _, _, hwrites, hlookup, rfl⟩
    · exact getElem?_of_drop hdrop 0
    · exact getElem?_of_drop hdrop 2
  | answered _ _ hunchanged _ =>
    refine .inr ⟨fun hack => ?_, rfl⟩
    obtain ⟨reply, hreply, -, -, h0, h2⟩ := acknowledged_frame_iff.1 hack
    obtain ⟨cipResponse, houtcome, hcarry⟩ := bind_eq_ok hreply
    obtain ⟨-, hdrop⟩ := carryReply_eq_ok hcarry
    rw [getElem?_of_drop hdrop 0] at h0
    rw [getElem?_of_drop hdrop 2] at h2
    exact hunchanged.not_written houtcome ⟨h0, h2⟩
  | failed hfails =>
    -- the status of the reply is the one of the failure
    refine .inr ⟨fun hack => ?_, rfl⟩
    obtain ⟨reply, hreply, -, hsuccess, -⟩ := acknowledged_frame_iff.1 hack
    exact hfails.status_ne ((isReply_of_map hreply).status_eq.symm.trans hsuccess)
  | quiet _ _ hcommand => exact .inr ⟨hother hcommand _, rfl⟩

theorem step_log (e : Event κ) (s : System κ) :
    (Acknowledged (e, (step e s).1) ∧ ∃ write, AsksToWrite (e, (step e s).1) write ∧
      (step e s).2.server.assemblies = applyWrite s.server.assemblies write) ∨
    (¬ Acknowledged (e, (step e s).1) ∧ (step e s).2.server.assemblies = s.server.assemblies) := by
  cases e with
  | frame c frame =>
    rcases step_frame_log c frame s with ⟨hack, inst, data, hwrites, -, h⟩ | h
    · exact .inl ⟨hack, (inst, data), .frame hwrites, h⟩
    · exact .inr h
  | close c =>
    right
    refine ⟨id, ?_⟩
    simp only [step, releaseSessions_eq]
  | setAssemblyData inst data => exact .inl ⟨trivial, (inst, data), .setAssemblyData, rfl⟩

/-- A frame adds no instance and removes none. -/
theorem isSome_lookup_step_frame (c : κ) (frame : WireFrame) (s : System κ) (inst : ℤ) :
    ((step (.frame c frame) s).2.server.assemblies.lookup inst).isSome = (s.server.assemblies.lookup inst).isSome := by
  rcases step_frame_log c frame s with ⟨-, n, data, -, hlookup, h⟩ | ⟨-, h⟩
  · rw [h]
    by_cases hn : inst = n
    · subst hn
      rw [Finmap.lookup_insert, Option.isSome_some]
      exact (Option.isSome_iff_ne_none.2 hlookup).symm
    · rw [Finmap.lookup_insert_of_ne _ hn]
  · rw [h]

/-- `get_assembly_data` returns what was set last, and what it returned before for every other instance. -/
theorem getAssemblyData_setAssemblyData (inst inst' : ℤ) (data : Bytes) (s : EnipServer) :
    getAssemblyData inst' (setAssemblyData inst data s) = if inst' = inst then .ok data else getAssemblyData inst' s := by
  unfold getAssemblyData setAssemblyData
  split_ifs with h
  · rw [h, Finmap.lookup_insert]
  · rw [Finmap.lookup_insert_of_ne _ h]

/-- An assembly that is answered is the current one. -/
theorem step_of_reads {c : κ} {frame : WireFrame} (hcommand : frame.command = commandSendRrData) {inst : ℕ}
    (hreads : Reads frame.payload inst) {s : System κ} {reply : Bytes}
    (hreply : (step (.frame c frame) s).1 = .ok (some reply)) (hstatus : encapStatus reply = encapStatusSuccess)
    (hcip : reply[42]? = some 0) : s.server.assemblies.lookup (inst : ℤ) = some (reply.drop 44) := by
  rw [step_frame_fst] at hreply
  by_cases hoptions : frame.options = 0
  swap
  · rw [handleFrame_of_options hoptions] at hreply
    exact absurd ((isReply_of_map hreply).status_eq.symm.trans hstatus) (by simp)
  have hs : frame.SendsRrData := ⟨hoptions, hcommand⟩
  by_cases hactive : frame.sessionHandle ∈ s.server.activeSessions
  swap
  · rw [handleFrame_of_inactive hs hactive] at hreply
    exact absurd ((isReply_of_map hreply).status_eq.symm.trans hstatus) (by simp)
  obtain ⟨timeout, service, status, data, hlt, hvalue, h⟩ := handleSendRrData_of_reads hreads s.server
  rw [handleFrame_of_active hs hactive, h] at hreply
  obtain ⟨-, hdrop⟩ := carryReply_eq_ok hreply
  have hzero : status = 0 := by
    rw [getElem?_of_drop hdrop 2] at hcip
    have hnat := congrArg UInt8.toNat (Option.some.inj hcip)
    rwa [UInt8.toNat_ofNat_of_lt' hlt] at hnat
  rw [hvalue hzero]
  have hdata : (reply.drop 40).drop 4 = data := by rw [hdrop]; rfl
  rw [List.drop_drop] at hdata
  exact congrArg some hdata.symm

/-! ## Runs -/

/-- The assemblies after a run are the initial ones with the acknowledged writes applied in order. A
frame that is not acknowledged as a write changes none, no frame adds or removes one, and the data
that a read is answered with is the current value. -/
theorem assemblies_log (ip : String) (port : ℤ) (config : EnipServerConfig) (es : List (Event κ)) :
    (∃ writes, Log AsksToWrite Acknowledged (trace step es (.init ip port config)) writes ∧
      (∀ writes', Log AsksToWrite Acknowledged (trace step es (.init ip port config)) writes' → writes' = writes) ∧
      (final step es (.init ip port config)).server.assemblies = writes.foldl applyWrite config.assemblies) ∧
    (∀ (c : κ) (frame : WireFrame),
      ¬ Acknowledged (.frame c frame, (step (.frame c frame) (final step es (.init ip port config))).1) →
        (final step (es ++ [.frame c frame]) (.init ip port config)).server.assemblies =
          (final step es (.init ip port config)).server.assemblies) ∧
    (∀ (c : κ) (frame : WireFrame) (inst : ℤ),
      ((final step (es ++ [.frame c frame]) (.init ip port config)).server.assemblies.lookup inst).isSome =
        ((final step es (.init ip port config)).server.assemblies.lookup inst).isSome) ∧
    (∀ (c : κ) (frame : WireFrame) (inst : ℕ) (reply : Bytes), frame.command = commandSendRrData →
      Reads frame.payload inst →
      (step (.frame c frame) (final step es (.init ip port config))).1 = .ok (some reply) →
      encapStatus reply = encapStatusSuccess → reply[42]? = some 0 →
        (final step es (.init ip port config)).server.assemblies.lookup (inst : ℤ) = some (reply.drop 44)) := by
  obtain ⟨writes, hlog, hfold⟩ :=
    @final_eq_foldl _ _ _ _ _ step AsksToWrite Acknowledged (fun s : System κ => s.server.assemblies) applyWrite
      step_log es (.init ip port config)
  refine ⟨⟨writes, hlog, fun writes' h => h.unique AsksToWrite.unique hlog, hfold⟩, ?_, ?_, ?_⟩
  · intro c frame hnot
    rw [final_snoc]
    rcases step_frame_log c frame (final step es (.init ip port config)) with ⟨hack, -⟩ | ⟨-, h⟩
    · exact absurd hack hnot
    · exact h
  · intro c frame inst
    rw [final_snoc]
    exact isSome_lookup_step_frame c frame _ inst
  · intro c frame inst reply hcommand hreads hreply hstatus hcip
    exact step_of_reads hcommand hreads hreply hstatus hcip

end Cursus.Enip
