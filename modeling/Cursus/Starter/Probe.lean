/-
The readiness probe of `cursus/starter.py` for BACnet, against the servers of `cursus/bacnet/server.py` that it
is sent to. The probe is a Who-Is, and any answer of an announcing device passes its test; a device that cannot
announce itself is never ready. The probes change nothing for the clients of the servers.
-/
import Cursus.Bacnet.Store
import Cursus.Bacnet.WhoIs
import Cursus.Starter.Ready

namespace Cursus

open Cursus.Python Cursus.Run Cursus.Bacnet

/-! ## The probe -/

def bacnetIpWhoIsRequest : Bytes := [0x81, 0x0A, 0x00, 0x08, 0x01, 0x00, 0x10, 0x08]

def bacnetIpIAmHeader : Bytes := [0x10, 0x00]

def bacnetReadinessResponseOffset : ℕ := 6

def bacnetMinResponseSize : ℕ := 8

/-- `_is_bacnet_server_ready`; `exchange` is what comes back for a datagram, or `none` for an `OSError` and for
the timeout. -/
def isBacnetServerReady (exchange : Bytes → Option Bytes) : Bool :=
  match exchange bacnetIpWhoIsRequest with
  | none => false
  | some datagram =>
    -- what `recvfrom(1024)` cuts off is lost
    let response := datagram.take 1024
    [0x81, 0x0A].isPrefixOf response && decide (bacnetMinResponseSize ≤ response.length) &&
      slice response bacnetReadinessResponseOffset (bacnetReadinessResponseOffset + bacnetIpIAmHeader.length) ==
        bacnetIpIAmHeader

/-- What comes back from a server; a handler that raises sends nothing. -/
def replyOf (server : BacnetServer) (datagram : Bytes) : Option Bytes :=
  match (handleDatagram datagram server).1 with
  | .ok response => response
  | .error _ => none

theorem requests_whoIsRequest : Requests (.whoIs []) bacnetIpWhoIsRequest :=
  show Requests (.whoIs []) (bareDatagram [0x10, 0x08]) from requests_bareDatagram (.whoIs rfl) (by simp)

theorem handleDatagram_whoIsRequest (server : BacnetServer) :
    handleDatagram bacnetIpWhoIsRequest server = (encapsulate ((buildIAmApdu server.device).map some), server) := by
  have hlimits : parseWhoIsLimits [] = .ok (none, none) := rfl
  have hadmits : Admits server.device.inst none none := ⟨nofun, nofun⟩
  rw [handleDatagram_of_requests requests_whoIsRequest, serve_whoIs, (answerWhoIs_of_limits hlimits).1 hadmits]

/-- A server answers the probe when its device can announce itself, and is silent otherwise. -/
theorem replyOf_whoIsRequest (server : BacnetServer) :
    (server.device.Announces ∧ ∃ apdu, IAm apdu ∧ replyOf server bacnetIpWhoIsRequest = some (bareDatagram apdu)) ∨
    (¬ server.device.Announces ∧ replyOf server bacnetIpWhoIsRequest = none) := by
  rw [← buildIAmApdu_ok_iff, replyOf, handleDatagram_whoIsRequest]
  rcases happ : buildIAmApdu server.device with e | apdu
  · exact .inr ⟨by rintro ⟨apdu, ⟨⟩⟩, rfl⟩
  · have hiam := iAm_of_buildIAmApdu happ
    refine .inl ⟨⟨apdu, rfl⟩, apdu, hiam, ?_⟩
    rw [Except.map, encapsulate_some hiam.length_lt]

/-- The probe passes iff the device announces itself. -/
theorem isBacnetServerReady_iff (server : BacnetServer) :
    isBacnetServerReady (replyOf server) = true ↔ server.device.Announces := by
  rcases replyOf_whoIsRequest server with ⟨hannounces, apdu, hiam, hreply⟩ | ⟨hnot, hreply⟩
  · refine iff_of_true ?_ hannounces
    obtain ⟨hi, lo, heq, -⟩ := bareDatagram_eq apdu
    rw [isBacnetServerReady, hreply, heq]
    cases hiam
    simp [bacnetMinResponseSize, bacnetReadinessResponseOffset, bacnetIpIAmHeader, slice]
  · refine iff_of_false ?_ hnot
    rw [isBacnetServerReady, hreply]
    exact Bool.false_ne_true

/-! ## Starting BACnet servers -/

/-- A `Starter` and the servers that it makes, by the number of their start. -/
structure BacnetStarter where
  starter : Starter
  servers : ℕ → BacnetServer

/-- A thread of the `Starter` is given a turn, or something happens to a server. What is left to the
surroundings: what raises, whether a probe finds a server thread, and whether its request and its response
arrive. -/
inductive BacnetTurn
  | startServer
  | stopServer
  | caller (raises : Bool)
  | server (n : ℕ) (raises : Bool)
  | monitor (n : ℕ) (asked : Option ℕ) (heard : Bool)
  | serve (n : ℕ) (event : Event)

namespace BacnetStarter

def init (config : BacnetServerConfig) : BacnetStarter := ⟨.init, fun _ => .init config⟩

/-- The server of a server thread, which has its socket only inside `start`. -/
def listening (s : BacnetStarter) (n : ℕ) : Option ℕ :=
  match s.starter.serverThreads n with
  | .start server => some server
  | _ => none

/-- The probe of a monitor; `asked` is the server thread that it finds at the port. -/
def reachable (s : BacnetStarter) (asked : Option ℕ) (heard : Bool) : Bool :=
  isBacnetServerReady fun datagram =>
    match asked.bind s.listening with
    | none => none
    | some k => if heard then replyOf (s.servers k) datagram else none

/-- What is left of the servers behind the probe. -/
def serversAsked (s : BacnetStarter) (asked : Option ℕ) : ℕ → BacnetServer :=
  match asked.bind s.listening with
  | none => s.servers
  | some k => Function.update s.servers k (handleDatagram bacnetIpWhoIsRequest (s.servers k)).2

/-- The turn of the `Starter`. -/
def turnOf (s : BacnetStarter) : BacnetTurn → Option Turn
  | .startServer => some .startServer
  | .stopServer => some .stopServer
  | .caller raises => some (.caller raises)
  | .server n raises => some (.server n raises)
  | .monitor n asked heard => some (.monitor n (s.reachable asked heard))
  | .serve _ _ => none

def next (e : BacnetTurn) (s : BacnetStarter) : BacnetStarter where
  starter := match s.turnOf e with
    | some turn => s.starter.next turn
    | none => s.starter
  servers := match e with
    | .monitor n asked _ => if s.starter.monitors n = .probing then s.serversAsked asked else s.servers
    -- a server is there once it has been made, and its handlers may outlast its `start`
    | .serve n event =>
      if n < s.starter.starts then Function.update s.servers n (Bacnet.step event (s.servers n)).2 else s.servers
    | _ => s.servers

def step : Step BacnetStarter BacnetTurn Unit := fun e s => ((), s.next e)

/-! ## What a probe can bring about -/

/-- The event is set, or a monitor is about to set it. -/
def Told (s : Starter) : Prop := s.readyEvent = true ∨ ∃ n, s.monitors n = .testReady ∨ s.monitors n = .setReady

/-- Only a probe that passes makes the event be set. -/
theorem told_of_next {s : Starter} (turn : Turn) : Told (s.next turn) → Told s ∨ ∃ n, turn = .monitor n true := by
  refine Starter.next_cases (motive := fun turn s' => Told s' → Told s ∨ ∃ n, turn = .monitor n true) turn
    (fun _ h => .inl h) (fun _ h => .inl h) (fun _ h => .inl h) (fun raises statement _ h => ?_)
    (fun raises statement _ h => ?_) (fun _ _ h => .inl h) (fun n reachable h => ?_)
  · cases statement with
    | construct => cases raises <;> exact .inl h
    | resetError | assignThread | startThread | sleep => exact .inl h
    | clear => exact .inl (h.imp_left (by rintro ⟨⟩))
    | startMonitor n =>
      refine .inl (h.imp_right ?_)
      rintro ⟨k, hk⟩
      by_cases hkn : k = n
      · subst hkn
        simp [Starter.startServer, Starter.setMonitor] at hk
      · exact ⟨k, by simpa [Starter.startServer, Starter.setMonitor, hkn] using hk⟩
  · cases statement with
    | getStop =>
      cases hserver : s.server with
      | none | some =>
        simp only [Starter.stopServer, hserver] at h
        exact .inl h
    | stop => cases raises <;> exact .inl h
    | clear => exact .inl (h.imp_left (by rintro ⟨⟩))
    | join | dropServer | dropThread | dropError => exact .inl h
  · have hself : (s.monitorServerReadiness n reachable).monitors n = s.monitorAfter reachable (s.monitors n) :=
      Function.update_self ..
    rcases h with hready | ⟨k, hk⟩
    · have hready : (s.readyEvent || s.monitors n == .setReady) = true := hready
      rw [Bool.or_eq_true, beq_iff_eq] at hready
      exact .inl (hready.imp_right fun hset => ⟨n, .inr hset⟩)
    · by_cases hkn : k = n
      · subst hkn
        rw [hself] at hk
        rcases Starter.monitorAfter_eq_succeeded hk with ⟨-, rfl⟩ | htest
        · exact .inr ⟨k, rfl⟩
        · exact .inl (.inr ⟨k, .inl htest⟩)
      · have hother : (s.monitorServerReadiness n reachable).monitors k = s.monitors k := Function.update_of_ne hkn ..
        rw [hother] at hk
        exact .inl (.inr ⟨k, hk⟩)

theorem announces_of_reachable {s : BacnetStarter} {asked : Option ℕ} {heard : Bool}
    (h : s.reachable asked heard = true) : ∃ k, (s.servers k).device.Announces := by
  rw [reachable] at h
  cases hasked : asked.bind s.listening with
  | none =>
    rw [hasked] at h
    cases h
  | some k =>
    rw [hasked] at h
    cases heard with
    | false => cases h
    | true => exact ⟨k, (isBacnetServerReady_iff (s.servers k)).1 h⟩

/-- A server that is in its `start` passes the probe when its device announces itself. -/
theorem reachable_of_start {s : BacnetStarter} {n k : ℕ} (hstart : s.starter.serverThreads n = .start k)
    (h : (s.servers k).device.Announces) : s.reachable (some n) true = true := by
  have hlistening : s.listening n = some k := by rw [listening, hstart]
  rw [reachable, Option.bind_some, hlistening]
  exact (isBacnetServerReady_iff (s.servers k)).2 h

/-! ## Runs -/

/-- What happens to a server apart from the probes. -/
def eventAt (k : ℕ) (x : Transition BacnetStarter BacnetTurn Unit) : Option Event :=
  match x.event with
  | .serve n event => if n = k ∧ n < x.before.starter.starts then some event else none
  | _ => none

/-- A probe changes no server. -/
theorem serversAsked_eq (s : BacnetStarter) (asked : Option ℕ) : s.serversAsked asked = s.servers := by
  rw [serversAsked]
  split
  · rfl
  · rw [handleDatagram_whoIsRequest, Function.update_eq_self]

theorem servers_next (e : BacnetTurn) (s : BacnetStarter) (k : ℕ) :
    (s.next e).servers k = final Bacnet.step (eventAt k ⟨s, e, (), s.next e⟩).toList (s.servers k) := by
  cases e with
  | startServer | stopServer | caller | server => rfl
  | monitor n asked heard =>
    simp only [next, serversAsked_eq, ite_self]
    rfl
  | serve n event =>
    simp only [next, eventAt]
    by_cases hmade : n < s.starter.starts
    · by_cases hk : n = k
      · subst hk
        simp [hmade]
      · simp [hmade, hk, Function.update_of_ne (Ne.symm hk)]
    · simp [hmade]

/-- The servers do what their clients ask for, as if they were never probed. -/
theorem servers_run (turns : List BacnetTurn) (s : BacnetStarter) (k : ℕ) :
    (final step turns s).servers k =
      final Bacnet.step ((transitions step turns s).filterMap (eventAt k)) (s.servers k) := by
  induction turns generalizing s with
  | nil => rfl
  | cons e turns ih =>
    have hsplit : (transitions step (e :: turns) s).filterMap (eventAt k) =
        (eventAt k ⟨s, e, (), s.next e⟩).toList ++ (transitions step turns (s.next e)).filterMap (eventAt k) := by
      rw [transitions_cons, List.filterMap_cons]
      cases h : eventAt k ⟨s, e, (), s.next e⟩ <;> simp [step, h]
    rw [final_cons, ih, hsplit, final_append]
    exact congrArg _ (servers_next e s k)

theorem device_run (config : BacnetServerConfig) (turns : List BacnetTurn) (k : ℕ) :
    ((final step turns (.init config)).servers k).device = config.device := by
  rw [servers_run]
  exact final_invariant (I := fun s : BacnetServer => s.device = config.device)
    (fun e s h => (step_device e s).trans h) _ rfl

theorem announces_of_told (config : BacnetServerConfig) (turns : List BacnetTurn) :
    Told (final step turns (.init config)).starter → config.device.Announces := by
  induction turns using List.reverseRecOn with
  | nil =>
    rintro (h | ⟨n, h | h⟩) <;> cases h
  | append_singleton turns e ih =>
    rw [final_snoc]
    intro htold
    have hstep : (step e (final step turns (.init config))).2.starter =
        match (final step turns (.init config)).turnOf e with
        | some turn => (final step turns (.init config)).starter.next turn
        | none => (final step turns (.init config)).starter := rfl
    rw [hstep] at htold
    cases hturn : (final step turns (.init config)).turnOf e with
    | none =>
      rw [hturn] at htold
      exact ih htold
    | some turn =>
      rw [hturn] at htold
      rcases told_of_next turn htold with hold | ⟨n, rfl⟩
      · exact ih hold
      · cases e with
        | monitor n asked heard =>
          simp only [turnOf, Option.some.injEq, Turn.monitor.injEq] at hturn
          obtain ⟨k, hk⟩ := announces_of_reachable hturn.2
          rwa [device_run] at hk
        | startServer | stopServer | caller | server | serve => cases hturn

/-- A start whose server thread is in `start` and whose monitor probes. -/
def probedStart : List BacnetTurn :=
  [.startServer, .caller false, .caller false, .caller false, .caller false, .caller false, .caller false,
    .server 0 false, .server 0 false, .monitor 0 none true, .monitor 0 none true, .monitor 0 none true,
    .monitor 0 none true]

/-- `ready_event` can be set, in whatever way the threads of a `Starter` and the clients of its servers
interleave, iff the device of the configuration announces itself; and the probes are never seen. -/
theorem ready_iff_announces (config : BacnetServerConfig) :
    ((∃ turns, (final step turns (.init config)).starter.readyEvent = true) ↔ config.device.Announces) ∧
      ∀ turns k, (final step turns (.init config)).servers k =
        final Bacnet.step ((transitions step turns (.init config)).filterMap (eventAt k)) (.init config) := by
  refine ⟨⟨?_, fun h => ?_⟩, fun turns k => servers_run turns (.init config) k⟩
  · rintro ⟨turns, hready⟩
    exact announces_of_told config turns (.inl hready)
  · refine ⟨probedStart ++ [.monitor 0 (some 0) true, .monitor 0 none true, .monitor 0 none true], ?_⟩
    have hreachable : (final step probedStart (.init config)).reachable (some 0) true = true :=
      reachable_of_start (k := 0) rfl (by rwa [device_run])
    have hstarter : (final step (probedStart ++ [.monitor 0 (some 0) true, .monitor 0 none true, .monitor 0 none true])
        (.init config)).starter =
        (((final step probedStart (.init config)).starter.next
          (.monitor 0 ((final step probedStart (.init config)).reachable (some 0) true))).next
            (.monitor 0 false)).next (.monitor 0 false) := by
      rw [final_append]
      rfl
    rw [hstarter, hreachable]
    rfl

end BacnetStarter

end Cursus
