/-
Servers of `cursus/bacnet/server.py` on a network that loses, repeats, delays and reorders packets, and on
which anyone sends anything under any source address. A reply goes to the address that its datagram claims to
come from, which may be another server's; but no server answers a reply or is changed by it. So replies never
set off more replies, and every server behaves as if none were ever delivered to it.
-/
import Cursus.Bacnet.Replies
import Cursus.Bacnet.Store
import Cursus.Run.Memory

namespace Cursus.Bacnet

open Cursus.Python Cursus.Run

/-! ## Replies are not requests -/

theorem ApduRequests.head {request : Request} {apdu : Bytes} (h : ApduRequests request apdu) :
    ∃ t c rest, apdu = t :: c :: rest ∧ (t.toNat &&& 0xF0 = 0x00 ∨ t.toNat &&& 0xF0 = 0x10 ∧ c = 0x08) := by
  cases h with
  | whoIs ht => exact ⟨_, _, _, rfl, .inr ⟨ht, rfl⟩⟩
  | readProperty ht | writeProperty ht => exact ⟨_, _, _, rfl, .inl ht⟩

theorem Answers.not_apduRequests {request request' : Request} {apdu : Bytes} (h : Answers request apdu) :
    ¬ ApduRequests request' apdu := by
  intro h'
  obtain ⟨t, c, rest, rfl, htype⟩ := h'.head
  cases h with
  | whoIs hiam =>
    -- an I-Am is an unconfirmed request too, but of a service that is not served
    cases hiam
    rcases htype with ht | ⟨-, hc⟩
    · exact absurd ht (by decide)
    · exact absurd hc (by decide)
  | readProperty | writeProperty => rcases htype with ht | ⟨ht, -⟩ <;> exact absurd ht (by decide)

/-- What answers a request is answered by no server and changes none. -/
theorem handleDatagram_bareDatagram {request : Request} {apdu : Bytes} (h : Answers request apdu)
    (hlen : apdu.length < 65530) (s : BacnetServer) : handleDatagram (bareDatagram apdu) s = (.ok none, s) := by
  refine handleDatagram_of_not_requests ?_ s
  rintro request' ⟨apdu', hcarries, hrequests⟩
  obtain rfl := hcarries.unique (carries_bareDatagram hlen)
  exact h.not_apduRequests hrequests

/-! ## The network -/

structure Packet (α : Type) where
  source : α
  destination : α
  payload : Bytes
  deriving DecidableEq

/-- The servers at their addresses, and the packets that the network was given: those of clients, or of whoever
sends under their addresses, and those of the servers. -/
structure Lan (α : Type) where
  servers : α → Option BacnetServer
  injected : List (Packet α)
  replies : List (Packet α)

/-- The network delivers what it was given at any time, in any order, any number of times or never. -/
inductive Activity (α : Type)
  | inject (packet : Packet α)
  | deliver (packet : Packet α)
  | setPresentValue (a : α) (inst : ℤ) (value : PyFloat)

def Lan.init {α : Type} (servers : α → Option BacnetServer) : Lan α := ⟨servers, [], []⟩

def Lan.packets {α : Type} (s : Lan α) : List (Packet α) := s.injected ++ s.replies

/-- The handler sends the response, when there is one, to the address that the datagram came from. -/
def Packet.response {α : Type} (packet : Packet α) : Outcome → List (Packet α)
  | .answered (.ok (some response)) => [⟨packet.destination, packet.source, response⟩]
  | _ => []

section Lan

variable {α : Type} [DecidableEq α]

def Lan.step : Step (Lan α) (Activity α) (Option Outcome)
  | .inject packet, s => (none, { s with injected := packet :: s.injected })
  | .deliver packet, s =>
    match s.servers packet.destination with
    | some server =>
      if packet ∈ s.packets then
        let (outcome, server') := Bacnet.step (.datagram packet.payload) server
        (some outcome, { s with
          servers := Function.update s.servers packet.destination (some server')
          replies := packet.response outcome ++ s.replies })
      else (none, s)
    | none => (none, s)
  | .setPresentValue a inst value, s =>
    match s.servers a with
    | some server =>
      let (outcome, server') := Bacnet.step (.setPresentValue inst value) server
      (some outcome, { s with servers := Function.update s.servers a (some server') })
    | none => (none, s)

/-! ## Steps -/

/-- The activity brings the event to the server at the address. -/
inductive Lan.Arrives (s : Lan α) : Activity α → α → Event → Prop
  | deliver {packet : Packet α} :
      packet ∈ s.packets → Lan.Arrives s (.deliver packet) packet.destination (.datagram packet.payload)
  | setPresentValue {a : α} {inst : ℤ} {value : PyFloat} :
      Lan.Arrives s (.setPresentValue a inst value) a (.setPresentValue inst value)

theorem Lan.step_of_arrives {s : Lan α} {e : Activity α} {a : α} {event : Event} {server : BacnetServer}
    (h : s.Arrives e a event) (hserver : s.servers a = some server) :
    (Lan.step e s).1 = some (Bacnet.step event server).1 ∧
      (Lan.step e s).2.servers = Function.update s.servers a (some (Bacnet.step event server).2) := by
  cases h with
  | deliver hmem => simp only [Lan.step, hserver, if_pos hmem, and_self]
  | setPresentValue => simp only [Lan.step, hserver, and_self]

/-- A server at which nothing arrives stays as it is. -/
theorem Lan.servers_of_not_arrives {s : Lan α} {e : Activity α} {a : α} (h : ∀ event, ¬ s.Arrives e a event) :
    (Lan.step e s).2.servers a = s.servers a := by
  cases e with
  | inject packet => rfl
  | deliver packet =>
    simp only [Lan.step]
    split
    · split_ifs with hmem
      · have hne : a ≠ packet.destination := by
          rintro rfl
          exact h _ (.deliver hmem)
        exact Function.update_of_ne hne ..
      · rfl
    · rfl
  | setPresentValue a' inst value =>
    simp only [Lan.step]
    split
    · have hne : a ≠ a' := by
        rintro rfl
        exact h _ .setPresentValue
      exact Function.update_of_ne hne ..
    · rfl

/-- A reply is sent when a packet is delivered, for what its server returns. -/
theorem Lan.packets_step (e : Activity α) (s : Lan α) :
    (∃ packet, e = .inject packet ∧ (Lan.step e s).2.injected = packet :: s.injected ∧
      (Lan.step e s).2.replies = s.replies) ∨
    (∃ packet server, e = .deliver packet ∧ packet ∈ s.packets ∧ s.servers packet.destination = some server ∧
      (Lan.step e s).2.injected = s.injected ∧
      (Lan.step e s).2.replies = packet.response (Bacnet.step (.datagram packet.payload) server).1 ++ s.replies) ∨
    ((Lan.step e s).2.injected = s.injected ∧ (Lan.step e s).2.replies = s.replies) := by
  cases e with
  | inject packet => exact .inl ⟨packet, rfl, rfl, rfl⟩
  | deliver packet =>
    simp only [Lan.step]
    cases hserver : s.servers packet.destination with
    | none => exact .inr (.inr ⟨rfl, rfl⟩)
    | some server =>
      split_ifs with hmem
      · exact .inr (.inl ⟨packet, server, rfl, hmem, hserver, rfl, rfl⟩)
      · exact .inr (.inr ⟨rfl, rfl⟩)
  | setPresentValue a inst value =>
    simp only [Lan.step]
    cases s.servers a with
    | none => exact .inr (.inr ⟨rfl, rfl⟩)
    | some server => exact .inr (.inr ⟨rfl, rfl⟩)

/-! ## What replies answer -/

/-- The packet goes back to where the other one claims to come from, and answers its request. -/
structure Packet.RepliesTo (reply packet : Packet α) : Prop where
  source : reply.source = packet.destination
  destination : reply.destination = packet.source
  answers : ∃ request apdu, Requests request packet.payload ∧ Answers request apdu ∧ apdu.length < 65530 ∧
    reply.payload = bareDatagram apdu

omit [DecidableEq α] in
theorem Packet.repliesTo_of_mem_response {packet reply : Packet α} {server : BacnetServer}
    (h : reply ∈ packet.response (Bacnet.step (.datagram packet.payload) server).1) : reply.RepliesTo packet := by
  rw [Bacnet.step] at h
  rcases hresult : (handleDatagram packet.payload server).1 with e | _ | response
  · rw [hresult] at h
    cases h
  · rw [hresult] at h
    cases h
  · rw [hresult] at h
    obtain rfl := List.mem_singleton.1 h
    obtain ⟨request, apdu, hrequests, hserve, rfl⟩ := handleDatagram_eq_some hresult
    exact ⟨rfl, rfl, request, apdu, hrequests, answers_of_serve hserve, length_serve hserve, rfl⟩

omit [DecidableEq α] in
/-- A reply reaches a server as nothing. -/
theorem Packet.RepliesTo.step {reply packet : Packet α} (h : reply.RepliesTo packet) (server : BacnetServer) :
    Bacnet.step (.datagram reply.payload) server = (.answered (.ok none), server) := by
  obtain ⟨request, apdu, -, hanswers, hlen, hpayload⟩ := h.answers
  rw [Bacnet.step, hpayload, handleDatagram_bareDatagram hanswers hlen]

/-- Every reply is one to an injected packet. -/
def Lan.Answering (s : Lan α) : Prop := ∀ reply ∈ s.replies, ∃ packet ∈ s.injected, reply.RepliesTo packet

omit [DecidableEq α] in
/-- Whoever sets off a reply has delivered a packet that is not one. -/
theorem Lan.Answering.not_mem_replies {s : Lan α} (hs : s.Answering) {packet : Packet α} {server : BacnetServer}
    (h : packet.response (Bacnet.step (.datagram packet.payload) server).1 ≠ []) : packet ∉ s.replies := by
  intro hmem
  obtain ⟨packet', -, hreply⟩ := hs packet hmem
  rw [hreply.step] at h
  exact h rfl

theorem Lan.Answering.step {s : Lan α} (hs : s.Answering) (e : Activity α) : (Lan.step e s).2.Answering := by
  intro reply hreply
  rcases Lan.packets_step e s with
    ⟨packet, -, hinjected, hreplies⟩ | ⟨packet, server, -, hmem, -, hinjected, hreplies⟩ | ⟨hinjected, hreplies⟩
  · rw [hreplies] at hreply
    obtain ⟨packet', hmem, hanswers⟩ := hs reply hreply
    rw [hinjected]
    exact ⟨packet', List.mem_cons_of_mem _ hmem, hanswers⟩
  · rw [hinjected]
    rw [hreplies, List.mem_append] at hreply
    rcases hreply with hnew | hold
    · have hnot := hs.not_mem_replies (List.ne_nil_of_mem hnew)
      exact ⟨packet, (List.mem_append.1 hmem).resolve_right hnot, Packet.repliesTo_of_mem_response hnew⟩
    · exact hs reply hold
  · rw [hreplies] at hreply
    rw [hinjected]
    exact hs reply hreply

theorem Lan.answering (servers : α → Option BacnetServer) (es : List (Activity α)) :
    (final Lan.step es (.init servers)).Answering :=
  final_invariant (fun e _ hs => hs.step e) es nofun

/-! ## Runs -/

/-- Every reply on the network goes back to where an injected packet claims to come from and answers its
request; and a delivery that sets off a reply is that of an injected packet, never that of a reply. -/
theorem replies_answer (servers : α → Option BacnetServer) (es : List (Activity α)) :
    (∀ reply ∈ (final Lan.step es (.init servers)).replies,
      ∃ packet ∈ (final Lan.step es (.init servers)).injected, reply.RepliesTo packet) ∧
    (∀ x ∈ transitions Lan.step es (.init servers), x.after.replies ≠ x.before.replies →
      ∃ packet, x.event = .deliver packet ∧ packet ∈ x.before.injected ∧
        packet ∉ (final Lan.step es (.init servers)).replies) := by
  refine ⟨Lan.answering servers es, fun x hx hreplied => ?_⟩
  obtain ⟨before, after, -, hx⟩ := exists_of_mem_transitions Lan.step hx
  have hbefore := Lan.answering servers before
  rw [hx] at hreplied
  rcases Lan.packets_step x.event (final Lan.step before (.init servers)) with
    ⟨-, -, -, hsame⟩ | ⟨packet, server, he, hmem, -, -, hreplies⟩ | ⟨-, hsame⟩
  · exact absurd hsame hreplied
  · have hresponse : packet.response (Bacnet.step (.datagram packet.payload) server).1 ≠ [] := by
      intro hnil
      rw [hnil, List.nil_append] at hreplies
      exact hreplied hreplies
    refine ⟨packet, he, ?_, (Lan.answering servers es).not_mem_replies hresponse⟩
    rw [hx]
    exact (List.mem_append.1 hmem).resolve_right (hbefore.not_mem_replies hresponse)
  · exact absurd hsame hreplied

/-- What arrives at the address, replies apart. -/
def Concerns (a : α) (x : Transition (Lan α) (Activity α) (Option Outcome)) : Prop :=
  ∃ event, x.before.Arrives x.event a event ∧ ∀ packet, x.event = .deliver packet → packet ∉ x.before.replies

/-- The event that arrives at the address, and its outcome. -/
def ShowsArrival (a : α) (x : Transition (Lan α) (Activity α) (Option Outcome)) (entry : Event × Outcome) : Prop :=
  x.before.Arrives x.event a entry.1 ∧ x.outcome = some entry.2

/-- An activity is an event of the server at the address, or leaves it as it is. -/
theorem Lan.server_step {s : Lan α} (hs : s.Answering) (e : Activity α) {a : α} {server : BacnetServer}
    (h : s.servers a = some server) :
    ∃ server', (Lan.step e s).2.servers a = some server' ∧
      ((Concerns a ⟨s, e, (Lan.step e s).1, (Lan.step e s).2⟩ ∧ ∃ event,
        ShowsArrival a ⟨s, e, (Lan.step e s).1, (Lan.step e s).2⟩ (event, (Bacnet.step event server).1) ∧
          (Bacnet.step event server).2 = server') ∨
      (¬ Concerns a ⟨s, e, (Lan.step e s).1, (Lan.step e s).2⟩ ∧ server' = server)) := by
  by_cases harrives : ∃ event, s.Arrives e a event
  swap
  · refine ⟨server, (Lan.servers_of_not_arrives (not_exists.1 harrives)).trans h, .inr ⟨?_, rfl⟩⟩
    rintro ⟨event, harrives', -⟩
    exact harrives ⟨event, harrives'⟩
  obtain ⟨event, harrives⟩ := harrives
  obtain ⟨houtcome, hservers⟩ := Lan.step_of_arrives harrives h
  refine ⟨(Bacnet.step event server).2, by rw [hservers, Function.update_self], ?_⟩
  by_cases hreply : ∃ packet, e = .deliver packet ∧ packet ∈ s.replies
  · obtain ⟨packet, rfl, hmem⟩ := hreply
    cases harrives with
    | deliver =>
      obtain ⟨packet', -, hanswers⟩ := hs packet hmem
      rw [hanswers.step]
      refine .inr ⟨?_, rfl⟩
      rintro ⟨-, -, hnot⟩
      exact hnot packet rfl hmem
  · refine .inl ⟨⟨event, harrives, ?_⟩, event, ⟨harrives, houtcome⟩, rfl⟩
    intro packet he hmem
    exact hreply ⟨packet, he, hmem⟩

/-- Each server of a network behaves as it would alone, with what is injected and what its program sets, and
without the replies that the network brings it. -/
theorem servers_alone (servers : α → Option BacnetServer) (es : List (Activity α)) (a : α) (server : BacnetServer)
    (h : servers a = some server) :
    ∃ server', (final Lan.step es (.init servers)).servers a = some server' ∧
      Refines Bacnet.step (ShowsArrival a) (Concerns a) server (transitions Lan.step es (.init servers)) server' := by
  let J : Lan α → Prop := fun s => s.Answering ∧ ∃ server, s.servers a = some server
  have hkeeps : ∀ (e : Activity α) (s : Lan α), J s → J (Lan.step e s).2 := by
    rintro e s ⟨hs, current, hcurrent⟩
    obtain ⟨next, hnext, -⟩ := Lan.server_step hs e hcurrent
    exact ⟨hs.step e, next, hnext⟩
  have hinit : J (.init servers) := ⟨by rintro reply ⟨⟩, server, h⟩
  obtain ⟨-, last, hlast⟩ := final_invariant hkeeps es hinit
  refine ⟨last, hlast, ?_⟩
  have hrefines : Refines Bacnet.step (ShowsArrival a) (Concerns a) ((servers a).getD server)
      (transitions Lan.step es (.init servers)) (((final Lan.step es (.init servers)).servers a).getD server) := by
    refine refines_of_steps (fun s : Lan α => (s.servers a).getD server) (J := J) (C := fun _ => True)
      (fun e s _ => hkeeps e s) ?_ es hinit fun _ _ => trivial
    rintro e s - ⟨hs, current, hcurrent⟩
    obtain ⟨next, hnext, hstep⟩ := Lan.server_step hs e hcurrent
    rw [hnext, hcurrent]
    exact hstep
  rwa [hlast, h] at hrefines

/-- A Who-Is to a server under the address of another one, which gets the I-Am twice. -/
def spoofedWhoIs : List (Activity Bool) :=
  [.inject ⟨true, false, bareDatagram [0x10, 0x08]⟩, .deliver ⟨true, false, bareDatagram [0x10, 0x08]⟩,
    .deliver ⟨false, true, bareDatagram [16, 0, 196, 2, 0, 4, 210, 34, 5, 196, 145, 3, 34, 3, 231]⟩,
    .deliver ⟨false, true, bareDatagram [16, 0, 196, 2, 0, 4, 210, 34, 5, 196, 145, 3, 34, 3, 231]⟩]

theorem servers_alone_spoofed :
    ∃ server', (final Lan.step spoofedWhoIs (.init fun _ => some (.init {}))).servers true = some server' ∧
      Refines Bacnet.step (ShowsArrival true) (Concerns true) (.init {})
        (transitions Lan.step spoofedWhoIs (.init fun _ => some (.init {}))) server' :=
  servers_alone (fun _ => some (.init {})) spoofedWhoIs true (.init {}) rfl

end Lan

end Cursus.Bacnet
