/-
The Common Packet Format layer of SendRRData: `_handle_send_rr_data` accepts a grammar of payloads,
executes one CIP request for each payload it accepts and none for the others, and what it returns is
in the same grammar.
-/
import Cursus.Enip.Requests

namespace Cursus.Enip

open Cursus.Python

/-! ## The grammar -/

/-- An interface handle 0, a timeout, a count, as many items as it says, and anything behind them. -/
structure IsCpf (payload : Bytes) (timeout : ℕ) (items : List CpfItem) (rest : Bytes) : Prop where
  timeout_lt : timeout < 256 ^ 2
  count_lt : items.length < 256 ^ 2
  payload_eq : payload = ByteOrder.little.encode 4 0 ++ (ByteOrder.little.encode 2 timeout ++
    (ByteOrder.little.encode 2 items.length ++ (items.flatMap CpfItem.encode ++ rest)))

/-- The data of the last item with unconnected data. -/
def lastUnconnected (items : List CpfItem) : Option Bytes :=
  (items.filter fun item => item.type = cpfItemUnconnectedData).getLast?.map CpfItem.data

theorem lastUnconnected_concat (items : List CpfItem) (item : CpfItem) :
    lastUnconnected (items ++ [item]) = pickData (lastUnconnected items) item := by
  unfold lastUnconnected pickData
  rw [List.filter_append, List.getLast?_append]
  by_cases htype : item.type = cpfItemUnconnectedData
  · rw [if_pos htype, List.filter_singleton, decide_eq_true htype]
    rfl
  · rw [if_neg htype, List.filter_singleton, decide_eq_false htype]
    rfl

/-- The loop keeps the last one. -/
theorem foldl_pickData_eq (items : List CpfItem) : items.foldl pickData none = lastUnconnected items := by
  induction items using List.reverseRecOn with
  | nil => rfl
  | append_singleton items item ih => rw [List.foldl_append, ih, lastUnconnected_concat]; rfl

theorem lastUnconnected_eq_none_iff {items : List CpfItem} :
    lastUnconnected items = none ↔ ∀ item ∈ items, item.type ≠ cpfItemUnconnectedData := by
  unfold lastUnconnected
  rw [Option.map_eq_none_iff, List.getLast?_eq_none_iff, List.filter_eq_nil_iff]
  simp only [decide_eq_true_eq]

theorem carries_iff_isCpf {payload cipRequest : Bytes} {timeout : ℕ} :
    Carries payload timeout cipRequest ↔
      ∃ items rest, IsCpf payload timeout items rest ∧ lastUnconnected items = some cipRequest := by
  constructor
  · rintro ⟨items, rest, htimeout, hcount, hpayload, hpick⟩
    exact ⟨items, rest, ⟨htimeout, hcount, hpayload⟩, (foldl_pickData_eq items).symm.trans hpick⟩
  · rintro ⟨items, rest, hc, hlast⟩
    exact ⟨items, rest, hc.timeout_lt, hc.count_lt, hc.payload_eq, (foldl_pickData_eq items).trans hlast⟩

/-! ## Uniqueness -/

theorem CpfItem.encode_append_inj {item item' : CpfItem} {rest rest' : Bytes}
    (h : item.encode ++ rest = item'.encode ++ rest') : item = item' ∧ rest = rest' := by
  unfold CpfItem.encode at h
  simp only [List.append_assoc] at h
  obtain ⟨htype, h⟩ := ByteOrder.encode_append_inj _ item.type_lt item'.type_lt h
  obtain ⟨hlen, h⟩ := ByteOrder.encode_append_inj _ item.length_lt item'.length_lt h
  obtain ⟨hdata, hrest⟩ := List.append_inj h hlen
  cases item
  cases item'
  subst htype hdata
  exact ⟨rfl, hrest⟩

theorem flatMap_encode_append_inj {items items' : List CpfItem} {rest rest' : Bytes}
    (hlen : items.length = items'.length)
    (h : items.flatMap CpfItem.encode ++ rest = items'.flatMap CpfItem.encode ++ rest') :
    items = items' ∧ rest = rest' := by
  induction items generalizing items' with
  | nil =>
    obtain rfl := List.length_eq_zero_iff.1 hlen.symm
    exact ⟨rfl, h⟩
  | cons item items ih =>
    cases items' with
    | nil => cases hlen
    | cons item' items' =>
      rw [List.flatMap_cons, List.flatMap_cons, List.append_assoc, List.append_assoc] at h
      obtain ⟨rfl, htail⟩ := CpfItem.encode_append_inj h
      obtain ⟨rfl, hrest⟩ := ih (Nat.succ.inj hlen) htail
      exact ⟨rfl, hrest⟩

/-- A payload parses in one way at most. -/
theorem IsCpf.unique {payload : Bytes} {timeout timeout' : ℕ} {items items' : List CpfItem} {rest rest' : Bytes}
    (h : IsCpf payload timeout items rest) (h' : IsCpf payload timeout' items' rest') :
    timeout = timeout' ∧ items = items' ∧ rest = rest' := by
  have heq := h.payload_eq.symm.trans h'.payload_eq
  obtain ⟨htimeout, heq⟩ := ByteOrder.encode_append_inj _ h.timeout_lt h'.timeout_lt (List.append_cancel_left heq)
  obtain ⟨hcount, heq⟩ := ByteOrder.encode_append_inj _ h.count_lt h'.count_lt heq
  exact ⟨htimeout, flatMap_encode_append_inj hcount heq⟩

/-! ## The reply -/

/-- A null address and the CIP response, with nothing behind them. -/
theorem isCpf_of_packRrData {timeout : ℕ} {cipResponse bytes : Bytes} (h : packRrData timeout cipResponse = .ok bytes) :
    ∃ address item : CpfItem, address.type = cpfItemNullAddress ∧ address.data = [] ∧
      item.type = cpfItemUnconnectedData ∧ item.data = cipResponse ∧ IsCpf bytes timeout [address, item] [] := by
  obtain ⟨header, hheader, h⟩ := bind_eq_ok h
  obtain ⟨address, haddress, h⟩ := bind_eq_ok h
  obtain ⟨item, hitem, h⟩ := bind_eq_ok h
  cases h
  obtain ⟨hfits, rfl⟩ := structPack_eq_ok hheader
  obtain ⟨-, rfl⟩ := structPack_eq_ok haddress
  obtain ⟨hfits', rfl⟩ := structPack_eq_ok hitem
  have htimeout : timeout < 256 ^ 2 := by exact_mod_cast (hfits (.H timeout) (by simp)).2
  have hlen : cipResponse.length < 256 ^ 2 := by exact_mod_cast (hfits' (.H cipResponse.length) (by simp)).2
  refine ⟨⟨cpfItemNullAddress, [], by simp, by simp⟩, ⟨cpfItemUnconnectedData, cipResponse, by simp, hlen⟩,
    rfl, rfl, rfl, rfl, htimeout, show 2 < 256 ^ 2 by simp, ?_⟩
  simp [structRaw, Field.raw, CpfItem.encode]

/-! ## Executing one request -/

/-- Execute a CIP request and record it. -/
def recordCipRequest (cipRequest : Bytes) : Py (EnipServer × List Bytes) Bytes := fun s =>
  ((handleCipRequest cipRequest s.1).1, (handleCipRequest cipRequest s.1).2, s.2 ++ [cipRequest])

/-- `_handle_send_rr_data` with the CIP requests that it executes, in order. -/
def recordSendRrData (payload : Bytes) (s : EnipServer) : Except PyError (Option Bytes) × EnipServer × List Bytes :=
  sendRrDataWith recordCipRequest payload (s, [])

theorem recordSendRrData_of_carries {payload cipRequest : Bytes} {timeout : ℕ} (h : Carries payload timeout cipRequest)
    (s : EnipServer) :
    recordSendRrData payload s =
      ((handleCipRequest cipRequest s).1 >>= fun cipResponse => (packRrData timeout cipResponse).map some,
        (handleCipRequest cipRequest s).2, [cipRequest]) :=
  sendRrDataWith_of_carries recordCipRequest h (s, [])

theorem recordSendRrData_of_not_carries {payload : Bytes} (h : ∀ timeout cipRequest, ¬ Carries payload timeout cipRequest)
    (s : EnipServer) : recordSendRrData payload s = (.ok none, s, []) :=
  sendRrDataWith_of_not_carries recordCipRequest h (s, [])

/-- The record changes neither the result nor the server. -/
theorem handleSendRrData_eq_record (payload : Bytes) (s : EnipServer) :
    handleSendRrData payload s = ((recordSendRrData payload s).1, (recordSendRrData payload s).2.1) := by
  by_cases hcarries : ∃ timeout cipRequest, Carries payload timeout cipRequest
  · obtain ⟨timeout, cipRequest, hcarries⟩ := hcarries
    rw [recordSendRrData_of_carries hcarries, handleSendRrData_of_carries hcarries]
  · push Not at hcarries
    rw [recordSendRrData_of_not_carries hcarries, handleSendRrData_of_not_carries hcarries]

/-- The run executes the request and no other one, and returns or raises what its reply says. -/
structure ExecutesOne (s : EnipServer) (timeout : ℕ) (cipRequest : Bytes)
    (run : Except PyError (Option Bytes) × EnipServer × List Bytes) : Prop where
  executed : run.2.2 = [cipRequest]
  server_eq : run.2.1 = (handleCipRequest cipRequest s).2
  ne_none : run.1 ≠ .ok none
  raises : ∀ e, (handleCipRequest cipRequest s).1 = .error e → run.1 = .error e
  /-- A reply of at most 65535 octets comes back in the grammar, behind a null address. -/
  replies : ∀ cipResponse, (handleCipRequest cipRequest s).1 = .ok cipResponse → cipResponse.length ≤ 65535 →
    ∃ bytes, run.1 = .ok (some bytes) ∧ ∃ address item : CpfItem,
      address.type = cpfItemNullAddress ∧ address.data = [] ∧
      item.type = cpfItemUnconnectedData ∧ item.data = cipResponse ∧
      ∀ timeout' items' rest', IsCpf bytes timeout' items' rest' ↔
        timeout' = timeout ∧ items' = [address, item] ∧ rest' = []

theorem executesOne_of_carries {payload cipRequest : Bytes} {timeout : ℕ} (h : Carries payload timeout cipRequest)
    (s : EnipServer) : ExecutesOne s timeout cipRequest (recordSendRrData payload s) := by
  rw [recordSendRrData_of_carries h]
  refine ⟨rfl, rfl, ?_, ?_, ?_⟩
  · intro hnone
    obtain ⟨cipResponse, -, hpack⟩ := bind_eq_ok hnone
    obtain ⟨bytes, -, hsome⟩ := map_some_eq_ok hpack
    cases hsome
  · intro e he
    dsimp only
    rw [he]
    rfl
  · intro cipResponse hcip hlen
    have htimeout : timeout < 256 ^ 2 := by
      obtain ⟨items, rest, hlt, -⟩ := h
      exact hlt
    obtain ⟨bytes, hpack⟩ := exists_packRrData htimeout (Nat.lt_succ_of_le hlen)
    obtain ⟨address, item, haddress, hempty, hitem, hdata, hcpf⟩ := isCpf_of_packRrData hpack
    refine ⟨bytes, ?_, address, item, haddress, hempty, hitem, hdata, fun timeout' items' rest' => ⟨?_, ?_⟩⟩
    · dsimp only
      rw [hcip, ok_bind, hpack]
      rfl
    · exact fun hcpf' => hcpf'.unique hcpf
    · rintro ⟨rfl, rfl, rfl⟩
      exact hcpf

/-- A payload of the grammar with an item of unconnected data executes the last of them; every other
payload executes nothing and changes nothing. -/
theorem handleSendRrData_grammar (payload : Bytes) (s : EnipServer) :
    handleSendRrData payload = sendRrDataWith handleCipRequest payload ∧
    handleSendRrData payload s = ((recordSendRrData payload s).1, (recordSendRrData payload s).2.1) ∧
    ((¬ ∃ timeout items rest, IsCpf payload timeout items rest ∧ ∃ item ∈ items, item.type = cpfItemUnconnectedData) →
      recordSendRrData payload s = (.ok none, s, [])) ∧
    (∀ timeout items rest, IsCpf payload timeout items rest → (∃ item ∈ items, item.type = cpfItemUnconnectedData) →
      ∃ cipRequest, lastUnconnected items = some cipRequest ∧
        ExecutesOne s timeout cipRequest (recordSendRrData payload s)) := by
  refine ⟨handleSendRrData_eq payload, handleSendRrData_eq_record payload s, fun hnot => ?_, fun timeout items rest hcpf hitem => ?_⟩
  · apply recordSendRrData_of_not_carries
    intro timeout cipRequest hcarries
    obtain ⟨items, rest, hcpf, hlast⟩ := carries_iff_isCpf.1 hcarries
    refine hnot ⟨timeout, items, rest, hcpf, ?_⟩
    by_contra hall
    push Not at hall
    rw [lastUnconnected_eq_none_iff.2 hall] at hlast
    cases hlast
  · cases hlast : lastUnconnected items with
    | none =>
      obtain ⟨item, hmem, htype⟩ := hitem
      exact absurd htype (lastUnconnected_eq_none_iff.1 hlast item hmem)
    | some cipRequest =>
      exact ⟨cipRequest, rfl, executesOne_of_carries (carries_iff_isCpf.2 ⟨items, rest, hcpf, hlast⟩) s⟩

end Cursus.Enip
