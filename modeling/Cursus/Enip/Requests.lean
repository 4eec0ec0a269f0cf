/-
What a SendRRData payload asks: its Common Packet Format items, of which the last one with
unconnected data is the CIP request, and the service, the path and the data of this request.
-/
import Cursus.Enip.Path
import Cursus.Enip.Server

namespace Cursus.Enip

open Cursus.Python

/-! ## Common Packet Format items -/

structure CpfItem where
  type : ℕ
  data : Bytes
  type_lt : type < 256 ^ 2
  length_lt : data.length < 256 ^ 2

def CpfItem.encode (item : CpfItem) : Bytes :=
  ByteOrder.little.encode 2 item.type ++ (ByteOrder.little.encode 2 item.data.length ++ item.data)

/-- The unconnected data found so far, with one more item. -/
def pickData (cipRequest : Option Bytes) (item : CpfItem) : Option Bytes :=
  if item.type = cpfItemUnconnectedData then some item.data else cipRequest

theorem CpfItem.length_encode (item : CpfItem) : item.encode.length = 4 + item.data.length := by
  simp only [CpfItem.encode, List.length_append, ByteOrder.length_encode]
  omega

/-- One round of the loop: an item at the offset, or the end. -/
theorem scanItems_succ (payload : Bytes) (n offset : ℕ) (cipRequest : Option Bytes) :
    scanItems payload (n + 1) offset cipRequest =
      if offset + 4 ≤ payload.length ∧ offset + 4 + uintAt .little 2 payload (offset + 2) ≤ payload.length then
        scanItems payload n (offset + 4 + uintAt .little 2 payload (offset + 2))
          (if uintAt .little 2 payload offset = cpfItemUnconnectedData then
            some (slice payload (offset + 4) (offset + 4 + uintAt .little 2 payload (offset + 2)))
          else cipRequest)
      else .ok none := by
  rw [scanItems]
  by_cases hheader : offset + 4 ≤ payload.length
  · rw [if_neg (not_lt.2 hheader), checkFrom, if_pos hheader, ok_bind]
    by_cases hdata : offset + 4 + uintAt .little 2 payload (offset + 2) ≤ payload.length
    · have hfit := And.intro hheader hdata
      rw [if_neg (not_lt.2 hdata), if_pos hfit]
      split_ifs <;> rfl
    · have hfit := fun h : offset + 4 ≤ payload.length ∧ _ => hdata h.2
      rw [if_pos (not_le.1 hdata), if_neg hfit]
      rfl
  · have hfit := fun h : offset + 4 ≤ payload.length ∧
        offset + 4 + uintAt .little 2 payload (offset + 2) ≤ payload.length => hheader h.1
    rw [if_pos (not_le.1 hheader), if_neg hfit]
    rfl

theorem exists_scanItems (payload : Bytes) (n offset : ℕ) (cipRequest : Option Bytes) :
    ∃ found, scanItems payload n offset cipRequest = .ok found := by
  induction n generalizing offset cipRequest with
  | zero => exact ⟨some cipRequest, rfl⟩
  | succ n ih =>
    rw [scanItems_succ]
    split_ifs
    · exact ih _ _
    · exact ih _ _
    · exact ⟨none, rfl⟩

/-- The loop reads the items that were written, and ignores what follows them. -/
theorem scanItems_encode (pre : Bytes) (items : List CpfItem) (rest : Bytes) (cipRequest : Option Bytes) :
    scanItems (pre ++ (items.flatMap CpfItem.encode ++ rest)) items.length pre.length cipRequest =
      .ok (some (items.foldl pickData cipRequest)) := by
  induction items generalizing pre cipRequest with
  | nil => rfl
  | cons item items ih =>
    let type := ByteOrder.little.encode 2 item.type
    let size := ByteOrder.little.encode 2 item.data.length
    let tail := items.flatMap CpfItem.encode ++ rest
    have htype : type.length = 2 := ByteOrder.length_encode ..
    have hsize : size.length = 2 := ByteOrder.length_encode ..
    have hpayload : pre ++ ((item :: items).flatMap CpfItem.encode ++ rest) =
        pre ++ (type ++ (size ++ (item.data ++ tail))) := by
      simp [CpfItem.encode, type, size, tail]
    -- every field is read where the bytes before it end
    have hread : uintAt .little 2 (pre ++ (type ++ (size ++ (item.data ++ tail)))) pre.length = item.type :=
      uintAt_encode _ item.type_lt ..
    have hreadSize : uintAt .little 2 (pre ++ (type ++ (size ++ (item.data ++ tail)))) (pre.length + 2) =
        item.data.length := by
      have h := uintAt_encode .little item.length_lt (pre ++ type) (item.data ++ tail)
      rwa [List.length_append, htype, List.append_assoc] at h
    have hslice : slice (pre ++ (type ++ (size ++ (item.data ++ tail)))) (pre.length + 4)
        (pre.length + 4 + item.data.length) = item.data := by
      have h := slice_append_right (pre ++ type ++ size) (item.data ++ tail) 0 item.data.length
      rw [slice_zero, List.take_left] at h
      simpa only [List.length_append, htype, hsize, List.append_assoc, Nat.add_assoc, Nat.reduceAdd] using h
    have hfit : pre.length + 4 ≤ (pre ++ (type ++ (size ++ (item.data ++ tail)))).length ∧
        pre.length + 4 + item.data.length ≤ (pre ++ (type ++ (size ++ (item.data ++ tail)))).length := by
      simp only [List.length_append, htype, hsize]
      omega
    have hnext : pre ++ (type ++ (size ++ (item.data ++ tail))) =
        (pre ++ type ++ size ++ item.data) ++ tail := by simp
    have hlen : pre.length + 4 + item.data.length = (pre ++ type ++ size ++ item.data).length := by
      simp only [List.length_append, htype, hsize]
    rw [hpayload, List.length_cons, scanItems_succ, hreadSize, if_pos hfit, hread, hslice, hlen, hnext, ih]
    rfl

/-- Where the loop ends normally, it has read items. -/
theorem scanItems_eq_ok {payload : Bytes} {n offset : ℕ} {cipRequest found : Option Bytes} :
    scanItems payload n offset cipRequest = .ok (some found) →
      ∃ (items : List CpfItem) (rest : Bytes), items.length = n ∧
        payload.drop offset = items.flatMap CpfItem.encode ++ rest ∧ found = items.foldl pickData cipRequest := by
  induction n generalizing offset cipRequest with
  | zero =>
    rintro ⟨⟩
    exact ⟨[], payload.drop offset, rfl, rfl, rfl⟩
  | succ n ih =>
    intro h
    rw [scanItems_succ] at h
    by_cases hfit : offset + 4 ≤ payload.length ∧
        offset + 4 + uintAt .little 2 payload (offset + 2) ≤ payload.length
    swap
    · rw [if_neg hfit] at h
      cases h
    rw [if_pos hfit] at h
    obtain ⟨items, rest, hlen, hdrop, hfound⟩ := ih h
    let size := uintAt .little 2 payload (offset + 2)
    have hslice : (slice payload (offset + 4) (offset + 4 + size)).length = size := by
      rw [length_slice hfit.2]
      omega
    let item : CpfItem :=
      ⟨uintAt .little 2 payload offset, slice payload (offset + 4) (offset + 4 + size), uintAt_lt ..,
        by rw [hslice]; exact uintAt_lt ..⟩
    refine ⟨item :: items, rest, by rw [List.length_cons, hlen], ?_, hfound⟩
    have hencode : item.encode =
        (payload.drop offset).take 2 ++ ((payload.drop (offset + 2)).take 2 ++ (payload.drop (offset + 4)).take size) := by
      unfold CpfItem.encode
      rw [encode_uintAt _ (by omega), hslice, encode_uintAt _ (by omega)]
      simp only [item, slice, Nat.add_sub_cancel_left]
    rw [List.flatMap_cons, List.append_assoc, ← hdrop, hencode, List.append_assoc, List.append_assoc,
      take_append_drop_add payload (offset + 4) size, take_append_drop_add payload (offset + 2) 2,
      take_append_drop_add payload offset 2]

/-! ## SendRRData -/

/-- The payload carries the CIP request in the last of its items with unconnected data. -/
def Carries (payload : Bytes) (timeout : ℕ) (cipRequest : Bytes) : Prop :=
  ∃ (items : List CpfItem) (rest : Bytes), timeout < 256 ^ 2 ∧ items.length < 256 ^ 2 ∧
    payload = ByteOrder.little.encode 4 0 ++ (ByteOrder.little.encode 2 timeout ++
      (ByteOrder.little.encode 2 items.length ++ (items.flatMap CpfItem.encode ++ rest))) ∧
    items.foldl pickData none = some cipRequest

theorem carries_iff {payload cipRequest : Bytes} {timeout : ℕ} :
    Carries payload timeout cipRequest ↔
      8 ≤ payload.length ∧ uintAt .little 4 payload 0 = 0 ∧ timeout = uintAt .little 2 payload 4 ∧
        scanItems payload (uintAt .little 2 payload 6) 8 none = .ok (some (some cipRequest)) := by
  constructor
  · rintro ⟨items, rest, htimeout, hcount, rfl, hpick⟩
    let handle := ByteOrder.little.encode 4 0
    let time := ByteOrder.little.encode 2 timeout
    let count := ByteOrder.little.encode 2 items.length
    let tail := items.flatMap CpfItem.encode ++ rest
    have hhandle : handle.length = 4 := ByteOrder.length_encode ..
    have htime : time.length = 2 := ByteOrder.length_encode ..
    have hcountLen : count.length = 2 := ByteOrder.length_encode ..
    have hreadHandle : uintAt .little 4 (handle ++ (time ++ (count ++ tail))) 0 = 0 :=
      uintAt_encode .little (show 0 < 256 ^ 4 by simp) [] _
    have hreadTime : uintAt .little 2 (handle ++ (time ++ (count ++ tail))) 4 = timeout := by
      have h := uintAt_encode .little htimeout handle (count ++ tail)
      rwa [hhandle] at h
    have hreadCount : uintAt .little 2 (handle ++ (time ++ (count ++ tail))) 6 = items.length := by
      have h := uintAt_encode .little hcount (handle ++ time) tail
      rwa [List.length_append, hhandle, htime, List.append_assoc] at h
    have hscan := scanItems_encode (handle ++ time ++ count) items rest none
    rw [hpick] at hscan
    simp only [List.length_append, hhandle, htime, hcountLen, List.append_assoc, Nat.reduceAdd] at hscan
    refine ⟨?_, hreadHandle, hreadTime.symm, ?_⟩
    · simp only [List.length_append, ByteOrder.length_encode]
      omega
    · rw [hreadCount]
      exact hscan
  · rintro ⟨hlen, hhandle, rfl, hscan⟩
    obtain ⟨items, rest, hcount, hdrop, hpick⟩ := scanItems_eq_ok hscan
    refine ⟨items, rest, uintAt_lt .., by rw [hcount]; exact uintAt_lt .., ?_, hpick.symm⟩
    rw [← hhandle, encode_uintAt _ (by omega), encode_uintAt _ (by omega), hcount, encode_uintAt _ (by omega),
      ← hdrop, take_append_drop_add payload 6 2, take_append_drop_add payload 4 2,
      take_append_drop_add payload 0 4, List.drop_zero]

theorem Carries.unique {payload cipRequest cipRequest' : Bytes} {timeout timeout' : ℕ}
    (h : Carries payload timeout cipRequest) (h' : Carries payload timeout' cipRequest') :
    timeout = timeout' ∧ cipRequest = cipRequest' := by
  obtain ⟨-, -, rfl, hscan⟩ := carries_iff.1 h
  obtain ⟨-, -, rfl, hscan'⟩ := carries_iff.1 h'
  rw [hscan] at hscan'
  cases hscan'
  exact ⟨rfl, rfl⟩

section Execute

variable {σ : Type} (execute : Bytes → Py σ Bytes)

/-- `_handle_send_rr_data` over any execution of CIP requests. -/
def sendRrDataWith (payload : Bytes) : Py σ (Option Bytes) := do
  if payload.length < sendRrDataHeaderSize then return none
  checkFrom 8 payload 0
  let interfaceHandle := uintAt .little 4 payload 0
  let timeout := uintAt .little 2 payload 4
  let itemCount := uintAt .little 2 payload 6
  if interfaceHandle ≠ 0 then return none
  let some (some cipRequest) ← scanItems payload itemCount 8 none | return none
  let cipResponse ← execute cipRequest
  return some (← packRrData timeout cipResponse)

theorem sendRrDataWith_of_carries {payload cipRequest : Bytes} {timeout : ℕ} (h : Carries payload timeout cipRequest)
    (s : σ) :
    sendRrDataWith execute payload s =
      ((execute cipRequest s).1 >>= fun cipResponse => (packRrData timeout cipResponse).map some,
        (execute cipRequest s).2) := by
  obtain ⟨hlen, hhandle, rfl, hscan⟩ := carries_iff.1 h
  have hcheck : checkFrom 8 payload 0 = .ok () := if_pos (by omega)
  unfold sendRrDataWith
  rw [if_neg (by simpa using hlen), hcheck, hhandle, if_neg (by simp), hscan]
  simp only [Py.lift_ok_bind]
  rcases hcip : execute cipRequest s with ⟨e | cipResponse, s'⟩
  · rw [Py.bind_of_error hcip]
    rfl
  · rw [Py.bind_of_ok hcip, Py.lift_bind_pure]
    rfl

theorem sendRrDataWith_of_not_carries {payload : Bytes} (h : ∀ timeout cipRequest, ¬ Carries payload timeout cipRequest)
    (s : σ) : sendRrDataWith execute payload s = (.ok none, s) := by
  unfold sendRrDataWith
  by_cases hlen : 8 ≤ payload.length
  swap
  · rw [if_pos (by simpa using hlen)]
    rfl
  have hcheck : checkFrom 8 payload 0 = .ok () := if_pos (by omega)
  rw [if_neg (by simpa using hlen), hcheck]
  by_cases hhandle : uintAt .little 4 payload 0 = 0
  swap
  · rw [if_pos hhandle]
    rfl
  rw [if_neg (by simpa using hhandle)]
  obtain ⟨found, hscan⟩ := exists_scanItems payload (uintAt .little 2 payload 6) 8 none
  rw [hscan]
  rcases found with _ | _ | cipRequest
  · rfl
  · rfl
  · exact absurd (carries_iff.2 ⟨hlen, hhandle, rfl, hscan⟩) (h _ _)

end Execute

theorem handleSendRrData_eq (payload : Bytes) : handleSendRrData payload = sendRrDataWith handleCipRequest payload := rfl

theorem handleSendRrData_of_carries {payload cipRequest : Bytes} {timeout : ℕ}
    (h : Carries payload timeout cipRequest) (s : EnipServer) :
    handleSendRrData payload s =
      ((handleCipRequest cipRequest s).1 >>= fun cipResponse => (packRrData timeout cipResponse).map some,
        (handleCipRequest cipRequest s).2) := by
  rw [handleSendRrData_eq, sendRrDataWith_of_carries handleCipRequest h]

theorem handleSendRrData_of_not_carries {payload : Bytes}
    (h : ∀ timeout cipRequest, ¬ Carries payload timeout cipRequest) (s : EnipServer) :
    handleSendRrData payload s = (.ok none, s) := by
  rw [handleSendRrData_eq, sendRrDataWith_of_not_carries handleCipRequest h]

/-! ## CIP requests -/

/-- The CIP request names a service and a path, and has data behind the path. -/
def Asks (cipRequest : Bytes) (service : UInt8) (classCode inst : ℕ) (attr : Option ℕ) (data : Bytes) : Prop :=
  ∃ (pathWords : UInt8) (path : Bytes), cipRequest = service :: pathWords :: (path ++ data) ∧
    path.length = pathWords.toNat * 2 ∧ Names path classCode inst attr

/-- A CIP response. -/
def cipReply (service status : ℕ) (data : Bytes) : Bytes :=
  UInt8.ofNat (service ||| 0x80) :: 0 :: UInt8.ofNat status :: 0 :: data

/-- The general statuses other than success. -/
inductive IsFailure : ℕ → Prop
  | notEnoughData : IsFailure cipStatusNotEnoughData
  | pathSegmentError : IsFailure cipStatusPathSegmentError
  | pathDestinationUnknown : IsFailure cipStatusPathDestinationUnknown
  | serviceNotSupported : IsFailure cipStatusServiceNotSupported
  | attributeNotSupported : IsFailure cipStatusAttributeNotSupported
  | attributeNotSettable : IsFailure cipStatusAttributeNotSettable

theorem IsFailure.lt {status : ℕ} (h : IsFailure status) : status < 256 := by
  cases h <;> decide

theorem IsFailure.ne_success {status : ℕ} (h : IsFailure status) : status ≠ cipStatusSuccess := by
  cases h <;> decide

theorem buildCipResponse_of_lt {service status : ℕ} (hservice : service < 256) (hstatus : status < 256)
    (data : Bytes) : buildCipResponse service status data = .ok (cipReply service status data) := by
  have hor : service ||| 0x80 < 256 := Nat.or_lt_two_pow (n := 8) hservice (by simp)
  have hlt : ∀ v ∈ [service ||| 0x80, 0x00, status, 0x00], v < 256 := by
    simp only [List.forall_mem_cons]
    exact ⟨hor, by simp, hstatus, by simp, nofun⟩
  unfold buildCipResponse bytesOf
  rw [if_pos hlt]
  rfl

theorem Asks.unique {cipRequest : Bytes} {service service' : UInt8} {classCode classCode' inst inst' : ℕ}
    {attr attr' : Option ℕ} {data data' : Bytes} (h : Asks cipRequest service classCode inst attr data)
    (h' : Asks cipRequest service' classCode' inst' attr' data') :
    service = service' ∧ classCode = classCode' ∧ inst = inst' ∧ attr = attr' ∧ data = data' := by
  obtain ⟨words, path, rfl, hlen, hnames⟩ := h
  obtain ⟨words', path', heq, hlen', hnames'⟩ := h'
  obtain ⟨rfl, htail⟩ := List.cons.inj heq
  obtain ⟨rfl, hbody⟩ := List.cons.inj htail
  obtain ⟨rfl, rfl⟩ := List.append_inj hbody (by rw [hlen, hlen'])
  rw [← parseCipPath_eq_ok_iff] at hnames hnames'
  rw [hnames] at hnames'
  cases hnames'
  exact ⟨rfl, rfl, rfl, rfl, rfl⟩

theorem handleCipRequest_of_asks {cipRequest data : Bytes} {service : UInt8} {classCode inst : ℕ} {attr : Option ℕ}
    (h : Asks cipRequest service classCode inst attr data) (s : EnipServer) :
    handleCipRequest cipRequest s = dispatchService service.toNat classCode inst attr data s := by
  obtain ⟨words, path, rfl, hlen, hnames⟩ := h
  have hsize : ¬ (service :: words :: (path ++ data)).length < cipRequestHeaderSize + words.toNat * 2 := by
    simp only [List.length_cons, List.length_append, hlen, cipRequestHeaderSize]
    omega
  have hslice : slice (service :: words :: (path ++ data)) cipRequestHeaderSize
      (cipRequestHeaderSize + words.toNat * 2) = path := by
    unfold slice
    rw [Nat.add_sub_cancel_left, ← hlen]
    exact List.take_left
  have hdrop : (service :: words :: (path ++ data)).drop (cipRequestHeaderSize + words.toNat * 2) = data := by
    rw [← hlen, Nat.add_comm]
    exact List.drop_left
  unfold handleCipRequest
  rw [if_neg (by simp), index_zero_cons, Py.lift_ok_bind, index_succ_cons, index_zero_cons, Py.lift_ok_bind]
  rw [if_neg hsize, hslice, hdrop, parseCipPath_eq_ok_iff.2 hnames]

/-- A request that asks for nothing is answered with an error and changes nothing. -/
theorem handleCipRequest_of_not_asks {cipRequest : Bytes}
    (h : ∀ service classCode inst attr data, ¬ Asks cipRequest service classCode inst attr data) (s : EnipServer) :
    ∃ service < 256, ∃ status, IsFailure status ∧
      handleCipRequest cipRequest s = (.ok (cipReply service status []), s) := by
  unfold handleCipRequest
  rcases cipRequest with _ | ⟨service, _ | ⟨words, body⟩⟩
  · refine ⟨0, by simp, _, .notEnoughData, ?_⟩
    rw [if_pos (by simp), buildCipResponse_of_lt (by simp) IsFailure.notEnoughData.lt]
    rfl
  · refine ⟨0, by simp, _, .notEnoughData, ?_⟩
    rw [if_pos (by simp), buildCipResponse_of_lt (by simp) IsFailure.notEnoughData.lt]
    rfl
  have hservice : service.toNat < 256 := service.toNat_lt
  rw [if_neg (by simp), index_zero_cons, Py.lift_ok_bind, index_succ_cons, index_zero_cons, Py.lift_ok_bind]
  by_cases hlen : (service :: words :: body).length < cipRequestHeaderSize + words.toNat * 2
  · refine ⟨service.toNat, hservice, _, .notEnoughData, ?_⟩
    rw [if_pos hlen, buildCipResponse_of_lt hservice IsFailure.notEnoughData.lt]
    rfl
  have hbody : words.toNat * 2 ≤ body.length := by
    simp only [List.length_cons, cipRequestHeaderSize] at hlen
    omega
  have hslice : slice (service :: words :: body) cipRequestHeaderSize (cipRequestHeaderSize + words.toNat * 2) =
      body.take (words.toNat * 2) := by
    unfold slice
    rw [Nat.add_sub_cancel_left]
    rfl
  rw [if_neg hlen, hslice]
  -- a path that parses would make the octets a request
  rcases hparse : parseCipPath (body.take (words.toNat * 2)) with e | ⟨classCode, inst, attr⟩
  · cases parseCipPath_error hparse
    refine ⟨service.toNat, hservice, _, .pathSegmentError, ?_⟩
    rw [buildCipResponse_of_lt hservice IsFailure.pathSegmentError.lt]
    rfl
  · refine absurd ?_ (h service classCode inst attr (body.drop (words.toNat * 2)))
    refine ⟨words, body.take (words.toNat * 2), by rw [List.take_append_drop], ?_, parseCipPath_eq_ok_iff.1 hparse⟩
    rw [List.length_take]
    exact Nat.min_eq_left hbody

/-! ## Services -/

/-- The outcome of reading the identity, one attribute or all of them, unless there is no such
attribute. -/
def ReadsIdentity (identity : EnipIdentity) (outcome : Except PyError Bytes) : Prop :=
  outcome = packIdentityAttributes identity identityAttributesAll ∨
    ∃ attr, outcome = packIdentityAttribute identity attr ∧ outcome ≠ .error .keyError

theorem getAttribute_cases (s : EnipServer) (classCode inst attr : ℕ) :
    (classCode = assemblyClass ∧ attr = assemblyDataAttribute ∧
      ∃ value, s.assemblies.lookup (inst : ℤ) = some value ∧
        getAttribute s classCode inst attr = .ok (value, cipStatusSuccess)) ∨
    (classCode = identityClass ∧ ∃ outcome, ReadsIdentity s.identity outcome ∧
      getAttribute s classCode inst attr = outcome.map (·, cipStatusSuccess)) ∨
    ∃ status, IsFailure status ∧ getAttribute s classCode inst attr = .ok ([], status) := by
  unfold getAttribute
  by_cases hidentity : classCode = identityClass ∧ inst = 1
  · rw [if_pos hidentity]
    by_cases hkey : packIdentityAttribute s.identity attr = .error .keyError
    · exact .inr (.inr ⟨_, .attributeNotSupported, by rw [hkey]⟩)
    · refine .inr (.inl ⟨hidentity.1, _, .inr ⟨attr, rfl, hkey⟩, ?_⟩)
      rcases hpack : packIdentityAttribute s.identity attr with e | data
      · rw [hpack] at hkey
        cases e <;> first | rfl | exact absurd rfl hkey
      · rfl
  rw [if_neg hidentity]
  by_cases hassembly : classCode = assemblyClass
  swap
  · exact .inr (.inr ⟨_, .pathDestinationUnknown, if_neg hassembly⟩)
  rw [if_pos hassembly]
  by_cases hattr : attr = assemblyDataAttribute
  swap
  · exact .inr (.inr ⟨_, .attributeNotSupported, if_pos hattr⟩)
  rw [if_neg (not_not_intro hattr)]
  cases hlookup : s.assemblies.lookup (inst : ℤ) with
  | none => exact .inr (.inr ⟨_, .pathDestinationUnknown, rfl⟩)
  | some value => exact .inl ⟨hassembly, hattr, value, rfl, rfl⟩

theorem getAttributesAll_cases (s : EnipServer) (classCode inst : ℕ) :
    (classCode = assemblyClass ∧ ∃ value, s.assemblies.lookup (inst : ℤ) = some value ∧
      getAttributesAll s classCode inst = .ok (value, cipStatusSuccess)) ∨
    (classCode = identityClass ∧ ∃ outcome, ReadsIdentity s.identity outcome ∧
      getAttributesAll s classCode inst = outcome.map (·, cipStatusSuccess)) ∨
    ∃ status, IsFailure status ∧ getAttributesAll s classCode inst = .ok ([], status) := by
  unfold getAttributesAll
  by_cases hidentity : classCode = identityClass ∧ inst = 1
  · rw [if_pos hidentity]
    refine .inr (.inl ⟨hidentity.1, _, .inl rfl, ?_⟩)
    rcases packIdentityAttributes s.identity identityAttributesAll with e | data <;> rfl
  rw [if_neg hidentity]
  by_cases hassembly : classCode = assemblyClass
  swap
  · exact .inr (.inr ⟨_, .pathDestinationUnknown, if_neg hassembly⟩)
  rw [if_pos hassembly]
  rcases getAttribute_cases s classCode inst assemblyDataAttribute with ⟨-, -, h⟩ | h | h
  · exact .inl ⟨hassembly, h⟩
  · exact .inr (.inl h)
  · exact .inr (.inr h)

/-- Only a write to the data of an assembly that is there changes the server. -/
theorem setAttribute_cases (classCode inst attr : ℕ) (value : Bytes) (s : EnipServer) :
    (classCode = assemblyClass ∧ attr = assemblyDataAttribute ∧ s.assemblies.lookup (inst : ℤ) ≠ none ∧
      setAttribute classCode inst attr value s = (.ok cipStatusSuccess, setAssemblyData inst value s)) ∨
    ∃ status, IsFailure status ∧ setAttribute classCode inst attr value s = (.ok status, s) := by
  unfold setAttribute
  by_cases hassembly : classCode = assemblyClass
  swap
  · rw [if_neg hassembly]
    by_cases hidentity : classCode = identityClass ∧ inst = 1
    · exact .inr ⟨_, .attributeNotSettable, by rw [if_pos hidentity]; rfl⟩
    · exact .inr ⟨_, .pathDestinationUnknown, by rw [if_neg hidentity]; rfl⟩
  rw [if_pos hassembly]
  by_cases hattr : attr = assemblyDataAttribute
  swap
  · exact .inr ⟨_, .attributeNotSupported, by rw [if_pos hattr]; rfl⟩
  rw [if_neg (not_not_intro hattr), Py.get_bind]
  by_cases hlookup : s.assemblies.lookup (inst : ℤ) = none
  · exact .inr ⟨_, .pathDestinationUnknown, by rw [if_pos hlookup]; rfl⟩
  · exact .inl ⟨hassembly, hattr, hlookup, by rw [if_neg hlookup]; rfl⟩

section Read

variable {service : ℕ} {s : EnipServer} {x : Except PyError (Bytes × ℕ)} {k : Bytes × ℕ → Py EnipServer Bytes}

/-- The answer to a service that reads `data` with a general status. -/
theorem read_of_ok (hservice : service < 256) {data : Bytes} {status : ℕ} (hstatus : status < 256)
    (hx : x = .ok (data, status)) (hk : k (data, status) = liftM (buildCipResponse service status data)) :
    ((liftM x : Py EnipServer _) >>= k) s = (.ok (cipReply service status data), s) := by
  rw [hx, Py.lift_ok_bind, hk, buildCipResponse_of_lt hservice hstatus]
  rfl

/-- The answer to a service that reads what can raise. -/
theorem read_of_map (hservice : service < 256) {outcome : Except PyError Bytes}
    (hx : x = outcome.map (·, cipStatusSuccess))
    (hk : ∀ data, k (data, cipStatusSuccess) = liftM (buildCipResponse service cipStatusSuccess data)) :
    ((liftM x : Py EnipServer _) >>= k) s = (outcome.map (cipReply service cipStatusSuccess), s) := by
  cases outcome with
  | error e =>
    rw [hx]
    rfl
  | ok data => exact read_of_ok hservice (by simp) hx (hk data)

end Read

/-- The services that read. -/
def IsGet (service : ℕ) : Prop := service = cipServiceGetAttributesAll ∨ service = cipServiceGetAttributeSingle

/-- What a service can do: write an assembly and acknowledge it, read an assembly or the identity, or
fail with a general status; only the write changes the server. -/
theorem dispatchService_cases {service : ℕ} (hservice : service < 256) (classCode inst : ℕ) (attr : Option ℕ)
    (data : Bytes) (s : EnipServer) :
    (service = cipServiceSetAttributeSingle ∧ classCode = assemblyClass ∧ attr = some assemblyDataAttribute ∧
      s.assemblies.lookup (inst : ℤ) ≠ none ∧
      dispatchService service classCode inst attr data s =
        (.ok (cipReply service cipStatusSuccess []), setAssemblyData inst data s)) ∨
    (IsGet service ∧ classCode = assemblyClass ∧
      ∃ value, s.assemblies.lookup (inst : ℤ) = some value ∧
        dispatchService service classCode inst attr data s = (.ok (cipReply service cipStatusSuccess value), s)) ∨
    (IsGet service ∧ classCode = identityClass ∧
      ∃ outcome, ReadsIdentity s.identity outcome ∧
        dispatchService service classCode inst attr data s =
          (outcome.map (cipReply service cipStatusSuccess), s)) ∨
    ∃ status, IsFailure status ∧
      dispatchService service classCode inst attr data s = (.ok (cipReply service status []), s) := by
  have hfail : ∀ {status}, IsFailure status →
      (liftM (buildCipResponse service status []) : Py EnipServer Bytes) s = (.ok (cipReply service status []), s) := by
    intro status hstatus
    rw [buildCipResponse_of_lt hservice hstatus.lt]
    rfl
  unfold dispatchService
  by_cases hall : service = cipServiceGetAttributesAll
  · have hget : IsGet service := .inl hall
    rw [if_pos hall, Py.get_bind]
    rcases getAttributesAll_cases s classCode inst with ⟨hc, value, hv, h⟩ | ⟨hc, outcome, ho, h⟩ | ⟨status, hf, h⟩
    · exact .inr (.inl ⟨hget, hc, value, hv, read_of_ok hservice (by simp) h rfl⟩)
    · exact .inr (.inr (.inl ⟨hget, hc, outcome, ho, read_of_map hservice h fun _ => rfl⟩))
    · exact .inr (.inr (.inr ⟨status, hf, read_of_ok hservice hf.lt h rfl⟩))
  rw [if_neg hall]
  by_cases hsingle : service = cipServiceGetAttributeSingle
  · have hget : IsGet service := .inr hsingle
    rw [if_pos hsingle]
    cases attr with
    | none => exact .inr (.inr (.inr ⟨_, .pathDestinationUnknown, hfail .pathDestinationUnknown⟩))
    | some attr =>
      rcases getAttribute_cases s classCode inst attr with ⟨hc, -, value, hv, h⟩ | ⟨hc, outcome, ho, h⟩ | ⟨status, hf, h⟩
      · exact .inr (.inl ⟨hget, hc, value, hv, read_of_ok hservice (by simp) h rfl⟩)
      · exact .inr (.inr (.inl ⟨hget, hc, outcome, ho, read_of_map hservice h fun _ => rfl⟩))
      · exact .inr (.inr (.inr ⟨status, hf, read_of_ok hservice hf.lt h rfl⟩))
  rw [if_neg hsingle]
  by_cases hset : service = cipServiceSetAttributeSingle
  swap
  · rw [if_neg hset]
    exact .inr (.inr (.inr ⟨_, .serviceNotSupported, hfail .serviceNotSupported⟩))
  rw [if_pos hset]
  cases attr with
  | none => exact .inr (.inr (.inr ⟨_, .pathDestinationUnknown, hfail .pathDestinationUnknown⟩))
  | some attr =>
    rcases setAttribute_cases classCode inst attr data s with ⟨hc, ha, hl, h⟩ | ⟨status, hf, h⟩
    · refine .inl ⟨hset, hc, by rw [ha], hl, ?_⟩
      show (setAttribute classCode inst attr data >>= _) s = _
      rw [Py.bind_of_ok h, buildCipResponse_of_lt hservice (by simp)]
      rfl
    · refine .inr (.inr (.inr ⟨status, hf, ?_⟩))
      show (setAttribute classCode inst attr data >>= _) s = _
      rw [Py.bind_of_ok h, buildCipResponse_of_lt hservice hf.lt]
      rfl

/-! ## What a request does -/

/-- SendRRData asks to write the data of an assembly. -/
def Writes (payload : Bytes) (inst : ℕ) (data : Bytes) : Prop :=
  ∃ timeout cipRequest, Carries payload timeout cipRequest ∧
    Asks cipRequest 0x10 assemblyClass inst (some assemblyDataAttribute) data

/-- SendRRData asks to read the data of an assembly, as one attribute or as all of them. -/
def Reads (payload : Bytes) (inst : ℕ) : Prop :=
  ∃ timeout cipRequest data, Carries payload timeout cipRequest ∧
    (Asks cipRequest 0x0E assemblyClass inst (some assemblyDataAttribute) data ∨
      ∃ attr, Asks cipRequest 0x01 assemblyClass inst attr data)

theorem Writes.unique {payload data data' : Bytes} {inst inst' : ℕ} (h : Writes payload inst data)
    (h' : Writes payload inst' data') : inst = inst' ∧ data = data' := by
  obtain ⟨timeout, cipRequest, hcarries, hasks⟩ := h
  obtain ⟨timeout', cipRequest', hcarries', hasks'⟩ := h'
  obtain ⟨-, rfl⟩ := hcarries.unique hcarries'
  obtain ⟨-, -, hinst, -, hdata⟩ := hasks.unique hasks'
  exact ⟨hinst, hdata⟩

/-- The CIP responses of a server that a request leaves alone. -/
inductive Unchanged (s : EnipServer) : Except PyError Bytes → Prop
  | assembly {service inst : ℕ} {value : Bytes} :
      IsGet service → s.assemblies.lookup (inst : ℤ) = some value →
        Unchanged s (.ok (cipReply service cipStatusSuccess value))
  | identity {service : ℕ} {outcome : Except PyError Bytes} :
      IsGet service → ReadsIdentity s.identity outcome →
        Unchanged s (outcome.map (cipReply service cipStatusSuccess))
  | failure {service status : ℕ} :
      status < 256 → status ≠ 0 → Unchanged s (.ok (cipReply service status []))

/-- SendRRData writes an assembly that is there and is acknowledged, or it changes nothing. -/
theorem handleSendRrData_cases (payload : Bytes) (s : EnipServer) :
    (∃ inst data, Writes payload inst data ∧ s.assemblies.lookup (inst : ℤ) ≠ none ∧
      ∃ timeout < 256 ^ 2, handleSendRrData payload s =
        ((packRrData timeout (cipReply 0x10 cipStatusSuccess [])).map some, setAssemblyData inst data s)) ∨
    ((∀ timeout cipRequest, ¬ Carries payload timeout cipRequest) ∧ handleSendRrData payload s = (.ok none, s)) ∨
    ∃ outcome, Unchanged s outcome ∧ ∃ timeout < 256 ^ 2, handleSendRrData payload s =
      (outcome >>= fun cipResponse => (packRrData timeout cipResponse).map some, s) := by
  by_cases hcarries : ∃ timeout cipRequest, Carries payload timeout cipRequest
  swap
  · push Not at hcarries
    exact .inr (.inl ⟨hcarries, handleSendRrData_of_not_carries hcarries s⟩)
  obtain ⟨timeout, cipRequest, hcarries⟩ := hcarries
  have htimeout : timeout < 256 ^ 2 := by
    obtain ⟨items, rest, hlt, -⟩ := hcarries
    exact hlt
  rw [handleSendRrData_of_carries hcarries]
  by_cases hasks : ∃ service classCode inst attr data, Asks cipRequest service classCode inst attr data
  swap
  · push Not at hasks
    obtain ⟨service, -, status, hf, h⟩ := handleCipRequest_of_not_asks hasks s
    exact .inr (.inr ⟨_, .failure hf.lt hf.ne_success, timeout, htimeout, by rw [h]⟩)
  obtain ⟨service, classCode, inst, attr, data, hasks⟩ := hasks
  rw [handleCipRequest_of_asks hasks]
  rcases dispatchService_cases service.toNat_lt classCode inst attr data s with
    ⟨hservice, rfl, rfl, hlookup, h⟩ | ⟨hget, -, value, hv, h⟩ | ⟨hget, -, outcome, ho, h⟩ | ⟨status, hf, h⟩
  · have hset : service = 0x10 := UInt8.toNat_inj.1 hservice
    subst hset
    exact .inl ⟨inst, data, ⟨timeout, cipRequest, hcarries, hasks⟩, hlookup, timeout, htimeout, by rw [h]; rfl⟩
  · exact .inr (.inr ⟨_, .assembly hget hv, timeout, htimeout, by rw [h]⟩)
  · exact .inr (.inr ⟨_, .identity hget ho, timeout, htimeout, by rw [h]⟩)
  · exact .inr (.inr ⟨_, .failure hf.lt hf.ne_success, timeout, htimeout, by rw [h]⟩)

theorem handleSendRrData_of_writes {payload data : Bytes} {inst : ℕ} (h : Writes payload inst data) {s : EnipServer}
    (hlookup : s.assemblies.lookup (inst : ℤ) ≠ none) :
    (handleSendRrData payload s).2 = setAssemblyData inst data s := by
  obtain ⟨timeout, cipRequest, hcarries, hasks⟩ := h
  have hset : setAttribute assemblyClass inst assemblyDataAttribute data s =
      (.ok cipStatusSuccess, setAssemblyData inst data s) := by
    unfold setAttribute
    rw [if_pos rfl, if_neg (not_not_intro rfl), Py.get_bind, if_neg hlookup]
    rfl
  rw [handleSendRrData_of_carries hcarries, handleCipRequest_of_asks hasks]
  show ((setAttribute assemblyClass inst assemblyDataAttribute data >>= _) s).2 = _
  rw [Py.bind_of_ok hset]
  rfl

/-- A read that is answered with status 0 is answered with the data of the assembly. -/
theorem handleSendRrData_of_reads {payload : Bytes} {inst : ℕ} (h : Reads payload inst) (s : EnipServer) :
    ∃ timeout service status data, status < 256 ∧ (status = 0 → s.assemblies.lookup (inst : ℤ) = some data) ∧
      handleSendRrData payload s = ((packRrData timeout (cipReply service status data)).map some, s) := by
  obtain ⟨timeout, cipRequest, requestData, hcarries, hasks⟩ := h
  have hasks : ∃ service attr, IsGet (UInt8.toNat service) ∧
      Asks cipRequest service assemblyClass inst attr requestData := by
    rcases hasks with hasks | ⟨attr, hasks⟩
    · exact ⟨_, _, .inr rfl, hasks⟩
    · exact ⟨_, _, .inl rfl, hasks⟩
  obtain ⟨service, attr, hget, hasks⟩ := hasks
  -- a service that reads does not write, and the class is not that of the identity
  rw [handleSendRrData_of_carries hcarries, handleCipRequest_of_asks hasks]
  rcases dispatchService_cases service.toNat_lt assemblyClass inst attr requestData s with
    ⟨hset, -⟩ | ⟨-, -, value, hv, h⟩ | ⟨-, hclass, -⟩ | ⟨status, hf, h⟩
  · rcases hget with hget | hget
    · exact absurd (hset.symm.trans hget) (by simp)
    · exact absurd (hset.symm.trans hget) (by simp)
  · exact ⟨timeout, service.toNat, 0, value, by simp, fun _ => hv, by rw [h]; rfl⟩
  · exact absurd hclass (by simp)
  · exact ⟨timeout, service.toNat, status, [], hf.lt, fun h0 => absurd h0 hf.ne_success, by rw [h]; rfl⟩

/-- The CIP response in the bytes that are packed around it. -/
theorem packRrData_eq_ok {timeout : ℕ} {cipResponse bytes : Bytes} (h : packRrData timeout cipResponse = .ok bytes) :
    bytes.length = 16 + cipResponse.length ∧ bytes.drop 16 = cipResponse ∧
      uintAt .little 2 bytes 14 = cipResponse.length := by
  obtain ⟨header, hheader, h⟩ := bind_eq_ok h
  obtain ⟨address, haddress, h⟩ := bind_eq_ok h
  obtain ⟨item, hitem, h⟩ := bind_eq_ok h
  cases h
  obtain ⟨-, rfl⟩ := structPack_eq_ok hheader
  obtain ⟨-, rfl⟩ := structPack_eq_ok haddress
  obtain ⟨hfits, rfl⟩ := structPack_eq_ok hitem
  let front := structRaw .little [.I 0, .H timeout, .H 2] ++ structRaw .little [.H cpfItemNullAddress, .H 0]
  let last := structRaw .little [.H cpfItemUnconnectedData, .H cipResponse.length]
  have hfront : front.length = 12 := by
    rw [List.length_append, length_structRaw, length_structRaw]
    rfl
  have hhead : (front ++ last).length = 16 := by
    rw [List.length_append, hfront, length_structRaw]
    rfl
  refine ⟨?_, List.drop_left' hhead, ?_⟩
  · rw [List.length_append]
    exact congrArg (· + cipResponse.length) hhead
  · have hread := uintAt_structRaw .little [.H cpfItemUnconnectedData] [] (w := 2) (v := cipResponse.length)
      (hfits _ (by simp)) cipResponse
    have hshift := uintAt_append_right .little 2 front (last ++ cipResponse) 2
    rw [hfront, ← List.append_assoc] at hshift
    exact hshift.trans hread

theorem exists_packRrData {timeout : ℕ} (htimeout : timeout < 256 ^ 2) {cipResponse : Bytes}
    (hlen : cipResponse.length < 256 ^ 2) : ∃ bytes, packRrData timeout cipResponse = .ok bytes := by
  have hheader : ∀ f ∈ [Field.I 0, .H timeout, .H 2], f.Fits := by
    simp only [List.forall_mem_cons]
    refine ⟨by decide, ⟨?_, ?_⟩, by decide, nofun⟩ <;> omega
  have haddress : ∀ f ∈ [Field.H cpfItemNullAddress, .H 0], f.Fits := by decide
  have hitem : ∀ f ∈ [Field.H cpfItemUnconnectedData, .H cipResponse.length], f.Fits := by
    simp only [List.forall_mem_cons]
    refine ⟨by decide, ⟨?_, ?_⟩, nofun⟩ <;> omega
  unfold packRrData
  rw [structPack_of_fits hheader, structPack_of_fits haddress, structPack_of_fits hitem]
  exact ⟨_, rfl⟩

/-- A response that changes nothing does not look like that of a successful write. -/
theorem Unchanged.not_written {s : EnipServer} {outcome : Except PyError Bytes} (h : Unchanged s outcome)
    {cipResponse : Bytes} (hr : outcome = .ok cipResponse) :
    ¬ (cipResponse[0]? = some 0x90 ∧ cipResponse[2]? = some 0) := by
  have hget : ∀ {service : ℕ} {data : Bytes}, IsGet service →
      (cipReply service cipStatusSuccess data)[0]? ≠ some 0x90 := by
    rintro service data (rfl | rfl) h0
    · exact absurd (Option.some.inj h0) (by simp)
    · exact absurd (Option.some.inj h0) (by simp)
  rintro ⟨h0, h2⟩
  cases h with
  | assembly hservice hv =>
    cases hr
    exact hget hservice h0
  | @identity service outcome hservice ho =>
    cases outcome with
    | error e => cases hr
    | ok data =>
      cases hr
      exact hget hservice h0
  | @failure service status hlt hne =>
    cases hr
    have hzero : UInt8.ofNat status = 0 := Option.some.inj h2
    have hnat := congrArg UInt8.toNat hzero
    rw [UInt8.toNat_ofNat_of_lt' hlt] at hnat
    exact hne hnat

end Cursus.Enip
