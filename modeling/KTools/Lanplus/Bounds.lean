import KTools.Lanplus.Stale

/-!
# The bounds of the packet parser

For each part of `ipmi_lan_poll_single` the accesses are in range exactly under a condition on the packet
(`.._safe_iff`); the conditions together are `WellSized`. Nothing but the sender makes a datagram well
sized: the parser compares no length with the number of received bytes (`poll_safe_iff`).
-/

namespace KTools.Lanplus
open KTools.Lib KTools.Lib.Bytes

section rules
variable {α β : Type} {n : Nat} {s : RxState}

/-- The state after the accesses of `l`. -/
def RxState.touched (s : RxState) (l : List Access) : RxState := { s with log := s.log ++ l }

/-- More accesses in a safe state. -/
theorem safe_logged_iff (h : Safe n s) {rsp : IpmiRs} {entries : List RqEntry} {l : List Access} :
    Safe n ⟨rsp, entries, s.log ++ l⟩ ↔ ∀ a ∈ l, a.InRange n := safe_append.trans (and_iff_right h)

theorem Safe.touched {l : List Access} (h : Safe n s) (hl : ∀ a ∈ l, a.InRange n) : Safe n (s.touched l) :=
  (safe_logged_iff h).2 hl

theorem touched_nil (s : RxState) : s.touched [] = s :=
  congrArg (fun log => { s with log := log }) (List.append_nil s.log)

/-- What follows a part that returns counts only when that part is safe. -/
theorem safe_bind_ok {m : Rx α} {f : α → Rx β} {a : α} {s' : RxState} {C : Prop} (hrun : m s = .ok a s')
    (hgrows : Grows (f a)) (hf : Safe n s' → (Ends (Safe n) (f a) s' ↔ C)) :
    Ends (Safe n) (m >>= f) s ↔ Safe n s' ∧ C := by
  rw [ends_bind_ok hrun]
  constructor
  · intro hsafe
    have hs' : Safe n s' := hsafe.of_prefix (hgrows s'.log s' (List.prefix_refl _))
    exact ⟨hs', (hf hs').1 hsafe⟩
  · exact fun h => (hf h.1).2 h.2

theorem ends_touch_bind {l : List Access} {f : PUnit → Rx α} {C : Prop} (h : Safe n s)
    (hgrows : Grows (f ⟨⟩)) (hf : Safe n (s.touched l) → (Ends (Safe n) (f ⟨⟩) (s.touched l) ↔ C)) :
    Ends (Safe n) (touch l >>= f) s ↔ (∀ a ∈ l, a.InRange n) ∧ C :=
  (safe_bind_ok (m := touch l) (a := ⟨⟩) rfl hgrows hf).trans
    (and_congr_left' (safe_logged_iff h))

def RxState.mapEntries (s : RxState) (f : List RqEntry → List RqEntry) : RxState :=
  { s with entries := f s.entries }

theorem Safe.mapEntries (h : Safe n s) (f : List RqEntry → List RqEntry) : Safe n (s.mapEntries f) := h

theorem ends_modifyEntries_bind {g : List RqEntry → List RqEntry} {f : PUnit → Rx α} {P : RxState → Prop} :
    Ends P (modifyEntries g >>= f) s ↔ Ends P (f ⟨⟩) (s.mapEntries g) := Iff.rfl

theorem safe_touch_modifyRsp (h : Safe n s) (l : List Access) (g : IpmiRs → IpmiRs) :
    Ends (Safe n) (do touch l; modifyRsp g) s ↔ ∀ a ∈ l, a.InRange n :=
  safe_logged_iff h

/-- A sequence is safe when its first part is, and the rest from wherever the first part returns. -/
theorem safe_bind_iff {m : Rx α} {f : α → Rx β} (hgrows : ∀ a, Grows (f a)) :
    Ends (Safe n) (m >>= f) s ↔
      Ends (Safe n) m s ∧ ∀ a s', m s = .ok a s' → Ends (Safe n) (f a) s' := by
  cases hrun : m s with
  | ok a s' =>
    rw [ends_bind_ok hrun, ends_ok hrun]
    constructor
    · intro h
      refine ⟨h.of_prefix (hgrows a s'.log s' (List.prefix_refl _)), ?_⟩
      rintro _ _ ⟨⟩
      exact h
    · exact fun h => h.2 a s' rfl
  | error e s' =>
    rw [ends_bind_error hrun, ends_error hrun]
    exact ⟨fun h => ⟨h, fun _ _ h => by cases h⟩, fun h => h.1⟩

end rules

section payload
variable {n : Nat} {s : RxState}

theorem shiftData_safe_iff (hn : n ≤ ipmiBufSize) (h : Safe n s) (off payloadSize header trailer : Nat) :
    Ends (Safe n) (shiftData off payloadSize header trailer) s ↔
      header + trailer ≤ payloadSize ∧
        (header + trailer < payloadSize → off + header + (payloadSize - (header + trailer)) ≤ n) := by
  unfold shiftData
  rw [ends_touch_bind h (.ite (.bind (.touch _) fun _ => .modifyRsp _) (.modifyRsp _)) fun h' => ?_]
  · rw [List.forall_mem_singleton]
    rfl
  · rw [ends_ite]
    by_cases hpos : 0 < payloadSize - (header + trailer)
    · rw [if_pos hpos, safe_touch_modifyRsp h']
      simp only [List.forall_mem_cons, Access.InRange]
      constructor
      · rintro ⟨hread, -⟩ -
        omega
      · intro hread
        exact ⟨by omega, by omega, fun a ha => absurd ha List.not_mem_nil⟩
    · rw [if_neg hpos]
      exact iff_of_true h' fun hlt => absurd hlt (by omega)

theorem readIpmiResponse_safe_iff (h : Safe n s) (off : Nat) :
    Ends (Safe n) (readIpmiResponse off) s ↔ off + ipmiResponseLength ≤ n := by
  unfold readIpmiResponse
  rw [safe_touch_modifyRsp h]
  simp only [List.forall_mem_cons, Access.InRange, ipmiResponseLength]
  constructor
  · rintro ⟨-, hread, -⟩
    omega
  · intro hread
    exact ⟨by omega, by omega, fun a ha => absurd ha List.not_mem_nil⟩

/-- The lengths in a response that matches `entry`. -/
def MatchSized (n off payloadSize : Nat) (ccode : UInt8) (entry : RqEntry) : Prop :=
  if entry.bridgingLevel ≠ 0 ∧ ccode = 0 then
    8 < payloadSize → off + payloadSize ≤ n + 1
  else 8 ≤ payloadSize ∧ off + payloadSize ≤ n + 1

theorem matchedResponse_safe_iff (hn : n ≤ ipmiBufSize) (h : Safe n s) {off payloadSize dataLen : Nat}
    (hlen : dataLen = n ∨ off = 0 ∧ dataLen = payloadSize) (hoff : off + ipmiResponseLength ≤ n)
    (r : IpmiResponse) (ccode : UInt8) (entry : RqEntry) :
    Ends (Safe n) (matchedResponse off payloadSize dataLen r ccode entry) s ↔
      MatchSized n off payloadSize ccode entry := by
  have hshift : ∀ (s : RxState) (turn : Turn), Safe n s →
      (Ends (Safe n) (do
        modifyEntries (ipmiReqRemoveEntry r.rqSeq r.cmd)
        shiftData off payloadSize ipmiResponseLength 1
        return turn) s ↔ 8 ≤ payloadSize ∧ off + payloadSize ≤ n + 1) := by
    intro s turn h
    rw [ends_modifyEntries_bind, ends_bind_pure, shiftData_safe_iff hn (h.mapEntries _)]
    unfold ipmiResponseLength at hoff ⊢
    omega
  unfold matchedResponse MatchSized
  rw [ends_ite]
  split
  · rw [ends_modifyEntries_bind, ends_ite]
    by_cases hsize : 8 < payloadSize
    · rw [if_pos hsize, ends_touch_bind (h.mapEntries _) ?_ fun h' => hshift _ _ h']
      · simp only [List.forall_mem_cons, Access.InRange]
        constructor
        · exact fun hsafe _ => hsafe.2.2
        · intro hread
          refine ⟨⟨?_, fun a ha => absurd ha List.not_mem_nil⟩, by omega, hread hsize⟩
          have := hread hsize
          unfold ipmiResponseLength at hoff ⊢
          omega
      · exact .bind (.modifyEntries _) fun _ => .bind (.shiftData _ _ _ _) fun _ => .pure _
    · rw [if_neg hsize]
      exact iff_of_true h fun hlt => absurd hlt hsize
  · exact hshift s .last h

/-- After the header of a response has been read. -/
def RxState.withResponse (s : RxState) (off : Nat) : RxState :=
  { s with
    rsp := { s.rsp with
      payload := .ipmiResponse (ipmiResponseAt s.rsp.data off), ccode := s.rsp.data (off + 6) }
    log := s.log ++ [.read off 2, .read (off + 3) 4] }

theorem readIpmiResponse_run (off : Nat) (s : RxState) :
    readIpmiResponse off s = .ok ⟨⟩ (s.withResponse off) := rfl

theorem matchResponse_none {off : Nat} {s : RxState} (h : pendingEntry s.rsp.data off s.entries = none)
    (payloadSize : Nat) : matchResponse off payloadSize s = .ok .again s := by
  unfold matchResponse
  rw [get_bind_apply, h]
  rfl

theorem matchResponse_some {off : Nat} {s : RxState} {entry : RqEntry}
    (h : pendingEntry s.rsp.data off s.entries = some entry) (payloadSize : Nat) :
    matchResponse off payloadSize s = matchedResponse off payloadSize s.rsp.dataLen
      (ipmiResponseAt s.rsp.data off) s.rsp.ccode entry s := by
  unfold matchResponse
  rw [get_bind_apply, h]

/-- A response that no entry waits for is passed over. -/
theorem handleIpmiResponse_none {off : Nat} {s : RxState} (h : pendingEntry s.rsp.data off s.entries = none)
    (payloadSize : Nat) : handleIpmiResponse off payloadSize s = .ok .again (s.withResponse off) :=
  (bind_ok (readIpmiResponse_run off s)).trans (matchResponse_none (s := s.withResponse off) h payloadSize)

theorem handleIpmiResponse_some {off : Nat} {s : RxState} {entry : RqEntry}
    (h : pendingEntry s.rsp.data off s.entries = some entry) (payloadSize : Nat) :
    handleIpmiResponse off payloadSize s = matchedResponse off payloadSize s.rsp.dataLen
      (ipmiResponseAt s.rsp.data off) (s.rsp.data (off + 6)) entry (s.withResponse off) :=
  (bind_ok (readIpmiResponse_run off s)).trans (matchResponse_some (s := s.withResponse off) h payloadSize)

theorem handleIpmiResponse_safe_iff (hn : n ≤ ipmiBufSize) (h : Safe n s) {off payloadSize : Nat}
    (hlen : s.rsp.dataLen = n ∨ off = 0 ∧ s.rsp.dataLen = payloadSize) :
    Ends (Safe n) (handleIpmiResponse off payloadSize) s ↔
      off + ipmiResponseLength ≤ n ∧ ∀ entry, pendingEntry s.rsp.data off s.entries = some entry →
        MatchSized n off payloadSize (s.rsp.data (off + 6)) entry := by
  have hrest : Safe n (s.withResponse off) → (Ends (Safe n) (matchResponse off payloadSize)
      (s.withResponse off) ↔ ∀ entry, pendingEntry s.rsp.data off s.entries = some entry →
        MatchSized n off payloadSize (s.rsp.data (off + 6)) entry) := by
    intro hsafe
    have hoff := (readIpmiResponse_safe_iff h off).1 hsafe
    cases hfind : pendingEntry s.rsp.data off s.entries with
    | none =>
      have hnone : pendingEntry (s.withResponse off).rsp.data off (s.withResponse off).entries = none := hfind
      exact iff_of_true ((ends_ok (matchResponse_none hnone payloadSize)).2 hsafe) fun _ h => by cases h
    | some entry =>
      have hsome : pendingEntry (s.withResponse off).rsp.data off (s.withResponse off).entries = some entry :=
        hfind
      rw [ends_of_eq (matchResponse_some hsome payloadSize)]
      have := matchedResponse_safe_iff hn hsafe hlen hoff (ipmiResponseAt s.rsp.data off)
        (s.rsp.data (off + 6)) entry
      refine this.trans ⟨?_, fun h => h entry rfl⟩
      rintro hsized _ ⟨⟩
      exact hsized
  exact (safe_bind_ok (readIpmiResponse_run off s) (.matchResponse off payloadSize) hrest).trans
    (and_congr_left' (readIpmiResponse_safe_iff h off))

/-- The pending requests and the data array when an embedded response is next. -/
def entriesBehind (data : Nat → UInt8) (off : Nat) (entries : List RqEntry) : List RqEntry :=
  let r := ipmiResponseAt data off
  ipmiReqRemoveEntry r.rqSeq r.cmd (updateEntry r.rqSeq r.cmd RqEntry.decrementBridging entries)

def dataBehind (data : Nat → UInt8) (off extra : Nat) : Nat → UInt8 :=
  store data 0 (slice data (off + ipmiResponseLength) extra)

theorem shiftData_run (off payloadSize header trailer : Nat) (s : RxState) :
    ∃ s', shiftData off payloadSize header trailer s = .ok ⟨⟩ s' ∧ s'.entries = s.entries ∧
      s'.rsp.dataLen = payloadSize - (header + trailer) ∧
      (header + trailer < payloadSize → s'.rsp.data =
        store s.rsp.data 0 (slice s.rsp.data (off + header) (payloadSize - (header + trailer)))) := by
  unfold shiftData
  by_cases hpos : 0 < payloadSize - (header + trailer)
  · simp only [if_pos hpos]
    exact ⟨_, rfl, rfl, rfl, fun _ => rfl⟩
  · simp only [if_neg hpos]
    exact ⟨_, rfl, rfl, show 0 = _ by omega, fun h => absurd h (by omega)⟩

/-- Only a bridged response of more than 8 bytes embeds another one. -/
theorem handleIpmiResponse_embedded {off payloadSize : Nat} {s s' : RxState}
    (hrun : handleIpmiResponse off payloadSize s = .ok .embedded s') :
    ∃ entry, pendingEntry s.rsp.data off s.entries = some entry ∧
      entry.bridgingLevel ≠ 0 ∧ s.rsp.data (off + 6) = 0 ∧ 8 < payloadSize ∧
      s'.entries = entriesBehind s.rsp.data off s.entries ∧
      s'.rsp.data = dataBehind s.rsp.data off (payloadSize - 8) ∧
      s'.rsp.dataLen = payloadSize - 8 := by
  cases hfind : pendingEntry s.rsp.data off s.entries with
  | none => rw [handleIpmiResponse_none hfind] at hrun; cases hrun
  | some entry =>
    have hmatch := (handleIpmiResponse_some hfind payloadSize).symm.trans hrun
    unfold matchedResponse at hmatch
    split at hmatch
    · rename_i hbridged
      obtain ⟨_, s₁, hupdate, hmatch⟩ := bind_eq_ok hmatch
      cases hupdate
      by_cases hsize : 8 < payloadSize
      · rw [if_pos hsize] at hmatch
        obtain ⟨_, s₂, htouch, hmatch⟩ := bind_eq_ok hmatch
        cases htouch
        obtain ⟨_, s₃, hremove, hmatch⟩ := bind_eq_ok hmatch
        cases hremove
        obtain ⟨_, s₄, hshift, hmatch⟩ := bind_eq_ok hmatch
        cases hmatch
        obtain ⟨t, hrun', hentries, hlen, hdata⟩ := shiftData_run off payloadSize ipmiResponseLength 1 _
        obtain ⟨-, rfl⟩ := EStateM.Result.ok.inj (hrun'.symm.trans hshift)
        exact ⟨entry, rfl, hbridged.1, hbridged.2, hsize, hentries, hdata hsize, hlen⟩
      · rw [if_neg hsize] at hmatch
        cases hmatch
    · obtain ⟨_, s₁, hremove, hmatch⟩ := bind_eq_ok hmatch
      obtain ⟨_, s₂, hshift, hmatch⟩ := bind_eq_ok hmatch
      cases hmatch

theorem handleIpmiResponse_of_bridged {off payloadSize : Nat} {s : RxState} {entry : RqEntry}
    (hfind : pendingEntry s.rsp.data off s.entries = some entry)
    (hbridged : entry.bridgingLevel ≠ 0 ∧ s.rsp.data (off + 6) = 0) (hsize : 8 < payloadSize) :
    ∃ s', handleIpmiResponse off payloadSize s = .ok .embedded s' := by
  obtain ⟨t, hshift, -⟩ := shiftData_run off payloadSize ipmiResponseLength 1
    { (s.withResponse off) with
      entries := entriesBehind s.rsp.data off s.entries
      log := (s.withResponse off).log ++ [.sub s.rsp.dataLen (off + ipmiResponseLength + 1)] }
  refine ⟨t, ?_⟩
  rw [handleIpmiResponse_some hfind]
  simp only [matchedResponse, if_pos hbridged, if_pos hsize]
  exact bind_ok (f := fun _ => (return .embedded : Rx Turn)) hshift

/-- The lengths in a response and in the responses embedded in it. -/
def ResponsesSized (n : Nat) (data : Nat → UInt8) (entries : List RqEntry) (off payloadSize : Nat) :
    Prop :=
  off + ipmiResponseLength ≤ n ∧ ∀ entry, pendingEntry data off entries = some entry →
    MatchSized n off payloadSize (data (off + 6)) entry ∧
      (entry.bridgingLevel ≠ 0 ∧ data (off + 6) = 0 →
        match payloadSize with
        | rest + 9 =>
          ResponsesSized n (dataBehind data off (rest + 1)) (entriesBehind data off entries) 0 (rest + 1)
        | _ => True)

/-- A turn that asks for the embedded response, for which the loop goes on. -/
theorem ipmiResponses_safe_iff (hn : n ≤ ipmiBufSize) (payloadSize : Nat) :
    ∀ {off : Nat} {s : RxState}, Safe n s →
      (s.rsp.dataLen = n ∨ off = 0 ∧ s.rsp.dataLen = payloadSize) →
      (Ends (Safe n) (ipmiResponses off payloadSize) s ↔
        ResponsesSized n s.rsp.data s.entries off payloadSize) := by
  induction payloadSize using Nat.strongRecOn with
  | _ payloadSize ih =>
    intro off s h hlen
    unfold ipmiResponses ResponsesSized
    rw [safe_bind_iff ?grows, handleIpmiResponse_safe_iff hn h hlen, and_assoc]
    case grows =>
      intro turn
      cases turn with
      | again => exact .pure _
      | last => exact .pure _
      | embedded =>
        dsimp only
        split
        · exact .ipmiResponses _ 0
        · exact .pure _
    refine and_congr_right fun hoff => ?_
    constructor
    · rintro ⟨hsized, hrest⟩ entry hfind
      refine ⟨hsized entry hfind, fun hbridged => ?_⟩
      split
      · rename_i rest
        obtain ⟨s', hrun⟩ := handleIpmiResponse_of_bridged hfind hbridged (show 8 < rest + 9 by omega)
        obtain ⟨-, -, -, -, -, hentries, hdata, hlen'⟩ := handleIpmiResponse_embedded hrun
        have hsafe' : Safe n s' := (ends_ok hrun).1 ((handleIpmiResponse_safe_iff hn h hlen).2 ⟨hoff, hsized⟩)
        have := (ih (rest + 1) (by omega) hsafe' (.inr ⟨rfl, hlen'⟩)).1 (hrest .embedded s' hrun)
        rw [hentries, hdata] at this
        exact this
      · trivial
    · intro hall
      have hsized : ∀ entry, pendingEntry s.rsp.data off s.entries = some entry →
          MatchSized n off payloadSize (s.rsp.data (off + 6)) entry := fun entry hfind => (hall entry hfind).1
      refine ⟨hsized, fun turn s' hrun => ?_⟩
      have hsafe' : Safe n s' := (ends_ok hrun).1 ((handleIpmiResponse_safe_iff hn h hlen).2 ⟨hoff, hsized⟩)
      cases turn with
      | again => exact hsafe'
      | last => exact hsafe'
      | embedded =>
        obtain ⟨entry, hfind, hlevel, hccode, hsize, hentries, hdata, hlen'⟩ := handleIpmiResponse_embedded hrun
        have hrest := (hall entry hfind).2 ⟨hlevel, hccode⟩
        dsimp only
        split
        · rename_i rest
          refine (ih (rest + 1) (by omega) hsafe' (.inr ⟨rfl, hlen'⟩)).2 ?_
          rw [hentries, hdata]
          exact hrest
        · exact hsafe'

theorem readOpenSessionResponse_safe_iff (h : Safe n s) (off : Nat) :
    Ends (Safe n) (readOpenSessionResponse off) s ↔
      off + 8 ≤ n ∧ (s.rsp.data (off + 1) = 0 → off + 33 ≤ n) := by
  unfold readOpenSessionResponse
  rw [ends_get_bind, safe_touch_modifyRsp h]
  simp only [openSessionAccesses, List.forall_mem_append, List.forall_mem_cons, Access.InRange]
  by_cases hok : s.rsp.data (off + 1) = 0
  · rw [if_pos hok]
    simp only [hok, true_implies, List.forall_mem_cons, List.not_mem_nil, false_implies, implies_true,
      and_true]
    omega
  · rw [if_neg hok]
    simp only [hok, false_implies, List.not_mem_nil, implies_true, and_true]
    omega

/-- A message with a fixed head and `len` bytes of code behind it. -/
theorem safe_touch_code (h : Safe n s) {head : List Access} {off : Nat} {code : Option Nat}
    {g : Nat → IpmiRs → IpmiRs} (hhead : (∀ a ∈ head, a.InRange n) ↔ off ≤ n) :
    Ends (Safe n) (do
      touch head
      let some len := code | throw .assertion
      touch [.read off len]
      modifyRsp (g len) : Rx PUnit) s ↔ off + code.getD 0 ≤ n := by
  cases code with
  | none =>
    exact (safe_logged_iff h).trans hhead
  | some len =>
    rw [ends_touch_bind h (.bind (.touch _) fun _ => .modifyRsp _) fun h' => safe_touch_modifyRsp h' _ _,
      hhead, List.forall_mem_singleton]
    simp only [Access.InRange, Option.getD_some]
    omega

theorem readRakp2Message_safe_iff (h : Safe n s) (off : Nat) (authAlg : UInt8) :
    Ends (Safe n) (readRakp2Message off authAlg) s ↔
      off + 40 + (rakp2CodeLength authAlg).getD 0 ≤ n := by
  refine safe_touch_code h ?_
  simp only [List.forall_mem_cons, Access.InRange, List.not_mem_nil, false_implies, implies_true, and_true]
  omega

theorem readRakp4Message_safe_iff (h : Safe n s) (off : Nat) (authAlg : UInt8) :
    Ends (Safe n) (readRakp4Message off authAlg) s ↔
      off + 8 + (rakp4CodeLength authAlg).getD 0 ≤ n := by
  refine safe_touch_code h ?_
  simp only [List.forall_mem_cons, Access.InRange, List.not_mem_nil, false_implies, implies_true, and_true]
  omega

theorem solPacket_safe_iff (hn : n ≤ ipmiBufSize) (h : Safe n s) (off payloadSize : Nat) :
    Ends (Safe n) (do
      readSolPacket off
      shiftData off payloadSize solHeaderLength 0
      return Poll.rsp) s ↔ solHeaderLength ≤ payloadSize ∧ off + payloadSize ≤ n := by
  refine (safe_bind_ok (m := readSolPacket off) (a := ⟨⟩) rfl (.bind (.shiftData _ _ _ _) fun _ => .pure _)
    fun h' => (ends_bind_pure _ _).trans (shiftData_safe_iff hn h' off payloadSize solHeaderLength 0)).trans ?_
  refine (and_congr_left' (safe_logged_iff h)).trans ?_
  simp only [List.forall_mem_cons, Access.InRange, solHeaderLength, List.not_mem_nil, false_implies,
    implies_true, and_true]
  omega

/-- The lengths in a payload of size `payloadSize` at `off`, by its type. -/
def PayloadSized (n : Nat) (v2 : V2Data) (payloadtype : UInt8) (data : Nat → UInt8)
    (entries : List RqEntry) (off payloadSize : Nat) : Prop :=
  if payloadtype = payloadTypeIpmi then ResponsesSized n data entries off payloadSize
  else if payloadtype = payloadTypeOpenResponse then
    v2.sessionState = .openSessionSent → off + 8 ≤ n ∧ (data (off + 1) = 0 → off + 33 ≤ n)
  else if payloadtype = payloadTypeRakp2 then
    v2.sessionState = .rakp1Sent → off + 40 + (rakp2CodeLength v2.authAlg).getD 0 ≤ n
  else if payloadtype = payloadTypeRakp4 then
    v2.sessionState = .rakp3Sent → off + 8 + (rakp4CodeLength v2.authAlg).getD 0 ≤ n
  else if payloadtype = payloadTypeSol then
    v2.sessionState = .active → solHeaderLength ≤ payloadSize ∧ off + payloadSize ≤ n
  else True

/-- A payload that is not wanted in the session's state is left alone. -/
theorem safe_unless_again (h : Safe n s) {p C : Prop} [Decidable p] {m : Rx Poll}
    (hm : Ends (Safe n) m s ↔ C) :
    Ends (Safe n) (if ¬ p then return .again else m) s ↔ (p → C) := by
  by_cases hp : p
  · rw [if_neg (not_not_intro hp), hm]
    exact ⟨fun h _ => h, fun h => h hp⟩
  · rw [if_pos hp]
    exact iff_of_true h fun h => absurd h hp

theorem handlePayload_safe_iff (hn : n ≤ ipmiBufSize) (h : Safe n s) (hlen : s.rsp.dataLen = n)
    (e : RxEnv) (payloadtype : UInt8) (off payloadSize : Nat) :
    Ends (Safe n) (handlePayload e payloadtype off payloadSize) s ↔
      PayloadSized n e.v2 payloadtype s.rsp.data s.entries off payloadSize := by
  unfold handlePayload PayloadSized
  split
  · exact ipmiResponses_safe_iff hn payloadSize h (.inl hlen)
  split
  · exact safe_unless_again h ((ends_bind_pure _ _).trans (readOpenSessionResponse_safe_iff h off))
  split
  · exact safe_unless_again h ((ends_bind_pure _ _).trans (readRakp2Message_safe_iff h off _))
  split
  · exact safe_unless_again h ((ends_bind_pure _ _).trans (readRakp4Message_safe_iff h off _))
  split
  · exact safe_unless_again h (solPacket_safe_iff hn h off payloadSize)
  · exact iff_of_true h trivial

end payload

/-! ### Session header, authcode and decryption -/

/-- The header at `off`. A v1.5 header leaves the session id and the sequence number as they were. -/
def sessionAt (data : Nat → UInt8) (off : Nat) : SessionHdr :=
  if data off = authtypeRmcpPlus then sessionV2x data off
  else
    { authtype := data off, seq := 0, id := 0, bEncrypted := false, bAuthenticated := false
      payloadtype := payloadTypeIpmi, msglen := (data (off + 9)).toNat }

/-- Where the payload behind the header at `off` starts. -/
def payloadStart (data : Nat → UInt8) (off : Nat) : Nat :=
  if data off = authtypeRmcpPlus then off + 12 else off + 10

/-- The authcode fits in the packet behind the authtype. -/
def AuthcodeSized (n : Nat) (v2 : V2Data) (h : SessionHdr) : Prop :=
  checksAuthcode v2 h = true → ∀ len, authcodeLength v2.integrityAlg = some len → offsetAuthtype + len ≤ n

/-- The answer of `lanplus_has_valid_auth_code`; `none` is a failed assertion. -/
def authcodeCheck (c : Crypto) (v2 : V2Data) (data : Nat → UInt8) (n : Nat) (h : SessionHdr) :
    Option Bool :=
  if !checksAuthcode v2 h then some true
  else do
    let len ← authcodeLength v2.integrityAlg
    let mac ← lanplusHMAC c v2.integrityAlg v2.k1 (slice data offsetAuthtype (n - offsetAuthtype - len))
    return slice data (n - len) len = mac.take len

def decryptedPayload (c : Crypto) (v2 : V2Data) (data : Nat → UInt8) (off len : Nat) : List UInt8 :=
  c.aesDecrypt (slice data off cryptAesCbc128BlockSize) v2.k2
    (slice data (off + cryptAesCbc128BlockSize) (len - cryptAesCbc128BlockSize))

def padLength (decrypted : List UInt8) : Nat := (decrypted.getD (decrypted.length - 1) 0).toNat

/-- The initialization vector and the blocks are in the packet, and the pad is in the blocks. -/
def AesSized (n : Nat) (c : Crypto) (v2 : V2Data) (data : Nat → UInt8) (off len : Nat) : Prop :=
  cryptAesCbc128BlockSize ≤ len ∧
    (cryptAesCbc128BlockSize < len → off + cryptAesCbc128BlockSize ≤ n ∧
      ((len - cryptAesCbc128BlockSize) % cryptAesCbc128BlockSize = 0 → off + len ≤ n ∧
        padLength (decryptedPayload c v2 data off len) + 1 ≤ len - cryptAesCbc128BlockSize))

def DecryptSized (n : Nat) (c : Crypto) (v2 : V2Data) (data : Nat → UInt8) (off : Nat) (h : SessionHdr) :
    Prop :=
  decrypts v2 h = true →
    if v2.cryptAlg = cryptNone then h.msglen = 0 ∨ off + h.msglen ≤ n
    else v2.cryptAlg = cryptAesCbc128 → AesSized n c v2 data off h.msglen

/-- The pad counts from 1; `n` bytes to go. -/
def padCounts (e : RxEnv) (decrypted : List UInt8) (payloadSize : Nat) : Nat → Nat → Bool
  | 0, _ => true
  | n + 1, i =>
    (scratchByte e decrypted (payloadSize + i)).toNat == i + 1 &&
      padCounts e decrypted payloadSize n (i + 1)

/-- The data array and the payload size after decryption; `none` is a failed assertion. -/
def plainPayload (e : RxEnv) (data : Nat → UInt8) (off : Nat) (h : SessionHdr) :
    Option ((Nat → UInt8) × Nat) :=
  if !decrypts e.v2 h ∨ e.v2.cryptAlg = cryptNone then some (data, h.msglen)
  else if e.v2.cryptAlg ≠ cryptAesCbc128 ∨ h.msglen ≤ cryptAesCbc128BlockSize ∨
      (h.msglen - cryptAesCbc128BlockSize) % cryptAesCbc128BlockSize ≠ 0 then none
  else
    let decrypted := decryptedPayload e.crypto e.v2 data off h.msglen
    let payloadSize := unpaddedSize decrypted.length (padLength decrypted)
    if padCounts e decrypted payloadSize (padLength decrypted) 0 then
      some (store data off decrypted, payloadSize)
    else none

section header
variable {n : Nat} {s : RxState}

/-- After the session header has been read, with the accesses of `l`. -/
def RxState.withSession (s : RxState) (h : SessionHdr) (l : List Access) : RxState :=
  { s with rsp := { s.rsp with session := h }, log := s.log ++ l }

theorem readSessionData_v2x {off : Nat} (hauth : s.rsp.data off = authtypeRmcpPlus) :
    readSessionData off s = .ok (off + 12) (s.withSession (sessionV2x s.rsp.data off)
      [.read off 1, .read off 2, .read (off + 2) 4, .read (off + 6) 4, .read (off + 10) 2]) := by
  have hrun : readSessionData off s =
      (if s.rsp.data off = authtypeRmcpPlus then readSessionDataV2x off else readSessionDataV15 off)
        (s.withSession { s.rsp.session with authtype := s.rsp.data off } [.read off 1]) := rfl
  rw [hrun, if_pos hauth]
  exact congrArg (fun log => EStateM.Result.ok (off + 12)
    { s with rsp := { s.rsp with session := sessionV2x s.rsp.data off }, log := log })
    (List.append_assoc s.log [.read off 1] _)

theorem readSessionData_v15 {off : Nat} (hauth : s.rsp.data off ≠ authtypeRmcpPlus) :
    readSessionData off s = .ok (off + 10) (s.withSession
      { s.rsp.session with
        authtype := s.rsp.data off, bEncrypted := false, bAuthenticated := false
        payloadtype := payloadTypeIpmi, msglen := (s.rsp.data (off + 9)).toNat }
      [.read off 1, .read off 1, .read (off + 9) 1]) := by
  have hrun : readSessionData off s =
      (if s.rsp.data off = authtypeRmcpPlus then readSessionDataV2x off else readSessionDataV15 off)
        (s.withSession { s.rsp.session with authtype := s.rsp.data off } [.read off 1]) := rfl
  rw [hrun, if_neg hauth]
  exact congrArg (fun log => EStateM.Result.ok (off + 10)
    { s with
      rsp := { s.rsp with session := { s.rsp.session with
        authtype := s.rsp.data off, bEncrypted := false, bAuthenticated := false
        payloadtype := payloadTypeIpmi, msglen := (s.rsp.data (off + 9)).toNat } }
      log := log }) (List.append_assoc s.log [.read off 1] _)

/-- What reading the session header leaves. -/
structure HeaderRead (n off : Nat) (s s' : RxState) : Prop where
  safe : Safe n s → (Safe n s' ↔ payloadStart s.rsp.data off ≤ n)
  entries : s'.entries = s.entries
  data : s'.rsp.data = s.rsp.data
  dataLen : s'.rsp.dataLen = s.rsp.dataLen
  ccode : s'.rsp.ccode = s.rsp.ccode
  session : SameHdr (sessionAt s.rsp.data off) s'.rsp.session

theorem readSessionData_run (n off : Nat) (s : RxState) :
    ∃ s', readSessionData off s = .ok (payloadStart s.rsp.data off) s' ∧ HeaderRead n off s s' := by
  by_cases hauth : s.rsp.data off = authtypeRmcpPlus
  · have hstart : payloadStart s.rsp.data off = off + 12 := if_pos hauth
    have hrun := readSessionData_v2x hauth
    rw [← hstart] at hrun
    refine ⟨_, hrun, fun h => ?_, rfl, rfl, rfl, rfl, ?_⟩
    · refine (safe_logged_iff h).trans ?_
      rw [hstart]
      simp only [List.forall_mem_cons, Access.InRange, List.not_mem_nil, false_implies, implies_true, and_true]
      omega
    · have hsession : sessionAt s.rsp.data off = sessionV2x s.rsp.data off := if_pos hauth
      rw [hsession]
      exact ⟨rfl, rfl, rfl, rfl, rfl, fun _ => rfl⟩
  · have hstart : payloadStart s.rsp.data off = off + 10 := if_neg hauth
    have hrun := readSessionData_v15 hauth
    rw [← hstart] at hrun
    refine ⟨_, hrun, fun h => ?_, rfl, rfl, rfl, rfl, ?_⟩
    · refine (safe_logged_iff h).trans ?_
      rw [hstart]
      simp only [List.forall_mem_cons, Access.InRange, List.not_mem_nil, false_implies, implies_true, and_true]
      omega
    · unfold sessionAt
      rw [if_neg hauth]
      exact ⟨rfl, rfl, rfl, rfl, rfl, fun h => absurd h hauth⟩

/-- The accesses of the authcode check, when the authcode fits. -/
def authcodeAccesses (n len : Nat) : List Access :=
  [.sub n len, .sub n (offsetAuthtype + len),
    .read offsetAuthtype (n - offsetAuthtype - len), .read (n - len) len]

theorem compareAuthcode_run {len : Nat} (hle : offsetAuthtype + len ≤ n) (e : RxEnv) :
    compareAuthcode e n len s =
      match lanplusHMAC e.crypto e.v2.integrityAlg e.v2.k1
        (slice s.rsp.data offsetAuthtype (n - offsetAuthtype - len)) with
      | none => .error .assertion (s.touched (authcodeAccesses n len))
      | some mac => .ok (slice s.rsp.data (n - len) len = mac.take len)
          (s.touched (authcodeAccesses n len)) := by
  unfold compareAuthcode
  rw [if_neg (Nat.not_lt.2 hle)]
  have hlog : s.touched (authcodeAccesses n len) = (s.touched [.sub n len, .sub n (offsetAuthtype + len)]).touched
      [.read offsetAuthtype (n - offsetAuthtype - len), .read (n - len) len] :=
    congrArg (fun log => { s with log := log }) (List.append_assoc s.log [_, _] [_, _]).symm
  rw [hlog]
  show (match lanplusHMAC e.crypto e.v2.integrityAlg e.v2.k1
      (slice s.rsp.data offsetAuthtype (n - offsetAuthtype - len)) with
    | none => throw .assertion
    | some mac => return decide (slice s.rsp.data (n - len) len = mac.take len) : Rx Bool) _ = _
  cases lanplusHMAC e.crypto e.v2.integrityAlg e.v2.k1
    (slice s.rsp.data offsetAuthtype (n - offsetAuthtype - len)) with
  | none => rfl
  | some mac => rfl

theorem compareAuthcode_safe_iff (h : Safe n s) (e : RxEnv) (len : Nat) :
    Ends (Safe n) (compareAuthcode e n len) s ↔ offsetAuthtype + len ≤ n := by
  by_cases hle : offsetAuthtype + len ≤ n
  · refine iff_of_true ?_ hle
    have hsafe : Safe n (s.touched (authcodeAccesses n len)) := by
      refine safe_append.2 ⟨h, ?_⟩
      simp only [authcodeAccesses, List.forall_mem_cons, Access.InRange, List.not_mem_nil, false_implies,
        implies_true, and_true]
      omega
    unfold Ends finalState
    rw [compareAuthcode_run hle]
    cases lanplusHMAC e.crypto e.v2.integrityAlg e.v2.k1
      (slice s.rsp.data offsetAuthtype (n - offsetAuthtype - len)) with
    | none => exact hsafe
    | some mac => exact hsafe
  · refine iff_of_false ?_ hle
    unfold compareAuthcode
    rw [if_pos (Nat.not_le.1 hle)]
    intro hsafe
    have := (safe_append.1 hsafe).2 (.sub n (offsetAuthtype + len)) (by simp)
    exact hle this

theorem lanplusHasValidAuthCode_safe_iff (h : Safe n s) (hlen : s.rsp.dataLen = n) (e : RxEnv) :
    Ends (Safe n) (lanplusHasValidAuthCode e) s ↔ AuthcodeSized n e.v2 s.rsp.session := by
  unfold lanplusHasValidAuthCode AuthcodeSized
  rw [ends_get_bind, ends_ite, hlen]
  cases checksAuthcode e.v2 s.rsp.session with
  | false => exact iff_of_true h fun h => by cases h
  | true =>
    simp only [Bool.not_true, Bool.false_eq_true, if_false, true_implies]
    cases authcodeLength e.v2.integrityAlg with
    | none => exact iff_of_true h fun _ h => by cases h
    | some len =>
      refine (compareAuthcode_safe_iff h e len).trans ⟨?_, fun h => h len rfl⟩
      rintro hle _ ⟨⟩
      exact hle

/-- An authcode that fits is checked, and the check changes nothing but the log. -/
theorem lanplusHasValidAuthCode_run {e : RxEnv} (hlen : s.rsp.dataLen = n)
    (hsized : AuthcodeSized n e.v2 s.rsp.session) :
    ∃ l, lanplusHasValidAuthCode e s =
      (authcodeCheck e.crypto e.v2 s.rsp.data n s.rsp.session).elim (.error .assertion (s.touched l))
        fun b => .ok b (s.touched l) := by
  unfold lanplusHasValidAuthCode
  rw [get_bind_apply, hlen]
  unfold authcodeCheck
  by_cases hchecks : checksAuthcode e.v2 s.rsp.session = true
  · have hfits := hsized hchecks
    simp only [hchecks, Bool.not_true, Bool.false_eq_true, if_false]
    cases hauthlen : authcodeLength e.v2.integrityAlg with
    | none => exact ⟨[], by rw [touched_nil]; rfl⟩
    | some len =>
      refine ⟨authcodeAccesses n len, (compareAuthcode_run (hfits len hauthlen) e).trans ?_⟩
      simp only [Option.bind_eq_bind, Option.bind_some]
      cases lanplusHMAC e.crypto e.v2.integrityAlg e.v2.k1
        (slice s.rsp.data offsetAuthtype (n - offsetAuthtype - len)) with
      | none => rfl
      | some mac => rfl
  · simp only [Bool.not_eq_true] at hchecks
    simp only [hchecks, Bool.not_false, if_true]
    exact ⟨[], by rw [touched_nil]; rfl⟩

theorem scratchByte_of_lt {decrypted : List UInt8} {i : Nat} (hi : i < decrypted.length) (e : RxEnv) :
    scratchByte e decrypted i = decrypted.getD i 0 := by
  unfold scratchByte
  rw [List.getD_eq_getElem _ _ hi, List.getD_eq_getElem _ _ hi]

/-- The loop over the pad; inside the decrypted bytes it reads in range. -/
theorem checkPad_run (e : RxEnv) (decrypted : List UInt8) (payloadSize m : Nat) :
    ∀ i s, ∃ l, (payloadSize + i + m ≤ decrypted.length → ∀ a ∈ l, a.InRange n) ∧
      checkPad e decrypted payloadSize m i s =
        if padCounts e decrypted payloadSize m i then .ok ⟨⟩ (s.touched l)
        else .error .assertion (s.touched l) := by
  induction m with
  | zero =>
    intro i s
    exact ⟨[], fun _ a ha => absurd ha List.not_mem_nil, by rw [touched_nil]; rfl⟩
  | succ m ih =>
    intro i s
    have hread : payloadSize + i + (m + 1) ≤ decrypted.length →
        ∀ a ∈ [Access.scratch (payloadSize + i) 1 decrypted.length], a.InRange n := by
      intro hle
      simp only [List.forall_mem_singleton, Access.InRange]
      omega
    obtain ⟨l, hl, hrun⟩ := ih (i + 1) (s.touched [.scratch (payloadSize + i) 1 decrypted.length])
    have hstep : checkPad e decrypted payloadSize (m + 1) i s =
        (if (scratchByte e decrypted (payloadSize + i)).toNat ≠ i + 1 then throw .assertion
          else checkPad e decrypted payloadSize m (i + 1) : Rx PUnit)
          (s.touched [.scratch (payloadSize + i) 1 decrypted.length]) := rfl
    unfold padCounts
    rw [hstep]
    by_cases hcount : (scratchByte e decrypted (payloadSize + i)).toNat = i + 1
    · refine ⟨[.scratch (payloadSize + i) 1 decrypted.length] ++ l,
        fun hle => List.forall_mem_append.2 ⟨hread hle, hl (by omega)⟩, ?_⟩
      rw [if_neg (not_not_intro hcount), hrun, hcount]
      simp only [beq_self_eq_true, Bool.true_and, RxState.touched, List.append_assoc]
    · refine ⟨_, hread, ?_⟩
      rw [if_pos hcount]
      simp only [beq_eq_false_iff_ne.2 hcount, Bool.false_and, Bool.false_eq_true, if_false]
      rfl

/-- The state after decryption. -/
def RxState.withData (s : RxState) (data : Nat → UInt8) (l : List Access) : RxState :=
  { s with rsp := { s.rsp with data := data }, log := s.log ++ l }

/-- The accesses that take the pad off. -/
def unpadAccesses (off : Nat) (decrypted : List UInt8) : List Access :=
  [.write off decrypted.length, .scratch (decrypted.length - 1) 1 decrypted.length,
    .sub decrypted.length (padLength decrypted + 1)]

theorem unpadDecrypted_eq {decrypted : List UInt8} (hpos : 0 < decrypted.length) (e : RxEnv) (off : Nat) :
    unpadDecrypted e off decrypted s =
      (do
        checkPad e decrypted (unpaddedSize decrypted.length (padLength decrypted)) (padLength decrypted) 0
        return unpaddedSize decrypted.length (padLength decrypted) : Rx Nat)
        (s.withData (store s.rsp.data off decrypted) (unpadAccesses off decrypted)) := by
  have hbyte : (scratchByte e decrypted (decrypted.length - 1)).toNat = padLength decrypted :=
    congrArg UInt8.toNat (scratchByte_of_lt (by omega) e)
  have hlog : s.log ++ unpadAccesses off decrypted = s.log ++ [.write off decrypted.length] ++
      [.scratch (decrypted.length - 1) 1 decrypted.length,
        .sub decrypted.length (padLength decrypted + 1)] := (List.append_assoc s.log [_] [_, _]).symm
  unfold unpadDecrypted RxState.withData
  rw [hbyte, hlog]
  rfl

theorem unpaddedSize_eq {bytes pad : Nat} (hbytes : bytes < 65536) (hpad : pad + 1 ≤ bytes) :
    unpaddedSize bytes pad = bytes - pad - 1 := by
  unfold unpaddedSize
  omega

theorem unpadDecrypted_safe_iff (h : Safe n s) {decrypted : List UInt8} (hpos : 0 < decrypted.length)
    {off : Nat} (hfits : off + decrypted.length ≤ ipmiBufSize) (e : RxEnv) :
    Ends (Safe n) (unpadDecrypted e off decrypted) s ↔ padLength decrypted + 1 ≤ decrypted.length := by
  have hsafe : Safe n (s.withData (store s.rsp.data off decrypted) (unpadAccesses off decrypted)) ↔
      padLength decrypted + 1 ≤ decrypted.length := by
    refine (safe_logged_iff h).trans ?_
    simp only [unpadAccesses, List.forall_mem_cons, Access.InRange, List.not_mem_nil, false_implies,
      implies_true, and_true]
    omega
  rw [ends_of_eq (unpadDecrypted_eq hpos e off), ends_bind_pure]
  constructor
  · intro hends
    exact hsafe.1 (Safe.of_prefix hends (Grows.checkPad _ _ _ _ _ _ _ (List.prefix_refl _)))
  · intro hpad
    have hsize := unpaddedSize_eq (show decrypted.length < 65536 by unfold ipmiBufSize at hfits; omega) hpad
    obtain ⟨l, hl, hrun⟩ := checkPad_run (n := n) e decrypted
      (unpaddedSize decrypted.length (padLength decrypted)) (padLength decrypted) 0
      (s.withData (store s.rsp.data off decrypted) (unpadAccesses off decrypted))
    have hend := (hsafe.2 hpad).touched (hl (by omega))
    cases hcount : padCounts e decrypted (unpaddedSize decrypted.length (padLength decrypted))
        (padLength decrypted) 0 with
    | true =>
      rw [hcount, if_pos rfl] at hrun
      exact (ends_ok hrun).2 hend
    | false =>
      rw [hcount, if_neg Bool.false_ne_true] at hrun
      exact (ends_error hrun).2 hend

/-- The blocks that are decrypted are those of the packet. -/
theorem length_decryptedPayload {c : Crypto} {v2 : V2Data} {data : Nat → UInt8} {off len : Nat}
    (hblocks : (len - cryptAesCbc128BlockSize) % cryptAesCbc128BlockSize = 0) :
    (decryptedPayload c v2 data off len).length = len - cryptAesCbc128BlockSize := by
  unfold decryptedPayload
  rw [c.length_aesDecrypt _ _ _ (by rw [length_slice]; exact hblocks), length_slice]

/-- Decryption with AES, when there are blocks to decrypt. -/
theorem aesDecrypt_eq {e : RxEnv} {off len : Nat} (hcrypt : e.v2.cryptAlg = cryptAesCbc128)
    (hlen : cryptAesCbc128BlockSize < len)
    (hblocks : (len - cryptAesCbc128BlockSize) % cryptAesCbc128BlockSize = 0) :
    lanplusDecryptPayload e off len s =
      unpadDecrypted e off (decryptedPayload e.crypto e.v2 s.rsp.data off len)
        (s.touched [.sub len cryptAesCbc128BlockSize, .read off cryptAesCbc128BlockSize,
          .read (off + cryptAesCbc128BlockSize) (len - cryptAesCbc128BlockSize)]) := by
  have hlog : s.touched [.sub len cryptAesCbc128BlockSize, .read off cryptAesCbc128BlockSize,
      .read (off + cryptAesCbc128BlockSize) (len - cryptAesCbc128BlockSize)] =
      ((s.touched [.sub len cryptAesCbc128BlockSize]).touched [.read off cryptAesCbc128BlockSize]).touched
        [.read (off + cryptAesCbc128BlockSize) (len - cryptAesCbc128BlockSize)] := by
    simp only [RxState.touched, List.append_assoc, List.cons_append, List.nil_append]
  unfold lanplusDecryptPayload
  rw [hlog, hcrypt, if_neg (by decide), if_neg (not_not_intro rfl), if_neg (Nat.not_le.2 hlen),
    if_neg (not_not_intro hblocks)]
  rfl

theorem lanplusDecryptPayload_safe_iff (hn : n ≤ ipmiBufSize) (h : Safe n s) (e : RxEnv) (off len : Nat) :
    Ends (Safe n) (lanplusDecryptPayload e off len) s ↔
      if e.v2.cryptAlg = cryptNone then len = 0 ∨ off + len ≤ n
      else e.v2.cryptAlg = cryptAesCbc128 → AesSized n e.crypto e.v2 s.rsp.data off len := by
  by_cases hnone : e.v2.cryptAlg = cryptNone
  · unfold lanplusDecryptPayload
    rw [if_pos hnone, if_pos hnone, ends_bind_pure]
    refine (safe_logged_iff h).trans ?_
    simp only [List.forall_mem_cons, Access.InRange, List.not_mem_nil, false_implies, implies_true, and_true]
    omega
  rw [if_neg hnone]
  by_cases haes : e.v2.cryptAlg = cryptAesCbc128
  · unfold AesSized
    by_cases hlen : len ≤ cryptAesCbc128BlockSize
    · unfold lanplusDecryptPayload
      rw [if_neg hnone, if_neg (not_not_intro haes), if_pos hlen]
      refine (safe_logged_iff h).trans ?_
      rw [List.forall_mem_singleton]
      exact ⟨fun hle _ => ⟨hle, fun hlt => absurd hlt (Nat.not_lt.2 hlen)⟩, fun hsized => (hsized haes).1⟩
    have hlt : cryptAesCbc128BlockSize < len := Nat.not_le.1 hlen
    have hle : cryptAesCbc128BlockSize ≤ len := Nat.le_of_lt hlt
    simp only [haes, hlt, hle, true_implies, true_and]
    by_cases hblocks : (len - cryptAesCbc128BlockSize) % cryptAesCbc128BlockSize = 0
    · rw [ends_of_eq (aesDecrypt_eq haes hlt hblocks)]
      have hlength : (decryptedPayload e.crypto e.v2 s.rsp.data off len).length =
          len - cryptAesCbc128BlockSize := length_decryptedPayload hblocks
      have htouched : Safe n (s.touched [.sub len cryptAesCbc128BlockSize, .read off cryptAesCbc128BlockSize,
          .read (off + cryptAesCbc128BlockSize) (len - cryptAesCbc128BlockSize)]) ↔ off + len ≤ n := by
        refine (safe_logged_iff h).trans ?_
        simp only [List.forall_mem_cons, Access.InRange, List.not_mem_nil, false_implies, implies_true, and_true]
        unfold cryptAesCbc128BlockSize at hlt ⊢
        omega
      have hrest : off + len ≤ n → _ := fun hfits =>
        @unpadDecrypted_safe_iff _ _ (htouched.2 hfits) (decryptedPayload e.crypto e.v2 s.rsp.data off len)
          (by omega) off (by omega) e
      simp only [hblocks, true_implies]
      rw [hlength] at hrest
      constructor
      · intro hsafe
        have hfits := htouched.1 (hsafe.of_prefix (Grows.unpadDecrypted _ _ _ _ _ (List.prefix_refl _)))
        exact ⟨by omega, hfits, (hrest hfits).1 hsafe⟩
      · rintro ⟨-, hfits, hpad⟩
        exact (hrest hfits).2 hpad
    · unfold lanplusDecryptPayload
      rw [if_neg hnone, if_neg (not_not_intro haes), if_neg hlen, if_pos hblocks]
      simp only [hblocks, false_implies, and_true]
      refine (ends_touch_bind (C := off + cryptAesCbc128BlockSize ≤ n) h
        (.bind (.touch _) fun _ => .throw _) fun h' => ?_).trans ?_
      · refine (safe_logged_iff h').trans ?_
        rw [List.forall_mem_singleton]
        exact or_iff_right (by decide)
      · rw [List.forall_mem_singleton]
        exact and_iff_right hle
  · unfold lanplusDecryptPayload
    rw [if_neg hnone, if_pos haes]
    exact iff_of_true h fun h => absurd h haes

/-- The pad is taken off, or its count fails the assertion. -/
theorem unpadDecrypted_run (decrypted : List UInt8) (hpos : 0 < decrypted.length) (e : RxEnv) (off : Nat) :
    ∃ l, unpadDecrypted e off decrypted s =
      if padCounts e decrypted (unpaddedSize decrypted.length (padLength decrypted))
          (padLength decrypted) 0 then
        .ok (unpaddedSize decrypted.length (padLength decrypted))
          (s.withData (store s.rsp.data off decrypted) l)
      else .error .assertion (s.withData (store s.rsp.data off decrypted) l) := by
  obtain ⟨l, -, hrun⟩ := checkPad_run (n := 0) e decrypted
    (unpaddedSize decrypted.length (padLength decrypted)) (padLength decrypted) 0
    (s.withData (store s.rsp.data off decrypted) (unpadAccesses off decrypted))
  have hlog : (s.withData (store s.rsp.data off decrypted) (unpadAccesses off decrypted)).touched l =
      s.withData (store s.rsp.data off decrypted) (unpadAccesses off decrypted ++ l) := by
    simp only [RxState.touched, RxState.withData, List.append_assoc]
  refine ⟨unpadAccesses off decrypted ++ l, ?_⟩
  rw [unpadDecrypted_eq hpos, ← hlog]
  simp only [Bind.bind, EStateM.bind, hrun]
  split
  · rename_i hok
    split at hok
    · rename_i hcount
      cases hok
      rw [if_pos hcount]
      rfl
    · cases hok
  · rename_i herr
    split at herr
    · cases herr
    · rename_i hcount
      cases herr
      rw [if_neg hcount]

/-- Decryption gives the plain payload, or fails an assertion. -/
theorem payloadSizeOf_run (e : RxEnv) (off : Nat) (h : SessionHdr) (s : RxState) :
    match plainPayload e s.rsp.data off h with
    | none => ∃ t, payloadSizeOf e off h s = .error .assertion t
    | some p => ∃ l, payloadSizeOf e off h s = .ok p.2 (s.withData p.1 l) := by
  unfold payloadSizeOf plainPayload
  by_cases hdec : decrypts e.v2 h = true
  swap
  · simp only [Bool.not_eq_true] at hdec
    simp only [hdec, Bool.not_false, true_or, if_true]
    exact ⟨[], congrArg (EStateM.Result.ok h.msglen) (touched_nil s).symm⟩
  simp only [hdec, Bool.not_true, Bool.false_eq_true, false_or, if_true]
  by_cases hnone : e.v2.cryptAlg = cryptNone
  · unfold lanplusDecryptPayload
    simp only [if_pos hnone]
    exact ⟨_, rfl⟩
  rw [if_neg hnone]
  by_cases haes : e.v2.cryptAlg = cryptAesCbc128
  swap
  · rw [if_pos (.inl haes)]
    unfold lanplusDecryptPayload
    simp only [if_neg hnone, if_pos haes]
    exact ⟨_, rfl⟩
  by_cases hlen : h.msglen ≤ cryptAesCbc128BlockSize
  · rw [if_pos (.inr (.inl hlen))]
    unfold lanplusDecryptPayload
    simp only [if_neg hnone, if_neg (not_not_intro haes), if_pos hlen]
    exact ⟨_, rfl⟩
  by_cases hblocks : (h.msglen - cryptAesCbc128BlockSize) % cryptAesCbc128BlockSize = 0
  swap
  · rw [if_pos (.inr (.inr hblocks))]
    unfold lanplusDecryptPayload
    simp only [if_neg hnone, if_neg (not_not_intro haes), if_neg hlen, if_pos hblocks]
    exact ⟨_, rfl⟩
  have hlength : (decryptedPayload e.crypto e.v2 s.rsp.data off h.msglen).length =
      h.msglen - cryptAesCbc128BlockSize := length_decryptedPayload hblocks
  obtain ⟨l, hrun⟩ := unpadDecrypted_run (s := s.touched [.sub h.msglen cryptAesCbc128BlockSize,
    .read off cryptAesCbc128BlockSize, .read (off + cryptAesCbc128BlockSize)
      (h.msglen - cryptAesCbc128BlockSize)])
    (decryptedPayload e.crypto e.v2 s.rsp.data off h.msglen) (by omega) e off
  have hlog : ∀ l l' data, (s.touched l).withData data l' = s.withData data (l ++ l') := by
    intro l l' data
    simp only [RxState.touched, RxState.withData, List.append_assoc]
  have hcond : ¬ (e.v2.cryptAlg ≠ cryptAesCbc128 ∨ h.msglen ≤ cryptAesCbc128BlockSize ∨
      (h.msglen - cryptAesCbc128BlockSize) % cryptAesCbc128BlockSize ≠ 0) := by
    rintro (h | h | h)
    · exact h haes
    · exact hlen h
    · exact h hblocks
  rw [aesDecrypt_eq haes (Nat.not_le.1 hlen) hblocks, hrun, if_neg hcond, hlog]
  cases hcount : padCounts e (decryptedPayload e.crypto e.v2 s.rsp.data off h.msglen)
      (unpaddedSize (decryptedPayload e.crypto e.v2 s.rsp.data off h.msglen).length
        (padLength (decryptedPayload e.crypto e.v2 s.rsp.data off h.msglen)))
      (padLength (decryptedPayload e.crypto e.v2 s.rsp.data off h.msglen)) 0 with
  | true =>
    rw [if_pos rfl, if_pos rfl]
    exact ⟨_, rfl⟩
  | false =>
    rw [if_neg Bool.false_ne_true, if_neg Bool.false_ne_true]
    exact ⟨_, rfl⟩

end header

/-! ### A packet of class IPMI -/

theorem SameHdr.checksAuthcode {v2 : V2Data} {g h : SessionHdr} (hsame : SameHdr g h) :
    checksAuthcode v2 h = checksAuthcode v2 g := by
  simp only [Lanplus.checksAuthcode, hsame.authtype, hsame.bAuthenticated]

theorem SameHdr.authcodeSized {n : Nat} {v2 : V2Data} {g h : SessionHdr} (hsame : SameHdr g h) :
    AuthcodeSized n v2 h ↔ AuthcodeSized n v2 g := by
  unfold AuthcodeSized
  rw [hsame.checksAuthcode]

theorem SameHdr.authcodeCheck {n : Nat} {c : Crypto} {v2 : V2Data} {data : Nat → UInt8} {g h : SessionHdr}
    (hsame : SameHdr g h) : authcodeCheck c v2 data n h = authcodeCheck c v2 data n g := by
  unfold Lanplus.authcodeCheck
  rw [hsame.checksAuthcode]

theorem SameHdr.decryptSized {n : Nat} {c : Crypto} {v2 : V2Data} {data : Nat → UInt8} {off : Nat}
    {g h : SessionHdr} (hsame : SameHdr g h) :
    DecryptSized n c v2 data off h ↔ DecryptSized n c v2 data off g := by
  unfold DecryptSized
  rw [hsame.decrypts, hsame.msglen]

theorem SameHdr.plainPayload {e : RxEnv} {data : Nat → UInt8} {off : Nat} {g h : SessionHdr}
    (hsame : SameHdr g h) : plainPayload e data off h = plainPayload e data off g := by
  unfold Lanplus.plainPayload
  rw [hsame.decrypts, hsame.msglen]

/-- The lengths in a packet of class IPMI. Those behind a check count only when the check is passed. -/
def IpmiClassSized (n : Nat) (e : RxEnv) (entries : List RqEntry) (data : Nat → UInt8) : Prop :=
  let off := payloadStart data offsetAuthtype
  let h := sessionAt data offsetAuthtype
  off ≤ n ∧ (otherSession e.v2 h = false → AuthcodeSized n e.v2 h ∧
    (authcodeCheck e.crypto e.v2 data n h = some true → DecryptSized n e.crypto e.v2 data off h ∧
      ∀ p, plainPayload e data off h = some p →
        PayloadSized n e.v2 h.payloadtype p.1 entries off p.2))

section ipmi
variable {n : Nat} {s : RxState}

theorem payload_safe_iff (hn : n ≤ ipmiBufSize) (h : Safe n s) (hlen : s.rsp.dataLen = n) (e : RxEnv)
    (off : Nat) (g : SessionHdr) :
    Ends (Safe n) (do
      let payloadSize ← payloadSizeOf e off g
      handlePayload e g.payloadtype off payloadSize) s ↔
      DecryptSized n e.crypto e.v2 s.rsp.data off g ∧
        ∀ p, plainPayload e s.rsp.data off g = some p →
          PayloadSized n e.v2 g.payloadtype p.1 s.entries off p.2 := by
  have hsize : Ends (Safe n) (payloadSizeOf e off g) s ↔ DecryptSized n e.crypto e.v2 s.rsp.data off g := by
    unfold payloadSizeOf DecryptSized
    by_cases hdec : decrypts e.v2 g = true
    · rw [if_pos hdec, lanplusDecryptPayload_safe_iff hn h]
      exact ⟨fun h _ => h, fun h => h hdec⟩
    · rw [if_neg hdec]
      exact iff_of_true h fun h => absurd h hdec
  rw [safe_bind_iff fun _ => .handlePayload _ _ _ _, hsize]
  refine and_congr_right fun hsized => ?_
  have hend := hsize.2 hsized
  have hrun := payloadSizeOf_run e off g s
  cases hplain : plainPayload e s.rsp.data off g with
  | none =>
    rw [hplain] at hrun
    obtain ⟨t, hrun⟩ := hrun
    refine iff_of_true (fun a s' hok => ?_) fun p hp => by cases hp
    rw [hrun] at hok
    cases hok
  | some p =>
    rw [hplain] at hrun
    obtain ⟨l, hrun⟩ := hrun
    have hpayload := handlePayload_safe_iff hn ((ends_ok hrun).1 hend) hlen e g.payloadtype off p.2
    constructor
    · rintro hok _ ⟨⟩
      exact hpayload.1 (hok p.2 _ hrun)
    · intro hsized a s' hok
      obtain ⟨rfl, rfl⟩ := EStateM.Result.ok.inj (hrun.symm.trans hok)
      exact hpayload.2 (hsized p rfl)

/-- A packet that passes the authcode check is taken apart; another one is left alone. -/
theorem checked_safe_iff (hn : n ≤ ipmiBufSize) (h : Safe n s) (hlen : s.rsp.dataLen = n) (e : RxEnv)
    (off : Nat) :
    Ends (Safe n) (do
      let valid ← lanplusHasValidAuthCode e
      if !valid then return .null
      else
        let payloadSize ← payloadSizeOf e off s.rsp.session
        handlePayload e s.rsp.session.payloadtype off payloadSize) s ↔
      AuthcodeSized n e.v2 s.rsp.session ∧
        (authcodeCheck e.crypto e.v2 s.rsp.data n s.rsp.session = some true →
          DecryptSized n e.crypto e.v2 s.rsp.data off s.rsp.session ∧
            ∀ p, plainPayload e s.rsp.data off s.rsp.session = some p →
              PayloadSized n e.v2 s.rsp.session.payloadtype p.1 s.entries off p.2) := by
  rw [safe_bind_iff fun _ => .ite (.pure _) (.bind (.payloadSizeOf _ _ _) fun _ => .handlePayload _ _ _ _),
    lanplusHasValidAuthCode_safe_iff h hlen]
  refine and_congr_right fun hsized => ?_
  have hend := (lanplusHasValidAuthCode_safe_iff h hlen e).2 hsized
  obtain ⟨l, hrun⟩ := lanplusHasValidAuthCode_run hlen hsized
  cases hcheck : authcodeCheck e.crypto e.v2 s.rsp.data n s.rsp.session with
  | none =>
    rw [hcheck] at hrun
    refine iff_of_true (fun a s' hok => ?_) fun hp => by cases hp
    rw [hrun] at hok
    cases hok
  | some valid =>
    rw [hcheck] at hrun
    have hsafe := (ends_ok hrun).1 hend
    cases valid with
    | false =>
      refine iff_of_true (fun a s' hok => ?_) fun hp => by cases hp
      obtain ⟨rfl, rfl⟩ := EStateM.Result.ok.inj (hrun.symm.trans hok)
      exact hsafe
    | true =>
      have hrest := payload_safe_iff hn hsafe hlen e off s.rsp.session
      constructor
      · exact fun hok _ => hrest.1 (hok true _ hrun)
      · intro hsized a s' hok
        obtain ⟨rfl, rfl⟩ := EStateM.Result.ok.inj (hrun.symm.trans hok)
        exact hrest.2 (hsized rfl)

theorem handleIpmiClass_safe_iff (hn : n ≤ ipmiBufSize) (h : Safe n s) (hlen : s.rsp.dataLen = n)
    (e : RxEnv) :
    Ends (Safe n) (handleIpmiClass e) s ↔
      IpmiClassSized n e s.entries s.rsp.data := by
  obtain ⟨s₁, hrun₁, hread⟩ := readSessionData_run n offsetAuthtype s
  have hpayload : ∀ off (g : SessionHdr), Grows (do
      let payloadSize ← payloadSizeOf e off g
      handlePayload e g.payloadtype off payloadSize) := fun off g =>
    .bind (.payloadSizeOf _ _ _) fun _ => .handlePayload _ _ _ _
  unfold handleIpmiClass IpmiClassSized
  rw [safe_bind_ok hrun₁ ?grows fun hsafe₁ => ?rest, hread.safe h]
  case grows =>
    exact .bind .get fun _ => .ite (.pure _) (.bind (.lanplusHasValidAuthCode e) fun _ =>
      .ite (.pure _) (hpayload _ _))
  case rest =>
    rw [ends_get_bind, hread.session.otherSession]
    by_cases hother : otherSession e.v2 (sessionAt s.rsp.data offsetAuthtype) = true
    · rw [if_pos hother]
      exact iff_of_true hsafe₁ fun h => absurd hother (by rw [h]; exact Bool.false_ne_true)
    · rw [if_neg hother, checked_safe_iff hn hsafe₁ (hread.dataLen.trans hlen), hread.session.authcodeSized,
        hread.session.authcodeCheck, hread.session.decryptSized, hread.session.plainPayload,
        hread.session.payloadtype, hread.data, hread.entries]
      simp only [Bool.not_eq_true] at hother
      exact ⟨fun h _ => h, fun h => h hother⟩

end ipmi

/-! ### One datagram -/

/-- The bytes of a datagram, with zeros behind them. -/
def packetBytes (d : List UInt8) : Nat → UInt8 := fun i => d.getD i 0

/-- The lengths in a datagram: one byte of the array is left for the NUL, the RMCP header is there, and
so is what the packet of either class announces. -/
def WellSized (e : RxEnv) (entries : List RqEntry) (d : List UInt8) : Prop :=
  d.length < ipmiBufSize ∧ offsetRmcpClass < d.length ∧
    (packetBytes d offsetRmcpClass = rmcpClassAsf → offsetSupEntities < d.length) ∧
    (packetBytes d offsetRmcpClass = rmcpClassIpmi →
      IpmiClassSized d.length e entries (packetBytes d))

theorem handleDatagram_safe_iff {n : Nat} {s : RxState} (hn : n ≤ ipmiBufSize) (h : Safe n s)
    (hlen : s.rsp.dataLen = n) (e : RxEnv) :
    Ends (Safe n) (handleDatagram e) s ↔
      offsetRmcpClass < n ∧
        (s.rsp.data offsetRmcpClass = rmcpClassAsf → offsetSupEntities < n) ∧
        (s.rsp.data offsetRmcpClass = rmcpClassIpmi →
          IpmiClassSized n e s.entries s.rsp.data) := by
  unfold handleDatagram
  rw [ends_touch_bind h ?grows fun hsafe => ?rest, List.forall_mem_singleton]
  · exact and_congr_left' (or_iff_right (by decide))
  case grows => exact .bind .get fun s => .classOf e s
  case rest =>
    rw [ends_get_bind]
    show Ends (Safe n) (if s.rsp.data offsetRmcpClass = rmcpClassAsf then ipmiHandlePong
      else if s.rsp.data offsetRmcpClass ≠ rmcpClassIpmi then return .again else handleIpmiClass e) _ ↔ _
    by_cases hasf : s.rsp.data offsetRmcpClass = rmcpClassAsf
    · have hpong : Ends (Safe n) ipmiHandlePong (s.touched [.read offsetRmcpClass 1]) ↔
          offsetSupEntities < n := by
        refine (safe_logged_iff hsafe).trans ?_
        rw [List.forall_mem_singleton]
        exact or_iff_right (by decide)
      have hne : s.rsp.data offsetRmcpClass ≠ rmcpClassIpmi := by rw [hasf]; decide
      rw [if_pos hasf, hpong]
      exact ⟨fun h => ⟨fun _ => h, fun heq => absurd heq hne⟩, fun h => h.1 hasf⟩
    · rw [if_neg hasf]
      by_cases hipmi : s.rsp.data offsetRmcpClass = rmcpClassIpmi
      · rw [if_neg (not_not_intro hipmi), handleIpmiClass_safe_iff hn hsafe hlen]
        exact ⟨fun h => ⟨fun heq => absurd heq hasf, fun _ => h⟩, fun h => h.2 hipmi⟩
      · rw [if_pos hipmi]
        exact iff_of_true hsafe ⟨fun heq => absurd heq hasf, fun heq => absurd heq hipmi⟩

theorem SamePending.symm {s t : RxState} (h : SamePending s t) : SamePending t s :=
  ⟨h.entries.symm, h.ccode.symm⟩

/-- Of two runs that differ in earlier datagrams only, both are safe or none is. -/
theorem safe_of_samePending {e : RxEnv} {d : List UInt8} (hne : d ≠ []) (hlen : d.length ≤ ipmiBufSize)
    {s t : RxState} (h : SamePending s t) (hsafe : Ends (Safe d.length) (ipmiLanPollSingle e (some d)) s) :
    Ends (Safe d.length) (ipmiLanPollSingle e (some d)) t := by
  have hsame := pollSingle_same e hne hlen h hsafe
  cases hs : ipmiLanPollSingle e (some d) s with
  | ok p s' =>
    rw [hs] at hsame
    have hsafe' := (ends_ok hs).1 hsafe
    cases ht : ipmiLanPollSingle e (some d) t with
    | error p t' => rw [ht] at hsame; cases hsame
    | ok q t' =>
      rw [ht] at hsame
      cases hsame with
      | ok hout =>
        refine (ends_ok ht).2 ?_
        unfold Safe
        rw [hout.log]
        exact hsafe'
  | error p s' =>
    rw [hs] at hsame
    have hsafe' := (ends_error hs).1 hsafe
    cases ht : ipmiLanPollSingle e (some d) t with
    | ok q t' => rw [ht] at hsame; cases hsame
    | error q t' =>
      rw [ht] at hsame
      cases hsame with
      | error hlog =>
        refine (ends_error ht).2 ?_
        unfold Safe
        rw [hlog]
        exact hsafe'

/-- The structure before the first datagram, but for the completion code. -/
def IpmiRs.clear (ccode : UInt8) : IpmiRs where
  ccode := ccode
  data := fun _ => 0
  dataLen := 0
  session :=
    { authtype := 0, seq := 0, id := 0, bEncrypted := false, bAuthenticated := false, payloadtype := 0
      msglen := 0 }
  payload := .ipmiResponse
    { rqAddr := 0, netfn := 0, rqLun := 0, rsAddr := 0, rqSeq := 0, rsLun := 0, cmd := 0 }

/-- A state without earlier datagrams that has the same pending requests and completion code. -/
def RxState.clear (s : RxState) : RxState := ⟨.clear s.rsp.ccode, s.entries, []⟩

theorem samePending_clear (s : RxState) : SamePending s s.clear := ⟨rfl, rfl⟩

theorem received_clear (d : List UInt8) (s : RxState) :
    (received d s.clear).rsp.data = packetBytes d := by
  funext i
  unfold packetBytes
  by_cases hi : i < d.length
  · rw [received_data hi, List.getD_eq_getElem _ _ hi]
  · rw [List.getD_eq_default _ _ (by omega)]
    show store (store (fun _ => 0) 0 d) d.length [0] i = 0
    by_cases hnul : i = d.length
    · subst hnul
      exact store_add _ d.length [0] (i := 0) Nat.one_pos
    · rw [store_of_le _ _ _ (by rw [List.length_singleton]; omega), store_of_le _ _ _ (by omega)]

/-- The accesses are in range exactly for the datagrams whose lengths are those of the bytes received. -/
theorem pollSingle_safe_iff (e : RxEnv) {d : List UInt8} (hne : d ≠ []) (hlen : d.length ≤ ipmiBufSize)
    (s : RxState) :
    Ends (Safe d.length) (ipmiLanPollSingle e (some d)) s ↔ WellSized e s.entries d := by
  have hclear : Ends (Safe d.length) (ipmiLanPollSingle e (some d)) s ↔
      Ends (Safe d.length) (ipmiLanPollSingle e (some d)) s.clear :=
    ⟨safe_of_samePending hne hlen (samePending_clear s),
      safe_of_samePending hne hlen (samePending_clear s).symm⟩
  -- the received bytes and the NUL behind them
  have hreceived : Safe d.length (received d s.clear) ↔ d.length < ipmiBufSize := by
    simp only [Safe, received, List.forall_mem_cons, Access.InRange, List.not_mem_nil, false_implies,
      implies_true, and_true]
    omega
  have hgrows : Grows (handleDatagram e) := .bind (.touch _) fun _ => .bind .get fun s => .classOf _ s
  rw [hclear, ends_of_eq (pollSingle_eq e hne hlen _)]
  unfold WellSized
  constructor
  · intro hends
    have hsafe := Safe.of_prefix hends (hgrows _ _ (List.prefix_refl _))
    have hrest := (handleDatagram_safe_iff hlen hsafe rfl e).1 hends
    rw [received_clear] at hrest
    exact ⟨hreceived.1 hsafe, hrest⟩
  · rintro ⟨hnul, hrest⟩
    refine (handleDatagram_safe_iff hlen (hreceived.2 hnul) rfl e).2 ?_
    rw [received_clear]
    exact hrest

/-- A datagram that is received in some state of the session, of the static structure and of the list of
requests. -/
structure Reception where
  env : RxEnv
  rsp : IpmiRs
  entries : List RqEntry
  datagram : List UInt8
  nonempty : datagram ≠ []
  length_le : datagram.length ≤ ipmiBufSize

/-- Every access of `ipmi_lan_recv_packet` and `ipmi_lan_poll_single` is in range. -/
def Reception.InBounds (r : Reception) : Prop :=
  Ends (Safe r.datagram.length) (ipmiLanPollSingle r.env (some r.datagram)) ⟨r.rsp, r.entries, []⟩

/-- **The parser's bounds**: earlier datagrams do not count. -/
theorem Reception.inBounds_iff (r : Reception) :
    r.InBounds ↔ WellSized r.env r.entries r.datagram :=
  pollSingle_safe_iff r.env r.nonempty r.length_le ⟨r.rsp, r.entries, []⟩

/-- A datagram that fills the array. -/
def Reception.full : Reception where
  env := { crypto := .plain, v2 := .initial, heap := fun _ => 0 }
  rsp := .clear 0
  entries := []
  datagram := List.replicate ipmiBufSize 0
  nonempty := List.ne_nil_of_length_pos (by rw [List.length_replicate]; decide)
  length_le := Nat.le_of_eq List.length_replicate

/-- The NUL behind 1024 bytes is written behind the array. -/
theorem Reception.full_not_inBounds : ¬ Reception.full.InBounds := by
  intro hends
  have hrun := pollSingle_eq Reception.full.env Reception.full.nonempty Reception.full.length_le
    ⟨Reception.full.rsp, [], []⟩
  have hgrows : Grows (handleDatagram Reception.full.env) :=
    .bind (.touch _) fun _ => .bind .get fun s => .classOf _ s
  have hsafe := Safe.of_prefix ((ends_of_eq hrun).1 hends) (hgrows _ _ (List.prefix_refl _))
  have hnul : Access.InRange Reception.full.datagram.length (.write ipmiBufSize 1) :=
    hsafe _ (by simp [received, Reception.full])
  unfold Access.InRange at hnul
  omega

end KTools.Lanplus
