import KTools.Lanplus.Attribution
import KTools.Lan.Request

/-!
# Whose response it is, in a v1.5 session

The list of pending requests is empty between the calls, so a response that a call takes matches an entry of that
call: in every run, whatever comes in, an IPMI response that is returned has the command of its request and, if
the request is not bridged, its sequence number (`Run.responses_attributed`). What a call cannot tell apart from its
response are a pong and a SOL packet.

This rests on the allocations: a call that returns NULL because one of them has failed leaves its entries behind.
-/

namespace KTools.Lan
open KTools.Lib KTools.Lanplus

/-! ### What a poll leaves as it is -/

/-- The interface, the sequence number and the notes are these, and the entries have `P`. -/
structure Within (P : RqEntry → Prop) (intf : Intf) (seq : UInt8) (rets : List Returned) (l : Link) : Prop where
  intf : l.intf = intf
  currSeq : l.currSeq = seq
  returned : l.returned = rets
  entries : ∀ e ∈ l.entries, P e

/-- The response matches an entry, and does not end a layer of it. -/
def Matched (P : RqEntry → Prop) (intf : Intf) (payload : RsPayload) : Prop :=
  match payload with
  | .solPacket _ => True
  | .ipmiResponse r => ∃ e, P e ∧ e.rqSeq = r.rqSeq ∧ e.msg.cmd = r.cmd ∧ endsLayer intf e r = false
  | _ => False

section poll
variable {P : RqEntry → Prop} {intf : Intf} {seq : UInt8} {rets : List Returned}

theorem takeArrival_within : Triple (Within P intf seq rets) (Within P intf seq rets) takeArrival
    fun _ => Within P intf seq rets := by
  refine .get_bind fun l hl => ?_
  cases l.arrivals with
  | nil => exact .pure fun s hs => hs ▸ hl
  | cons a rest =>
    rintro s rfl
    exact ⟨hl.intf, hl.currSeq, hl.returned, hl.entries⟩

theorem storePacket_within (bytes : List UInt8) :
    Triple (Within P intf seq rets) (Within P intf seq rets) (storePacket bytes) fun _ => Within P intf seq rets :=
  .ite (fun _ => .pure fun _ h => h) fun _ =>
    .bind (.modify fun _ h => ⟨h.intf, h.currSeq, h.returned, h.entries⟩) fun _ => .pure fun _ h => h

theorem ipmiLanRecvPacket_within : Triple (Within P intf seq rets) (Within P intf seq rets) ipmiLanRecvPacket
    fun _ => Within P intf seq rets := by
  refine .bind takeArrival_within fun a => ?_
  cases a with
  | silence => exact .pure fun _ h => h
  | datagram bytes => exact storePacket_within bytes
  | refused =>
    refine .bind takeArrival_within fun a => ?_
    cases a with
    | silence => exact .pure fun _ h => h
    | datagram bytes => exact storePacket_within bytes
    | refused => exact .pure fun _ h => h

/-- A turn of the loop keeps the entries' property, if answering a layer of a bridged one does. -/
def Layered (P : RqEntry → Prop) (intf : Intf) : Prop :=
  ∀ (e : RqEntry) (seq : UInt8), intf.unbridged = false → e.bridgingLevel ≠ 0 → P e →
    P { e.decrementBridging with rqSeq := seq }

/-- The response matches this entry, which is bridged. -/
structure Answers (P : RqEntry → Prop) (r : IpmiResponse) (entry : RqEntry) (l : Link) : Prop where
  found : ipmiReqLookupEntry r.rqSeq r.cmd l.entries = some entry
  property : P entry
  unbridged : l.intf.unbridged = false
  level : entry.bridgingLevel ≠ 0

theorem layerAnswered_within (hlayered : Layered P intf) (r : IpmiResponse) (entry : RqEntry) :
    Triple (Within P intf seq rets) (fun l => Within P intf seq rets l ∧ Answers P r entry l)
      (layerAnswered r entry) fun t l => Within P intf seq rets l ∧ ∀ y, t ≠ .last y := by
  have hinner : Triple (Within P intf seq rets) (Within P intf seq rets) recvInner fun _ => Within P intf seq rets :=
    .get_bind' fun l => .ite (fun _ => ipmiLanRecvPacket_within) fun _ => .pure fun _ h => h
  refine .bind (.modify (Q := fun _ => Within P intf seq rets) ?_) fun _ => ?_
  · rintro l ⟨h, hanswers⟩
    exact ⟨h.intf, h.currSeq, h.returned, updateEntry_all hanswers.found
      (hlayered entry entry.rqSeq (h.intf ▸ hanswers.unbridged) hanswers.level hanswers.property) h.entries⟩
  · refine .bind hinner fun _ => .ite (fun _ => .pure fun l h => ⟨h, nofun⟩) fun _ => ?_
    exact .bind (.modify (Q := fun _ => Within P intf seq rets) fun l h =>
      ⟨h.intf, h.currSeq, h.returned, removeEntry_all h.entries _ _⟩) fun _ => .pure fun l h => ⟨h, nofun⟩

theorem layerTakenOff_within (hlayered : Layered P intf) (r : IpmiResponse) (entry : RqEntry) (x : Nat) :
    Triple (Within P intf seq rets) (fun l => Within P intf seq rets l ∧ Answers P r entry l)
      (layerTakenOff r x) fun t l => Within P intf seq rets l ∧ ∀ y, t ≠ .last y := by
  refine .bind (.modify (Q := fun _ l => Within P intf seq rets l ∧ Answers P r entry l) ?_) fun _ =>
    .get_bind' fun l => ?_
  · rintro l ⟨h, hanswers⟩
    exact ⟨⟨h.intf, h.currSeq, h.returned, h.entries⟩, hanswers.found, hanswers.property, hanswers.unbridged,
      hanswers.level⟩
  · refine .bind (.modify (Q := fun _ => Within P intf seq rets) ?_) fun _ => .pure fun l h => ⟨h, nofun⟩
    rintro l' ⟨h, hanswers⟩
    exact ⟨h.intf, h.currSeq, h.returned, updateEntry_all hanswers.found
      (hlayered entry _ (h.intf ▸ hanswers.unbridged) hanswers.level hanswers.property) h.entries⟩

theorem matchResponse_within (hlayered : Layered P intf) (x : Nat) :
    Triple (Within P intf seq rets)
      (fun l => Within P intf seq rets l ∧ l.rsp.payload = .ipmiResponse (ipmiResponseAt l.rsp.data (x - 7)))
      (matchResponse x) fun t l => Within P intf seq rets l ∧ ∀ y, t = .last y → Matched P intf l.rsp.payload := by
  refine .get_bind fun l hl => ?_
  obtain ⟨hl, hpayload⟩ := hl
  dsimp only
  generalize ipmiResponseAt l.rsp.data (x - 7) = r at hpayload
  cases hfind : ipmiReqLookupEntry r.rqSeq r.cmd l.entries with
  | none => exact .pure fun s hs => ⟨hs ▸ hl, nofun⟩
  | some entry =>
    have hentry := hl.entries entry (List.mem_of_find?_eq_some hfind)
    have hkey : entry.rqSeq = r.rqSeq ∧ entry.msg.cmd = r.cmd := by
      have hkey := List.find?_some hfind
      unfold RqEntry.hasKey at hkey
      simpa using hkey
    refine .get_bind fun l' hl' => ?_
    obtain rfl := hl'
    refine .ite (fun hends => ?_) fun hends => ?_
    · have hbridged : l'.intf.unbridged = false ∧ entry.bridgingLevel ≠ 0 := by
        unfold endsLayer at hends
        simp only [Bool.and_eq_true, Bool.not_eq_true', bne_iff_ne] at hends
        exact hends.1.1
      have hanswers : Answers P r entry l' := ⟨hfind, hentry, hbridged.1, hbridged.2⟩
      refine .ite (fun _ => ?_) fun _ => .ite (fun _ => .throw fun s hs => hs ▸ hl) fun _ => ?_
      · exact (layerAnswered_within hlayered r entry).conseq (fun s hs => hs ▸ ⟨hl, hanswers⟩)
          fun t s hs => ⟨hs.1, fun y hy => absurd hy (hs.2 y)⟩
      · exact (layerTakenOff_within hlayered r entry x).conseq (fun s hs => hs ▸ ⟨hl, hanswers⟩)
          fun t s hs => ⟨hs.1, fun y hy => absurd hy (hs.2 y)⟩
    · refine .bind (.modify (Q := fun _ l => Within P intf seq rets l ∧ Matched P intf l.rsp.payload) ?_)
        fun _ => .pure fun l h => ⟨h.1, fun _ _ => h.2⟩
      rintro l rfl
      refine ⟨⟨hl.intf, hl.currSeq, hl.returned, removeEntry_all hl.entries _ _⟩, ?_⟩
      show Matched P intf l.rsp.payload
      rw [hl.intf, Bool.not_eq_true] at hends
      rw [hpayload]
      exact ⟨entry, hentry, hkey.1, hkey.2, hends⟩

theorem handlePacket_within (hlayered : Layered P intf) :
    Triple (Within P intf seq rets) (Within P intf seq rets) handlePacket fun t l =>
      Within P intf seq rets l ∧ ∀ y, t = .last y → Matched P intf l.rsp.payload := by
  have hread (f : IpmiRs → IpmiRs) :
      Triple (Within P intf seq rets) (Within P intf seq rets) (modifyRsp f) fun _ => Within P intf seq rets :=
    .modify fun l h => ⟨h.intf, h.currSeq, h.returned, h.entries⟩
  have hsol : Triple (Within P intf seq rets) (Within P intf seq rets) readSolPacket fun _ l =>
      Within P intf seq rets l ∧ Matched P intf l.rsp.payload := by
    refine .bind (Q := fun _ l => Within P intf seq rets l ∧ Matched P intf l.rsp.payload) (.modify fun l h => ?_)
      fun _ => .pure fun l h => h
    exact ⟨⟨h.intf, h.currSeq, h.returned, h.entries⟩, trivial⟩
  refine .get_bind' fun l => .ite (fun _ => .pure fun l h => ⟨h, ?_⟩) fun _ => ?_
  · -- a pong, or NULL
    split <;> exact nofun
  refine .ite (fun _ => ?_) fun _ => .pure fun l h => ⟨h, nofun⟩
  refine (hread _).bind fun _ => .get_bind' fun l => .ite (fun _ => ?_) fun _ => ?_
  · exact hsol.post fun t l h => ⟨h.1, fun _ _ => h.2⟩
  · exact .bind (.modify fun l h => ⟨⟨h.intf, h.currSeq, h.returned, h.entries⟩, rfl⟩) fun _ =>
      matchResponse_within hlayered _

/-- **A poll**: what it returns is a pong, a SOL packet, or matches an entry. -/
theorem pollTurns_within (hlayered : Layered P intf) (fuel : Nat) :
    Triple (Within P intf seq rets) (Within P intf seq rets) (pollTurns fuel) fun answer l =>
      Within P intf seq rets l ∧ (answer = some .packet → Matched P intf l.rsp.payload) := by
  induction fuel with
  | zero => exact .throw fun _ h => h
  | succ fuel ih =>
    refine .bind (handlePacket_within hlayered) fun t => ?_
    cases t with
    | null => exact .pure fun l h => ⟨h.1, nofun⟩
    | pong => exact .pure fun l h => ⟨h.1, nofun⟩
    | next =>
      exact .bind (ipmiLanRecvPacket_within.pre fun l h => h.1) fun got =>
        .ite (fun _ => ih) fun _ => .pure fun l h => ⟨h, nofun⟩
    | again => exact ih.pre fun l h => h.1
    | last x =>
      refine .bind (.modify (Q := fun _ l => Within P intf seq rets l ∧ Matched P intf l.rsp.payload) ?_)
        fun _ => .pure fun l h => ⟨h.1, fun _ => h.2⟩
      rintro l ⟨h, hmatched⟩
      refine ⟨⟨h.intf, h.currSeq, h.returned, h.entries⟩, ?_⟩
      have hpayload := hmatched x rfl
      dsimp only
      split
      · exact hpayload
      · exact hpayload

theorem ipmiLanPollRecv_within (hlayered : Layered P intf) :
    Triple (Within P intf seq rets) (Within P intf seq rets) ipmiLanPollRecv fun answer l =>
      Within P intf seq rets l ∧ (answer = some .packet → Matched P intf l.rsp.payload) :=
  .bind ipmiLanRecvPacket_within fun _ =>
    .ite (fun _ => .get_bind' fun _ => pollTurns_within hlayered _) fun _ => .pure fun _ h => ⟨h, nofun⟩

theorem pollReply_within (hlayered : Layered P intf) :
    Triple (Within P intf seq rets) (Within P intf seq rets) pollReply fun answer l =>
      Within P intf seq rets l ∧ (answer = some .packet → Matched P intf l.rsp.payload) :=
  .bind (ipmiLanPollRecv_within hlayered) fun _ => .get_bind' fun _ =>
    .ite (fun _ => (ipmiLanPollRecv_within hlayered).pre fun _ h => h.1) fun _ => .pure fun _ h => h

end poll

/-! ### The entries of a call -/

/-- The entries of a call with this sequence number. One of a bridged request waits for the target command once
its layers are answered. -/
def CallEntry (intf : Intf) (req : IpmiRq) (seq : UInt8) (e : RqEntry) : Prop :=
  if intf.unbridged then e.rqSeq = seq ∧ e.msg.cmd = req.cmd
  else e.msg.targetCmd = req.cmd ∧ (e.msg.cmd = req.cmd ∨ e.msg.cmd = sendMessageCmd ∧ e.bridgingLevel ≠ 0)

theorem layered_callEntry (intf : Intf) (req : IpmiRq) (seq : UInt8) : Layered (CallEntry intf req seq) intf := by
  intro e newSeq hbridged _ he
  unfold CallEntry at he ⊢
  rw [hbridged, if_neg nofun] at he ⊢
  obtain ⟨htarget, hcmd⟩ := he
  unfold RqEntry.decrementBridging
  dsimp only
  split
  · exact ⟨htarget, .inl htarget⟩
  · rename_i hlevel
    exact ⟨htarget, hcmd.imp_right fun h => ⟨h.1, hlevel⟩⟩

theorem callEntry_built {intf : Intf} {req : IpmiRq} {seq : UInt8} {e : RqEntry} (hcmd : e.msg.cmd = req.cmd) :
    CallEntry intf req seq (builtEntry intf seq e) := by
  unfold CallEntry builtEntry
  cases hun : intf.unbridged with
  | true => exact ⟨rfl, hcmd⟩
  | false =>
    refine ⟨hcmd, .inr ⟨rfl, ?_⟩⟩
    show intf.bridgingLevel ≠ 0
    unfold Intf.bridgingLevel
    rw [hun, if_neg nofun]
    split
    · decide
    · decide

theorem updateEntry_append {seq cmd : UInt8} {f : RqEntry → RqEntry} {e : RqEntry} {entries : List RqEntry}
    (hnone : ipmiReqLookupEntry seq cmd entries = none) (hkey : e.hasKey seq cmd = true) :
    updateEntry seq cmd f (entries ++ [e]) = entries ++ [f e] := by
  induction entries with
  | nil => exact if_pos hkey
  | cons x rest ih =>
    unfold ipmiReqLookupEntry at hnone ih
    rw [List.find?_cons] at hnone
    cases hx : x.hasKey seq cmd with
    | true =>
      rw [hx] at hnone
      cases hnone
    | false =>
      rw [hx] at hnone
      rw [List.cons_append, updateEntry, hx, if_neg nofun, ih hnone]
      rfl

theorem nextCurrSeq_retry (isRetry : Bool) (currSeq : UInt8) :
    nextCurrSeq true (nextCurrSeq isRetry currSeq) = nextCurrSeq isRetry currSeq := by
  have hlt : ∀ next : UInt8, ¬ 64 ≤ if 64 ≤ next then 0 else next := by
    intro next
    split
    · decide
    · assumption
  rw [nextCurrSeq]
  exact if_neg (hlt _)

section call
variable {intf : Intf} {req : IpmiRq} {seq : UInt8} {rets : List Returned}

/-- Before a transmission of the call. -/
structure Ready (intf : Intf) (req : IpmiRq) (seq : UInt8) (rets : List Returned) (isRetry : Bool) (l : Link) :
    Prop where
  interface : l.intf = intf
  currSeq : nextCurrSeq isRetry l.currSeq = seq
  returned : l.returned = rets
  entries : ∀ e ∈ l.entries, CallEntry intf req seq e

/-- The entry of a transmission is the first one with its key, and when it has been completed all entries are
those of the call. -/
theorem ipmiReqEntry_ready {targetCmd : UInt8} {a : Attempt} (ha : a.entryAllocated = true) :
    Triple (fun l => l.returned = rets) (Within (CallEntry intf req seq) intf seq rets)
      (ipmiReqEntry req targetCmd seq a) fun entry l => entry ≠ none ∧ l.intf = intf ∧ l.currSeq = seq ∧
        l.returned = rets ∧ ∀ e ∈ updateEntry seq req.cmd (builtEntry intf seq) l.entries, CallEntry intf req seq e := by
  refine .get_bind fun l hl => ?_
  cases hfind : ipmiReqLookupEntry seq req.cmd l.entries with
  | some entry =>
    refine .pure fun s hs => hs ▸ ⟨nofun, hl.intf, hl.currSeq, hl.returned, ?_⟩
    have hkey := List.find?_some hfind
    unfold RqEntry.hasKey at hkey
    have hcmd : entry.msg.cmd = req.cmd := by
      rw [Bool.and_eq_true] at hkey
      exact eq_of_beq hkey.2
    exact updateEntry_all hfind (callEntry_built hcmd) hl.entries
  | none =>
    refine .ite (fun hnot => ?_) fun _ => ?_
    · rw [ha] at hnot
      cases hnot
    · rintro s rfl
      refine ⟨nofun, hl.intf, hl.currSeq, hl.returned, ?_⟩
      dsimp only
      rw [updateEntry_append hfind (by simp [RqEntry.hasKey])]
      intro e he
      rcases List.mem_append.1 he with he | he
      · exact hl.entries e he
      · rw [List.mem_singleton.1 he]
        exact callEntry_built rfl

theorem ipmiLanBuildCmd_ready {c : Digests} {targetCmd : UInt8} {isRetry : Bool} {a : Attempt}
    (ha : a.entryAllocated = true ∧ a.msgAllocated = true) :
    Triple (fun l => l.returned = rets) (Ready intf req seq rets isRetry)
      (ipmiLanBuildCmd c req targetCmd isRetry a) fun built l =>
        built ≠ none ∧ Within (CallEntry intf req seq) intf seq rets l := by
  refine .bind (.modify (Q := fun _ => Within (CallEntry intf req seq) intf seq rets) fun l h =>
    ⟨h.interface, h.currSeq, h.returned, h.entries⟩) fun _ => .get_bind fun l hl => ?_
  have hseq := hl.currSeq
  dsimp only
  rw [hseq]
  refine .bind ((ipmiReqEntry_ready ha.1).pre fun s hs => hs ▸ hl) fun entry => ?_
  cases entry with
  | none => exact .pure fun s hs => absurd rfl hs.1
  | some entry =>
    dsimp only
    rw [ha.2]
    refine .ite nofun fun _ => .get_bind fun l' hl' => ?_
    obtain ⟨-, hintf, hcurr, hret, hall⟩ := hl'
    refine .bind (.modify (Q := fun _ => Within (CallEntry intf req seq) intf seq rets) ?_) fun _ =>
      .bind (.modify (Q := fun _ => Within (CallEntry intf req seq) intf seq rets) fun l h =>
        ⟨h.intf, h.currSeq, h.returned, h.entries⟩) fun _ => .pure fun l h => ⟨nofun, h⟩
    rintro s rfl
    refine ⟨hintf, hcurr, hret, ?_⟩
    show ∀ e ∈ updateEntry seq req.cmd (builtEntry s.intf seq) s.entries, CallEntry intf req seq e
    rw [hintf]
    exact hall

theorem sendTurns_within {c : Digests} {targetCmd : UInt8} {retry : Nat} {isRetry₀ : Bool} {currSeq₀ : UInt8}
    (hseq : nextCurrSeq isRetry₀ currSeq₀ = seq) (attempts : List Attempt)
    (halloc : ∀ a ∈ attempts, a.entryAllocated = true ∧ a.msgAllocated = true) : ∀ tries,
      Triple (fun l => l.returned = rets) (Ready intf req seq rets (tries ≠ 0))
        (sendTurns c req targetCmd retry tries attempts) fun r l => ∃ answer, r = .leave answer ∧
          Within (CallEntry intf req seq) intf seq rets l ∧
          (answer = some .packet → Matched (CallEntry intf req seq) intf l.rsp.payload) := by
  have hlayered := layered_callEntry intf req seq
  have hagain : ∀ (tries : Nat) (l : Link), Within (CallEntry intf req seq) intf seq rets l →
      Ready intf req seq rets (tries + 1 ≠ 0) l := by
    intro tries l h
    refine ⟨h.intf, ?_, h.returned, h.entries⟩
    rw [h.currSeq, ← hseq]
    exact nextCurrSeq_retry _ _
  induction attempts with
  | nil => exact fun tries => .throw fun l h => h.returned
  | cons a rest ih =>
    intro tries
    have hrest := ih fun a' ha' => halloc a' (.tail _ ha')
    refine .bind (ipmiLanBuildCmd_ready (halloc a List.mem_cons_self)) fun built => ?_
    cases built with
    | none => exact .pure fun l h => absurd rfl h.1
    | some built =>
      refine .bind (Q := fun _ => Within (CallEntry intf req seq) intf seq rets) (.modify fun l h => ?_) fun _ => ?_
      · exact ⟨h.2.intf, h.2.currSeq, h.2.returned, h.2.entries⟩
      refine .ite (fun _ => ?_) fun _ => .get_bind' fun _ => .ite (fun _ => ?_) fun _ => ?_
      · -- not sent
        refine .bind (Q := fun _ => Within (CallEntry intf req seq) intf seq rets) (.modify fun l h => ?_) fun _ => ?_
        · exact ⟨h.intf, h.currSeq, h.returned, removeEntry_all h.entries _ _⟩
        · exact (hrest _).pre (hagain tries)
      · exact .pure fun l h => ⟨none, rfl, h, nofun⟩
      · refine .bind ((pollReply_within hlayered).error fun l h => h.returned) fun answer => ?_
        cases answer with
        | some answer => exact .pure fun l h => ⟨some answer, rfl, h⟩
        | none =>
          exact .ite (fun _ => .pure fun l h => ⟨none, rfl, h⟩) fun _ => (hrest _).pre fun l h => hagain tries l h.1

end call

/-! ### Runs -/

/-- The response belongs to its call. -/
def Returned.Attributed (y : Returned) : Prop :=
  y.answer = .packet →
    match y.rsp.payload with
    | .solPacket _ => True
    | .ipmiResponse r =>
      if y.bridged then r.cmd = y.request.cmd ∨ r.cmd = sendMessageCmd ∧ r.netfn ≠ 7
      else r.rqSeq = y.seq ∧ r.cmd = y.request.cmd
    | _ => False

/-- A response that matches an entry of the call belongs to it. -/
theorem attributed_of_matched {intf : Intf} {req : IpmiRq} {seq : UInt8} {answer : Answer} {rsp : IpmiRs}
    (h : answer = .packet → Matched (CallEntry intf req seq) intf rsp.payload) :
    (⟨req, !intf.unbridged, seq, answer, rsp⟩ : Returned).Attributed := by
  intro hpacket
  have hmatched := h hpacket
  dsimp only
  cases hpayload : rsp.payload with
  | solPacket p => trivial
  | ipmiResponse r =>
    rw [hpayload] at hmatched
    obtain ⟨e, he, hseq, hcmd, hends⟩ := hmatched
    unfold CallEntry at he
    dsimp only
    cases hun : intf.unbridged with
    | true =>
      rw [hun, if_pos rfl] at he
      exact ⟨hseq ▸ he.1, hcmd ▸ he.2⟩
    | false =>
      rw [hun, if_neg nofun] at he
      rw [← hcmd]
      refine he.2.imp_right fun hlayer => ⟨hlayer.1, fun hnetfn => ?_⟩
      have hends' : endsLayer intf e r = true := by
        unfold endsLayer
        rw [hun, hnetfn, ← hcmd, hlayer.1]
        simpa using hlayer.2
      rw [hends] at hends'
      cases hends'
  | openSessionResponse r => rw [hpayload] at hmatched; exact hmatched
  | rakp2Message r => rw [hpayload] at hmatched; exact hmatched
  | rakp4Message r => rw [hpayload] at hmatched; exact hmatched

def AllAttributed (l : Link) : Prop := ∀ y ∈ l.returned, y.Attributed

/-- Between the calls. -/
structure Settled (l : Link) : Prop where
  entries : l.entries = []
  attributed : AllAttributed l

/-- All allocations of the step succeed. -/
def Step.Allocates : Step → Prop
  | .call _ _ _ attempts => ∀ a ∈ attempts, a.entryAllocated = true ∧ a.msgAllocated = true
  | _ => True

section run
variable {c : Digests}

/-- **A call** leaves no entry behind, and what it returns is its own. -/
theorem ipmiLanSendCmd_settled {req : IpmiRq} {targetCmd : UInt8} {retry : Nat} {attempts : List Attempt}
    (halloc : ∀ a ∈ attempts, a.entryAllocated = true ∧ a.msgAllocated = true) :
    Triple AllAttributed Settled (ipmiLanSendCmd c req targetCmd retry attempts) fun _ => Settled := by
  intro l hl
  obtain ⟨intf, hintf⟩ : ∃ intf, l.intf = intf := ⟨_, rfl⟩
  obtain ⟨seq, hseq⟩ : ∃ seq, nextCurrSeq false l.currSeq = seq := ⟨_, rfl⟩
  obtain ⟨rets, hrets⟩ : ∃ rets, l.returned = rets := ⟨_, rfl⟩
  have hrets' : ∀ s : Link, s.returned = rets → AllAttributed s := by
    intro s hs
    unfold AllAttributed
    rw [hs, ← hrets]
    exact hl.attributed
  have hready : Ready intf req seq rets (0 ≠ 0) l := ⟨hintf, hseq, hrets, by rw [hl.entries]; exact List.forall_mem_nil _⟩
  have hcall : Triple AllAttributed (Ready intf req seq rets (0 ≠ 0))
      (ipmiLanSendCmd c req targetCmd retry attempts) fun _ => Settled := by
    refine .bind ((sendTurns_within hseq attempts halloc 0).error hrets') fun r => ?_
    cases r with
    | returnNull =>
      refine .pure ?_
      rintro s ⟨answer, hleave, -⟩
      cases hleave
    | leave answer =>
      refine .bind (.modify (Q := fun _ s => s.entries = [] ∧ s.intf = intf ∧ s.currSeq = seq ∧ s.returned = rets ∧
        (answer = some .packet → Matched (CallEntry intf req seq) intf s.rsp.payload)) ?_) fun _ => ?_
      · rintro s ⟨answer', hleave, hwithin, hmatched⟩
        cases hleave
        exact ⟨rfl, hwithin.intf, hwithin.currSeq, hwithin.returned, hmatched⟩
      · refine .bind (Q := fun _ => Settled) ?_ fun _ => .pure fun _ h => h
        cases answer with
        | none => exact .pure fun s h => ⟨h.1, hrets' s h.2.2.2.1⟩
        | some answer =>
          refine .modify ?_
          rintro s ⟨hnil, hintf', hseq', hret, hmatched⟩
          refine ⟨hnil, ?_⟩
          unfold AllAttributed
          rw [List.forall_mem_append, List.forall_mem_singleton, hintf', hseq']
          exact ⟨hrets' s hret, attributed_of_matched fun hpacket => hmatched (hpacket ▸ rfl)⟩
  exact hcall l hready

theorem step_settled {step : Step} (halloc : step.Allocates) :
    Triple AllAttributed Settled (step.run c) fun _ => Settled := by
  cases step with
  | call req targetCmd retry attempts => exact .bind (ipmiLanSendCmd_settled halloc) fun _ => .pure fun _ h => h
  | poll =>
    intro l hl
    have hpoll : Triple AllAttributed (Within (fun _ => False) l.intf l.currSeq l.returned) (Step.poll.run c)
        fun _ => Settled := by
      have hsettled : ∀ s, Within (fun _ => False) l.intf l.currSeq l.returned s → Settled s := by
        intro s hs
        refine ⟨List.eq_nil_iff_forall_not_mem.2 hs.entries, ?_⟩
        unfold AllAttributed
        rw [hs.returned]
        exact hl.attributed
      refine .bind ((ipmiLanPollRecv_within fun _ _ _ _ h => h).error fun s hs => (hsettled s hs).attributed) fun _ =>
        .pure fun s hs => hsettled s hs.1
    refine hpoll l ⟨rfl, rfl, rfl, ?_⟩
    rw [hl.entries]
    exact List.forall_mem_nil _
  | setIntf intf session noanswer => exact .modify fun l h => ⟨h.entries, h.attributed⟩

theorem runSteps_settled {steps : List Step} (halloc : ∀ step ∈ steps, step.Allocates) :
    Triple AllAttributed Settled (runSteps c steps) fun _ => Settled := by
  induction steps with
  | nil => exact .pure fun _ h => h
  | cons step rest ih =>
    exact .bind (step_settled (halloc step List.mem_cons_self)) fun _ => ih fun s hs => halloc s (.tail _ hs)

end run

/-- A run of an interface from the start. -/
structure Run where
  digests : Digests
  intf : Intf
  session : Session
  noanswer : Bool
  arrivals : List Arrival
  steps : List Step

/-- The state in which the run ends, at its last step or where it stops. -/
def Run.final (r : Run) : Link :=
  finalState (runSteps r.digests r.steps) (.start r.intf r.session r.noanswer r.arrivals)

/-- **Response attribution.** Whatever comes in, an IPMI response that a call returns is one to its own request. -/
theorem Run.responses_attributed (r : Run) (h : ∀ step ∈ r.steps, step.Allocates) : ∀ y ∈ r.final.returned, y.Attributed := by
  have hends : Ends AllAttributed (runSteps r.digests r.steps) (.start r.intf r.session r.noanswer r.arrivals) :=
    (runSteps_settled h).ends (fun _ h => h) (fun _ _ h => h.attributed) ⟨rfl, List.forall_mem_nil _⟩
  exact hends

/-! ### A late reply -/

/-- A response of the BMC before a session. -/
def replyPacket (netfn cmd seq ccode : UInt8) (data : List UInt8) : List UInt8 :=
  rmcpHeader ++ [(0 : UInt8)] ++ le32 0 ++ le32 0 ++ [UInt8.ofNat (data.length + 8)] ++
    withCsum [remoteSwid, netfn <<< 2] ++ withCsum ([bmcSlaveAddr, seq <<< 2, cmd, ccode] ++ data)

/-- The first request is answered while the second one is waited for. -/
def lateRun : Run where
  digests := .zero
  intf := directIntf
  session := presession
  noanswer := false
  arrivals := [.silence, .datagram (replyPacket 7 0x23 1 0 [1]), .datagram (replyPacket 7 0x2d 2 0 [2])]
  steps := [.call ⟨6, 0, 0x23, []⟩ 0 1 [⟨true, true, true⟩], .call ⟨6, 0, 0x2d, []⟩ 0 1 [⟨true, true, true⟩]]

theorem lateRun_attributed : AllAttributed lateRun.final :=
  Run.responses_attributed lateRun (by
    have hstep : ∀ cmd : UInt8, Step.Allocates (.call ⟨6, 0, cmd, []⟩ 0 1 [⟨true, true, true⟩]) := by
      intro cmd a ha
      rw [List.mem_singleton.1 ha]
      exact ⟨rfl, rfl⟩
    exact List.forall_mem_cons.2 ⟨hstep 0x23, List.forall_mem_singleton.2 (hstep 0x2d)⟩)

example : lateRun.final.returned.map (fun y => (y.seq, y.request.cmd, y.rsp.data 0)) = [(2, 0x2d, 2)] := by
  decide +kernel

end KTools.Lan
