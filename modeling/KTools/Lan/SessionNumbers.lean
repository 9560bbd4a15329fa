import Mathlib.Algebra.Group.Nat.Defs
import Mathlib.Logic.Function.Iterate
import KTools.Lan.Request

/-!
# The sequence numbers of a v1.5 session

A BMC drops a packet whose session sequence number it has seen. Every packet that is built gets the number behind
that of the packet before, whether it is a new request or one that is sent again, and 0 is left out: so the numbers
of a session repeat only after 2 ^ 32 - 1 packets (`runSteps_sessionNumbered`).
-/

namespace KTools.Lan
open KTools.Lib KTools.Lanplus

/-! ### The numbers -/

/-- The period of the numbers. -/
def seqPeriod : Nat := 2 ^ 32 - 1

theorem nextInSeq_toNat {s : UInt32} (hs : s ≠ 0) :
    nextInSeq s ≠ 0 ∧ (nextInSeq s).toNat = (s.toNat - 1 + 1) % seqPeriod + 1 := by
  have hpos : 0 < s.toNat := by
    rcases Nat.eq_zero_or_pos s.toNat with h | h
    · exact absurd (UInt32.toNat_inj.1 h) hs
    · exact h
  have hlt := s.toNat_lt
  have hadd : (s + 1).toNat = (s.toNat + 1) % 2 ^ 32 := by
    rw [UInt32.toNat_add]
    rfl
  unfold nextInSeq seqPeriod
  rw [if_neg hs]
  by_cases hwrap : s + 1 = 0
  · have hmax : s.toNat = 2 ^ 32 - 1 := by
      rw [hwrap, UInt32.toNat_zero] at hadd
      omega
    rw [if_pos hwrap, hmax]
    decide
  · have hne : (s + 1).toNat ≠ 0 := fun h => hwrap (UInt32.toNat_inj.1 h)
    rw [if_neg hwrap]
    refine ⟨hwrap, ?_⟩
    rw [hadd] at hne ⊢
    omega

/-- The number of the packet that is `n` packets later. -/
theorem iterate_nextInSeq {s : UInt32} (hs : s ≠ 0) (n : Nat) :
    nextInSeq^[n] s ≠ 0 ∧ (nextInSeq^[n] s).toNat = (s.toNat - 1 + n) % seqPeriod + 1 := by
  induction n with
  | zero =>
    have hlt := s.toNat_lt
    have hpos : s.toNat ≠ 0 := fun h => hs (UInt32.toNat_inj.1 h)
    refine ⟨hs, ?_⟩
    unfold seqPeriod
    show s.toNat = _
    omega
  | succ n ih =>
    obtain ⟨hne, hval⟩ := nextInSeq_toNat ih.1
    rw [Function.iterate_succ_apply']
    refine ⟨hne, ?_⟩
    rw [hval, ih.2, Nat.add_sub_cancel, Nat.mod_add_mod, Nat.add_assoc]

theorem iterate_nextInSeq_ne {s : UInt32} (hs : s ≠ 0) {i j : Nat} (hij : i < j) (hj : j < i + seqPeriod) :
    nextInSeq^[i] s ≠ nextInSeq^[j] s := by
  intro heq
  have hnat := congrArg UInt32.toNat heq
  rw [(iterate_nextInSeq hs i).2, (iterate_nextInSeq hs j).2, Nat.add_right_cancel_iff] at hnat
  unfold seqPeriod at hj hnat
  omega

/-! ### The number in a packet -/

/-- The bytes at the place of the session sequence number. -/
def seqBytes (packet : List UInt8) : List UInt8 := (packet.drop 5).take 4

theorem ipmiLanBuildMsg_header (c : Digests) (intf : Intf) (s : Session) (req : IpmiRq) (currSeq : UInt8) :
    ∃ rest, (ipmiLanBuildMsg c intf s req currSeq).2 = sessionHeader s ++ rest := by
  have hheader : ∃ rest, (unsignedPacket intf s req currSeq).1 = sessionHeader s ++ rest := by
    rw [unsignedPacket_eq, packetHeader]
    split
    · simp only [List.append_assoc]
      exact ⟨_, rfl⟩
    · simp only [List.append_assoc]
      exact ⟨_, rfl⟩
  obtain ⟨rest, hrest⟩ := hheader
  unfold ipmiLanBuildMsg
  dsimp only
  split
  · rw [hrest, List.take_left' (length_sessionHeader s), List.append_assoc]
    exact ⟨_, rfl⟩
  · exact ⟨rest, hrest⟩

theorem seqBytes_built (c : Digests) (intf : Intf) (s : Session) (req : IpmiRq) (currSeq : UInt8) :
    seqBytes (ipmiLanBuildMsg c intf s req currSeq).2 = le32 s.inSeq := by
  obtain ⟨rest, hrest⟩ := ipmiLanBuildMsg_header c intf s req currSeq
  rw [seqBytes, hrest]
  rfl

/-- The bytes of a word determine it. -/
theorem le32_injective {v w : UInt32} (h : le32 v = le32 w) : v = w := by
  unfold le32 at h
  simp only [List.cons.injEq, and_true] at h
  obtain ⟨h0, h1, h2, h3⟩ := h
  have hbyte0 := congrArg UInt8.toNat h0
  have hbyte1 := congrArg UInt8.toNat h1
  have hbyte2 := congrArg UInt8.toNat h2
  have hbyte3 := congrArg UInt8.toNat h3
  have hv := v.toNat_lt
  have hw := w.toNat_lt
  simp [Nat.shiftRight_eq_div_pow] at hbyte0 hbyte1 hbyte2 hbyte3
  apply UInt32.toNat_inj.1
  omega

/-! ### What polls do not touch -/

/-- A property that neither what comes in nor the entries of the list change. -/
def Quiet (I : Link → Prop) : Prop :=
  ∀ (l : Link) (rsp : IpmiRs) (entries : List RqEntry) (currSeq : UInt8) (allocs : Nat) (arrivals : List Arrival),
    I l → I { l with rsp := rsp, entries := entries, currSeq := currSeq, allocs := allocs, arrivals := arrivals }

section quiet
variable {I : Link → Prop} (hI : Quiet I)
include hI

theorem takeArrival_quiet : Keeps I takeArrival := by
  intro l hl
  rw [takeArrival, ends_get_bind]
  cases l.arrivals with
  | nil => exact hl
  | cons a rest => exact hI l l.rsp l.entries l.currSeq l.allocs rest hl

theorem modifyRsp_quiet (f : IpmiRs → IpmiRs) : Keeps I (modifyRsp f) :=
  .modify fun l hl => hI l (f l.rsp) l.entries l.currSeq l.allocs l.arrivals hl

theorem modifyEntries_quiet (f : List RqEntry → List RqEntry) : Keeps I (modifyEntries f) :=
  .modify fun l hl => hI l l.rsp (f l.entries) l.currSeq l.allocs l.arrivals hl

theorem storePacket_quiet (bytes : List UInt8) : Keeps I (storePacket bytes) :=
  .ite (.pure _) (.bind (modifyRsp_quiet hI _) fun _ => .pure _)

theorem ipmiLanRecvPacket_quiet : Keeps I ipmiLanRecvPacket := by
  refine .bind (takeArrival_quiet hI) fun a => ?_
  cases a with
  | silence => exact .pure _
  | datagram bytes => exact storePacket_quiet hI bytes
  | refused =>
    refine .bind (takeArrival_quiet hI) fun a => ?_
    cases a with
    | silence => exact .pure _
    | datagram bytes => exact storePacket_quiet hI bytes
    | refused => exact .pure _

theorem layerAnswered_quiet (r : IpmiResponse) (entry : RqEntry) : Keeps I (layerAnswered r entry) :=
  .bind (modifyEntries_quiet hI _) fun _ =>
    .bind (.bind .get fun _ => .ite (ipmiLanRecvPacket_quiet hI) (.pure _)) fun _ =>
      .ite (.pure _) (.bind (modifyEntries_quiet hI _) fun _ => .pure _)

theorem matchResponse_quiet (x : Nat) : Keeps I (matchResponse x) := by
  refine .bind .get fun l => ?_
  dsimp only
  split
  · exact .pure _
  · refine .bind .get fun l => .ite (.ite (layerAnswered_quiet hI _ _) (.ite (.throw _) ?_)) ?_
    · exact .bind (modifyRsp_quiet hI _) fun _ => .bind .get fun _ => .bind (modifyEntries_quiet hI _) fun _ => .pure _
    · exact .bind (modifyEntries_quiet hI _) fun _ => .pure _

theorem handlePacket_quiet : Keeps I handlePacket := by
  refine .bind .get fun l => .ite (.pure _) (.ite ?_ (.pure _))
  refine .bind (modifyRsp_quiet hI _) fun _ => .bind .get fun l => .ite ?_ ?_
  · exact .bind (modifyRsp_quiet hI _) fun _ => .pure _
  · exact .bind (modifyRsp_quiet hI _) fun _ => matchResponse_quiet hI _

theorem pollTurns_quiet (fuel : Nat) : Keeps I (pollTurns fuel) := by
  induction fuel with
  | zero => exact .throw _
  | succ fuel ih =>
    refine .bind (handlePacket_quiet hI) fun t => ?_
    cases t with
    | null => exact .pure _
    | pong => exact .pure _
    | next => exact .bind (ipmiLanRecvPacket_quiet hI) fun _ => .ite ih (.pure _)
    | again => exact ih
    | last x => exact .bind (modifyRsp_quiet hI _) fun _ => .pure _

theorem ipmiLanPollRecv_quiet : Keeps I ipmiLanPollRecv :=
  .bind (ipmiLanRecvPacket_quiet hI) fun _ => .ite (.bind .get fun _ => pollTurns_quiet hI _) (.pure _)

theorem pollReply_quiet : Keeps I pollReply :=
  .bind (ipmiLanPollRecv_quiet hI) fun _ => .bind .get fun _ => .ite (ipmiLanPollRecv_quiet hI) (.pure _)

theorem ipmiReqEntry_quiet (req : IpmiRq) (targetCmd seq : UInt8) (a : Attempt) :
    Keeps I (ipmiReqEntry req targetCmd seq a) := by
  intro l hl
  rw [ipmiReqEntry, ends_get_bind]
  split
  · exact hl
  · rw [ends_ite]
    split
    · exact hl
    · exact hI l l.rsp _ l.currSeq _ l.arrivals hl

end quiet

/-! ### Runs -/

/-- The packets sent behind `sent₀`, in the session that was at `seq₀` then: each has the number that follows. -/
structure Numbered (sent₀ : List (List UInt8)) (seq₀ : UInt32) (packets : List (List UInt8)) (l : Link) : Prop where
  sent : l.sent = sent₀ ++ packets
  next : l.session.inSeq = nextInSeq^[packets.length] seq₀
  numbers : ∀ i (h : i < packets.length), seqBytes packets[i] = le32 (nextInSeq^[i] seq₀)

def SomeNumbered (sent₀ : List (List UInt8)) (seq₀ : UInt32) (l : Link) : Prop :=
  ∃ packets, Numbered sent₀ seq₀ packets l

section run
variable {c : Digests} {sent₀ : List (List UInt8)} {seq₀ : UInt32}

theorem quiet_numbered : Quiet (SomeNumbered sent₀ seq₀) := by
  rintro l rsp entries currSeq allocs arrivals ⟨packets, h⟩
  exact ⟨packets, h.sent, h.next, h.numbers⟩

/-- The next packet of a session. -/
theorem Numbered.snoc {packets : List (List UInt8)} {l l' : Link} {msg : List UInt8}
    (h : Numbered sent₀ seq₀ packets l) (hbytes : seqBytes msg = le32 l.session.inSeq)
    (hsent : l'.sent = l.sent ++ [msg]) (hnext : l'.session.inSeq = nextInSeq l.session.inSeq) :
    Numbered sent₀ seq₀ (packets ++ [msg]) l' where
  sent := by rw [hsent, h.sent, List.append_assoc]
  next := by rw [hnext, h.next, List.length_append, List.length_singleton, Function.iterate_succ_apply']
  numbers := by
    intro i hi
    by_cases hlast : i < packets.length
    · rw [List.getElem_append_left hlast]
      exact h.numbers i hlast
    · rw [List.length_append, List.length_singleton] at hi
      obtain rfl : i = packets.length := by omega
      rw [List.getElem_concat_length rfl, hbytes, h.next]

/-- A transmission: the packet takes the next number, or none is built. -/
theorem ipmiLanBuildCmd_numbered (req : IpmiRq) (targetCmd : UInt8) (isRetry : Bool) (a : Attempt) :
    Triple (SomeNumbered sent₀ seq₀) (SomeNumbered sent₀ seq₀) (ipmiLanBuildCmd c req targetCmd isRetry a)
      fun built l => match built with
        | none => SomeNumbered sent₀ seq₀ l
        | some (_, msg) => SomeNumbered sent₀ seq₀ { l with sent := l.sent ++ [msg] } := by
  refine .bind (.modify (Q := fun _ => SomeNumbered sent₀ seq₀) fun l hl =>
    quiet_numbered l l.rsp l.entries _ l.allocs l.arrivals hl) fun _ => .get_bind' fun l => ?_
  refine .bind (ipmiReqEntry_quiet quiet_numbered req targetCmd l.currSeq a).triple fun entry => ?_
  cases entry with
  | none => exact .pure fun _ h => h
  | some entry =>
    refine .ite (fun _ => .pure fun _ h => h) fun _ => .get_bind fun l' hl' => ?_
    rintro s rfl
    obtain ⟨packets, h⟩ := hl'
    exact ⟨_, h.snoc (seqBytes_built c s.intf s.session req l.currSeq) rfl rfl⟩

theorem sendTurns_numbered (req : IpmiRq) (targetCmd : UInt8) (retry : Nat) (attempts : List Attempt) :
    ∀ tries, Keeps (SomeNumbered sent₀ seq₀) (sendTurns c req targetCmd retry tries attempts) := by
  induction attempts with
  | nil => exact fun tries => .throw _
  | cons a rest ih =>
    intro tries l hl
    refine (Triple.bind (Q := _) (R := fun _ => SomeNumbered sent₀ seq₀)
      (ipmiLanBuildCmd_numbered req targetCmd (tries ≠ 0) a) fun built => ?_).ends (fun _ h => h) (fun _ _ h => h) hl
    cases built with
    | none => exact .pure fun _ h => h
    | some built =>
      refine .bind (.modify (Q := fun _ => SomeNumbered sent₀ seq₀) fun _ h => h) fun _ => .ite (fun _ => ?_) fun _ =>
        .get_bind' fun _ => .ite (fun _ => .pure fun _ h => h) fun _ => ?_
      · exact .bind (.modify (Q := fun _ => SomeNumbered sent₀ seq₀) fun l h =>
          quiet_numbered l l.rsp _ l.currSeq l.allocs l.arrivals h) fun _ => (ih _).triple
      · refine .bind (pollReply_quiet quiet_numbered).triple fun answer => ?_
        cases answer with
        | some answer => exact .pure fun _ h => h
        | none => exact .ite (fun _ => .pure fun _ h => h) fun _ => (ih _).triple

/-- The step does not set up another session. -/
def Step.SameSession : Step → Prop
  | .setIntf _ _ _ => False
  | _ => True

theorem step_numbered {step : Step} (h : step.SameSession) : Keeps (SomeNumbered sent₀ seq₀) (step.run c) := by
  cases step with
  | call req targetCmd retry attempts =>
    refine .bind (.bind (sendTurns_numbered req targetCmd retry attempts 0) fun r => ?_) fun _ => .pure _
    cases r with
    | returnNull => exact .pure _
    | leave answer =>
      refine .bind (modifyEntries_quiet quiet_numbered _) fun _ => .bind ?_ fun _ => .pure _
      cases answer with
      | none => exact .pure _
      | some answer =>
        refine .modify ?_
        rintro l ⟨packets, hl⟩
        exact ⟨packets, hl.sent, hl.next, hl.numbers⟩
  | poll => exact .bind (ipmiLanPollRecv_quiet quiet_numbered) fun _ => .pure _
  | setIntf intf session noanswer => exact h.elim

theorem runSteps_someNumbered {steps : List Step} (h : ∀ step ∈ steps, step.SameSession) :
    Keeps (SomeNumbered sent₀ seq₀) (runSteps c steps) := by
  induction steps with
  | nil => exact .pure _
  | cons step rest ih =>
    exact .bind (step_numbered (h step List.mem_cons_self)) fun _ => ih fun s hs => h s (.tail _ hs)

/-- **The numbers of a session**: whatever comes in and however often a request is sent again, no two packets of
fewer than 2 ^ 32 - 1 have the same number, and none has the number 0. -/
theorem runSteps_sessionNumbered {steps : List Step} {l : Link} (h : ∀ step ∈ steps, step.SameSession)
    (hsession : l.session.inSeq ≠ 0) :
    ∃ packets, (finalState (runSteps c steps) l).sent = l.sent ++ packets ∧
      (∀ i (hi : i < packets.length), seqBytes packets[i] = le32 (nextInSeq^[i] l.session.inSeq) ∧
        seqBytes packets[i] ≠ le32 0) ∧
      ∀ i j (hi : i < packets.length) (hj : j < packets.length), i < j → j < i + seqPeriod →
        seqBytes packets[i] ≠ seqBytes packets[j] := by
  have hstart : SomeNumbered l.sent l.session.inSeq l := ⟨[], (List.append_nil _).symm, rfl, nofun⟩
  obtain ⟨packets, hsent, -, hnumbers⟩ := runSteps_someNumbered (c := c) h l hstart
  refine ⟨packets, hsent, fun i hi => ⟨hnumbers i hi, ?_⟩, fun i j hi hj hij hperiod => ?_⟩
  · rw [hnumbers i hi]
    exact fun heq => (iterate_nextInSeq hsession i).1 (le32_injective heq)
  · rw [hnumbers i hi, hnumbers j hj]
    exact fun heq => iterate_nextInSeq_ne hsession hij hperiod (le32_injective heq)

end run

/-- Two requests, the first of which is sent twice, from the last number on. -/
def retriedSteps : List Step :=
  [.call ⟨6, 0, 0x23, []⟩ 0 2 [⟨true, true, true⟩, ⟨true, true, true⟩], .call ⟨6, 0, 0x2d, []⟩ 0 1 [⟨true, true, true⟩]]

theorem runSteps_sessionNumbered_retried :
    ∃ packets, (finalState (runSteps .zero retriedSteps) (.start directIntf md5Session false [])).sent = [] ++ packets ∧
      (∀ i (hi : i < packets.length), seqBytes packets[i] = le32 (nextInSeq^[i] md5Session.inSeq) ∧
        seqBytes packets[i] ≠ le32 0) ∧
      ∀ i j (hi : i < packets.length) (hj : j < packets.length), i < j → j < i + seqPeriod →
        seqBytes packets[i] ≠ seqBytes packets[j] :=
  runSteps_sessionNumbered (l := .start directIntf md5Session false [])
    (List.forall_mem_cons.2 ⟨trivial, List.forall_mem_singleton.2 trivial⟩) (by decide)

end KTools.Lan
