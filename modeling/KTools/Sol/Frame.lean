import KTools.Lib.Triple
import KTools.Sol.RedPill

/-!
# What the SOL functions leave alone

The functions of `lanplus.c` always return, and of the console they change only what has to do with packets
(`Console.Beside`). The packets they transmit are acknowledgements, the packet that they are called with, and
parts of it.
-/

namespace KTools.Sol
open KTools.Lanplus KTools.Lib

/-- The packet carries neither characters nor a break. -/
def Quiet (p : SolRequest) : Prop := p.data = [] ∧ p.generateBreak = false

instance (p : SolRequest) : Decidable (Quiet p) := inferInstanceAs (Decidable (_ ∧ _))

/-- Only the packets have gone on, and those transmitted meanwhile have `Q`. -/
structure Console.Beside (Q : SolRequest → Prop) (c c' : Console) : Prop where
  polls : c'.polls.length ≤ c.polls.length
  inRawMode : c'.inRawMode = c.inRawMode
  deactivations : c'.deactivations = c.deactivations
  reads : c'.reads = c.reads
  userInputs : c'.userInputs = c.userInputs
  messages : c'.messages = c.messages
  sent : ∃ l, c'.sent = c.sent ++ l ∧ ∀ p ∈ l, Q p

variable {Q : SolRequest → Prop}

instance : IsPreorder Console (Console.Beside Q) where
  refl c := ⟨Nat.le_refl _, rfl, rfl, rfl, rfl, rfl, [], (List.append_nil _).symm, List.forall_mem_nil _⟩
  trans c c' c'' h h' := by
    obtain ⟨l, hl, hQ⟩ := h.sent
    obtain ⟨l', hl', hQ'⟩ := h'.sent
    refine ⟨Nat.le_trans h'.polls h.polls, h'.inRawMode.trans h.inRawMode, h'.deactivations.trans h.deactivations,
      h'.reads.trans h.reads, h'.userInputs.trans h.userInputs, h'.messages.trans h.messages, l ++ l', ?_, ?_⟩
    · rw [hl', hl, List.append_assoc]
    · exact List.forall_mem_append.2 ⟨hQ, hQ'⟩

/-- A change of the console that transmits nothing. -/
theorem Console.Beside.of_eq {c c' : Console} (hpolls : c'.polls.length ≤ c.polls.length)
    (hraw : c'.inRawMode = c.inRawMode) (hdeactivations : c'.deactivations = c.deactivations) (hreads : c'.reads = c.reads)
    (hinputs : c'.userInputs = c.userInputs) (hmessages : c'.messages = c.messages) (hsent : c'.sent = c.sent) :
    Console.Beside Q c c' :=
  ⟨hpolls, hraw, hdeactivations, hreads, hinputs, hmessages, [], by rw [hsent, List.append_nil],
    List.forall_mem_nil _⟩

/-! ### Receiving -/

theorem beside_pollRecv : Moves (Console.Beside Q) pollRecv := by
  intro c
  unfold pollRecv
  apply Returns.get_bind
  cases hpolls : c.polls with
  | nil => exact .pure (refl_of _ c)
  | cons rsp rest =>
    have hrest : rest.length ≤ c.polls.length := by
      rw [hpolls, List.length_cons]
      omega
    exact ⟨_, _, rfl, .of_eq hrest rfl rfl rfl rfl rfl rfl⟩

theorem beside_nextAttempt : Moves (Console.Beside Q) nextAttempt := by
  intro c
  unfold nextAttempt
  apply Returns.get_bind
  cases c.attempts with
  | nil => exact .pure (refl_of _ c)
  | cons a rest => exact ⟨_, _, rfl, .of_eq (Nat.le_refl _) rfl rfl rfl rfl rfl rfl⟩

theorem beside_output (rsp : Rs) : Moves (Console.Beside Q) (output rsp) :=
  .ite (.modify fun _ => .of_eq (Nat.le_refl _) rfl rfl rfl rfl rfl rfl) (.pure _)

theorem chars_of_dataLen {rsp : Rs} (h : rsp.dataLen = 0) : rsp.chars = [] := by
  unfold Rs.chars
  rw [h]
  rfl

/-- A response without characters may as well be written. -/
theorem outputNew_eq_output (rsp : Rs) : outputNew rsp = output rsp := by
  funext c
  unfold outputNew
  by_cases hnew : rsp.dataLen ≠ 0
  · rw [if_pos hnew]
  · have hsame : c.written ++ rsp.chars.map (fun ch => (rsp.number, ch)) = c.written := by
      rw [chars_of_dataLen (not_not.1 hnew)]
      exact List.append_nil _
    rw [if_neg hnew]
    unfold output
    cases rsp.isSolPacket with
    | false => rfl
    | true => exact congrArg (fun written => EStateM.Result.ok PUnit.unit { c with written := written }) hsame.symm

theorem beside_outputNew (rsp : Rs) : Moves (Console.Beside Q) (outputNew rsp) :=
  .ite (beside_output rsp) (.pure _)

theorem beside_transmit {p : SolPayload} (hp : Q p.request) : Moves (Console.Beside Q) (transmit p) :=
  .modify fun _ => ⟨Nat.le_refl _, rfl, rfl, rfl, rfl, rfl, [p.request], rfl, List.forall_mem_singleton.2 hp⟩

theorem beside_beginTurn {p : SolPayload} (hp : Q p.request) (xmit : Bool) :
    Moves (Console.Beside Q) (beginTurn p xmit) :=
  beside_nextAttempt.bind fun _ => .ite ((beside_transmit hp).bind fun _ => .pure _) (.pure _)

theorem quiet_ackOf (rsp : Rs) : Quiet (ackOf rsp).request := ⟨rfl, rfl⟩

/-- An acknowledgement is one of the packets that may be transmitted. -/
def AllowsAcks (Q : SolRequest → Prop) : Prop := ∀ rsp : Rs, Q (ackOf rsp).request

section lanplus
variable (hacks : AllowsAcks Q) (e : Env)
include hacks

theorem beside_ackSolPacket (rsp : Rs) : Moves (Console.Beside Q) (ackSolPacket e rsp) :=
  .ite (.ite (.pure _) (beside_nextAttempt.bind fun _ => beside_transmit (hacks rsp))) (.pure _)

omit hacks in
theorem beside_checkSolPacketForNewData (rsp : Rs) :
    Moves (Console.Beside Q) (checkSolPacketForNewData rsp) := by
  apply Moves.ite (.pure _)
  intro c
  apply Returns.get_bind
  by_cases hseq : rsp.solPacket.packetSequenceNumber ≠ 0
  · rw [if_pos hseq]
    exact ⟨_, _, rfl, .of_eq (Nat.le_refl _) rfl rfl rfl rfl rfl rfl⟩
  · rw [if_neg hseq]
    exact ⟨_, _, rfl, refl_of _ c⟩

theorem beside_takeSolPacket (rsp : Rs) : Moves (Console.Beside Q) (takeSolPacket e rsp) :=
  (beside_ackSolPacket hacks e rsp).bind fun _ => (beside_checkSolPacketForNewData rsp).bind fun _ =>
    Moves.bind (.ite (.modify fun _ => .of_eq (Nat.le_refl _) rfl rfl rfl rfl rfl rfl) (.pure _)) fun _ => .pure _

theorem beside_recvSol : Moves (Console.Beside Q) (recvSol e) := by
  apply beside_pollRecv.bind
  intro rsp
  cases rsp with
  | none => exact .pure _
  | some rsp => exact .ite ((beside_takeSolPacket hacks e rsp).bind fun _ => .pure _) (.pure _)

/-! ### The keepalive -/

omit hacks in
theorem beside_pollReply (n : Nat) : Moves (Console.Beside Q) (pollReply n) := by
  induction n with
  | zero => exact .pure _
  | succ n ih =>
    apply beside_pollRecv.bind
    intro rsp
    cases rsp with
    | none => exact .pure _
    | some rsp => exact .ite ih (.pure _)

omit hacks in
theorem beside_sendrecvTurns (n : Nat) : ∀ xmit, Moves (Console.Beside Q) (sendrecvTurns e n xmit) := by
  induction n with
  | zero => exact fun _ => .pure _
  | succ n ih =>
    intro xmit
    apply beside_nextAttempt.bind
    intro a
    refine .ite (.pure _) (.ite (.pure _) (.get_bind fun c => ?_))
    apply (beside_pollReply c.polls.length).bind _ c
    intro rsp
    cases rsp with
    | some rsp => exact .pure _
    | none => exact ih a.timeUp

omit hacks in
theorem beside_sendrecv : Moves (Console.Beside Q) (sendrecv e) := beside_sendrecvTurns e e.retry true

theorem beside_keepaliveLoop (n : Nat) : ∀ rsp, Moves (Console.Beside Q) (keepaliveLoop e n rsp) := by
  induction n with
  | zero => exact fun _ => .pure _
  | succ n ih =>
    intro rsp
    apply Moves.ite _ (.pure _)
    apply (beside_takeSolPacket hacks e rsp).bind
    intro rsp'
    apply (beside_outputNew rsp').bind
    intro _
    apply beside_pollRecv.bind
    intro next
    cases next with
    | none => exact .pure _
    | some next => exact ih next

theorem beside_keepalive : Moves (Console.Beside Q) (keepalive e) := by
  apply Moves.ite (.pure _)
  apply (beside_sendrecv e).bind
  intro rsp
  cases rsp with
  | none => exact .pure _
  | some rsp => exact .get_bind fun c => beside_keepaliveLoop hacks e _ rsp c

/-! ### Sending -/

theorem beside_solTurns {p : SolPayload} (hp : Q p.request) (n : Nat) :
    ∀ xmit rsp, Moves (Console.Beside Q) (solTurns e p n xmit rsp) := by
  induction n with
  | zero => exact fun _ _ => .pure _
  | succ n ih =>
    intro xmit rsp
    apply (beside_beginTurn hp xmit).bind
    intro a
    apply Moves.ite (.pure _)
    apply Moves.ite (.pure _)
    apply Moves.ite (.pure _)
    refine (beside_recvSol hacks e).bind fun rsp' => ?_
    cases rsp' with
    | none => exact .pure _
    | some rsp' =>
      -- not a SOL packet, the acknowledgement, or a packet with data
      apply Moves.ite (.pure _)
      apply Moves.ite (.pure _)
      apply Moves.ite
      · exact (beside_output rsp').bind fun _ => .pure _
      · exact ih a.timeUp (some rsp')

omit hacks in
theorem beside_setSolPacketSequenceNumber (p : SolPayload) (c : Console) :
    Returns (setSolPacketSequenceNumber p) c fun p' c' => p'.characterCount = p.characterCount ∧
      p'.generateBreak = p.generateBreak ∧ Console.Beside Q c c' :=
  ⟨_, _, rfl, rfl, rfl, .of_eq (Nat.le_refl _) rfl rfl rfl rfl rfl rfl⟩

/-- What remains of the packet after its first characters may be transmitted. -/
def AllowsRests (Q : SolRequest → Prop) (p : SolPayload) : Prop :=
  ∀ p' : SolPayload, p'.characterCount ≤ p.characterCount → p'.generateBreak = p.generateBreak → Q p'.request

theorem beside_sendPayload {p : SolPayload} (hp : Q p.request) : Moves (Console.Beside Q) (sendPayload e p) :=
  beside_solTurns hacks e hp e.retry true none

omit hacks in
theorem isSolPartialAck_le (p : SolPayload) (rs : Rs) : isSolPartialAck e p rs ≤ p.characterCount := by
  unfold isSolPartialAck
  dsimp only
  split
  · split
    · omega
    · omega
  · omega

omit hacks in
/-- A resend keeps the break, and has no more characters. -/
theorem beside_prepareResend (p : SolPayload) (rs : Rs) (c : Console) :
    Returns (prepareResend e p rs) c fun p' c' => p'.characterCount ≤ p.characterCount ∧
      p'.generateBreak = p.generateBreak ∧ Console.Beside Q c c' := by
  apply (beside_outputNew rs c).bind
  intro _ c₁ hc₁
  apply (beside_setSolPacketSequenceNumber (Q := Q) p c₁).bind
  rintro p₂ c₂ ⟨-, hbreak, hc₂⟩
  exact .pure ⟨isSolPartialAck_le e p rs, hbreak, trans_of _ hc₁ hc₂⟩

theorem beside_resendLoop (n : Nat) :
    ∀ p rs, AllowsRests Q p → Moves (Console.Beside Q) (resendLoop e n p rs) := by
  induction n with
  | zero => exact fun _ _ _ => .pure _
  | succ n ih =>
    intro p rs hp
    cases rs with
    | none => exact .pure _
    | some rs =>
      apply Moves.ite _ (.pure _)
      intro c
      apply (beside_prepareResend e p rs c).bind
      rintro p₁ c₁ ⟨hcount, hbreak, hc⟩
      have hrests : AllowsRests Q p₁ := fun p' hle hsame =>
        hp p' (Nat.le_trans hle hcount) (hsame.trans hbreak)
      have hsend := (beside_sendPayload hacks e (hrests _ (Nat.le_refl _) rfl)).bind fun rs' => ih _ rs' hrests
      exact (hsend c₁).mono fun _ _ h => trans_of _ hc h

theorem beside_sendSol {p : SolPayload} (hp : AllowsRests Q p) : Moves (Console.Beside Q) (sendSol e p) := by
  intro c
  apply (beside_setSolPacketSequenceNumber _ c).bind
  rintro p₁ c₁ ⟨hcount, hbreak, hc⟩
  have hrests : AllowsRests Q p₁ := fun p' hle hsame =>
    hp p' (Nat.le_trans hle (Nat.le_of_eq hcount)) (hsame.trans hbreak)
  have hsend := (beside_sendPayload hacks e (hrests p₁ (Nat.le_refl _) rfl)).bind fun rs =>
    Moves.get_bind fun c₂ => beside_resendLoop hacks e (c₂.polls.length + 1) p₁ rs hrests c₂
  exact (hsend c₁).mono fun _ _ h => trans_of _ hc h

end lanplus

/-! ### Taking a packet -/

/-- The response as `recv_sol` leaves it. -/
def Console.trimmed (c : Console) (rsp : Rs) : Rs :=
  if rsp.isSolPacket = true ∧ rsp.solPacket.packetSequenceNumber = c.lastReceivedSequenceNumber then
    rsp.trim c.lastReceivedByteCount
  else rsp

/-- `rsp` has been taken: a numbered packet is acknowledged and remembered. -/
structure Taken (e : Env) (c : Console) (rsp : Rs) (c' : Console) : Prop where
  polls : c'.polls = c.polls
  polled : c'.polled = c.polled
  written : c'.written = c.written
  received : c'.received =
    c.received ++ if rsp.isNumbered then [(rsp.number, (c.trimmed rsp).chars)] else []
  sent : c'.sent = c.sent ++ if rsp.isNumbered = true ∧ e.retry ≠ 0 then [(ackOf rsp).request] else []
  lastReceivedSequenceNumber : c'.lastReceivedSequenceNumber =
    if rsp.isNumbered then rsp.solPacket.packetSequenceNumber else c.lastReceivedSequenceNumber
  lastReceivedByteCount : c'.lastReceivedByteCount =
    if rsp.isNumbered then UInt8.ofInt rsp.dataLen else c.lastReceivedByteCount

/-- What `trim` leaves alone. -/
theorem trimmed_keeps {β : Type} (f : Rs → β) (hf : ∀ (rsp : Rs) (n : UInt8), f (rsp.trim n) = f rsp) (c : Console)
    (rsp : Rs) : f (c.trimmed rsp) = f rsp := by
  unfold Console.trimmed
  rw [apply_ite f, hf, ite_self]

theorem trimmed_number (c : Console) (rsp : Rs) : (c.trimmed rsp).number = rsp.number :=
  trimmed_keeps Rs.number (fun _ _ => rfl) c rsp

theorem trimmed_isSolPacket (c : Console) (rsp : Rs) : (c.trimmed rsp).isSolPacket = rsp.isSolPacket :=
  trimmed_keeps Rs.isSolPacket (fun _ _ => rfl) c rsp

theorem trimmed_isNumbered (c : Console) (rsp : Rs) : (c.trimmed rsp).isNumbered = rsp.isNumbered :=
  trimmed_keeps Rs.isNumbered (fun _ _ => rfl) c rsp

/-- The console after the acknowledgement. -/
theorem ackSolPacket_run (e : Env) (rsp : Rs) (c : Console) : ∃ attempts, ackSolPacket e rsp c = .ok ⟨⟩
    { c with
      attempts := attempts
      sent := c.sent ++ if rsp.isNumbered = true ∧ e.retry ≠ 0 then [(ackOf rsp).request] else [] } := by
  unfold ackSolPacket sendAck
  by_cases hnumbered : rsp.isNumbered = true
  · by_cases hretry : e.retry = 0
    · refine ⟨c.attempts, ?_⟩
      rw [if_pos hnumbered, if_pos hretry, if_neg (fun h => h.2 hretry), List.append_nil]
      rfl
    · rw [if_pos hnumbered, if_neg hretry, if_pos ⟨hnumbered, hretry⟩]
      unfold nextAttempt
      cases hattempts : c.attempts with
      | nil =>
        refine ⟨[], ?_⟩
        rw [bind_ok (show (get >>= _ : SolM Attempt) c = .ok ⟨true, false⟩ c by rw [get_bind_apply, hattempts]; rfl),
          ← hattempts]
        rfl
      | cons a rest =>
        refine ⟨rest, ?_⟩
        rw [bind_ok (show (get >>= _ : SolM Attempt) c = .ok a { c with attempts := rest } by
          rw [get_bind_apply, hattempts]; rfl)]
        rfl
  · refine ⟨c.attempts, ?_⟩
    rw [if_neg hnumbered, if_neg (fun h => hnumbered h.1), List.append_nil]
    rfl

theorem checkSolPacketForNewData_run (rsp : Rs) (c : Console) : checkSolPacketForNewData rsp c =
    .ok (c.trimmed rsp)
      { c with
        lastReceivedSequenceNumber :=
          if rsp.isNumbered then rsp.solPacket.packetSequenceNumber else c.lastReceivedSequenceNumber
        lastReceivedByteCount := if rsp.isNumbered then UInt8.ofInt rsp.dataLen else c.lastReceivedByteCount } := by
  unfold checkSolPacketForNewData Console.trimmed
  cases hsol : rsp.isSolPacket with
  | false =>
    have hnot : rsp.isNumbered = false := by
      unfold Rs.isNumbered
      rw [hsol]
      rfl
    rw [hnot]
    rfl
  | true =>
    rw [if_neg (by decide), get_bind_apply]
    by_cases hseq : rsp.solPacket.packetSequenceNumber = 0
    · have hnot : rsp.isNumbered = false := by
        unfold Rs.isNumbered
        rw [hseq, bne_self_eq_false, Bool.and_false]
      simp only [hnot, hseq, ne_eq, not_true_eq_false, if_false, Bool.false_eq_true, true_and]
      rfl
    · have hnumbered : rsp.isNumbered = true := by
        unfold Rs.isNumbered
        rw [hsol, Bool.true_and]
        exact bne_iff_ne.2 hseq
      simp only [hnumbered, hseq, ne_eq, not_false_eq_true, if_true, true_and]
      rfl

theorem noteReceived_run (rsp : Rs) (c : Console) : noteReceived rsp c =
    .ok ⟨⟩ { c with received := c.received ++ if rsp.isNumbered then [(rsp.number, rsp.chars)] else [] } := by
  unfold noteReceived
  cases rsp.isNumbered with
  | true => rfl
  | false =>
    have hnil : c.received ++ (if false = true then [(rsp.number, rsp.chars)] else []) = c.received :=
      List.append_nil _
    rw [hnil]
    rfl

theorem takeSolPacket_run (e : Env) (rsp : Rs) (c : Console) :
    ∃ c', takeSolPacket e rsp c = .ok (c.trimmed rsp) c' ∧ Taken e c rsp c' := by
  obtain ⟨attempts, hack⟩ := ackSolPacket_run e rsp c
  unfold takeSolPacket
  rw [bind_ok hack, bind_ok (checkSolPacketForNewData_run rsp _), bind_ok (noteReceived_run _ _)]
  refine ⟨_, rfl, rfl, rfl, rfl, ?_, rfl, rfl, rfl⟩
  show c.received ++ (if (c.trimmed rsp).isNumbered = true then [((c.trimmed rsp).number, (c.trimmed rsp).chars)]
    else []) = _
  rw [trimmed_isNumbered, trimmed_number]

/-! ### The bounds of the loops -/

/-- Any packet may be transmitted. -/
def AnyRequest (_ : SolRequest) : Prop := True

theorem anyRequest_acks : AllowsAcks AnyRequest := fun _ => trivial

theorem anyRequest_rests (p : SolPayload) : AllowsRests AnyRequest p := fun _ _ _ => trivial

section bounds
variable (e : Env)

theorem pollRecv_shrinks (c : Console) :
    Returns pollRecv c fun rsp c' => rsp ≠ none → c'.polls.length < c.polls.length := by
  unfold pollRecv
  apply Returns.get_bind
  cases hpolls : c.polls with
  | nil => exact .pure fun h => absurd rfl h
  | cons rsp rest => exact ⟨_, _, rfl, fun _ => Nat.lt_succ_self _⟩

theorem pollRecv_nil {c : Console} (h : c.polls = []) : pollRecv c = .ok none c := by
  unfold pollRecv
  rw [get_bind_apply, h]
  rfl

/-- `pollReply` never polls more often than there are packets to come. -/
theorem pollReply_bound (n : Nat) : ∀ c : Console, c.polls.length ≤ n → pollReply (n + 1) c = pollReply n c := by
  induction n with
  | zero =>
    intro c hc
    exact bind_ok (pollRecv_nil (List.length_eq_zero_iff.1 (Nat.le_zero.1 hc)))
  | succ n ih =>
    intro c hc
    obtain ⟨rsp, c', hrun, hshrinks⟩ := pollRecv_shrinks c
    conv_lhs => unfold pollReply
    conv_rhs => unfold pollReply
    rw [bind_ok hrun, bind_ok hrun]
    cases rsp with
    | none => rfl
    | some rsp =>
      have hless := hshrinks (Option.some_ne_none rsp)
      by_cases hdup : rsp.ccode = duplicateRequest
      · simp only [if_pos hdup]
        exact ih c' (by omega)
      · simp only [if_neg hdup]

/-- A response is handled before each poll of the keepalive. -/
theorem keepaliveLoop_bound (n : Nat) : ∀ rsp (c : Console), c.polls.length + 1 ≤ n →
    keepaliveLoop e (n + 1) rsp c = keepaliveLoop e n rsp c := by
  induction n with
  | zero => exact fun _ _ hc => absurd hc (Nat.not_succ_le_zero _)
  | succ n ih =>
    intro rsp c hc
    conv_lhs => unfold keepaliveLoop
    conv_rhs => unfold keepaliveLoop
    by_cases hsol : rsp.isSolPacket = true
    · simp only [if_pos hsol]
      obtain ⟨rsp₁, c₁, hrun₁, hc₁⟩ := beside_takeSolPacket anyRequest_acks e rsp c
      obtain ⟨_, c₂, hrun₂, hc₂⟩ := beside_outputNew (Q := AnyRequest) rsp₁ c₁
      obtain ⟨rsp₃, c₃, hrun₃, hshrinks⟩ := pollRecv_shrinks c₂
      rw [bind_ok hrun₁, bind_ok hrun₂, bind_ok hrun₃, bind_ok hrun₁, bind_ok hrun₂, bind_ok hrun₃]
      cases rsp₃ with
      | none => rfl
      | some rsp₃ =>
        have hless := hshrinks (Option.some_ne_none rsp₃)
        have h₁ := hc₁.polls
        have h₂ := hc₂.polls
        exact ih rsp₃ c₃ (by omega)
    · simp only [if_neg hsol]

theorem recvSol_shrinks (c : Console) :
    Returns (recvSol e) c fun rsp c' => rsp ≠ none → c'.polls.length < c.polls.length := by
  apply (pollRecv_shrinks c).bind
  intro rsp c₁ hshrinks
  cases rsp with
  | none => exact .pure fun h => absurd rfl h
  | some rsp =>
    have hless := hshrinks (Option.some_ne_none rsp)
    refine .ite (fun _ => ?_) fun _ => .pure fun _ => hless
    apply (beside_takeSolPacket anyRequest_acks e rsp c₁).bind
    intro rsp' c₂ hc₂
    exact .pure fun _ => Nat.lt_of_le_of_lt hc₂.polls hless

/-- A response comes from a poll of this or of an earlier turn. -/
theorem solTurns_shrinks (p : SolPayload) (n : Nat) : ∀ xmit rsp (c : Console),
    Returns (solTurns e p n xmit rsp) c fun rsp' c' =>
      rsp = none → rsp' ≠ none → c'.polls.length < c.polls.length := by
  induction n with
  | zero => exact fun xmit rsp c => .pure fun hnone hne => absurd hnone hne
  | succ n ih =>
    intro xmit rsp c
    apply (beside_beginTurn (Q := AnyRequest) (p := p) trivial xmit c).bind
    intro a c₁ hc₁
    refine .ite (fun _ => .pure fun _ hne => absurd rfl hne) fun _ => .ite (fun _ => ?_) fun _ =>
      .ite (fun _ => ?_) fun _ => ?_
    · exact .pure fun hnone hne => absurd hnone hne
    · exact .pure fun hnone hne => absurd hnone hne
    apply (recvSol_shrinks e c₁).bind
    intro rsp₂ c₂ hshrinks
    cases rsp₂ with
    | none => exact .pure fun _ hne => absurd rfl hne
    | some rsp₂ =>
      have hless : c₂.polls.length < c.polls.length :=
        Nat.lt_of_lt_of_le (hshrinks (Option.some_ne_none rsp₂)) hc₁.polls
      refine .ite (fun _ => .pure fun _ _ => hless) fun _ => .ite (fun _ => .pure fun _ _ => hless) fun _ =>
        .ite (fun _ => ?_) fun _ => ?_
      · apply (beside_output (Q := AnyRequest) rsp₂ c₂).bind
        intro _ c₃ hc₃
        exact .pure fun _ _ => Nat.lt_of_le_of_lt hc₃.polls hless
      · exact (beside_solTurns (p := p) anyRequest_acks e trivial n a.timeUp (some rsp₂) c₂).mono fun _ _ hc₃ _ _ =>
          Nat.lt_of_le_of_lt hc₃.polls hless

/-- A resend follows a response, so `sendSol` allows for enough of them. -/
theorem resendLoop_bound (n : Nat) : ∀ p rs (c : Console), c.polls.length + 1 ≤ n →
    resendLoop e (n + 1) p rs c = resendLoop e n p rs c := by
  induction n with
  | zero => exact fun _ _ _ hc => absurd hc (Nat.not_succ_le_zero _)
  | succ n ih =>
    intro p rs c hc
    cases rs with
    | none => rfl
    | some rs =>
      conv_lhs => unfold resendLoop
      conv_rhs => unfold resendLoop
      by_cases hresends : resends e p rs = true
      · simp only [if_pos hresends]
        obtain ⟨p₁, c₁, hrun₁, -, -, hc₁⟩ := beside_prepareResend (Q := AnyRequest) e p rs c
        obtain ⟨rs₂, c₂, hrun₂, hshrinks⟩ := solTurns_shrinks e p₁ e.retry true none c₁
        rw [bind_ok hrun₁, bind_ok hrun₁, bind_ok (show sendPayload e p₁ c₁ = _ from hrun₂),
          bind_ok (show sendPayload e p₁ c₁ = _ from hrun₂)]
        cases rs₂ with
        | none =>
          cases n with
          | zero => rfl
          | succ n => rfl
        | some rs₂ =>
          have hless := hshrinks rfl (Option.some_ne_none rs₂)
          have h₁ := hc₁.polls
          exact ih p₁ (some rs₂) c₂ (by omega)
      · simp only [if_neg hresends]

end bounds

/-! ### A turn of the red pill -/

/-- What holds behind every part of a turn: no Deactivate Payload request has been added, nor the message that
the BMC closed the session, and no call of `read` is taken back. -/
structure Console.Turned (c c' : Console) : Prop where
  deactivations : c'.deactivations = c.deactivations
  reads : c.reads <+: c'.reads
  messages : sessionClosed ∈ c'.messages → sessionClosed ∈ c.messages

instance : IsPreorder Console Console.Turned where
  refl _ := ⟨rfl, List.prefix_refl _, id⟩
  trans _ _ _ h h' := ⟨h'.deactivations.trans h.deactivations, h.reads.trans h'.reads,
    fun hm => h.messages (h'.messages hm)⟩

theorem Console.Beside.turned {Q : SolRequest → Prop} {c c' : Console} (h : Console.Beside Q c c') :
    Console.Turned c c' :=
  ⟨h.deactivations, h.reads ▸ List.prefix_refl _, fun hm => by rwa [h.messages] at hm⟩

theorem turned_modify {f : Console → Console} (hdeactivations : ∀ c, (f c).deactivations = c.deactivations)
    (hreads : ∀ c, (f c).reads = c.reads) (hmessages : ∀ c, (f c).messages = c.messages) :
    Moves Console.Turned (modify f : SolM PUnit) :=
  .modify fun c => ⟨hdeactivations c, hreads c ▸ List.prefix_refl _, fun hm => by rwa [hmessages] at hm⟩

theorem turned_print {message : String} (h : message ≠ sessionClosed) :
    Moves Console.Turned (print message) := by
  apply Moves.modify
  intro c
  refine ⟨rfl, List.prefix_refl _, fun hm => ?_⟩
  rcases List.mem_append.1 hm with hm | hm
  · exact hm
  · exact absurd (List.mem_singleton.1 hm).symm h

section turn
variable (e : Env)

theorem turned_sendSol (p : SolPayload) : Moves Console.Turned (sendSol e p) :=
  (beside_sendSol anyRequest_acks e (anyRequest_rests p)).mono fun _ _ h => h.turned

theorem turned_enterRawMode : Moves Console.Turned (enterRawMode e) :=
  .ite (turned_modify (fun _ => rfl) (fun _ => rfl) fun _ => rfl) (.pure _)

theorem turned_leaveRawMode : Moves Console.Turned leaveRawMode :=
  turned_modify (fun _ => rfl) (fun _ => rfl) fun _ => rfl

theorem turned_suspendSelf (bRestoreTty : Bool) : Moves Console.Turned (suspendSelf e bRestoreTty) :=
  turned_leaveRawMode.bind fun _ => .ite (turned_enterRawMode e) (.pure _)

theorem turned_setStatics (escapePending lastWasCr : Bool) :
    Moves Console.Turned (setStatics escapePending lastWasCr) :=
  turned_modify (fun _ => rfl) (fun _ => rfl) fun _ => rfl

theorem turned_processEscape (ch : UInt8) (lastWasCr : Bool) (x : Input) :
    Moves Console.Turned (processEscape e ch lastWasCr x) := by
  apply (turned_setStatics false lastWasCr).bind
  intro _
  refine .ite ((turned_setStatics _ _).bind fun _ => .pure _) ?_
  refine .ite ((turned_suspendSelf e true).bind fun _ => .pure _) ?_
  refine .ite ((turned_suspendSelf e false).bind fun _ => .pure _) ?_
  refine .ite (((turned_sendSol e _).bind fun _ => .pure _).bind fun _ => .pure _) ?_
  exact .ite (.pure _) ((turned_setStatics _ _).bind fun _ => .pure _)

theorem turned_processChar (ch : UInt8) (x : Input) : Moves Console.Turned (processChar e ch x) := by
  apply Moves.get_bind
  intro c
  exact Moves.ite (turned_processEscape e ch c.lastWasCr x)
    (.ite ((turned_setStatics _ _).bind fun _ => .pure _) ((turned_setStatics _ _).bind fun _ => .pure _)) c

theorem turned_processChars (input : List UInt8) : ∀ x, Moves Console.Turned (processChars e input x) := by
  induction input with
  | nil => exact fun _ => .pure _
  | cons ch rest ih => exact fun x => (turned_processChar e ch x).bind fun x => ih x

theorem turned_sendTries (length n : Nat) : ∀ p, Moves Console.Turned (sendTries e length n p) := by
  induction n with
  | zero => exact fun _ => .pure _
  | succ n ih =>
    intro p
    apply (turned_sendSol e _).bind
    rintro ⟨rsp, p'⟩
    cases rsp with
    | none => exact ih p'
    | some rsp => exact .pure _

theorem turned_sendInput (x : Input) : Moves Console.Turned (sendInput e x) := by
  apply (turned_sendTries e x.data.length e.retry _).bind
  intro rsp
  cases rsp with
  | none => exact (turned_print (by decide)).bind fun _ => .pure _
  | some rsp =>
    have houtput : Moves Console.Turned (output rsp) :=
      (beside_output (Q := AnyRequest) rsp).mono fun _ _ h => h.turned
    exact .ite (houtput.bind fun _ => .pure _) (.pure _)

theorem turned_processSolUserInput (input : List UInt8) :
    Moves Console.Turned (processSolUserInput e input) := by
  have hnote : Moves Console.Turned (noteUserInput input) :=
    turned_modify (fun _ => rfl) (fun _ => rfl) fun _ => rfl
  apply hnote.bind
  intro _
  apply (turned_processChars e input ⟨[], 0⟩).bind
  intro x
  exact .ite (turned_sendInput e x) (.pure _)

theorem turned_noteRead : Moves Console.Turned noteRead :=
  .modify fun _ => ⟨rfl, List.prefix_append _ _, id⟩

theorem turned_processRead (bufferSize : Nat) (l : Loop) (input : Option (List UInt8)) :
    Moves Console.Turned (processRead e bufferSize l input) := by
  cases input with
  | none => exact .pure _
  | some input =>
    refine .ite ((turned_processSolUserInput e _).bind fun _ => ?_) (.pure _)
    exact .ite (.pure _) (.ite (.pure _) (.pure _))

theorem turned_readStdin (bufferSize : Nat) (t : Turn) (l : Loop) :
    Moves Console.Turned (readStdin e bufferSize t l) :=
  turned_noteRead.bind fun _ => turned_processRead e bufferSize l t.input

/-! ### Quiet parts of a turn -/

theorem allowsRests_zero : AllowsRests Quiet SolPayload.zero := by
  intro p hcount hbreak
  refine ⟨?_, hbreak⟩
  show p.data.take p.characterCount = []
  rw [Nat.le_zero.1 hcount, List.take_zero]

theorem beside_keepaliveIfDue {Q : SolRequest → Prop} (now later : Int) {send : SolM Bool}
    (hsend : Moves (Console.Beside Q) send) : Moves (Console.Beside Q) (keepaliveIfDue e now later send) := by
  have hstart : Moves (Console.Beside Q) (setStartKeepalive later) :=
    .modify fun _ => .of_eq (Nat.le_refl _) rfl rfl rfl rfl rfl rfl
  apply Moves.get_bind
  intro c
  have hdue : Moves (Console.Beside Q) (do if ← send then setStartKeepalive later; return 0 else return -1) :=
    hsend.bind fun _ => .ite (hstart.bind fun _ => .pure _) (.pure _)
  exact Moves.ite (.pure _) (.ite hdue (.pure _)) c

/-- A keepalive sends no characters and no break. -/
theorem quiet_keepaliveStep (t : Turn) (l : Loop) :
    Moves (Console.Beside Quiet) (keepaliveStep e t l) := by
  have hsol : Moves (Console.Beside Quiet) (ipmiSolKeepaliveUsingSol e t.now t.later) :=
    beside_keepaliveIfDue e t.now t.later
      ((beside_sendSol quiet_ackOf e allowsRests_zero).bind fun _ => .pure _)
  have hdevice : Moves (Console.Beside Quiet) (ipmiSolKeepaliveUsingGetdeviceid e t.now t.later) :=
    beside_keepaliveIfDue e t.now t.later ((beside_keepalive quiet_ackOf e).bind fun _ => .pure _)
  have hsend : Moves (Console.Beside Quiet) (sendKeepalive e t) := .ite hsol hdevice
  exact .ite (.pure _) (hsend.bind fun _ => .ite (.ite (.pure _) (.pure _)) (.pure _))

theorem quiet_readBmc (l : Loop) : Moves (Console.Beside Quiet) (readBmc e l) := by
  apply (beside_recvSol quiet_ackOf e).bind
  intro rsp
  cases rsp with
  | none => exact .pure _
  | some rsp => exact (beside_output rsp).bind fun _ => .pure _

theorem turned_selectStep (bufferSize : Nat) (t : Turn) (l : Loop) :
    Moves Console.Turned (selectStep e bufferSize t l) := by
  unfold selectStep
  cases t.select with
  | error => exact (turned_print (by decide)).bind fun _ => .pure _
  | timeout => exact .pure _
  | ready fds =>
    refine .ite ((turned_readStdin e bufferSize t l).bind fun _ => .pure _) (.ite ?_ ?_)
    · exact ((quiet_readBmc e l).mono fun _ _ h => h.turned).bind fun _ => .pure _
    · exact (turned_print (by decide)).bind fun _ => .pure _

/-! ### The loop -/

/-- In the turn after `pre`, a loop that starts with `l` calls `select`. -/
def CallsSelect (bufferSize : Nat) (l : Loop) (c : Console) (pre : List Turn) (t : Turn) : Prop :=
  ∃ l₁ c₁ l₂ c₂, redPillLoop e bufferSize pre l c = .error (.unfinished l₁) c₁ ∧
    keepaliveStep e t l₁ c₁ = .ok l₂ c₂ ∧ l₂.shouldExit = false

variable {e} {bufferSize : Nat}

/-- A loop that goes on after a turn. -/
theorem redPillLoop_cons {t : Turn} {l l₁ l₂ : Loop} {c c₁ c₂ : Console} (hl : l.shouldExit = false)
    (hkeepalive : keepaliveStep e t l c = .ok l₁ c₁) (hl₁ : l₁.shouldExit = false)
    (hselect : selectStep e bufferSize t l₁ c₁ = .ok (some l₂) c₂) (rest : List Turn) :
    redPillLoop e bufferSize (t :: rest) l c = redPillLoop e bufferSize rest l₂ c₂ := by
  conv_lhs => unfold redPillLoop
  rw [if_neg (by rw [hl]; decide), bind_ok hkeepalive, if_neg (by rw [hl₁]; decide), bind_ok hselect]

theorem redPillLoop_cons_none {t : Turn} {l l₁ : Loop} {c c₁ c₂ : Console} (hl : l.shouldExit = false)
    (hkeepalive : keepaliveStep e t l c = .ok l₁ c₁) (hl₁ : l₁.shouldExit = false)
    (hselect : selectStep e bufferSize t l₁ c₁ = .ok none c₂) (rest : List Turn) :
    redPillLoop e bufferSize (t :: rest) l c = .ok none c₂ := by
  unfold redPillLoop
  rw [if_neg (by rw [hl]; decide), bind_ok hkeepalive, if_neg (by rw [hl₁]; decide), bind_ok hselect]
  rfl

theorem redPillLoop_exit {l : Loop} (hl : l.shouldExit = true) (turns : List Turn) (c : Console) :
    redPillLoop e bufferSize turns l c = .ok (some l) c := by
  cases turns with
  | nil =>
    unfold redPillLoop
    rw [if_pos hl]
    rfl
  | cons t rest =>
    unfold redPillLoop
    rw [if_pos hl]
    rfl

/-- The keepalive of the turn gives up. -/
theorem redPillLoop_cons_exit {t : Turn} {l l₁ : Loop} {c c₁ : Console} (hl : l.shouldExit = false)
    (hkeepalive : keepaliveStep e t l c = .ok l₁ c₁) (hl₁ : l₁.shouldExit = true) (rest : List Turn) :
    redPillLoop e bufferSize (t :: rest) l c = .ok (some l₁) c₁ := by
  conv_lhs => unfold redPillLoop
  rw [if_neg (by rw [hl]; decide), bind_ok hkeepalive, if_pos hl₁]
  exact redPillLoop_exit hl₁ rest c₁

theorem redPillLoop_nil {l : Loop} (hl : l.shouldExit = false) (c : Console) :
    redPillLoop e bufferSize [] l c = .error (.unfinished l) c := by
  unfold redPillLoop
  rw [if_neg (by rw [hl]; decide)]
  rfl

/-- What the loop does with a turn: it has ended before, the keepalive gives up, `select` fails, or it goes on. -/
inductive LoopTurn (e : Env) (bufferSize : Nat) (t : Turn) (l : Loop) (c : Console) : Prop where
  | ended (hl : l.shouldExit = true)
  | exits {l₁ : Loop} {c₁ : Console} (hl : l.shouldExit = false) (hkeepalive : keepaliveStep e t l c = .ok l₁ c₁)
      (hl₁ : l₁.shouldExit = true)
  | fails {l₁ : Loop} {c₁ c₂ : Console} (hl : l.shouldExit = false)
      (hkeepalive : keepaliveStep e t l c = .ok l₁ c₁) (hl₁ : l₁.shouldExit = false)
      (hselect : selectStep e bufferSize t l₁ c₁ = .ok none c₂)
  | goesOn {l₁ l₂ : Loop} {c₁ c₂ : Console} (hl : l.shouldExit = false)
      (hkeepalive : keepaliveStep e t l c = .ok l₁ c₁) (hl₁ : l₁.shouldExit = false)
      (hselect : selectStep e bufferSize t l₁ c₁ = .ok (some l₂) c₂)

theorem loopTurn (e : Env) (bufferSize : Nat) (t : Turn) (l : Loop) (c : Console) : LoopTurn e bufferSize t l c := by
  cases hl : l.shouldExit with
  | true => exact .ended hl
  | false =>
    obtain ⟨l₁, c₁, hkeepalive, -⟩ := quiet_keepaliveStep e t l c
    cases hl₁ : l₁.shouldExit with
    | true => exact .exits hl hkeepalive hl₁
    | false =>
      obtain ⟨r, c₂, hselect, -⟩ := turned_selectStep e bufferSize t l₁ c₁
      cases r with
      | none => exact .fails hl hkeepalive hl₁ hselect
      | some l₂ => exact .goesOn hl hkeepalive hl₁ hselect

/-- **A run without bad turns.** What the keepalives keep, and `select` in all turns that are not bad, holds
behind the loop, unless the loop calls `select` in a bad turn. -/
theorem redPillLoop_avoids (n : Nat) {I : Console → Prop} {P : Option Loop → Prop}
    {B : Turn → Prop}
    (hkeepalive : ∀ t l c, I c → Returns (keepaliveStep e t l) c fun _ c' => I c')
    (hselect : ∀ t l c, ¬ B t → I c → Returns (selectStep e n t l) c fun r c' => I c' ∧ P r)
    (hP : ∀ l, P (some l)) (turns : List Turn) : ∀ l c, I c →
      (∀ pre t post, turns = pre ++ t :: post → B t → ¬ CallsSelect e n l c pre t) →
        Triple I (fun c' => c' = c) (redPillLoop e n turns l) fun r c' => I c' ∧ P r := by
  induction turns with
  | nil =>
    intro l c hI _ c' hc
    rw [hc]
    cases hl : l.shouldExit with
    | true =>
      rw [redPillLoop_exit hl]
      exact ⟨hI, hP l⟩
    | false =>
      rw [redPillLoop_nil hl]
      exact hI
  | cons t rest ih =>
    intro l c hI hgood c' hc
    rw [hc]
    cases loopTurn e n t l c with
    | ended hl =>
      rw [redPillLoop_exit hl]
      exact ⟨hI, hP l⟩
    | @exits l₁ c₁ hl hrun₁ hl₁ =>
      rw [redPillLoop_cons_exit hl hrun₁ hl₁]
      exact ⟨(hkeepalive t l c hI).of_ok hrun₁, hP l₁⟩
    | @fails l₁ c₁ c₂ hl hrun₁ hl₁ hrun₂ =>
      have hcalls : CallsSelect e n l c [] t := ⟨l, c, l₁, c₁, redPillLoop_nil hl c, hrun₁, hl₁⟩
      have hnot : ¬ B t := fun hbad => hgood [] t rest rfl hbad hcalls
      rw [redPillLoop_cons_none hl hrun₁ hl₁ hrun₂]
      exact (hselect t l₁ c₁ hnot ((hkeepalive t l c hI).of_ok hrun₁)).of_ok hrun₂
    | @goesOn l₁ l₂ c₁ c₂ hl hrun₁ hl₁ hrun₂ =>
      have hcalls : CallsSelect e n l c [] t := ⟨l, c, l₁, c₁, redPillLoop_nil hl c, hrun₁, hl₁⟩
      have hnot : ¬ B t := fun hbad => hgood [] t rest rfl hbad hcalls
      have hI₂ := ((hselect t l₁ c₁ hnot ((hkeepalive t l c hI).of_ok hrun₁)).of_ok hrun₂).1
      rw [redPillLoop_cons hl hrun₁ hl₁ hrun₂]
      refine ih l₂ c₂ hI₂ (fun pre t' post hrest hbad hcalls' => ?_) c₂ rfl
      obtain ⟨l₃, c₃, l₄, c₄, hpre, hlater⟩ := hcalls'
      apply hgood (t :: pre) t' post (by rw [hrest, List.cons_append]) hbad
      exact ⟨l₃, c₃, l₄, c₄, (redPillLoop_cons hl hrun₁ hl₁ hrun₂ pre).trans hpre, hlater⟩

/-- What all turns keep holds behind the loop. -/
theorem redPillLoop_keeps (bufferSize : Nat) {I : Console → Prop} (hI : ∀ c c', Console.Turned c c' → I c → I c')
    (turns : List Turn) (l : Loop) : Keeps I (redPillLoop e bufferSize turns l) := by
  intro c hc
  have hloop := redPillLoop_avoids bufferSize (e := e) (I := I) (P := fun _ => True) (B := fun _ => False)
    (fun t l c hc => ?_) (fun t l c _ hc => ?_) (fun _ => trivial) turns l c hc fun _ _ _ _ hbad => hbad.elim
  · exact hloop.ends (fun _ h => h) (fun _ _ h => h.1) rfl
  · exact (quiet_keepaliveStep e t l c).mono fun _ c' h => hI c c' h.turned hc
  · exact (turned_selectStep e bufferSize t l c).mono fun _ c' h => ⟨hI c c' h hc, trivial⟩

/-- The loop goes on from where its first turns have left it. -/
theorem redPillLoop_append {pre : List Turn} : ∀ {l l₁ : Loop} {c c₁ : Console},
    redPillLoop e bufferSize pre l c = .error (.unfinished l₁) c₁ → l₁.shouldExit = false ∧
      ∀ rest, redPillLoop e bufferSize (pre ++ rest) l c = redPillLoop e bufferSize rest l₁ c₁ := by
  induction pre with
  | nil =>
    intro l l₁ c c₁ hpre
    cases hl : l.shouldExit with
    | true =>
      rw [redPillLoop_exit hl] at hpre
      cases hpre
    | false =>
      rw [redPillLoop_nil hl] at hpre
      cases hpre
      exact ⟨hl, fun _ => rfl⟩
  | cons t pre ih =>
    intro l l₁ c c₁ hpre
    cases loopTurn e bufferSize t l c with
    | ended hl =>
      rw [redPillLoop_exit hl] at hpre
      cases hpre
    | exits hl hkeepalive hl₂ =>
      rw [redPillLoop_cons_exit hl hkeepalive hl₂] at hpre
      cases hpre
    | fails hl hkeepalive hl₂ hselect =>
      rw [redPillLoop_cons_none hl hkeepalive hl₂ hselect] at hpre
      cases hpre
    | goesOn hl hkeepalive hl₂ hselect =>
      rw [redPillLoop_cons hl hkeepalive hl₂ hselect] at hpre
      obtain ⟨hl₁, hrest⟩ := ih hpre
      exact ⟨hl₁, fun rest => (redPillLoop_cons hl hkeepalive hl₂ hselect (pre ++ rest)).trans (hrest rest)⟩

/-- The console before the loop. -/
def Console.entered (e : Env) (now : Int) (c : Console) : Console :=
  { c with startKeepalive := now, inRawMode := e.isatty || c.inRawMode }

theorem ipmiSolRedPill_loop (inst : Int) (maxInboundPayloadSize : Nat) (now : Int) (turns : List Turn)
    (c : Console) : ipmiSolRedPill e inst maxInboundPayloadSize true now turns c =
      (redPillLoop e (bufferSizeOf maxInboundPayloadSize) turns .start >>= afterLoop e inst)
        (c.entered e now) := by
  have hraw : enterRawMode e { c with startKeepalive := now } = .ok ⟨⟩ (c.entered e now) := by
    unfold enterRawMode Console.entered
    cases e.isatty with
    | false => rfl
    | true => rfl
  exact bind_ok hraw

theorem ipmiSolRedPill_malloc (inst : Int) (maxInboundPayloadSize : Nat) (now : Int) (turns : List Turn)
    (c : Console) : ipmiSolRedPill e inst maxInboundPayloadSize false now turns c =
      .ok (-1) { c with messages := c.messages ++ ["ipmitool: malloc failure"] } := rfl

end turn

end KTools.Sol
