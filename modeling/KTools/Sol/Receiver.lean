import KTools.Sol.Frame

/-!
# The console as a receiver

What the main loop and the Get Device ID keepalive do with the packets they poll, as a fold over the results of
polling. A response is taken (acknowledged, trimmed and written), or it is dropped: the keepalive drops those
with the completion code "duplicate request" and its own response. Both receive paths take a packet in the same
way.
-/

namespace KTools.Sol
open KTools.Lanplus KTools.Lib KTools.Lib.Bytes

/-- The part of the console that receiving is about. -/
structure Receiver where
  lastReceivedSequenceNumber : UInt8
  lastReceivedByteCount : UInt8
  polled : Nat
  received : List (Nat × List UInt8)
  written : List (Nat × UInt8)
  sent : List SolRequest

def Console.receiver (c : Console) : Receiver where
  lastReceivedSequenceNumber := c.lastReceivedSequenceNumber
  lastReceivedByteCount := c.lastReceivedByteCount
  polled := c.polled
  received := c.received
  written := c.written
  sent := c.sent

/-- A result of polling, and whether the response is taken. -/
structure Heard where
  response : Option Rs
  taken : Bool

namespace Receiver

/-- The characters that the packet taken before has not brought. -/
def newChars (r : Receiver) (rsp : Rs) : List UInt8 :=
  if rsp.isSolPacket = true ∧ rsp.solPacket.packetSequenceNumber = r.lastReceivedSequenceNumber then
    (rsp.trim r.lastReceivedByteCount).chars
  else rsp.chars

/-- The response is taken. -/
def take (e : Env) (r : Receiver) (rsp : Rs) : Receiver where
  lastReceivedSequenceNumber :=
    if rsp.isNumbered then rsp.solPacket.packetSequenceNumber else r.lastReceivedSequenceNumber
  lastReceivedByteCount := if rsp.isNumbered then UInt8.ofInt rsp.dataLen else r.lastReceivedByteCount
  polled := r.polled + 1
  received := r.received ++ if rsp.isNumbered then [(r.polled, r.newChars rsp)] else []
  written := r.written ++ if rsp.isSolPacket then (r.newChars rsp).map fun ch => (r.polled, ch) else []
  sent := r.sent ++ if rsp.isNumbered = true ∧ e.retry ≠ 0 then [(ackOf rsp).request] else []

theorem take_written (e : Env) (r : Receiver) (rsp : Rs) : (r.take e rsp).written =
    r.written ++ if rsp.isSolPacket then (r.newChars rsp).map fun ch => (r.polled, ch) else [] := rfl

/-- Nothing happens with the result. -/
def drop (r : Receiver) : Receiver := { r with polled := r.polled + 1 }

def hear (e : Env) (r : Receiver) (h : Heard) : Receiver :=
  h.response.elim r.drop fun rsp => if h.taken then r.take e rsp else r.drop

end Receiver

/-- From `c` to `c'` the console has polled `hs`. -/
structure Plays (e : Env) (c : Console) (hs : List Heard) (c' : Console) : Prop where
  polls : c.polls = hs.map Heard.response ++ c'.polls
  receiver : c'.receiver = hs.foldl (Receiver.hear e) c.receiver

theorem Plays.trans {e : Env} {c c' c'' : Console} {hs hs' : List Heard} (h : Plays e c hs c')
    (h' : Plays e c' hs' c'') : Plays e c (hs ++ hs') c'' := by
  constructor
  · rw [h.polls, h'.polls, List.map_append, List.append_assoc]
  · rw [h'.receiver, h.receiver, List.foldl_append]

/-- The console has come from `c` to `c'` by what it polled. -/
def Went (e : Env) (c c' : Console) : Prop := ∃ hs, Plays e c hs c'

/-- Nothing of it was receiving. -/
theorem went_of_eq {e : Env} {c c' : Console} (hpolls : c'.polls = c.polls) (hreceiver : c'.receiver = c.receiver) :
    Went e c c' := ⟨[], hpolls.symm, hreceiver⟩

instance (e : Env) : IsPreorder Console (Went e) where
  refl c := went_of_eq rfl rfl
  trans c c' c'' h h' := by
    obtain ⟨hs, hplays⟩ := h
    obtain ⟨hs', hplays'⟩ := h'
    exact ⟨hs ++ hs', hplays.trans hplays'⟩

/-- The console has polled `rsp`, and nothing has happened with it yet. -/
structure Pending (e : Env) (c : Console) (rsp : Rs) (c' : Console) : Prop where
  before : ∃ c₀ rsp₀, Went e c c₀ ∧ c₀.polls = some rsp₀ :: c'.polls ∧ c'.receiver = c₀.receiver.drop ∧
    rsp = { rsp₀ with number := c₀.polled }

section pending
variable {e : Env} {c c' c'' : Console} {rsp : Rs}

theorem Pending.of_went (hwent : Went e c c') (h : Pending e c' rsp c'') : Pending e c rsp c'' := by
  obtain ⟨c₀, rsp₀, hbefore, hrest⟩ := h.before
  exact ⟨c₀, rsp₀, trans_of _ hwent hbefore, hrest⟩

/-- The response is dropped. -/
theorem Pending.skip (h : Pending e c rsp c') : Went e c c' := by
  obtain ⟨c₀, rsp₀, hbefore, hpolls, hreceiver, -⟩ := h.before
  exact trans_of _ hbefore ⟨[⟨some rsp₀, false⟩], hpolls, hreceiver⟩

/-- The response is taken and written. -/
theorem Pending.take (h : Pending e c rsp c') :
    Returns (takeSolPacket e rsp >>= output) c' fun _ c'' => Went e c c'' := by
  obtain ⟨c₀, rsp₀, hbefore, hpolls, hreceiver, rfl⟩ := h.before
  obtain ⟨c₁, hrun, htaken⟩ := takeSolPacket_run e { rsp₀ with number := c₀.polled } c'
  have hlast : c'.lastReceivedSequenceNumber = c₀.lastReceivedSequenceNumber :=
    congrArg Receiver.lastReceivedSequenceNumber hreceiver
  have hcount : c'.lastReceivedByteCount = c₀.lastReceivedByteCount :=
    congrArg Receiver.lastReceivedByteCount hreceiver
  have hwritten : c'.written = c₀.written := congrArg Receiver.written hreceiver
  have hreceived : c'.received = c₀.received := congrArg Receiver.received hreceiver
  have hsent : c'.sent = c₀.sent := congrArg Receiver.sent hreceiver
  have hpolled : c'.polled = c₀.polled + 1 := congrArg Receiver.polled hreceiver
  have hchars : (c'.trimmed { rsp₀ with number := c₀.polled }).chars = c₀.receiver.newChars rsp₀ := by
    unfold Console.trimmed Receiver.newChars
    rw [hlast, hcount, apply_ite Rs.chars]
    rfl
  -- the console behind `recv_sol`, up to the log
  have hreceiver₁ : { c₁.receiver with written := c₀.written } =
      { c₀.receiver.take e rsp₀ with written := c₀.written } := by
    unfold Console.receiver Receiver.take
    simp only [htaken.lastReceivedSequenceNumber, htaken.lastReceivedByteCount, htaken.polled, htaken.received,
      htaken.sent, hchars, hlast, hcount, hpolled, hreceived, hsent]
    rfl
  have hwent (c'' : Console) (hpolls'' : c''.polls = c'.polls)
      (hsame : c''.receiver = { c₁.receiver with written := c''.written })
      (hlog : c''.written = (c₀.receiver.take e rsp₀).written) : Went e c c'' := by
    refine trans_of _ hbefore ⟨[⟨some rsp₀, true⟩], by rw [hpolls'']; exact hpolls, ?_⟩
    rw [hsame, hlog]
    exact congrArg (fun r : Receiver => { r with written := (c₀.receiver.take e rsp₀).written }) hreceiver₁
  have hkind : ({ rsp₀ with number := c₀.polled } : Rs).isSolPacket = rsp₀.isSolPacket := rfl
  unfold Returns
  rw [bind_ok hrun]
  unfold output
  rw [trimmed_isSolPacket, trimmed_number, hchars, hkind]
  cases hsol : rsp₀.isSolPacket with
  | true =>
    rw [if_pos rfl]
    refine ⟨_, _, rfl, hwent _ htaken.polls rfl ?_⟩
    rw [Receiver.take_written, hsol, if_pos rfl]
    show c₁.written ++ _ = _
    rw [htaken.written, hwritten]
    rfl
  | false =>
    rw [if_neg (by decide)]
    refine ⟨_, c₁, rfl, hwent _ htaken.polls rfl ?_⟩
    rw [Receiver.take_written, hsol, if_neg (by decide), List.append_nil, htaken.written, hwritten]
    rfl

end pending

/-! ### The functions that receive -/

section functions
variable (e : Env)

theorem went_output {rsp : Rs} (h : rsp.isSolPacket = false) : Moves (Went e) (output rsp) := by
  unfold output
  rw [if_neg (by rw [h]; decide)]
  exact .pure _

/-- What a function that polls gives: a response that is pending, or none. -/
def Gives (c : Console) (rsp : Option Rs) (c' : Console) : Prop := rsp.elim (Went e c c') fun rsp => Pending e c rsp c'

theorem Gives.of_went {c c' c'' : Console} {rsp : Option Rs} (hwent : Went e c c') (h : Gives e c' rsp c'') :
    Gives e c rsp c'' := by
  cases rsp with
  | none => exact trans_of (Went e) hwent h
  | some rsp => exact Pending.of_went hwent h

theorem gives_pollRecv (c : Console) : Returns pollRecv c (Gives e c) := by
  unfold pollRecv
  apply Returns.get_bind
  cases hpolls : c.polls with
  | nil => exact .pure (refl_of (Went e) c)
  | cons rsp rest =>
    cases rsp with
    | none => exact ⟨_, _, rfl, [⟨none, false⟩], hpolls, rfl⟩
    | some rsp => exact ⟨_, _, rfl, c, rsp, refl_of _ c, hpolls, rfl, rfl⟩

theorem gives_pollReply (n : Nat) : ∀ c, Returns (pollReply n) c (Gives e c) := by
  induction n with
  | zero => exact fun c => .pure (refl_of (Went e) c)
  | succ n ih =>
    intro c
    apply (gives_pollRecv e c).bind
    intro rsp c₁ hgives
    cases rsp with
    | none => exact .pure hgives
    | some rsp =>
      apply Returns.ite
      · intro _
        exact (ih c₁).mono fun _ _ h => h.of_went e (Pending.skip hgives)
      · exact fun _ => .pure hgives

theorem went_nextAttempt : Moves (Went e) nextAttempt := by
  intro c
  unfold nextAttempt
  apply Returns.get_bind
  cases c.attempts with
  | nil => exact .pure (refl_of _ c)
  | cons a rest => exact ⟨_, _, rfl, went_of_eq rfl rfl⟩

theorem gives_sendrecvTurns (n : Nat) : ∀ xmit c, Returns (sendrecvTurns e n xmit) c (Gives e c) := by
  induction n with
  | zero => exact fun _ c => .pure (refl_of (Went e) c)
  | succ n ih =>
    intro xmit c
    apply (went_nextAttempt e c).bind
    intro a c₁ hwent
    refine .ite (fun _ => .pure hwent) fun _ => .ite (fun _ => .pure hwent) fun _ => .get_bind ?_
    apply (gives_pollReply e c₁.polls.length c₁).bind
    intro rsp c₂ hgives
    cases rsp with
    | some rsp => exact .pure (Pending.of_went hwent hgives)
    | none => exact (ih a.timeUp c₂).mono fun _ _ h => h.of_went e (trans_of (Went e) hwent hgives)

theorem went_keepaliveLoop (n : Nat) : ∀ rsp c c', Pending e c rsp c' →
    Returns (keepaliveLoop e n rsp) c' fun _ c'' => Went e c c'' := by
  induction n with
  | zero => exact fun rsp c c' h => .pure h.skip
  | succ n ih =>
    intro rsp c c' h
    refine .ite (fun _ => ?_) fun _ => .pure h.skip
    simp only [outputNew_eq_output]
    show Returns (takeSolPacket e rsp >>= fun rsp => output rsp >>= fun _ => pollRecv >>= _) c' _
    rw [← bind_assoc]
    apply h.take.bind
    intro _ c₁ hwent
    apply (gives_pollRecv e c₁).bind
    intro next c₂ hgives
    cases next with
    | none => exact .pure (trans_of (Went e) hwent hgives)
    | some next => exact ih next c c₂ (Pending.of_went hwent hgives)

/-- The keepalive. -/
theorem went_keepalive : Moves (Went e) (keepalive e) := by
  apply Moves.ite (.pure _)
  intro c
  apply (gives_sendrecvTurns e e.retry true c).bind
  intro rsp c₁ hgives
  cases rsp with
  | none => exact .pure hgives
  | some rsp => exact .get_bind (went_keepaliveLoop e _ rsp c c₁ hgives)

/-- The main loop, when the socket is ready. -/
theorem went_readBmc (l : Loop) : Moves (Went e) (readBmc e l) := by
  intro c
  obtain ⟨rsp, c₁, hpoll, hgives⟩ := gives_pollRecv e c
  cases rsp with
  | none =>
    have hrecv : recvSol e c = .ok none c₁ := bind_ok hpoll
    exact ⟨_, c₁, bind_ok hrecv, hgives⟩
  | some rsp =>
    change Pending e c rsp c₁ at hgives
    by_cases hauth : rsp.authtype ≠ 0
    · obtain ⟨c₂, htake, -⟩ := takeSolPacket_run e rsp c₁
      obtain ⟨_, c₃, hout, hwent⟩ := hgives.take
      rw [bind_ok htake] at hout
      have hrecv : recvSol e c = .ok (some (c₁.trimmed rsp)) c₂ := by
        refine (bind_ok hpoll).trans ?_
        dsimp only
        rw [if_pos hauth, bind_ok htake]
        rfl
      exact ⟨_, c₃, (bind_ok hrecv).trans (bind_ok hout), hwent⟩
    · have hrecv : recvSol e c = .ok (some rsp) c₁ := by
        refine (bind_ok hpoll).trans ?_
        dsimp only
        rw [if_neg hauth]
        rfl
      have hnot : rsp.isSolPacket = false := by
        unfold Rs.isSolPacket
        rw [not_not.1 hauth]
        rfl
      obtain ⟨_, c₂, hout, hwent⟩ := went_output e hnot c₁
      exact ⟨_, c₂, (bind_ok hrecv).trans (bind_ok hout), trans_of _ hgives.skip hwent⟩

end functions

/-! ### Which packets are handled -/

/-- The response is noted as received, and acknowledged unless nothing is sent at all. -/
structure Receiver.Handles (e : Env) (rsp : Rs) (r : Receiver) : Prop where
  noted : ∃ chars, (rsp.number, chars) ∈ r.received
  acknowledged : e.retry ≠ 0 → (ackOf rsp).request ∈ r.sent

section handled
variable {e : Env} {rsp : Rs}

theorem Receiver.Handles.hear {r : Receiver} (h : r.Handles e rsp) (next : Heard) : (r.hear e next).Handles e rsp := by
  obtain ⟨⟨chars, hnoted⟩, hack⟩ := h
  obtain ⟨response, taken⟩ := next
  cases response with
  | none => exact ⟨⟨chars, hnoted⟩, hack⟩
  | some response =>
    cases taken with
    | false => exact ⟨⟨chars, hnoted⟩, hack⟩
    | true => exact ⟨⟨chars, List.mem_append_left _ hnoted⟩, fun hretry => List.mem_append_left _ (hack hretry)⟩

/-- What has been handled stays so. -/
theorem Went.handles {c c' : Console} (hwent : Went e c c') (h : c.receiver.Handles e rsp) :
    c'.receiver.Handles e rsp := by
  obtain ⟨hs, hplays⟩ := hwent
  rw [hplays.receiver]
  exact List.foldlRecOn hs (Receiver.hear e) h fun r hr next _ => hr.hear next

theorem takeSolPacket_handles (hnumbered : rsp.isNumbered = true) (c : Console) :
    Returns (takeSolPacket e rsp) c fun _ c' => c'.receiver.Handles e rsp := by
  obtain ⟨c', hrun, htaken⟩ := takeSolPacket_run e rsp c
  refine ⟨_, c', hrun, ⟨(c.trimmed rsp).chars, ?_⟩, fun hretry => ?_⟩
  · show _ ∈ c'.received
    rw [htaken.received, if_pos hnumbered]
    exact List.mem_append_right _ List.mem_cons_self
  · show _ ∈ c'.sent
    rw [htaken.sent, if_pos ⟨hnumbered, hretry⟩]
    exact List.mem_append_right _ List.mem_cons_self

theorem output_handles {other : Rs} {c : Console} (h : c.receiver.Handles e rsp) :
    Returns (output other) c fun _ c' => c'.receiver.Handles e rsp :=
  .ite (fun _ => ⟨⟨⟩, _, rfl, ⟨h.noted, h.acknowledged⟩⟩) fun _ => .pure h

/-- **Every numbered packet that `recv_sol` polls** is handled. -/
theorem recvSol_handles {c : Console} {rest : List (Option Rs)} (hpolls : c.polls = some rsp :: rest)
    (hnumbered : rsp.isNumbered = true) :
    Returns (recvSol e) c fun _ c' => c'.receiver.Handles e { rsp with number := c.polled } := by
  have hauth : rsp.authtype ≠ 0 := by
    intro hzero
    unfold Rs.isNumbered Rs.isSolPacket at hnumbered
    rw [hzero] at hnumbered
    cases hnumbered
  have hpoll : pollRecv c = .ok (some { rsp with number := c.polled })
      { c with polls := rest, polled := c.polled + 1 } := by
    unfold pollRecv
    rw [get_bind_apply, hpolls]
    rfl
  have htakes : ∀ c', Returns (takeSolPacket e { rsp with number := c.polled }) c' _ := takeSolPacket_handles hnumbered
  obtain ⟨taken, c', htake, hhandles⟩ := htakes { c with polls := rest, polled := c.polled + 1 }
  refine ⟨some taken, c', ?_, hhandles⟩
  refine (bind_ok hpoll).trans ?_
  dsimp only
  rw [if_pos hauth, bind_ok htake]
  rfl

/-- **Every numbered packet that comes to the loop of the keepalive** is handled. -/
theorem keepaliveLoop_handles (hnumbered : rsp.isNumbered = true) (n : Nat) (c : Console) :
    Returns (keepaliveLoop e (n + 1) rsp) c fun _ c' => c'.receiver.Handles e rsp := by
  have hsol : rsp.isSolPacket = true := (Bool.and_eq_true_iff.1 hnumbered).1
  refine .ite (fun _ => ?_) fun hnot => absurd hsol hnot
  simp only [outputNew_eq_output]
  refine (takeSolPacket_handles hnumbered c).bind fun other c₁ h₁ => (output_handles h₁).bind fun _ c₂ h₂ => ?_
  refine (gives_pollRecv e c₂).bind fun next c₃ hgives => ?_
  cases next with
  | none => exact .pure (Went.handles hgives h₂)
  | some next => exact (went_keepaliveLoop e n next c₂ c₃ hgives).mono fun _ _ hwent => hwent.handles h₂

/-- The main loop, when the socket is ready. -/
theorem readBmc_handles (l : Loop) {c : Console} {rest : List (Option Rs)} (hpolls : c.polls = some rsp :: rest)
    (hnumbered : rsp.isNumbered = true) :
    Returns (readBmc e l) c fun _ c' => c'.receiver.Handles e { rsp with number := c.polled } := by
  refine (recvSol_handles hpolls hnumbered).bind fun response c₁ h₁ => ?_
  cases response with
  | none => exact .pure h₁
  | some response => exact (output_handles h₁).bind fun _ _ h₂ => .pure h₂

end handled

end KTools.Sol
