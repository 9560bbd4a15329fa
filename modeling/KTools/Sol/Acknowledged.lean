import KTools.Sol.Frame

/-!
# Characters that arrive while SOL packets are sent

While `send_sol` waits for the acknowledgement of its packet, the BMC goes on to send console characters, also
in its acknowledgements, and `recv_sol` acknowledges them: the BMC will not send them again. `send_payload`
writes those of a packet that does not answer, the resend loop those of a partial acknowledgement, and the
response that concludes the sending is left to the caller. Of the three callers only `processSolUserInput`
writes it, and only while the user does not leave the session.
-/

namespace KTools.Sol
open KTools.Lanplus KTools.Lib

/-- The bytes of a response in the log. -/
def Console.writtenOf (c : Console) (n : Nat) : List UInt8 := (c.written.filter fun w => w.1 == n).map Prod.snd

/-- **No acknowledged character is lost or written twice**: the bytes that the log has of an acknowledged
packet are its new characters. -/
def Console.Accounted (c : Console) : Prop := ∀ x ∈ c.received, c.writtenOf x.1 = x.2

/-- A caller of `send_sol`. -/
inductive Call where
  | sendBreak
  | keepalive (now later : Int)
  | input (x : Input)

def Call.run (e : Env) : Call → SolM PUnit
  | sendBreak => Sol.sendBreak e
  | keepalive now later => do
    let _ ← ipmiSolKeepaliveUsingSol e now later
  | input x => do
    let _ ← sendInput e x

/-- A call in any state of the session; the notes begin with it. -/
structure Sending where
  env : Env
  console : Console
  call : Call
  received_nil : console.received = []
  written_nil : console.written = []

def Sending.final (x : Sending) : Console := finalState (x.call.run x.env) x.console

/-! ### The response that concludes the sending -/

/-- A turn of `send_payload` receives `rsp`. -/
structure Receives (e : Env) (p : SolPayload) (xmit : Bool) (c : Console) (a : Attempt) (rsp : Rs) (c' : Console) :
    Prop where
  begins : ∃ c₁, beginTurn p xmit c = .ok a c₁ ∧ recvSol e c₁ = .ok (some rsp) c'
  sent : (xmit && !a.sendOk) = false
  answers : e.noanswer = false
  numbered : p.packetSequenceNumber ≠ 0

/-- In the turns of `send_payload` that are left, the packet is answered by `rsp`; before it come packets
without an answer and without characters. -/
inductive Answers (e : Env) (p : SolPayload) : Nat → Bool → Console → Rs → Console → Prop where
  | reply {n : Nat} {xmit : Bool} {c c' : Console} {a : Attempt} {rsp : Rs}
      (hreceives : Receives e p xmit c a rsp c') (hacks : rsp.acksPacket p = true) :
      Answers e p (n + 1) xmit c rsp c'
  | later {n : Nat} {xmit : Bool} {c c₁ c' : Console} {a : Attempt} {rsp rsp' : Rs}
      (hreceives : Receives e p xmit c a rsp c₁) (hsol : rsp.isSolPacket = true)
      (hother : rsp.acksPacket p = false) (hempty : rsp.dataLen = 0)
      (hlater : Answers e p n a.timeUp c₁ rsp' c') : Answers e p (n + 1) xmit c rsp' c'

/-- The sending of the packet and of its resends is concluded by `rsp`, which asks for no resend. -/
inductive Concludes (e : Env) : SolPayload → Console → Rs → Prop where
  | reply {p : SolPayload} {c c' : Console} {rsp : Rs} (hanswer : Answers e p e.retry true c rsp c')
      (hdone : resends e p rsp = false) : Concludes e p c rsp
  | resend {p p₂ : SolPayload} {c c₁ c₂ : Console} {rsp rsp' : Rs} (hanswer : Answers e p e.retry true c rsp c₁)
      (hmore : resends e p rsp = true) (hprepare : prepareResend e p rsp c₁ = .ok p₂ c₂)
      (hrest : Concludes e p₂ c₂ rsp') : Concludes e p c rsp'

/-- The same for a call of `send_sol`. -/
def SendConcludes (e : Env) (p : SolPayload) (c : Console) (rsp : Rs) : Prop :=
  ∃ p₁ c₁, setSolPacketSequenceNumber { p with ackedPacketNumber := 0, acceptedCharacterCount := 0 } c =
    .ok p₁ c₁ ∧ Concludes e p₁ c₁ rsp

/-- The same for the tries of `processSolUserInput` that are left. -/
inductive TriesConclude (e : Env) (length : Nat) : Nat → SolPayload → Console → Rs → Prop where
  | reply {n : Nat} {p : SolPayload} {c : Console} {rsp : Rs}
      (hconcludes : SendConcludes e { p with characterCount := length } c rsp) :
      TriesConclude e length (n + 1) p c rsp
  | again {n : Nat} {p p₁ : SolPayload} {c c₁ : Console} {rsp : Rs}
      (hfails : sendSol e { p with characterCount := length } c = .ok (none, p₁) c₁)
      (hrest : TriesConclude e length n p₁ c₁ rsp) : TriesConclude e length (n + 1) p c rsp

/-- `rsp` concludes a sending, and the caller does not write it. -/
def Call.Leaves (e : Env) (c : Console) : Call → Rs → Prop
  | sendBreak, rsp => SendConcludes e { SolPayload.zero with generateBreak := true } c rsp
  | keepalive now _, rsp => e.disableKeepalive = false ∧ now - c.startKeepalive > solKeepaliveTimeout ∧
      SendConcludes e SolPayload.zero c rsp
  | input x, rsp => x.retval ≠ 0 ∧
      TriesConclude e x.data.length e.retry { SolPayload.zero with data := x.data } c rsp

/-! ### What is still to be written -/

/-- The characters of packet `n` that a response still has. -/
def owed (r : Option Rs) (n : Nat) : List UInt8 :=
  r.elim [] fun rsp => if rsp.isNumbered = true ∧ rsp.number = n then rsp.chars else []

/-- Of the acknowledged characters, those of `r` are still to be written, and no others. -/
structure Owes (r : Option Rs) (c : Console) : Prop where
  received : ∀ x ∈ c.received, x.1 < c.polled
  written : ∀ w ∈ c.written, w.1 < c.polled
  accounts : ∀ x ∈ c.received, x.2 = c.writtenOf x.1 ++ owed r x.1
  polled : ∀ rsp ∈ r, rsp.number < c.polled
  numbered : ∀ rsp ∈ r, rsp.isNumbered = true → ∃ x ∈ c.received, x.1 = rsp.number
  unnumbered : ∀ rsp ∈ r, rsp.isNumbered = false → ∀ x ∈ c.received, x.1 ≠ rsp.number

/-- No response is left to be written. -/
theorem owes_none {c : Console} (hreceived : ∀ x ∈ c.received, x.1 < c.polled)
    (hwritten : ∀ w ∈ c.written, w.1 < c.polled) (haccounts : ∀ x ∈ c.received, x.2 = c.writtenOf x.1) :
    Owes none c where
  received := hreceived
  written := hwritten
  accounts := fun x hx => (haccounts x hx).trans (List.append_nil _).symm
  polled := fun _ h => absurd h (Option.not_mem_none _)
  numbered := fun _ h => absurd h (Option.not_mem_none _)
  unnumbered := fun _ h => absurd h (Option.not_mem_none _)

/-- The log and the packets received are the same. -/
structure Console.SameLog (c c' : Console) : Prop where
  polled : c'.polled = c.polled
  received : c'.received = c.received
  written : c'.written = c.written

instance : IsPreorder Console Console.SameLog where
  refl _ := ⟨rfl, rfl, rfl⟩
  trans _ _ _ h h' := ⟨h'.polled.trans h.polled, h'.received.trans h.received, h'.written.trans h.written⟩

theorem Owes.same {r : Option Rs} {c c' : Console} (h : Owes r c) (hsame : Console.SameLog c c') : Owes r c' := by
  obtain ⟨hpolled, hreceived, hwritten⟩ := hsame
  have hof : c'.writtenOf = c.writtenOf := by
    funext n
    unfold Console.writtenOf
    rw [hwritten]
  constructor
  · rw [hreceived, hpolled]
    exact h.received
  · rw [hwritten, hpolled]
    exact h.written
  · rw [hreceived, hof]
    exact h.accounts
  · rw [hpolled]
    exact h.polled
  · rw [hreceived]
    exact h.numbered
  · rw [hreceived]
    exact h.unnumbered

theorem writtenOf_append (c : Console) (l : List (Nat × UInt8)) (n : Nat) :
    ({ c with written := c.written ++ l } : Console).writtenOf n =
      c.writtenOf n ++ (l.filter fun w => w.1 == n).map Prod.snd := by
  unfold Console.writtenOf
  rw [List.filter_append, List.map_append]

/-- Nothing has been written for a response that is still to come. -/
theorem writtenOf_polled {c : Console} (h : ∀ w ∈ c.written, w.1 < c.polled) : c.writtenOf c.polled = [] := by
  have hnone : (c.written.filter fun w => w.1 == c.polled) = [] := by
    apply List.filter_eq_nil_iff.2
    intro w hw heq
    exact Nat.ne_of_lt (h w hw) (beq_iff_eq.1 heq)
  unfold Console.writtenOf
  rw [hnone, List.map_nil]

/-- A response without new characters needs no writing. -/
theorem Owes.settle {rsp : Rs} {c : Console} (h : Owes (some rsp) c)
    (hnil : rsp.isNumbered = true → rsp.chars = []) : Owes none c := by
  refine owes_none h.received h.written fun x hx => ?_
  have hnone : owed (some rsp) x.1 = [] := by
    show (if rsp.isNumbered = true ∧ rsp.number = x.1 then rsp.chars else []) = []
    split
    · rename_i hn
      exact hnil hn.1
    · rfl
  rw [h.accounts x hx, hnone, List.append_nil]

theorem isNumbered_of_not_isSolPacket {rsp : Rs} (h : rsp.isSolPacket = false) : rsp.isNumbered = false := by
  unfold Rs.isNumbered
  rw [h, Bool.false_and]

/-- A response that was just polled, and acknowledged if it has a number. -/
theorem Owes.fresh {c c' : Console} {rsp : Rs} (h : Owes none c) (hnumber : rsp.number = c.polled)
    (hpolled : c'.polled = c.polled + 1) (hwritten : c'.written = c.written)
    (hreceived : c'.received = c.received ++ if rsp.isNumbered then [(rsp.number, rsp.chars)] else []) :
    Owes (some rsp) c' := by
  have hof : c'.writtenOf = c.writtenOf := by
    funext n
    unfold Console.writtenOf
    rw [hwritten]
  have hold : ∀ x ∈ c.received, x.1 ≠ rsp.number := by
    intro x hx
    have hless := h.received x hx
    omega
  have hmem : ∀ x ∈ c'.received, x ∈ c.received ∨ rsp.isNumbered = true ∧ x = (rsp.number, rsp.chars) := by
    intro x hx
    rw [hreceived] at hx
    rcases List.mem_append.1 hx with hx | hx
    · exact .inl hx
    · by_cases hn : rsp.isNumbered = true
      · rw [if_pos hn] at hx
        exact .inr ⟨hn, List.mem_singleton.1 hx⟩
      · rw [if_neg hn] at hx
        exact absurd hx List.not_mem_nil
  constructor
  case received =>
    intro x hx
    rw [hpolled]
    rcases hmem x hx with hx | ⟨-, rfl⟩
    · have hless := h.received x hx
      omega
    · show rsp.number < c.polled + 1
      omega
  case written =>
    intro w hw
    rw [hwritten] at hw
    have hless := h.written w hw
    omega
  case accounts =>
    intro x hx
    rw [hof]
    rcases hmem x hx with hx | ⟨hn, rfl⟩
    · have hnone : owed (some rsp) x.1 = [] := if_neg fun heq => hold x hx heq.2.symm
      rw [hnone]
      exact h.accounts x hx
    · have howed : owed (some rsp) rsp.number = rsp.chars := if_pos ⟨hn, rfl⟩
      show rsp.chars = c.writtenOf rsp.number ++ owed (some rsp) rsp.number
      rw [howed, hnumber, writtenOf_polled h.written, List.nil_append]
  case polled =>
    rintro _ ⟨⟩
    omega
  case numbered =>
    rintro _ ⟨⟩ hn
    refine ⟨(rsp.number, rsp.chars), ?_, rfl⟩
    rw [hreceived, if_pos hn]
    exact List.mem_append_right _ (List.mem_singleton.2 rfl)
  case unnumbered =>
    rintro _ ⟨⟩ hn x hx
    rcases hmem x hx with hx | ⟨htrue, -⟩
    · exact hold x hx
    · rw [hn] at htrue
      cases htrue

theorem owes_recvSol (e : Env) {c : Console} (h : Owes none c) : Returns (recvSol e) c Owes := by
  unfold recvSol
  cases hpolls : c.polls with
  | nil =>
    exact ⟨none, c, bind_ok (pollRecv_nil hpolls), h⟩
  | cons rsp rest =>
    have hpoll : pollRecv c = .ok (rsp.map fun rsp => { rsp with number := c.polled })
        { c with polls := rest, polled := c.polled + 1 } := by
      unfold pollRecv
      rw [get_bind_apply, hpolls]
      rfl
    cases rsp with
    | none =>
      refine ⟨none, _, bind_ok hpoll, owes_none (fun x hx => ?_) (fun w hw => ?_) fun x hx => ?_⟩
      · exact Nat.lt_succ_of_lt (h.received x hx)
      · exact Nat.lt_succ_of_lt (h.written w hw)
      · exact (h.accounts x hx).trans (List.append_nil _)
    | some rsp =>
      unfold Returns
      rw [bind_ok hpoll]
      dsimp only [Option.map]
      by_cases hauth : rsp.authtype ≠ 0
      · rw [if_pos hauth]
        obtain ⟨c₂, hrun, htaken⟩ := takeSolPacket_run e { rsp with number := c.polled }
          { c with polls := rest, polled := c.polled + 1 }
        refine ⟨_, c₂, bind_ok hrun, h.fresh ?_ htaken.polled htaken.written ?_⟩
        · exact trimmed_number _ _
        · rw [trimmed_isNumbered, trimmed_number]
          exact htaken.received
      · rw [if_neg hauth]
        have hnot : ({ rsp with number := c.polled } : Rs).isNumbered = false := by
          apply isNumbered_of_not_isSolPacket
          unfold Rs.isSolPacket
          rw [not_not.1 hauth]
          rfl
        refine ⟨_, _, rfl, h.fresh rfl rfl rfl ?_⟩
        rw [hnot]
        exact (List.append_nil _).symm

theorem map_filter_chars (number n : Nat) (chars : List UInt8) :
    ((chars.map fun ch => (number, ch)).filter fun w => w.1 == n).map Prod.snd = if number = n then chars else [] := by
  induction chars with
  | nil => split <;> rfl
  | cons ch rest ih =>
    rw [List.map_cons, List.filter_cons]
    by_cases heq : number = n
    · rw [if_pos (beq_iff_eq.2 heq), List.map_cons, ih, if_pos heq, if_pos heq]
    · rw [if_neg (fun h => heq (beq_iff_eq.1 h)), ih, if_neg heq, if_neg heq]

/-- The response is written. -/
theorem owes_output {rsp : Rs} {c : Console} (h : Owes (some rsp) c) :
    Returns (output rsp) c fun _ c' => Owes none c' := by
  unfold output
  cases hsol : rsp.isSolPacket with
  | false =>
    rw [if_neg (by decide)]
    apply Returns.pure
    apply h.settle
    intro hn
    rw [isNumbered_of_not_isSolPacket hsol] at hn
    cases hn
  | true =>
    rw [if_pos rfl]
    refine ⟨_, _, rfl, owes_none h.received (fun w hw => ?_) fun x hx => ?_⟩
    · rcases List.mem_append.1 hw with hw | hw
      · exact h.written w hw
      · obtain ⟨ch, -, rfl⟩ := List.mem_map.1 hw
        exact h.polled rsp rfl
    · rw [writtenOf_append, map_filter_chars, h.accounts x hx]
      have howed : owed (some rsp) x.1 = if rsp.number = x.1 then rsp.chars else [] := by
        show (if rsp.isNumbered = true ∧ rsp.number = x.1 then rsp.chars else []) = _
        by_cases heq : rsp.number = x.1
        · have hn : rsp.isNumbered = true := by
            by_contra hnot
            exact h.unnumbered rsp rfl (Bool.not_eq_true _ ▸ hnot) x hx heq.symm
          rw [if_pos ⟨hn, heq⟩, if_pos heq]
        · rw [if_neg (fun hand => heq hand.2), if_neg heq]
      rw [howed]

theorem owes_outputNew {rsp : Rs} {c : Console} (h : Owes (some rsp) c) :
    Returns (outputNew rsp) c fun _ c' => Owes none c' := by
  apply Returns.ite
  · intro _
    exact owes_output h
  · intro hzero
    exact .pure (h.settle fun _ => chars_of_dataLen (not_not.1 hzero))

/-! ### Steps that neither receive nor write -/

theorem sameLog_beginTurn (p : SolPayload) (xmit : Bool) : Moves Console.SameLog (beginTurn p xmit) := by
  have hnext : Moves Console.SameLog nextAttempt := by
    intro c
    unfold nextAttempt
    apply Returns.get_bind
    cases c.attempts with
    | nil => exact .pure (refl_of _ c)
    | cons a rest => exact ⟨_, _, rfl, rfl, rfl, rfl⟩
  have htransmit : Moves Console.SameLog (transmit p) := .modify fun _ => ⟨rfl, rfl, rfl⟩
  exact hnext.bind fun _ => .ite (htransmit.bind fun _ => .pure _) (.pure _)

theorem sameLog_setSolPacketSequenceNumber (p : SolPayload) :
    Moves Console.SameLog (setSolPacketSequenceNumber p) := fun _ => ⟨_, _, rfl, rfl, rfl, rfl⟩

theorem sameLog_print (message : String) : Moves Console.SameLog (print message) :=
  .modify fun _ => ⟨rfl, rfl, rfl⟩

theorem sameLog_setStartKeepalive (now : Int) : Moves Console.SameLog (setStartKeepalive now) :=
  .modify fun _ => ⟨rfl, rfl, rfl⟩

/-! ### One packet -/

section sending
variable {e : Env}

/-- The response neither answers the packet nor has characters that are still to be written. -/
def Spent (p : SolPayload) (rsp : Rs) : Prop :=
  rsp.acksPacket p = false ∧ (rsp.isNumbered = true → rsp.chars = [])

theorem isSolPacket_of_acksPacket {p : SolPayload} {rsp : Rs} (h : rsp.acksPacket p = true) :
    rsp.isSolPacket = true := (Bool.and_eq_true_iff.1 h).1

/-- A turn that receives a response. -/
theorem Receives.solTurns {p : SolPayload} {xmit : Bool} {c c' : Console} {a : Attempt} {rsp : Rs}
    (h : Receives e p xmit c a rsp c') (n : Nat) (r : Option Rs) : solTurns e p (n + 1) xmit r c =
      (if !rsp.isSolPacket then return some rsp
        else if rsp.acksPacket p then return some rsp
        else if rsp.dataLen ≠ 0 then do
          output rsp
          return some { rsp with dataLen := 0 }
        else Sol.solTurns e p n a.timeUp (some rsp) : SolM (Option Rs)) c' := by
  obtain ⟨c₁, hbegin, hrecv⟩ := h.begins
  conv_lhs => unfold Sol.solTurns
  rw [bind_ok hbegin, if_neg (by rw [h.sent]; decide), if_neg (by rw [h.answers]; decide), if_neg h.numbered,
    bind_ok hrecv]

/-- The answer is what `send_payload` returns. -/
theorem Answers.solTurns {p : SolPayload} {n : Nat} {xmit : Bool} {c c' : Console} {rsp : Rs}
    (h : Answers e p n xmit c rsp c') : ∀ r, Sol.solTurns e p n xmit r c = .ok (some rsp) c' := by
  induction h with
  | reply hreceives hacks =>
    intro r
    rw [hreceives.solTurns, if_neg (by rw [isSolPacket_of_acksPacket hacks]; decide), if_pos hacks]
    rfl
  | later hreceives hsol hother hempty _ ih =>
    intro r
    rw [hreceives.solTurns, if_neg (by rw [hsol]; decide), if_neg (by rw [hother]; decide),
      if_neg (not_not.2 hempty)]
    exact ih _

/-- What `send_payload` returns is an answer, or has no characters. -/
theorem owes_solTurns {p : SolPayload} (n : Nat) : ∀ (xmit : Bool) (r : Option Rs) (c : Console), Owes none c →
    (∀ rsp ∈ r, Spent p rsp) → Returns (Sol.solTurns e p n xmit r) c fun r' c' =>
      (∃ rsp, r' = some rsp ∧ Answers e p n xmit c rsp c' ∧ Owes (some rsp) c') ∨
        (∀ rsp ∈ r', Spent p rsp) ∧ Owes none c' := by
  induction n with
  | zero => exact fun xmit r c howes hr => .pure (.inr ⟨hr, howes⟩)
  | succ n ih =>
    intro xmit r c howes hr
    obtain ⟨a, c₁, hbegin, hsame⟩ := sameLog_beginTurn p xmit c
    have howes₁ := howes.same hsame
    by_cases hfailed : (xmit && !a.sendOk) = true
    · refine ⟨none, c₁, ?_, .inr ⟨nofun, howes₁⟩⟩
      conv_lhs => unfold Sol.solTurns
      rw [bind_ok hbegin, if_pos hfailed]
      rfl
    by_cases hnoanswer : e.noanswer = true
    · refine ⟨r, c₁, ?_, .inr ⟨hr, howes₁⟩⟩
      conv_lhs => unfold Sol.solTurns
      rw [bind_ok hbegin, if_neg hfailed, if_pos hnoanswer]
      rfl
    by_cases hzero : p.packetSequenceNumber = 0
    · refine ⟨r, c₁, ?_, .inr ⟨hr, howes₁⟩⟩
      conv_lhs => unfold Sol.solTurns
      rw [bind_ok hbegin, if_neg hfailed, if_neg hnoanswer, if_pos hzero]
      rfl
    obtain ⟨rsp, c₂, hrecv, howes₂⟩ := owes_recvSol e howes₁
    cases rsp with
    | none =>
      refine ⟨none, c₂, ?_, .inr ⟨nofun, howes₂⟩⟩
      conv_lhs => unfold Sol.solTurns
      rw [bind_ok hbegin, if_neg hfailed, if_neg hnoanswer, if_neg hzero, bind_ok hrecv]
      rfl
    | some rsp =>
      have hreceives : Receives e p xmit c a rsp c₂ :=
        ⟨⟨c₁, hbegin, hrecv⟩, Bool.not_eq_true _ ▸ hfailed, Bool.not_eq_true _ ▸ hnoanswer, hzero⟩
      unfold Returns
      rw [hreceives.solTurns]
      cases hsol : rsp.isSolPacket with
      | false =>
        have hnot := isNumbered_of_not_isSolPacket hsol
        have hspent : Spent p rsp := by
          refine ⟨?_, fun hn => absurd hn (by rw [hnot]; decide)⟩
          unfold Rs.acksPacket
          rw [hsol, Bool.false_and]
        refine ⟨some rsp, c₂, rfl, .inr ⟨?_, howes₂.settle hspent.2⟩⟩
        rintro _ ⟨⟩
        exact hspent
      | true =>
        rw [if_neg (by decide)]
        cases hacks : rsp.acksPacket p with
        | true => exact ⟨some rsp, c₂, rfl, .inl ⟨rsp, rfl, .reply hreceives hacks, howes₂⟩⟩
        | false =>
          rw [if_neg (by decide)]
          by_cases hdata : rsp.dataLen ≠ 0
          · rw [if_pos hdata]
            obtain ⟨_, c₃, hout, howes₃⟩ := owes_output howes₂
            refine ⟨_, c₃, bind_ok hout, .inr ⟨?_, howes₃⟩⟩
            rintro _ ⟨⟩
            exact ⟨hacks, fun _ => chars_of_dataLen rfl⟩
          · rw [if_neg hdata]
            have hempty := not_not.1 hdata
            have hspent : Spent p rsp := ⟨hacks, fun _ => chars_of_dataLen hempty⟩
            apply (ih a.timeUp (some rsp) c₂ (howes₂.settle hspent.2) (by rintro _ ⟨⟩; exact hspent)).mono
            rintro r' c' (⟨rsp', hr', hanswer, howes'⟩ | hsilent)
            · exact .inl ⟨rsp', hr', .later hreceives hsol hacks hempty hanswer, howes'⟩
            · exact .inr hsilent

/-! ### The packet and its resends -/

/-- `ipmi_lanplus_send_sol` behind the choice of the sequence number. -/
def sendPackets (e : Env) (p : SolPayload) : SolM (Option Rs × SolPayload) := do
  let rs ← sendPayload e p
  let c ← get
  resendLoop e (c.polls.length + 1) p rs

theorem resendLoop_stable {p : SolPayload} {rs : Option Rs} {c : Console} {n : Nat} (h : c.polls.length + 1 ≤ n) :
    resendLoop e n p rs c = resendLoop e (c.polls.length + 1) p rs c := by
  obtain ⟨k, rfl⟩ := Nat.exists_eq_add_of_le h
  induction k with
  | zero => rfl
  | succ k ih => exact (resendLoop_bound e _ p rs c (Nat.le_add_right _ k)).trans (ih (Nat.le_add_right _ k))

/-- After a partial acknowledgement the sending starts again, with what is left of the packet. -/
theorem resendLoop_resends {p : SolPayload} {rs : Rs} {c : Console} (h : resends e p rs = true) :
    resendLoop e (c.polls.length + 1) p (some rs) c = (prepareResend e p rs >>= sendPackets e) c := by
  obtain ⟨p₁, c₁, hrun₁, -, -, hc₁⟩ := beside_prepareResend (Q := AnyRequest) e p rs c
  obtain ⟨rs₂, c₂, hrun₂, hshrinks⟩ := solTurns_shrinks e p₁ e.retry true none c₁
  have hsend : sendPayload e p₁ c₁ = .ok rs₂ c₂ := hrun₂
  unfold resendLoop sendPackets
  rw [if_pos h, bind_ok hrun₁, bind_ok hrun₁, bind_ok hsend, bind_ok hsend, get_bind_apply]
  cases rs₂ with
  | none =>
    unfold resendLoop
    cases c.polls.length with
    | zero => rfl
    | succ n => rfl
  | some rs₂ =>
    have hless := hshrinks rfl (Option.some_ne_none rs₂)
    have hle := hc₁.polls
    exact resendLoop_stable (by omega)

/-- The response that concludes the sending is what `send_sol` returns. -/
theorem Concludes.sendPackets {p : SolPayload} {c : Console} {rsp : Rs} (h : Concludes e p c rsp) :
    ∃ p' c', Sol.sendPackets e p c = .ok (some rsp, p') c' := by
  induction h with
  | @reply p c c₁ rsp hanswer hdone =>
    have hloop : resendLoop e (c₁.polls.length + 1) p (some rsp) c₁ = .ok (some rsp, p) c₁ := by
      unfold resendLoop
      rw [if_neg (by rw [hdone]; decide)]
      rfl
    exact ⟨p, c₁, (bind_ok (hanswer.solTurns none)).trans hloop⟩
  | resend hanswer hmore hprepare _ ih =>
    obtain ⟨p', c', hrun⟩ := ih
    refine ⟨p', c', (bind_ok (hanswer.solTurns none)).trans ?_⟩
    rw [get_bind_apply, resendLoop_resends hmore, bind_ok hprepare]
    exact hrun

/-- What `send_sol` returns concludes the sending, or has no characters. -/
theorem owes_sendPackets (n : Nat) : ∀ (p : SolPayload) (c : Console), c.polls.length < n → Owes none c →
    Returns (Sol.sendPackets e p) c fun r c' => (∃ rsp, r.1 = some rsp ∧ Concludes e p c rsp ∧ Owes (some rsp) c') ∨
      (∀ rsp ∈ r.1, rsp.isNumbered = true → rsp.chars = []) ∧ Owes none c' := by
  induction n with
  | zero => exact fun _ _ hlength _ => absurd hlength (Nat.not_lt_zero _)
  | succ n ih =>
    intro p c hlength howes
    obtain ⟨r, c₁, hrun, hr⟩ := owes_solTurns (e := e) (p := p) e.retry true none c howes nofun
    obtain ⟨r', c', hrun', hshrinks⟩ := solTurns_shrinks e p e.retry true none c
    obtain ⟨rfl, rfl⟩ := EStateM.Result.ok.inj (hrun.symm.trans hrun')
    have hsend : sendPayload e p c = .ok r c₁ := hrun
    unfold Returns Sol.sendPackets
    rw [bind_ok hsend, get_bind_apply]
    rcases hr with ⟨rsp, rfl, hanswer, howes₁⟩ | ⟨hspent, howes₁⟩
    · cases hmore : resends e p rsp with
      | false =>
        unfold resendLoop
        rw [if_neg (by rw [hmore]; decide)]
        exact ⟨_, c₁, rfl, .inl ⟨rsp, rfl, .reply hanswer hmore, howes₁⟩⟩
      | true =>
        rw [resendLoop_resends hmore]
        obtain ⟨_, c₂, hout, howes₂⟩ := owes_outputNew howes₁
        obtain ⟨p₃, c₃, hset, hsame⟩ := sameLog_setSolPacketSequenceNumber p c₂
        have hprepare : prepareResend e p rsp c₁ = .ok _ c₃ := (bind_ok hout).trans (bind_ok hset)
        have hless := hshrinks rfl (Option.some_ne_none rsp)
        have hpolls : c₃.polls.length ≤ c₁.polls.length :=
          ((beside_prepareResend (Q := AnyRequest) e p rsp c₁).of_ok hprepare).2.2.polls
        rw [bind_ok hprepare]
        apply (ih _ c₃ (by omega) (howes₂.same hsame)).mono
        rintro r c' (⟨rsp', hr', hrest, howes'⟩ | hsilent)
        · exact .inl ⟨rsp', hr', .resend hanswer hmore hprepare hrest, howes'⟩
        · exact .inr hsilent
    · have hdone : resendLoop e (c₁.polls.length + 1) p r c₁ = .ok (r, p) c₁ := by
        cases r with
        | none => rfl
        | some rsp =>
          have hno : resends e p rsp = false := by
            unfold resends isSolPartialAck
            rw [(hspent rsp rfl).1]
            simp
          unfold resendLoop
          rw [if_neg (by rw [hno]; decide)]
          rfl
      exact ⟨_, c₁, hdone, .inr ⟨fun rsp hmem => (hspent rsp hmem).2, howes₁⟩⟩

/-! ### A call of `send_sol` -/

/-- `L` holds of the response `r`, whose characters are still to be written, or `r` has none. -/
def Concluded (L : Rs → Prop) (r : Option Rs) (c : Console) : Prop :=
  (∃ rsp, r = some rsp ∧ L rsp ∧ Owes (some rsp) c) ∨
    (∀ rsp ∈ r, rsp.isNumbered = true → rsp.chars = []) ∧ Owes none c

theorem Concluded.mono {L L' : Rs → Prop} {r : Option Rs} {c : Console} (h : Concluded L r c)
    (hL : ∀ rsp, L rsp → L' rsp) : Concluded L' r c := by
  rcases h with ⟨rsp, hrsp, hholds, howes⟩ | hsilent
  · exact .inl ⟨rsp, hrsp, hL rsp hholds, howes⟩
  · exact .inr hsilent

theorem Concluded.same {L : Rs → Prop} {r : Option Rs} {c c' : Console} (h : Concluded L r c)
    (hsame : Console.SameLog c c') : Concluded L r c' := by
  rcases h with ⟨rsp, hrsp, hholds, howes⟩ | ⟨hsilent, howes⟩
  · exact .inl ⟨rsp, hrsp, hholds, howes.same hsame⟩
  · exact .inr ⟨hsilent, howes.same hsame⟩

theorem owes_sendSol {p : SolPayload} {c : Console} (h : Owes none c) :
    Returns (Sol.sendSol e p) c fun r c' => Concluded (SendConcludes e p c) r.1 c' := by
  obtain ⟨p₁, c₁, hset, hsame⟩ := sameLog_setSolPacketSequenceNumber
    { p with ackedPacketNumber := 0, acceptedCharacterCount := 0 } c
  obtain ⟨r, c', hrun, hr⟩ := owes_sendPackets (e := e) _ p₁ c₁ (Nat.lt_succ_self _) (h.same hsame)
  refine ⟨r, c', (bind_ok hset).trans hrun, ?_⟩
  rcases hr with ⟨rsp, hrsp, hconcludes, howes⟩ | hsilent
  · exact .inl ⟨rsp, hrsp, ⟨p₁, c₁, hset, hconcludes⟩, howes⟩
  · exact .inr hsilent

theorem SendConcludes.sendSol {p : SolPayload} {c : Console} {rsp : Rs} (h : SendConcludes e p c rsp) :
    ∃ p' c', Sol.sendSol e p c = .ok (some rsp, p') c' := by
  obtain ⟨p₁, c₁, hset, hconcludes⟩ := h
  obtain ⟨p', c', hrun⟩ := hconcludes.sendPackets
  exact ⟨p', c', (bind_ok hset).trans hrun⟩

theorem SendConcludes.returned {p p' : SolPayload} {c c' : Console} {rsp : Rs} {r : Option Rs}
    (h : SendConcludes e p c rsp) (hrun : Sol.sendSol e p c = .ok (r, p') c') : r = some rsp := by
  obtain ⟨p₁, c₁, hrun₁⟩ := h.sendSol
  obtain ⟨heq, -⟩ := EStateM.Result.ok.inj (hrun.symm.trans hrun₁)
  exact congrArg Prod.fst heq

theorem owes_sendTries (length n : Nat) : ∀ {p : SolPayload} {c : Console}, Owes none c →
    Returns (Sol.sendTries e length n p) c fun r c' => Concluded (TriesConclude e length n p c) r c' := by
  induction n with
  | zero => exact fun h => .pure (.inr ⟨nofun, h⟩)
  | succ n ih =>
    intro p c h
    obtain ⟨⟨r, p₁⟩, c₁, hrun, hr⟩ := owes_sendSol (e := e) (p := { p with characterCount := length }) h
    unfold Returns Sol.sendTries
    rw [bind_ok hrun]
    cases r with
    | some rsp =>
      refine ⟨some rsp, c₁, rfl, ?_⟩
      rcases hr with ⟨rsp', hrsp, hconcludes, howes⟩ | hsilent
      · exact .inl ⟨rsp', hrsp, .reply hconcludes, howes⟩
      · exact .inr hsilent
    | none =>
      rcases hr with ⟨rsp', hrsp, -⟩ | ⟨-, howes⟩
      · cases hrsp
      · apply (ih howes).mono
        rintro r c' (⟨rsp', hrsp, hconcludes, howes'⟩ | hsilent)
        · exact .inl ⟨rsp', hrsp, .again hrun hconcludes, howes'⟩
        · exact .inr hsilent

theorem TriesConclude.sendTries {length n : Nat} {p : SolPayload} {c : Console} {rsp : Rs}
    (h : TriesConclude e length n p c rsp) : ∃ c', Sol.sendTries e length n p c = .ok (some rsp) c' := by
  induction h with
  | reply hconcludes =>
    obtain ⟨p', c', hrun⟩ := hconcludes.sendSol
    exact ⟨c', bind_ok hrun⟩
  | again hfails _ ih =>
    obtain ⟨c', hrun⟩ := ih
    exact ⟨c', (bind_ok hfails).trans hrun⟩

end sending

/-! ### The callers -/

theorem accounted_of_owes {c : Console} (h : Owes none c) : c.Accounted := by
  intro x hx
  have haccounts := h.accounts x hx
  rw [show owed none x.1 = [] from rfl, List.append_nil] at haccounts
  exact haccounts.symm

/-- Characters that nobody writes any more are lost. -/
theorem accounted_iff_chars {rsp : Rs} {c : Console} (h : Owes (some rsp) c) :
    c.Accounted ↔ (rsp.isNumbered = true → rsp.chars = []) := by
  constructor
  · intro haccounted hn
    obtain ⟨x, hx, hnumber⟩ := h.numbered rsp rfl hn
    have haccounts := h.accounts x hx
    rw [← haccounted x hx, show owed (some rsp) x.1 = rsp.chars from if_pos ⟨hn, hnumber.symm⟩] at haccounts
    exact List.append_right_eq_self.1 haccounts.symm
  · intro hnil
    exact accounted_of_owes (h.settle hnil)

theorem accounted_iff_concluded {L : Rs → Prop} {r : Option Rs} {c : Console} (hr : Concluded L r c)
    (hL : ∀ rsp, L rsp → r = some rsp) :
    c.Accounted ↔ ∀ rsp, L rsp → rsp.isNumbered = true → rsp.chars = [] := by
  rcases hr with ⟨rsp, rfl, hrsp, howes⟩ | ⟨hsilent, howes⟩
  · rw [accounted_iff_chars howes]
    constructor
    · intro h rsp' hrsp'
      obtain rfl := Option.some.inj (hL rsp' hrsp')
      exact h
    · exact fun h => h rsp hrsp
  · exact iff_of_true (accounted_of_owes howes) fun rsp hrsp => hsilent rsp (hL rsp hrsp)

theorem accounted_sendBreak {e : Env} {c : Console} (h : Owes none c) :
    Ends Console.Accounted (Call.sendBreak.run e) c ↔
      ∀ rsp, Call.sendBreak.Leaves e c rsp → rsp.isNumbered = true → rsp.chars = [] := by
  obtain ⟨r, c', hrun, hr⟩ := owes_sendSol (e := e) (p := { SolPayload.zero with generateBreak := true }) h
  have hbreak : Call.sendBreak.run e c = .ok ⟨⟩ c' := bind_ok hrun
  rw [ends_ok hbreak]
  apply accounted_iff_concluded hr
  intro rsp hrsp
  exact SendConcludes.returned hrsp hrun

theorem keepaliveIfDue_early {e : Env} {c : Console} {now later : Int} {send : SolM Bool}
    (h : ¬ (e.disableKeepalive = false ∧ now - c.startKeepalive > solKeepaliveTimeout)) :
    keepaliveIfDue e now later send c = .ok 0 c := by
  unfold keepaliveIfDue
  rw [get_bind_apply]
  cases hdisabled : e.disableKeepalive with
  | true => rfl
  | false =>
    rw [if_neg (by decide), if_neg fun hdue => h ⟨hdisabled, hdue⟩]
    rfl

theorem keepaliveIfDue_due {e : Env} {c c₁ : Console} {now : Int} (later : Int) {send : SolM Bool} {b : Bool}
    (hdisabled : e.disableKeepalive = false) (hdue : now - c.startKeepalive > solKeepaliveTimeout)
    (hsend : send c = .ok b c₁) : Returns (keepaliveIfDue e now later send) c fun _ c' => Console.SameLog c₁ c' := by
  unfold keepaliveIfDue Returns
  rw [get_bind_apply, if_neg (by rw [hdisabled]; decide), if_pos hdue, bind_ok hsend]
  cases b with
  | true => exact (sameLog_setStartKeepalive later).bind (fun _ => .pure _) c₁
  | false => exact ⟨-1, c₁, rfl, refl_of _ c₁⟩

theorem accounted_keepalive {e : Env} {c : Console} (now later : Int) (h : Owes none c) :
    Ends Console.Accounted ((Call.keepalive now later).run e) c ↔
      ∀ rsp, (Call.keepalive now later).Leaves e c rsp → rsp.isNumbered = true → rsp.chars = [] := by
  by_cases hdue : e.disableKeepalive = false ∧ now - c.startKeepalive > solKeepaliveTimeout
  · obtain ⟨r, c₁, hrun, hr⟩ := owes_sendSol (e := e) (p := SolPayload.zero) h
    obtain ⟨_, c', hkeepalive, hsame⟩ := keepaliveIfDue_due later hdue.1 hdue.2
      (show (do let rs ← sendSol e SolPayload.zero; return rs.1.isSome : SolM Bool) c = _ from bind_ok hrun)
    have hcall : (Call.keepalive now later).run e c = .ok ⟨⟩ c' := bind_ok hkeepalive
    rw [ends_ok hcall]
    apply accounted_iff_concluded ((hr.same hsame).mono fun _ hrsp => ⟨hdue.1, hdue.2, hrsp⟩)
    rintro rsp ⟨-, -, hrsp⟩
    exact hrsp.returned hrun
  · have hcall : (Call.keepalive now later).run e c = .ok ⟨⟩ c := bind_ok (keepaliveIfDue_early hdue)
    rw [ends_ok hcall]
    exact iff_of_true (accounted_of_owes h) fun rsp hrsp => absurd ⟨hrsp.1, hrsp.2.1⟩ hdue

/-- The response is written where the user stays in the session. -/
theorem owes_outputReply {L : Rs → Prop} {rsp : Rs} {c : Console} (h : Concluded L (some rsp) c)
    (hnumbered : rsp.isNumbered = true) : Returns (output rsp) c fun _ c' => Owes none c' := by
  rcases h with ⟨_, ⟨⟩, -, howes⟩ | ⟨hsilent, howes⟩
  · exact owes_output howes
  · have hsame : Moves Console.SameLog (output rsp) := by
      apply Moves.ite _ (.pure _)
      apply Moves.modify
      intro c
      refine ⟨rfl, rfl, ?_⟩
      rw [hsilent rsp rfl hnumbered]
      exact List.append_nil _
    exact (hsame c).mono fun _ _ hsame => howes.same hsame

theorem accounted_input {e : Env} {c : Console} (x : Input) (h : Owes none c) :
    Ends Console.Accounted ((Call.input x).run e) c ↔
      ∀ rsp, (Call.input x).Leaves e c rsp → rsp.isNumbered = true → rsp.chars = [] := by
  obtain ⟨r, c₁, hrun, hr⟩ := owes_sendTries (e := e) x.data.length e.retry
    (p := { SolPayload.zero with data := x.data }) h
  have hdetermined : ∀ rsp, (Call.input x).Leaves e c rsp → r = some rsp := by
    rintro rsp ⟨-, hrsp⟩
    obtain ⟨c'', hrun'⟩ := hrsp.sendTries
    obtain ⟨rfl, -⟩ := EStateM.Result.ok.inj (hrun.symm.trans hrun')
    rfl
  cases r with
  | none =>
    have howes : Owes none c₁ := by
      rcases hr with ⟨_, ⟨⟩, -⟩ | ⟨-, howes⟩
      exact howes
    obtain ⟨_, c', hprint, hsame⟩ := sameLog_print "Error sending SOL data: FAIL" c₁
    have hcall : (Call.input x).run e c = .ok ⟨⟩ c' := bind_ok ((bind_ok hrun).trans (bind_ok hprint))
    rw [ends_ok hcall]
    exact iff_of_true (accounted_of_owes (howes.same hsame)) fun rsp hrsp => absurd (hdetermined rsp hrsp) nofun
  | some rsp =>
    by_cases hretval : x.retval = 0
    · have hend : ∃ c', (Call.input x).run e c = .ok ⟨⟩ c' ∧ Owes none c' := by
        by_cases hnumbered : rsp.isNumbered = true
        · obtain ⟨_, c', hout, howes⟩ := owes_outputReply hr hnumbered
          have hinput : sendInput e x c = .ok x.retval c' := by
            refine (bind_ok hrun).trans ?_
            dsimp only
            rw [if_pos ⟨hretval, hnumbered⟩, bind_ok hout]
            rfl
          exact ⟨c', bind_ok hinput, howes⟩
        · have hinput : sendInput e x c = .ok x.retval c₁ := by
            refine (bind_ok hrun).trans ?_
            dsimp only
            rw [if_neg fun hand => hnumbered hand.2]
            rfl
          refine ⟨c₁, bind_ok hinput, ?_⟩
          · rcases hr with ⟨_, ⟨⟩, -, howes⟩ | ⟨-, howes⟩
            · exact howes.settle fun hn => absurd hn hnumbered
            · exact howes
      obtain ⟨c', hcall, howes⟩ := hend
      rw [ends_ok hcall]
      exact iff_of_true (accounted_of_owes howes) fun rsp hrsp => absurd hretval hrsp.1
    · have hinput : sendInput e x c = .ok x.retval c₁ := by
        refine (bind_ok hrun).trans ?_
        dsimp only
        rw [if_neg fun hand => hretval hand.1]
        rfl
      have hcall : (Call.input x).run e c = .ok ⟨⟩ c₁ := bind_ok hinput
      rw [ends_ok hcall]
      exact accounted_iff_concluded (hr.mono fun _ hrsp => ⟨hretval, hrsp⟩) hdetermined

theorem Sending.owes (x : Sending) : Owes none x.console := by
  apply owes_none
  · rw [x.received_nil]
    exact List.forall_mem_nil _
  · rw [x.written_nil]
    exact List.forall_mem_nil _
  · rw [x.received_nil]
    exact List.forall_mem_nil _

/-- **When no acknowledged character is lost.** The log has the new characters of all packets acknowledged
while a packet was sent exactly once if and only if the response that concludes the sending has none, or the
caller is `processSolUserInput` and the user does not leave the session. -/
theorem accounted_iff (x : Sending) : x.final.Accounted ↔
    ∀ rsp, x.call.Leaves x.env x.console rsp → rsp.isNumbered = true → rsp.chars = [] := by
  have howes := x.owes
  cases hcall : x.call with
  | sendBreak =>
    unfold Sending.final
    rw [hcall]
    exact accounted_sendBreak howes
  | keepalive now later =>
    unfold Sending.final
    rw [hcall]
    exact accounted_keepalive now later howes
  | input y =>
    unfold Sending.final
    rw [hcall]
    exact accounted_input y howes

/-- A keepalive is sent, and the BMC acknowledges it in a packet that has a console character. -/
def keepaliveReply : Sending where
  env :=
    { name := "lanplus", fd := 3, opened := true, noanswer := false, retry := 4, port := 623
      solEscapeChar := 0x7E, intelplus := false, i82571spt := false, disableKeepalive := false
      useSolForKeepalive := true, isatty := false }
  console :=
    { polls := [some
        { number := 0, authtype := authtypeRmcpPlus, payloadtype := payloadTypeSol, ccode := 0
          solPacket := ⟨2, 1, 0, false, false, false, false, false⟩
          data := fun _ => 0x78, dataLen := 1 }]
      attempts := [], lastReceivedSequenceNumber := 1, lastReceivedByteCount := 0, sequenceNumber := 1
      startKeepalive := 0, escapePending := false, lastWasCr := true, inRawMode := false, polled := 0
      received := [], written := [], sent := [], deactivations := [], reads := [], userInputs := [], messages := [] }
  call := .keepalive 16 16
  received_nil := rfl
  written_nil := rfl

/-- The character is acknowledged, and never written. -/
theorem keepaliveReply_not_accounted : ¬ ∀ x : Sending, x.final.Accounted := by
  intro h
  have hlost := h keepaliveReply (0, [0x78]) (by decide +kernel)
  exact absurd hlost (by decide +kernel)

end KTools.Sol
