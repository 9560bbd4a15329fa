import KTools.Lib.Triple
import KTools.Lanplus.Handshake

/-!
# Saved state

`ipmi_lanplus_send_payload` saves `session->timeout`, adds a second to it each time it is to transmit again, and
restores it behind its loop; the two `return NULL` inside the loop do not restore it. Three commands of the
handshake save `bridgePossible`, clear it and restore it; `ipmi_set_session_privlvl_cmd` does so on every exit,
`ipmi_get_auth_capabilities_cmd` and `ipmi_close_session_cmd` only when they succeed.

The loop is followed here for all types of payloads, with what the environment decides in each turn; for the
payloads of `Send` it is the loop there, as far as the timeout is concerned
(`ipmiLanplusSendPayload_afterCall`). Nothing that `sendrecv` does changes `bridgePossible`.
-/

namespace KTools.Lanplus
open KTools.Lib

/-! ### `session->timeout` -/

/-- The types of payloads; an acknowledgement is a SOL packet without a number. -/
inductive PayloadKind where
  | ipmi
  | openRequest
  | rakp1
  | rakp3
  | sol (packetSequenceNumber : UInt8)
  deriving DecidableEq

/-- "not retryable for timeouts, force no retry". -/
def PayloadKind.forcesNoRetry : PayloadKind → Bool
  | openRequest | rakp1 | rakp3 => true
  | _ => false

/-- What a turn receives: nothing, a response that is no SOL packet, or a SOL packet, which acknowledges the
packet of the call or not. -/
inductive Answer where
  | null
  | response
  | solPacket (acks : Bool) (dataLen : Nat)
  deriving DecidableEq

/-- The turn ends the loop. -/
def PayloadKind.breaksAt (k : PayloadKind) (answer : Answer) : Bool :=
  match k, answer with
  | sol _, .solPacket acks dataLen => acks || dataLen != 0
  | sol _, _ => true
  | _, answer => answer != .null

/-- What one turn of the loop meets: whether the entry with its message is built and `send` succeeds, if it
transmits, what it receives, and the seconds since the last transmission. -/
structure SendTurn where
  built : Bool
  sendOk : Bool
  answer : Answer
  elapsed : Int

/-- The transmission returns NULL. -/
def SendTurn.fails (t : SendTurn) (k : PayloadKind) : Bool := (k == .ipmi && !t.built) || !t.sendOk

/-- The loop ends behind the transmission: no answer is expected, or the turn breaks. -/
def SendTurn.leaves (t : SendTurn) (k : PayloadKind) (noanswer : Bool) : Bool :=
  noanswer || k == .sol 0 || k.breaksAt t.answer

/-- `xmit` for the next turn. -/
def SendTurn.timeUp (t : SendTurn) (timeout : Nat) : Bool := decide ((timeout : Int) ≤ t.elapsed)

/-- The loop with the turns that are left: whether it is left by `return NULL`, and `session->timeout`. The
acknowledgement that a turn of a SOL packet sends is a call of its own, which leaves the timeout
(`SendCall.acknowledgement_restores`). -/
def sendLoop (k : PayloadKind) (noanswer : Bool) : (xmit : Bool) → List SendTurn → Nat → Bool × Nat
  | _, [], timeout => (false, timeout)
  | xmit, t :: rest, timeout =>
    if xmit && t.fails k then (true, timeout)
    else if t.leaves k noanswer then (false, timeout)
    else
      let next := if t.timeUp timeout then timeout + 1 else timeout
      if k.forcesNoRetry then (false, next) else sendLoop k noanswer (t.timeUp timeout) rest next

/-- A call of `ipmi_lanplus_send_payload` on an open interface, with one turn for each try. -/
structure SendCall where
  kind : PayloadKind
  noanswer : Bool
  turns : List SendTurn
  timeout : Nat

/-- What follows the loop: `return NULL` inside it passes over the assignment behind it. -/
def behindLoop (savedTimeout : Nat) (r : Bool × Nat) : Nat := if r.1 then r.2 else savedTimeout

/-- `session->timeout` when the call returns. -/
def SendCall.after (x : SendCall) : Nat :=
  let savedTimeout := x.timeout
  behindLoop savedTimeout (sendLoop x.kind x.noanswer true x.turns x.timeout)

/-! ### `bridgePossible` -/

/-- A response of a command that succeeds. -/
def Succeeds (rsp : Option CmdRsp) : Bool := rsp.any (·.ccode == 0)

/-- A call of `ipmi_get_auth_capabilities_cmd`, with the responses to its two requests. -/
structure AuthCall where
  bridgePossible : Bool
  first : Option CmdRsp
  second : Option CmdRsp

/-- `ipmi_get_auth_capabilities_cmd`: the result, and `bridgePossible`. -/
def AuthCall.ipmiGetAuthCapabilitiesCmd (x : AuthCall) : Int × Bool :=
  let backupBridgePossible := x.bridgePossible
  let bridgePossible := false
  if !Succeeds x.first && !Succeeds x.second then (1, bridgePossible)
  else (0, backupBridgePossible)

/-- A call of `ipmi_close_session_cmd`; `active` is a session in the state ACTIVE. -/
structure CloseCall where
  active : Bool
  bridgePossible : Bool
  rsp : Option CmdRsp

def CloseCall.ipmiCloseSessionCmd (x : CloseCall) : Int × Bool :=
  if !x.active then (-1, x.bridgePossible)
  else
    let backupBridgePossible := x.bridgePossible
    let bridgePossible := false
    if !Succeeds x.rsp then (-1, bridgePossible) else (0, backupBridgePossible)

/-- A call of `ipmi_set_session_privlvl_cmd`. -/
structure PrivlvlCall where
  privlvl : UInt8
  bridgePossible : Bool
  rsp : Option CmdRsp

def PrivlvlCall.ipmiSetSessionPrivlvlCmd (x : PrivlvlCall) : Int × Bool :=
  if x.privlvl ≤ sessionPrivUser then (0, x.bridgePossible)
  else
    let backupBridgePossible := x.bridgePossible
    if !Succeeds x.rsp then (-1, backupBridgePossible) else (0, backupBridgePossible)

/-! ### What is restored -/

/-- The turns in which the loop transmits. -/
def transmissions (k : PayloadKind) (noanswer : Bool) : (xmit : Bool) → List SendTurn → Nat → List SendTurn
  | _, [], _ => []
  | xmit, t :: rest, timeout =>
    (if xmit then [t] else []) ++
      if (xmit && t.fails k) || t.leaves k noanswer || k.forcesNoRetry then []
      else
        let next := if t.timeUp timeout then timeout + 1 else timeout
        transmissions k noanswer (t.timeUp timeout) rest next

namespace SendCall
variable (x : SendCall)

def Restores : Prop := x.after = x.timeout

/-- No transmission after the first one fails. -/
def RetransmitsWell : Prop :=
  ∀ t ∈ (transmissions x.kind x.noanswer true x.turns x.timeout).tail, t.fails x.kind = false

end SendCall

def AuthCall.Restores (x : AuthCall) : Prop := x.ipmiGetAuthCapabilitiesCmd.2 = x.bridgePossible
def CloseCall.Restores (x : CloseCall) : Prop := x.ipmiCloseSessionCmd.2 = x.bridgePossible
def PrivlvlCall.Restores (x : PrivlvlCall) : Prop := x.ipmiSetSessionPrivlvlCmd.2 = x.bridgePossible

/-- The flag is cleared already, or a request succeeds. -/
def AuthCall.Fits (x : AuthCall) : Prop := x.bridgePossible = false ∨ Succeeds x.first ∨ Succeeds x.second

def CloseCall.Fits (x : CloseCall) : Prop := x.bridgePossible = false ∨ x.active = false ∨ Succeeds x.rsp

section Loop
variable (k : PayloadKind) (noanswer : Bool)

/-- Behind the first transmission, a `return NULL` of the loop leaves a timeout that has grown: what transmits
again comes with a second more. -/
theorem behindLoop_eq_iff {saved : Nat} : ∀ (turns : List SendTurn) (xmit : Bool) (timeout : Nat),
    saved ≤ timeout → (xmit = true → saved < timeout) →
      (behindLoop saved (sendLoop k noanswer xmit turns timeout) = saved ↔
        ∀ t ∈ transmissions k noanswer xmit turns timeout, t.fails k = false) := by
  intro turns
  induction turns with
  | nil =>
    intro xmit timeout _ _
    simp [behindLoop, sendLoop, transmissions]
  | cons t rest ih =>
    intro xmit timeout hle hlt
    have hloop := sendLoop.eq_2 k noanswer xmit timeout t rest
    have htrans := transmissions.eq_2 k noanswer xmit timeout t rest
    by_cases hfails : (xmit && t.fails k) = true
    · obtain ⟨rfl, hfails'⟩ := Bool.and_eq_true_iff.1 hfails
      have hgrown := hlt rfl
      rw [if_pos hfails] at hloop
      simp only [hfails, Bool.true_or, if_true, List.append_nil] at htrans
      rw [hloop, htrans, List.forall_mem_singleton, hfails']
      simp only [behindLoop, if_true, Bool.true_eq_false, iff_false]
      omega
    · have hhead : ∀ t' ∈ (if xmit = true then [t] else []), t'.fails k = false := by
        intro t' ht'
        cases xmit with
        | false => cases ht'
        | true =>
          rw [List.mem_singleton.1 ht']
          simpa using hfails
      rw [if_neg hfails] at hloop
      by_cases hends : (t.leaves k noanswer || k.forcesNoRetry) = true
      · -- the loop is left by its end, or by a break
        have hfalse : (sendLoop k noanswer xmit (t :: rest) timeout).1 = false := by
          rw [hloop]
          by_cases hleaves : t.leaves k noanswer = true
          · rw [if_pos hleaves]
          · rw [if_neg hleaves, if_pos (by simpa [hleaves] using hends)]
        rw [Bool.or_assoc, hends, Bool.or_true, if_pos rfl, List.append_nil] at htrans
        rw [htrans, behindLoop, hfalse]
        exact iff_of_true rfl hhead
      · obtain ⟨hleaves, hforced⟩ : t.leaves k noanswer = false ∧ k.forcesNoRetry = false := by
          simpa using hends
        have hfails' : (xmit && t.fails k) = false := by simpa using hfails
        simp only [hleaves, hforced, Bool.false_eq_true, if_false] at hloop
        simp only [hfails', hleaves, hforced, Bool.or_self, Bool.false_eq_true, if_false] at htrans
        rw [hloop, htrans, List.forall_mem_append]
        refine (ih _ _ ?_ fun hup => ?_).trans ⟨fun h => ⟨hhead, h⟩, And.right⟩
        · split <;> omega
        · rw [if_pos hup]
          omega

end Loop

/-! ### Every exit -/

namespace SendCall
variable (x : SendCall)

/-- The timeout is restored exactly when no retransmission fails. -/
theorem timeout_iff : x.Restores ↔ x.RetransmitsWell := by
  unfold Restores RetransmitsWell after
  cases hturns : x.turns with
  | nil => simp [sendLoop, behindLoop, transmissions]
  | cons t rest =>
    have hloop := sendLoop.eq_2 x.kind x.noanswer true x.timeout t rest
    have htrans := transmissions.eq_2 x.kind x.noanswer true x.timeout t rest
    rw [if_pos rfl, List.singleton_append] at htrans
    rw [htrans, List.tail_cons]
    by_cases hfails : t.fails x.kind = true
    · -- the first transmission fails, and nothing has changed
      simp only [hfails, Bool.true_and, Bool.true_or, if_true] at hloop ⊢
      rw [hloop]
      simp [behindLoop]
    · -- the rest is that of a turn that does not transmit
      have hfails' : t.fails x.kind = false := Bool.eq_false_iff.2 hfails
      have hloop' := sendLoop.eq_2 x.kind x.noanswer false x.timeout t rest
      have htrans' := transmissions.eq_2 x.kind x.noanswer false x.timeout t rest
      simp only [hfails', Bool.and_false, Bool.false_eq_true, if_false, List.nil_append] at hloop hloop' htrans' ⊢
      rw [hloop, ← hloop', ← htrans']
      exact behindLoop_eq_iff x.kind x.noanswer (t :: rest) false x.timeout (Nat.le_refl _) (by simp)

/-- The acknowledgement of a SOL packet leaves the timeout. -/
theorem acknowledgement_restores (hkind : x.kind = .sol 0) : x.Restores := by
  refine x.timeout_iff.2 fun t ht => ?_
  have hleaves : ∀ t : SendTurn, t.leaves x.kind x.noanswer = true := by
    intro t
    simp [SendTurn.leaves, hkind]
  cases hturns : x.turns with
  | nil => simp [hturns, transmissions] at ht
  | cons t' rest => simp [hturns, transmissions, hleaves] at ht

end SendCall

theorem AuthCall.flag_iff (x : AuthCall) : x.Restores ↔ x.Fits := by
  unfold Restores Fits ipmiGetAuthCapabilitiesCmd
  cases Succeeds x.first <;> cases Succeeds x.second <;> cases x.bridgePossible <;> decide

theorem CloseCall.flag_iff (x : CloseCall) : x.Restores ↔ x.Fits := by
  unfold Restores Fits ipmiCloseSessionCmd
  cases x.active <;> cases Succeeds x.rsp <;> cases x.bridgePossible <;> decide

theorem PrivlvlCall.restores (x : PrivlvlCall) : x.Restores := by
  unfold Restores ipmiSetSessionPrivlvlCmd
  split
  · rfl
  · cases Succeeds x.rsp <;> rfl

/-- A call of each of the four functions. -/
structure Exits where
  send : SendCall
  auth : AuthCall
  close : CloseCall
  privlvl : PrivlvlCall

namespace Exits

/-- What each of the functions needs to restore what it has saved. -/
theorem exits_restore_iff (x : Exits) : (x.send.Restores ↔ x.send.RetransmitsWell) ∧ (x.auth.Restores ↔ x.auth.Fits) ∧
    (x.close.Restores ↔ x.close.Fits) ∧ x.privlvl.Restores :=
  ⟨x.send.timeout_iff, x.auth.flag_iff, x.close.flag_iff, x.privlvl.restores⟩

/-- The second transmission of a request fails, and a BMC that does not answer commands. -/
def silent : Exits where
  send := ⟨.ipmi, false, [⟨true, true, .null, 1⟩, ⟨true, false, .null, 0⟩], 1⟩
  auth := ⟨true, none, none⟩
  close := ⟨true, true, none⟩
  privlvl := ⟨4, true, none⟩

/-- The timeout is left at 2 seconds, and `bridgePossible` cleared. -/
theorem silent_not_restores : ¬ silent.send.Restores ∧ ¬ silent.auth.Restores ∧ ¬ silent.close.Restores := by
  unfold SendCall.Restores AuthCall.Restores CloseCall.Restores
  decide

end Exits

/-! ### The loop of an interface -/

def Request.kind : Request → PayloadKind
  | ipmi _ => .ipmi
  | openSession _ => .openRequest
  | rakp1 _ => .rakp1
  | rakp3 _ => .rakp3

/-- What the parts of a turn leave as it is. -/
structure Link.Has (timeout : Nat) (noanswer bridgePossible : Bool) (l : Link) : Prop where
  timeout_eq : l.timeout = timeout
  noanswer_eq : l.noanswer = noanswer
  bridgePossible_eq : l.intf.bridgePossible = bridgePossible

section Parts
variable (w : World) {timeout : Nat} {noanswer bridgePossible : Bool}

theorem pollReplyFrom_has : ∀ arrivals : List Arrival,
    Keeps (Link.Has timeout noanswer bridgePossible) (pollReplyFrom w arrivals) := by
  have hpoll : ∀ a, Keeps (Link.Has timeout noanswer bridgePossible) (pollSingle w a) := by
    intro a l h
    have hlink := pollSingle_link w a l
    cases hrun : ipmiLanPollSingle (l.env w) a l.rx with
    | ok p rx =>
      rw [hrun] at hlink
      exact (ends_ok hlink).2 ⟨h.timeout_eq, h.noanswer_eq, h.bridgePossible_eq⟩
    | error e rx =>
      rw [hrun] at hlink
      exact (ends_error hlink).2 ⟨h.timeout_eq, h.noanswer_eq, h.bridgePossible_eq⟩
  intro arrivals
  induction arrivals with
  | nil => exact .pure _
  | cons a rest ih =>
    refine .bind (.modify fun _ h => ⟨h.timeout_eq, h.noanswer_eq, h.bridgePossible_eq⟩) fun _ =>
      .bind (hpoll a) fun p => ?_
    cases p with
    | null => exact .pure _
    | again => exact ih
    | rsp => exact .bind .get fun l => .ite ih (.pure _)

theorem pollReply_has : Keeps (Link.Has timeout noanswer bridgePossible) (pollReply w) :=
  .bind .get fun l => pollReplyFrom_has w l.arrivals

theorem buildV2xMsg_has (payload : V2Payload) (iv : List UInt8) (currSeq : UInt8) :
    Keeps (Link.Has timeout noanswer bridgePossible) (buildV2xMsg w payload iv currSeq) := by
  intro l h
  unfold buildV2xMsg
  rw [ends_get_bind]
  cases hbuild : ipmiLanplusBuildV2xMsg w.crypto l.intf payload iv currSeq with
  | none => exact h
  | some built =>
    -- the builder only counts the sequence number
    have hintf : built.2 = { l.intf with outSeq := nextOutSeq l.intf.outSeq } := by
      simp only [ipmiLanplusBuildV2xMsg, Option.bind_eq_bind] at hbuild
      split at hbuild
      all_goals
        obtain ⟨_, -, hbuild⟩ := Option.bind_eq_some_iff.1 hbuild
        obtain ⟨_, -, hbuild⟩ := Option.bind_eq_some_iff.1 hbuild
        rw [← Option.some.inj hbuild]
    refine ⟨h.timeout_eq, h.noanswer_eq, ?_⟩
    show built.2.bridgePossible = bridgePossible
    rw [hintf]
    exact h.bridgePossible_eq

theorem turnEntry_has (req : IpmiRq) (isRetry : Bool) (a : Attempt) (sent : Option Nat) :
    Keeps (Link.Has timeout noanswer bridgePossible) (turnEntry w req isRetry a sent) := by
  have hmodify : ∀ {f : Link → Link}, (∀ l, (f l).timeout = l.timeout ∧ (f l).noanswer = l.noanswer ∧
      (f l).intf = l.intf) → Keeps (Link.Has timeout noanswer bridgePossible) (modify f : Tx PUnit) := by
    intro f hf
    refine .modify fun l h => ?_
    obtain ⟨htimeout, hnoanswer, hintf⟩ := hf l
    exact ⟨htimeout.trans h.timeout_eq, hnoanswer.trans h.noanswer_eq, by rw [hintf]; exact h.bridgePossible_eq⟩
  have hadd : ∀ entry, Keeps (Link.Has timeout noanswer bridgePossible) (ipmiReqAddEntry entry) := fun entry =>
    .bind .get fun l => .bind (hmodify fun _ => ⟨rfl, rfl, rfl⟩) fun _ => .pure _
  have hnote : ∀ keys, Keeps (Link.Has timeout noanswer bridgePossible) (noteKeys keys) := fun keys =>
    hmodify fun _ => ⟨rfl, rfl, rfl⟩
  have hbuild : Keeps (Link.Has timeout noanswer bridgePossible) (buildIpmiCmd w req isRetry a) := by
    refine .bind .get fun l => .ite ?_ ?_
    · -- a v1.5 message
      refine .ite (.pure _) (.bind (hnote _) fun _ => .bind (hadd _) fun _ => ?_)
      exact .ite (.pure _) (.bind .get fun _ => .pure _)
    · refine .bind (hmodify fun _ => ⟨rfl, rfl, rfl⟩) fun _ => .bind .get fun l => ?_
      refine .ite (.pure _) (.bind (hnote _) fun _ => .bind (hadd _) fun _ => ?_)
      exact .bind (buildV2xMsg_has w _ _ _) fun _ => .pure _
  cases sent with
  | some entry => exact .pure _
  | none =>
    refine .bind hbuild fun built => ?_
    cases built with
    | none => exact .pure _
    | some built =>
      exact .bind (.bind (hmodify fun _ => ⟨rfl, rfl, rfl⟩) fun _ => .pure _) fun _ => .ite (.pure _) (.pure _)

end Parts

/-- The loop ends as the one that only follows the timeout, with some turns. -/
def Follows (k : PayloadKind) (noanswer bridgePossible xmit : Bool) (timeout : Nat) (e : LoopEnd) (l : Link) : Prop :=
  l.intf.bridgePossible = bridgePossible ∧
    ∃ turns, sendLoop k noanswer xmit turns timeout = (decide (e = .returnNull), l.timeout)

section Refines
variable (w : World) {noanswer bridgePossible : Bool}

/-- A part that keeps the timeout, in a loop that changes it. -/
theorem has_triple {α : Type} {m : Tx α} {timeout : Nat} (h : Keeps (Link.Has timeout noanswer bridgePossible) m) :
    Triple (fun _ => True) (Link.Has timeout noanswer bridgePossible) m fun _ =>
      Link.Has timeout noanswer bridgePossible :=
  h.triple.error fun _ _ => trivial

/-- A turn without an answer leads to the next one. -/
theorem sendLoop_waits (xmit : Bool) (elapsed : Int) (turns : List SendTurn) (timeout : Nat) :
    sendLoop .ipmi false xmit (⟨true, true, .null, elapsed⟩ :: turns) timeout =
      if (timeout : Int) ≤ elapsed then sendLoop .ipmi false true turns (timeout + 1)
      else sendLoop .ipmi false false turns timeout := by
  have hstays : SendTurn.leaves ⟨true, true, .null, elapsed⟩ .ipmi false = false := rfl
  have hforced : PayloadKind.forcesNoRetry .ipmi = false := rfl
  rw [sendLoop, if_neg (by simp [SendTurn.fails]), hstays, if_neg Bool.false_ne_true, hforced]
  simp only [Bool.false_eq_true, if_false, SendTurn.timeUp, decide_eq_true_eq]
  split
  · rename_i hup
    rw [decide_eq_true hup]
  · rename_i hup
    rw [decide_eq_false hup]

/-- One turn, and then the turns of the rest. -/
theorem ipmiTurns_follows (req : IpmiRq) (attempts : List Attempt) : ∀ (isRetry : Bool) (sent : Option Nat)
    (timeout : Nat), Triple (fun _ => True) (Link.Has timeout noanswer bridgePossible)
      (ipmiTurns w req isRetry sent attempts) (Follows .ipmi noanswer bridgePossible sent.isNone timeout) := by
  induction attempts with
  | nil =>
    intro isRetry sent timeout
    exact .pure fun l h => ⟨h.bridgePossible_eq, [], by rw [sendLoop, h.timeout_eq]; rfl⟩
  | cons a rest ih =>
    intro isRetry sent timeout
    have hentry : Triple (fun _ => True) (Link.Has timeout noanswer bridgePossible) (turnEntry w req isRetry a sent)
        fun entry l => l.Has timeout noanswer bridgePossible ∧ (entry = none → sent = none) := by
      cases sent with
      | some entry => exact .pure fun l h => ⟨h, nofun⟩
      | none => exact (has_triple (turnEntry_has w req isRetry a none)).post fun _ l h => ⟨h, fun _ => rfl⟩
    refine .bind hentry fun entry => ?_
    cases entry with
    | none =>
      refine .pure fun l h => ⟨h.1.bridgePossible_eq, [⟨false, true, .null, 0⟩], ?_⟩
      rw [h.2 rfl, h.1.timeout_eq]
      rfl
    | some entry =>
      have hends : ∀ answer, SendTurn.leaves ⟨true, true, answer, 0⟩ .ipmi noanswer = true →
          sendLoop .ipmi noanswer sent.isNone [⟨true, true, answer, 0⟩] timeout = (false, timeout) := by
        intro answer hleaves
        rw [sendLoop, if_neg (by simp [SendTurn.fails]), if_pos hleaves]
      refine .get_bind fun l hl => .ite (fun hno => .pure ?_) fun hno => ?_
      · rintro _ rfl
        have hnoanswer := hl.1.noanswer_eq.symm.trans hno
        refine ⟨hl.1.bridgePossible_eq, [⟨true, true, .null, 0⟩], ?_⟩
        rw [hends .null (by simp [SendTurn.leaves, hnoanswer]), hl.1.timeout_eq]
        rfl
      · obtain rfl : noanswer = false := hl.1.noanswer_eq.symm.trans (Bool.eq_false_iff.2 hno)
        have hkeeps : Keeps (Link.Has timeout false bridgePossible) (pollReply w) := pollReply_has w
        refine .bind ((has_triple hkeeps).pre fun t ht => by rw [ht]; exact hl.1) fun b =>
          .ite (fun hb => .pure fun l h => ?_) fun hb => ?_
        · refine ⟨h.bridgePossible_eq, [⟨true, true, .response, 0⟩], ?_⟩
          rw [hends .response rfl, h.timeout_eq]
          rfl
        · refine .bind (.modify (Q := fun _ => Link.Has timeout false bridgePossible) fun l h =>
            ⟨h.timeout_eq, h.noanswer_eq, h.bridgePossible_eq⟩) fun _ => .get_bind fun l' hl' => ?_
          rw [hl'.timeout_eq]
          have hcons : ∀ (xmit : Bool) (next : Nat), (∀ turns, sendLoop .ipmi false sent.isNone
              (⟨true, true, .null, a.elapsed⟩ :: turns) timeout = sendLoop .ipmi false xmit turns next) →
                ∀ e l, Follows .ipmi false bridgePossible xmit next e l →
                  Follows .ipmi false bridgePossible sent.isNone timeout e l :=
            fun xmit next hloop e l ⟨hbridge, turns, hturns⟩ => ⟨hbridge, _ :: turns, (hloop turns).trans hturns⟩
          refine .ite (fun hup => ?_) fun hup => ?_
          · refine .bind (.modify (Q := fun _ => Link.Has (timeout + 1) false bridgePossible) ?_) fun _ =>
              (ih true none (timeout + 1)).post (hcons true _ fun turns => ?_)
            · rintro _ rfl
              exact ⟨congrArg (· + 1) hl'.timeout_eq, hl'.noanswer_eq, hl'.bridgePossible_eq⟩
            · rw [sendLoop_waits, if_pos hup]
          · refine ((ih true (some entry) timeout).pre fun t ht => by rw [ht]; exact hl').post
              (hcons false _ fun turns => ?_)
            rw [sendLoop_waits, if_neg hup]

/-- A message of the handshake has one turn. -/
theorem handshakeTurn_follows (k : PayloadKind) (hk : k.forcesNoRetry = true) (payload : V2Payload)
    (may : LanplusState → Bool) (sentState : LanplusState) (attempts : List Attempt) (timeout : Nat) :
    Triple (fun _ => True) (Link.Has timeout noanswer bridgePossible) (handshakeTurn w payload may sentState attempts)
      (Follows k noanswer bridgePossible true timeout) := by
  cases attempts with
  | nil => exact .pure fun l h => ⟨h.bridgePossible_eq, [], by rw [sendLoop, h.timeout_eq]; rfl⟩
  | cons a rest =>
    refine .get_bind' fun l => .ite (fun _ => .throw fun _ _ => trivial) fun _ => ?_
    have hmodify : ∀ {f : Link → Link}, (∀ l, (f l).timeout = l.timeout ∧ (f l).noanswer = l.noanswer ∧
        (f l).intf.bridgePossible = l.intf.bridgePossible) → Triple (fun _ => True)
          (Link.Has timeout noanswer bridgePossible) (modify f : Tx PUnit) fun _ =>
            Link.Has timeout noanswer bridgePossible :=
      fun hf => .modify fun l h => ⟨(hf l).1.trans h.timeout_eq, (hf l).2.1.trans h.noanswer_eq,
        (hf l).2.2.trans h.bridgePossible_eq⟩
    have hsend : ∀ msg, Triple (fun _ => True) (Link.Has timeout noanswer bridgePossible) (ipmiLanSendPacket msg a)
        fun ok l => l.Has timeout noanswer bridgePossible ∧ ok = a.sendOk := fun msg =>
      .bind (hmodify fun _ => ⟨rfl, rfl, rfl⟩) fun _ => .pure fun _ h => ⟨h, rfl⟩
    have hturn : ∀ (turn : SendTurn) (null : Bool), sendLoop k noanswer true [turn] timeout = (null, timeout) →
        ∀ (e : LoopEnd) (l : Link), decide (e = .returnNull) = null → l.Has timeout noanswer bridgePossible →
          Follows k noanswer bridgePossible true timeout e l := fun turn null hloop e l he h =>
      ⟨h.bridgePossible_eq, [turn], by rw [hloop, he, h.timeout_eq]⟩
    -- whatever the turn receives, nothing is added that is not taken back
    have hquiet : sendLoop k noanswer true [⟨true, true, .null, -1⟩] timeout = (false, timeout) := by
      have hearly : SendTurn.timeUp ⟨true, true, .null, -1⟩ timeout = false := by
        refine decide_eq_false ?_
        show ¬ (timeout : Int) ≤ -1
        omega
      rw [sendLoop, if_neg (by simp [SendTurn.fails]), hk, hearly]
      split <;> rfl
    refine .bind (has_triple (buildV2xMsg_has w payload a.iv 0)) fun msg => .bind (hsend msg) fun ok => ?_
    refine .ite (fun hfails => .pure fun l h => ?_) fun hsent => .ite (fun hno => .pure fun l h => ?_) fun _ => ?_
    · -- `send` fails
      refine hturn ⟨true, false, .null, 0⟩ true ?_ _ l rfl h.1
      rw [sendLoop, if_pos (by simp [SendTurn.fails])]
    · -- no answer is expected
      exact hturn _ _ hquiet _ l rfl h.1
    · refine .bind (Q := fun _ => Link.Has timeout noanswer bridgePossible) (.modify fun l h => ?_) fun _ => ?_
      · exact ⟨h.1.timeout_eq, h.1.noanswer_eq, h.1.bridgePossible_eq⟩
      · exact .bind (has_triple (pollReply_has w)) fun b => .pure fun l h => hturn _ _ hquiet _ l rfl h

theorem sendTurns_follows (request : Request) (attempts : List Attempt) (timeout : Nat) :
    Triple (fun _ => True) (Link.Has timeout noanswer bridgePossible) (sendTurns w attempts request)
      (Follows request.kind noanswer bridgePossible true timeout) := by
  cases request with
  | ipmi req => exact ipmiTurns_follows w req attempts false none timeout
  | openSession request =>
    exact handshakeTurn_follows w .openRequest rfl (.openSessionRequest request) mayOpenSession .openSessionSent
      attempts timeout
  | rakp1 message =>
    exact handshakeTurn_follows w .rakp1 rfl (.rakp1Message message) (· == .openSessionReceived) .rakp1Sent
      attempts timeout
  | rakp3 message =>
    exact handshakeTurn_follows w .rakp3 rfl (.rakp3Message message) (· == .rakp2Received) .rakp3Sent
      attempts timeout

end Refines

/-- A call on `l` has returned to `l'`: with the timeout of a call that is only followed for it, and with
`bridgePossible` as it was. -/
def Link.AfterCall (request : Request) (l l' : Link) : Prop :=
  l'.intf.bridgePossible = l.intf.bridgePossible ∧
    ∃ turns, l'.timeout = SendCall.after ⟨request.kind, l.noanswer, turns, l.timeout⟩

theorem ipmiLanplusSendPayload_afterCall (w : World) (request : Request) (attempts : List Attempt) (l : Link) :
    Triple (fun _ => True) (fun t => t = l) (ipmiLanplusSendPayload w request attempts) fun _ =>
      Link.AfterCall request l := by
  refine .bind (.modify (Q := fun _ => Link.Has l.timeout l.noanswer l.intf.bridgePossible) ?_) fun _ => ?_
  · rintro _ rfl
    exact ⟨rfl, rfl, rfl⟩
  refine .get_bind fun t ht => .bind (Q := fun e => Follows request.kind l.noanswer l.intf.bridgePossible true
    l.timeout e) ((sendTurns_follows w request attempts l.timeout).pre ?_) fun e => ?_
  · rintro _ rfl
    exact ht
  rw [ht.timeout_eq]
  have hnote : Triple (fun _ => True) (Link.AfterCall request l) noteReturn fun _ => Link.AfterCall request l :=
    .modify fun _ h => h
  cases e with
  | returnNull =>
    refine .bind (hnote.pre ?_) fun _ => .pure fun _ h => h
    rintro l' ⟨hbridge, turns, hturns⟩
    exact ⟨hbridge, turns, by rw [SendCall.after, hturns]; rfl⟩
  | leave rsp =>
    refine .bind (.modify (Q := fun _ => Link.AfterCall request l) ?_) fun _ => ?_
    · rintro l' ⟨hbridge, turns, hturns⟩
      exact ⟨hbridge, turns, by rw [SendCall.after, hturns]; rfl⟩
    · cases rsp with
      | true =>
        exact .bind (.modify (Q := fun _ => Link.AfterCall request l) fun _ h => h) fun _ =>
          .bind hnote fun _ => .pure fun _ h => h
      | false => exact .bind hnote fun _ => .pure fun _ h => h

end KTools.Lanplus
