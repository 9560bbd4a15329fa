import KTools.Sol.Frame

/-!
# How a SOL session ends

Once the BMC has accepted Activate Payload, its SOL payload stays active until it is deactivated, and the
terminal stays in raw mode until `leave_raw_mode`. `ipmi_sol_activate` and `ipmi_sol_red_pill` restore both at
the end of the loop, but not where they return early: after a response of the wrong length or for another port,
without memory for the buffer, and when `select` fails.
-/

namespace KTools.Sol
open KTools.Lanplus KTools.Lib

/-- A call of `ipmi_sol_activate`, with no SOL payload active before. -/
structure SolActivate extends Activation where
  console : Console
  deactivations_nil : console.deactivations = []
  not_closed : sessionClosed ∉ console.messages
  not_raw : console.inRawMode = false

/-- The session of the instance is over: the request to deactivate it has been attempted, unless the BMC has
closed the session, and the terminal is not in raw mode. -/
def Restored (inst : Int) : EStateM.Result Stop Console Int → Prop
  | .ok _ c => inst ∈ c.deactivations ∧ c.inRawMode = false
  | .error (.exit _) c => (inst ∈ c.deactivations ∨ sessionClosed ∈ c.messages) ∧ c.inRawMode = false
  | .error (.unfinished _) _ => True

namespace SolActivate

/-- The BMC accepts Activate Payload with the response `rsp`; `c` is the console behind it. -/
structure Accepted (x : SolActivate) (rsp : Rs) (c : Console) : Prop where
  name : x.env.name = "lanplus"
  inst : 0 < x.inst ∧ x.inst ≤ 15
  reply : sendrecv x.env x.console = .ok (some rsp) c
  ccode : rsp.ccode = 0

/-- An accepted payload is deactivated and the terminal restored, however the call ends. -/
def Restores (x : SolActivate) : Prop :=
  ∀ rsp c, x.Accepted rsp c → Restored x.inst (ipmiSolActivate x.toActivation x.console)

def SelectFails (x : SolActivate) (rsp : Rs) (c : Console) : Prop :=
  ∃ pre t post, x.turns = pre ++ t :: post ∧ t.select = .error ∧
    CallsSelect x.env (bufferSizeOf (rsp.word 4)) .start (c.entered x.env x.now) pre t

end SolActivate

/-! ### Behind the loop -/

section finish
variable {e : Env} {inst : Int}

theorem ipmiSolDeactivate_run (hinst : 0 < inst ∧ inst ≤ 15) (c : Console) :
    Returns (ipmiSolDeactivate e inst) c fun _ c' =>
      inst ∈ c'.deactivations ∧ c'.inRawMode = c.inRawMode := by
  unfold ipmiSolDeactivate
  rw [if_neg (by omega)]
  obtain ⟨rsp, c', hrun, hbeside⟩ := beside_sendrecv (Q := AnyRequest) e
    { c with deactivations := c.deactivations ++ [inst] }
  refine ⟨⟨⟩, c', ?_, ?_, hbeside.inRawMode⟩
  · exact (bind_ok (show noteDeactivation inst c = _ from rfl)).trans (bind_ok hrun)
  · rw [hbeside.deactivations]
    exact List.mem_append_right _ (List.mem_singleton_self inst)

theorem finish_restored (hinst : 0 < inst ∧ inst ≤ 15) (l : Loop) (c : Console) :
    Restored inst (finish e inst l c) ∧ ∀ result c', finish e inst l c = .ok result c' → result = 0 := by
  unfold finish
  rw [bind_ok (show leaveRawMode c = _ from rfl)]
  by_cases hkeepalive : l.keepAliveRet ≠ 0
  · rw [if_pos hkeepalive, bind_ok (show print _ _ = _ from rfl)]
    obtain ⟨_, c', hrun, hmem, hraw⟩ := ipmiSolDeactivate_run (e := e) hinst { c with
      inRawMode := false, messages := c.messages ++ ["Error: No response to keepalive - Terminating session"] }
    rw [bind_ok hrun]
    exact ⟨⟨.inl hmem, hraw⟩, fun _ _ h => by cases h⟩
  · rw [if_neg hkeepalive]
    by_cases hclosed : l.bmcClosedSession = true
    · rw [if_pos hclosed, bind_ok (show print _ _ = _ from rfl)]
      exact ⟨⟨.inr (List.mem_append_right _ (List.mem_singleton_self _)), rfl⟩, fun _ _ h => by cases h⟩
    · rw [if_neg hclosed]
      obtain ⟨_, c', hrun, hmem, hraw⟩ := ipmiSolDeactivate_run (e := e) hinst { c with inRawMode := false }
      rw [bind_ok hrun]
      refine ⟨⟨hmem, hraw⟩, fun result c'' h => ?_⟩
      exact (EStateM.Result.ok.inj h).1.symm

end finish

section session
variable {x : SolActivate} {rsp : Rs} {c : Console}

theorem SolActivate.Accepted.run (h : x.Accepted rsp c) :
    ipmiSolActivate x.toActivation x.console = runSession x.toActivation rsp c := by
  have hinst := h.inst
  unfold ipmiSolActivate
  rw [if_neg (not_not_intro h.name), if_neg (by omega), bind_ok h.reply]
  dsimp only
  rw [if_neg (not_not_intro h.ccode)]

theorem SolActivate.Accepted.beside (h : x.Accepted rsp c) :
    c.deactivations = [] ∧ sessionClosed ∉ c.messages ∧ c.inRawMode = false := by
  obtain ⟨r, c', hrun, hbeside⟩ := beside_sendrecv (Q := AnyRequest) x.env x.console
  obtain ⟨-, rfl⟩ := EStateM.Result.ok.inj (hrun.symm.trans h.reply)
  refine ⟨hbeside.deactivations.trans x.deactivations_nil, ?_, hbeside.inRawMode.trans x.not_raw⟩
  rw [hbeside.messages]
  exact x.not_closed

theorem not_restored {inst result : Int} {c : Console} (h : c.deactivations = []) :
    ¬ Restored inst (.ok result c) := by
  rintro ⟨hmem, -⟩
  rw [h] at hmem
  exact absurd hmem List.not_mem_nil

theorem redPillLoop_error {e : Env} {bufferSize : Nat} (turns : List Turn) : ∀ {l : Loop} {c c' : Console}
    {stop : Stop}, redPillLoop e bufferSize turns l c = .error stop c' → ∃ l', stop = .unfinished l' := by
  induction turns with
  | nil =>
    intro l c c' stop h
    cases hl : l.shouldExit with
    | true =>
      rw [redPillLoop_exit hl] at h
      cases h
    | false =>
      rw [redPillLoop_nil hl] at h
      cases h
      exact ⟨l, rfl⟩
  | cons t rest ih =>
    intro l c c' stop h
    cases loopTurn e bufferSize t l c with
    | ended hl =>
      rw [redPillLoop_exit hl] at h
      cases h
    | exits hl hkeepalive hl₁ =>
      rw [redPillLoop_cons_exit hl hkeepalive hl₁] at h
      cases h
    | fails hl hkeepalive hl₁ hselect =>
      rw [redPillLoop_cons_none hl hkeepalive hl₁ hselect] at h
      cases h
    | goesOn hl hkeepalive hl₁ hselect =>
      rw [redPillLoop_cons hl hkeepalive hl₁ hselect] at h
      exact ih h

theorem selectStep_some {e : Env} {bufferSize : Nat} {t : Turn} (h : t.select ≠ .error) (l : Loop)
    (c : Console) : Returns (selectStep e bufferSize t l) c fun r _ => r ≠ none := by
  unfold selectStep
  cases hselect : t.select with
  | error => exact absurd hselect h
  | timeout => exact .pure (Option.some_ne_none _)
  | ready fds =>
    refine .ite (fun _ => ?_) fun _ => .ite (fun _ => ?_) fun _ => ?_
    · exact (turned_readStdin e bufferSize t l c).bind fun _ _ _ => .pure (Option.some_ne_none _)
    · exact (quiet_readBmc e l c).bind fun _ _ _ => .pure (Option.some_ne_none _)
    · exact ⟨_, _, rfl, Option.some_ne_none _⟩

/-- Without a failure of `select`, the red pill restores the session. -/
theorem redPill_restored {e : Env} {inst : Int} (hinst : 0 < inst ∧ inst ≤ 15) (size : Nat) (now : Int)
    (turns : List Turn) (hselect : ∀ pre t post, turns = pre ++ t :: post → t.select = .error →
      ¬ CallsSelect e (bufferSizeOf size) .start (c.entered e now) pre t) :
    Restored inst (ipmiSolRedPill e inst size true now turns c) ∧
      ∀ result c', ipmiSolRedPill e inst size true now turns c = .ok result c' → result = 0 := by
  have hloop := redPillLoop_avoids (bufferSizeOf size) (e := e) (I := fun _ => True) (P := fun r => r ≠ none)
    (B := fun t => t.select = .error)
    (fun t l c _ => (quiet_keepaliveStep e t l c).mono fun _ _ _ => trivial)
    (fun t l c hbad _ => (selectStep_some hbad l c).mono fun _ _ hr => ⟨trivial, hr⟩)
    (fun _ => Option.some_ne_none _) turns .start (c.entered e now) trivial hselect (c.entered e now) rfl
  rw [ipmiSolRedPill_loop]
  cases hrun : redPillLoop e (bufferSizeOf size) turns .start (c.entered e now) with
  | error stop c' =>
    obtain ⟨l, rfl⟩ := redPillLoop_error turns hrun
    have herror : (redPillLoop e (bufferSizeOf size) turns .start >>= afterLoop e inst) (c.entered e now) =
        .error (.unfinished l) c' := by
      simp only [Bind.bind, EStateM.bind, hrun]
    rw [herror]
    exact ⟨trivial, fun _ _ h => by cases h⟩
  | ok r c' =>
    rw [hrun] at hloop
    rw [bind_ok hrun]
    obtain ⟨l, rfl⟩ := Option.ne_none_iff_exists'.1 hloop.2
    exact finish_restored hinst l c'

/-- A failure of `select` returns -1 with the payload still active. -/
theorem redPill_selectFails {e : Env} (inst : Int) {size : Nat} {now : Int} {pre : List Turn} {t : Turn}
    (post : List Turn) (hselect : t.select = .error) (hc : c.deactivations = [])
    (hcalls : CallsSelect e (bufferSizeOf size) .start (c.entered e now) pre t) :
    ∃ c', ipmiSolRedPill e inst size true now (pre ++ t :: post) c = .ok (-1) c' ∧ c'.deactivations = [] := by
  obtain ⟨l₁, c₁, l₂, c₂, hpre, hkeepalive, hl₂⟩ := hcalls
  obtain ⟨hl₁, hrest⟩ := redPillLoop_append hpre
  have hfails : selectStep e (bufferSizeOf size) t l₂ c₂ =
      .ok none { c₂ with messages := c₂.messages ++ ["select"] } := by
    unfold selectStep
    rw [hselect]
    rfl
  have hloop := (hrest (t :: post)).trans (redPillLoop_cons_none hl₁ hkeepalive hl₂ hfails post)
  refine ⟨{ c₂ with messages := c₂.messages ++ ["select"] }, ?_, ?_⟩
  · rw [ipmiSolRedPill_loop, bind_ok hloop]
    rfl
  · have hkept := redPillLoop_keeps (bufferSizeOf size) (e := e) (I := fun c => c.deactivations = [])
      (fun _ _ h hc => h.deactivations.trans hc) (pre ++ t :: post) .start
      (c.entered e now) hc
    exact (ends_ok hloop).1 hkept

/-- The session of an accepted payload is restored exactly where it does not return early. -/
theorem runSession_restored_iff (h : x.Accepted rsp c) : Restored x.inst (runSession x.toActivation rsp c) ↔
    rsp.dataLen = 12 ∧ rsp.portMatches x.env.port = true ∧
      (x.looptest = 1 ∨ x.mallocOk = true ∧ ¬ x.SelectFails rsp c) := by
  obtain ⟨hdeactivations, hmessages, hraw⟩ := h.beside
  unfold runSession
  by_cases hlen : rsp.dataLen = 12
  swap
  · rw [if_pos hlen]
    exact iff_of_false (not_restored hdeactivations) fun hcond => hlen hcond.1
  by_cases hport : rsp.portMatches x.env.port = true
  swap
  · rw [if_neg (not_not_intro hlen), if_pos (by simpa using hport)]
    exact iff_of_false (not_restored hdeactivations) fun hcond => hport hcond.2.1
  rw [if_neg (not_not_intro hlen), if_neg (by simpa using hport)]
  by_cases hloop : x.looptest = 1
  · rw [if_pos hloop]
    obtain ⟨_, c', hrun, hmem, hraw'⟩ := ipmiSolDeactivate_run (e := x.env) h.inst c
    rw [bind_ok hrun]
    exact iff_of_true ⟨hmem, hraw'.trans hraw⟩ ⟨hlen, hport, .inl hloop⟩
  rw [if_neg hloop]
  cases hmalloc : x.mallocOk with
  | false =>
    rw [bind_ok (ipmiSolRedPill_malloc x.inst (rsp.word 4) x.now x.turns c), if_pos (by decide)]
    refine iff_of_false (not_restored hdeactivations) ?_
    rintro ⟨-, -, hcond | hcond⟩
    · exact hloop hcond
    · exact absurd hcond.1 (by decide)
  | true =>
    by_cases hfails : x.SelectFails rsp c
    · obtain ⟨pre, t, post, hturns, hselect, hcalls⟩ := hfails
      obtain ⟨c', hrun, hc'⟩ := redPill_selectFails x.inst post hselect hdeactivations hcalls
      rw [hturns, bind_ok hrun, if_pos (by decide)]
      refine iff_of_false (not_restored hc') ?_
      rintro ⟨-, -, hcond | hcond⟩
      · exact hloop hcond
      · exact hcond.2 ⟨pre, t, post, hturns, hselect, hcalls⟩
    · obtain ⟨hrestored, hzero⟩ := redPill_restored (e := x.env) (c := c) h.inst (rsp.word 4) x.now x.turns
        fun pre t post hturns hselect hcalls => hfails ⟨pre, t, post, hturns, hselect, hcalls⟩
      refine iff_of_true ?_ ⟨hlen, hport, .inr ⟨rfl, hfails⟩⟩
      cases hrun : ipmiSolRedPill x.env x.inst (rsp.word 4) true x.now x.turns c with
      | ok result c' =>
        obtain rfl := hzero result c' hrun
        rw [bind_ok hrun, if_neg (by decide)]
        rwa [hrun] at hrestored
      | error stop c' =>
        rw [hrun] at hrestored
        simpa only [Bind.bind, EStateM.bind, hrun] using hrestored

end session

namespace SolActivate

/-- **When an accepted payload is deactivated and the terminal restored**: the response has 12 bytes and names
the port of the session, and, unless this is a loop test, there is memory for the buffer and no `select`
fails. -/
theorem restores_iff (x : SolActivate) : x.Restores ↔ ∀ rsp c, x.Accepted rsp c →
    rsp.dataLen = 12 ∧ rsp.portMatches x.env.port = true ∧
      (x.looptest = 1 ∨ x.mallocOk = true ∧ ¬ x.SelectFails rsp c) := by
  unfold Restores
  refine forall_congr' fun rsp => forall_congr' fun c => forall_congr' fun h => ?_
  rw [h.run]
  exact runSession_restored_iff h

/-- A BMC that accepts and names port 5900 for its packets. -/
def otherPort : SolActivate where
  env :=
    { name := "lanplus", fd := 3, opened := true, noanswer := false, retry := 4, port := 623
      solEscapeChar := 0x7E, intelplus := false, i82571spt := false, disableKeepalive := false
      useSolForKeepalive := false, isatty := true }
  looptest := 0
  inst := 1
  mallocOk := true
  now := 0
  turns := []
  console :=
    { polls := [some
        { number := 0, authtype := authtypeRmcpPlus, payloadtype := payloadTypeIpmi, ccode := 0
          solPacket := ⟨0, 0, 0, false, false, false, false, false⟩
          data := fun i => [0, 0, 0, 0, 255, 0, 255, 0, 0x0C, 0x17, 0, 0].getD i 0
          dataLen := 12 }]
      attempts := [], lastReceivedSequenceNumber := 0, lastReceivedByteCount := 0
      sequenceNumber := 1, startKeepalive := 0, escapePending := false, lastWasCr := true, inRawMode := false
      polled := 0, received := [], written := [], sent := [], deactivations := [], reads := []
      userInputs := [], messages := [] }
  deactivations_nil := rfl
  not_closed := by decide
  not_raw := rfl

/-- The call returns -1 with the payload active. -/
theorem otherPort_not_restores : ¬ ∀ x : SolActivate, x.Restores := by
  intro h
  have hrestored := h otherPort _ _ ⟨rfl, by decide, rfl, rfl⟩
  exact absurd hrestored.1 (by decide +kernel)

end SolActivate

end KTools.Sol
