import KTools.Sol.Frame

/-!
# The console logger only receives

The red pill of this fork leaves descriptor 0 out of the set for `select` and still tests it first. As long as
the socket has another number, nothing is read from standard input, `processSolUserInput` is not called, and
no packet with characters or a break is sent. A process that is started with standard input closed may get
descriptor 0 for its socket: then the packets of the BMC are read as user input and sent back to it.
-/

namespace KTools.Sol
open KTools.Lanplus KTools.Lib

/-- A call of `ipmi_sol_red_pill` on a console that has only received so far. -/
structure RedPill where
  env : Env
  inst : Int
  maxInboundPayloadSize : Nat
  mallocOk : Bool
  now : Int
  turns : List Turn
  console : Console
  sent_quiet : ∀ p ∈ console.sent, Quiet p
  userInputs_nil : console.userInputs = []
  reads_nil : console.reads = []

namespace RedPill

def run (x : RedPill) : SolM Int :=
  ipmiSolRedPill x.env x.inst x.maxInboundPayloadSize x.mallocOk x.now x.turns

/-- The console where the call has returned, exited, or is still running. -/
def final (x : RedPill) : Console := finalState x.run x.console

/-- **The console logger is receive-only**: there is no user input, no packet with characters or a break, and
no `read` on the socket. -/
structure ReceiveOnly (x : RedPill) : Prop where
  userInputs : x.final.userInputs = []
  sent : ∀ p ∈ x.final.sent, Quiet p
  reads : x.env.fd ∉ x.final.reads

/-- The call gets to `select` in the turn after `pre`. -/
def CallsSelect (x : RedPill) (pre : List Turn) (t : Turn) : Prop :=
  x.mallocOk = true ∧ Sol.CallsSelect x.env (bufferSizeOf x.maxInboundPayloadSize) .start
    (x.console.entered x.env x.now) pre t

end RedPill

/-! ### What only receiving leaves -/

/-- Nothing has been read meanwhile, and the packets sent are quiet. -/
structure Console.Listens (c c' : Console) : Prop where
  reads : c'.reads = c.reads
  userInputs : c'.userInputs = c.userInputs
  sent : ∃ l, c'.sent = c.sent ++ l ∧ ∀ p ∈ l, Quiet p

theorem Console.Listens.of_eq {c c' : Console} (hreads : c'.reads = c.reads)
    (hinputs : c'.userInputs = c.userInputs) (hsent : c'.sent = c.sent) : Console.Listens c c' :=
  ⟨hreads, hinputs, [], by rw [hsent, List.append_nil], List.forall_mem_nil _⟩

theorem Console.Beside.listens {c c' : Console} (h : Console.Beside Quiet c c') : Console.Listens c c' :=
  ⟨h.reads, h.userInputs, h.sent⟩

instance : IsPreorder Console Console.Listens where
  refl _ := .of_eq rfl rfl rfl
  trans c c' c'' h h' := by
    obtain ⟨l, hl, hQ⟩ := h.sent
    obtain ⟨l', hl', hQ'⟩ := h'.sent
    refine ⟨h'.reads.trans h.reads, h'.userInputs.trans h.userInputs, l ++ l', ?_, ?_⟩
    · rw [hl', hl, List.append_assoc]
    · exact List.forall_mem_append.2 ⟨hQ, hQ'⟩

theorem listens_print (message : String) : Moves Console.Listens (print message) :=
  .modify fun _ => .of_eq rfl rfl rfl

theorem listens_ipmiSolDeactivate (e : Env) (inst : Int) :
    Moves Console.Listens (ipmiSolDeactivate e inst) := by
  have hsend : Moves Console.Listens (sendrecv e) := (beside_sendrecv e).mono fun _ _ h => h.listens
  have hnote : Moves Console.Listens (noteDeactivation inst) := .modify fun _ => .of_eq rfl rfl rfl
  exact .ite (listens_print _) (hnote.bind fun _ => hsend.bind fun _ => .pure _)

/-- What listening carries on is kept behind the loop. -/
theorem keeps_finish {I : Console → Prop} (hI : ∀ c c', Console.Listens c c' → I c → I c') (e : Env)
    (inst : Int) (l : Loop) : Keeps I (finish e inst l) := by
  have hraw : Keeps I leaveRawMode := .modify fun c => hI c _ (.of_eq rfl rfl rfl)
  have hprint : ∀ message, Keeps I (print message) := fun message => (listens_print message).keeps hI
  have hdeactivate := (listens_ipmiSolDeactivate e inst).keeps hI
  refine hraw.bind fun _ => .ite ?_ (.ite ?_ ?_)
  · exact (hprint _).bind fun _ => hdeactivate.bind fun _ => .throw _
  · exact (hprint _).bind fun _ => .throw _
  · exact hdeactivate.bind fun _ => .pure _

/-- Nothing has been read from the user or sent to the BMC. -/
structure Console.Silent (c : Console) : Prop where
  userInputs : c.userInputs = []
  reads : c.reads = []
  sent : ∀ p ∈ c.sent, Quiet p

theorem Console.Listens.silent {c c' : Console} (h : Console.Listens c c') (hc : c.Silent) : c'.Silent := by
  obtain ⟨l, hl, hQ⟩ := h.sent
  refine ⟨h.userInputs.trans hc.userInputs, h.reads.trans hc.reads, ?_⟩
  rw [hl]
  exact List.forall_mem_append.2 ⟨hc.sent, hQ⟩

namespace RedPill
variable {x : RedPill}

/-- In the turn, standard input is read. -/
def ReadsStdin (e : Env) (t : Turn) : Prop := e.fd = 0 ∧ ∃ fds, t.select = .ready fds ∧ 0 ∈ fds

theorem mem_readFds {fd : Nat} {fds : List Nat} : 0 ∈ [fd].filter (fun fd => fds.contains fd) ↔
    fd = 0 ∧ 0 ∈ fds := by
  rw [List.mem_filter, List.mem_singleton]
  constructor
  · rintro ⟨rfl, h⟩
    exact ⟨rfl, List.contains_iff_mem.1 h⟩
  · rintro ⟨rfl, h⟩
    exact ⟨rfl, List.contains_iff_mem.2 h⟩

/-- A turn that does not read standard input only listens. -/
theorem listens_selectStep {e : Env} {t : Turn} (h : ¬ ReadsStdin e t) (bufferSize : Nat) (l : Loop) :
    Moves Console.Listens (selectStep e bufferSize t l) := by
  unfold selectStep
  cases hselect : t.select with
  | error => exact (listens_print _).bind fun _ => .pure _
  | timeout => exact .pure _
  | ready fds =>
    have hnot : ¬ 0 ∈ [e.fd].filter (fun fd => fds.contains fd) := fun hmem =>
      h ⟨(mem_readFds.1 hmem).1, fds, hselect, (mem_readFds.1 hmem).2⟩
    dsimp only
    rw [if_neg hnot]
    refine .ite ?_ ((listens_print _).bind fun _ => .pure _)
    exact ((quiet_readBmc e l).mono fun _ _ hb => hb.listens).bind fun _ => .pure _

theorem keeps_afterLoop {I : Console → Prop} (hI : ∀ c c', Console.Listens c c' → I c → I c') (e : Env)
    (inst : Int) (l : Option Loop) : Keeps I (afterLoop e inst l) := by
  cases l with
  | none => exact .pure _
  | some l => exact keeps_finish hI e inst l

theorem run_of_malloc (h : x.mallocOk = true) : x.run x.console =
    (redPillLoop x.env (bufferSizeOf x.maxInboundPayloadSize) x.turns .start >>= afterLoop x.env x.inst)
      (x.console.entered x.env x.now) := by
  unfold run
  rw [h]
  exact ipmiSolRedPill_loop x.inst x.maxInboundPayloadSize x.now x.turns x.console

/-- While standard input is not read, the console stays silent. -/
theorem silent_final (h : ∀ pre t post, x.turns = pre ++ t :: post → ReadsStdin x.env t → ¬ x.CallsSelect pre t) :
    x.final.Silent := by
  by_cases hmalloc : x.mallocOk = true
  · have hloop := redPillLoop_avoids (bufferSizeOf x.maxInboundPayloadSize) (e := x.env) (I := Console.Silent)
      (P := fun _ => True) (B := ReadsStdin x.env)
      (fun t l c hc => (quiet_keepaliveStep x.env t l c).mono fun _ c' hb => hb.listens.silent hc)
      (fun t l c hbad hc => (listens_selectStep hbad _ l c).mono fun _ c' hb => ⟨hb.silent hc, trivial⟩)
      (fun _ => trivial) x.turns .start (x.console.entered x.env x.now)
      ⟨x.userInputs_nil, x.reads_nil, x.sent_quiet⟩ fun pre t post hturns hreads hcalls =>
        h pre t post hturns hreads ⟨hmalloc, hcalls⟩
    have hafter : ∀ l, Triple Console.Silent (fun c => c.Silent ∧ True) (afterLoop x.env x.inst l)
        fun _ => Console.Silent := fun l =>
      (keeps_afterLoop (fun _ _ hl hs => hl.silent hs) x.env x.inst l).triple.pre fun _ hs => hs.1
    have hends : Ends Console.Silent x.run x.console :=
      (ends_of_eq (run_of_malloc hmalloc)).2 ((hloop.bind hafter).ends (fun _ hs => hs) (fun _ _ hs => hs) rfl)
    exact hends
  · rw [Bool.not_eq_true] at hmalloc
    have hfails : Ends Console.Silent x.run x.console := by
      unfold run
      rw [hmalloc]
      exact (ends_ok (ipmiSolRedPill_malloc x.inst x.maxInboundPayloadSize x.now x.turns x.console)).2
        ⟨x.userInputs_nil, x.reads_nil, x.sent_quiet⟩
    exact hfails

/-- A turn that reads standard input leaves a `read` of descriptor 0. -/
theorem mem_reads_selectStep {e : Env} {t : Turn} (h : ReadsStdin e t) (bufferSize : Nat) (l : Loop)
    (c : Console) : Returns (selectStep e bufferSize t l) c fun _ c' => 0 ∈ c'.reads := by
  obtain ⟨hfd, fds, hselect, hmem⟩ := h
  unfold selectStep
  rw [hselect]
  dsimp only
  rw [if_pos (mem_readFds.2 ⟨hfd, hmem⟩)]
  have hread : Returns (readStdin e bufferSize t l) c fun _ c' => 0 ∈ c'.reads := by
    obtain ⟨l', c', hrun, hturned⟩ := turned_processRead e bufferSize l t.input { c with reads := c.reads ++ [0] }
    exact ⟨l', c', hrun, hturned.reads.mem (List.mem_append_right _ (List.mem_singleton_self 0))⟩
  exact hread.bind fun _ _ hc => .pure hc

theorem mem_reads_final {pre post : List Turn} {t : Turn} (hturns : x.turns = pre ++ t :: post)
    (hreads : ReadsStdin x.env t) (hcalls : x.CallsSelect pre t) : 0 ∈ x.final.reads := by
  obtain ⟨hmalloc, l₁, c₁, l₂, c₂, hpre, hkeepalive, hl₂⟩ := hcalls
  obtain ⟨hl₁, hrest⟩ := redPillLoop_append hpre
  have hturned : ∀ c c', Console.Turned c c' → 0 ∈ c.reads → 0 ∈ c'.reads := fun c c' h hmem => h.reads.mem hmem
  have hloop : Ends (fun c => 0 ∈ c.reads) (redPillLoop x.env (bufferSizeOf x.maxInboundPayloadSize) x.turns
      .start) (x.console.entered x.env x.now) := by
    rw [hturns]
    apply (ends_of_eq (hrest (t :: post))).2
    obtain ⟨r, c₃, hselect, hmem⟩ := mem_reads_selectStep hreads (bufferSizeOf x.maxInboundPayloadSize) l₂ c₂
    cases r with
    | none => exact (ends_ok (redPillLoop_cons_none hl₁ hkeepalive hl₂ hselect post)).2 hmem
    | some l₃ =>
      exact (ends_of_eq (redPillLoop_cons hl₁ hkeepalive hl₂ hselect post)).2
        (redPillLoop_keeps _ hturned post l₃ c₃ hmem)
  have hends : Ends (fun c => 0 ∈ c.reads) x.run x.console := by
    apply (ends_of_eq (run_of_malloc hmalloc)).2
    exact Keeps.ends_bind hloop (keeps_afterLoop (fun _ _ h hmem => h.reads.symm ▸ hmem) x.env x.inst)
  exact hends

/-- **When the console logger only receives**: the socket is not descriptor 0, or `select` never reports it
ready. -/
theorem receiveOnly_iff (x : RedPill) : x.ReceiveOnly ↔ (x.env.fd = 0 →
    ∀ pre t post fds, x.turns = pre ++ t :: post → t.select = .ready fds → 0 ∈ fds → ¬ x.CallsSelect pre t) := by
  constructor
  · intro h hfd pre t post fds hturns hselect hmem hcalls
    have hread := mem_reads_final hturns ⟨hfd, fds, hselect, hmem⟩ hcalls
    rw [← hfd] at hread
    exact h.reads hread
  · intro h
    have hsilent : x.final.Silent := by
      apply silent_final
      rintro pre t post hturns ⟨hfd, fds, hselect, hmem⟩ hcalls
      exact h hfd pre t post fds hturns hselect hmem hcalls
    exact ⟨hsilent.userInputs, hsilent.sent, by rw [hsilent.reads]; exact List.not_mem_nil⟩

/-- The session's socket got descriptor 0, and a datagram comes whose first byte is `A`. -/
def stdinClosed : RedPill where
  env :=
    { name := "lanplus", fd := 0, opened := true, noanswer := false, retry := 4, port := 623
      solEscapeChar := 0x7E, intelplus := false, i82571spt := false, disableKeepalive := false
      useSolForKeepalive := false, isatty := false }
  inst := 1
  maxInboundPayloadSize := 255
  mallocOk := true
  now := 0
  turns := [⟨0, 0, .ready [0], some [65]⟩]
  console :=
    { polls := [], attempts := [], lastReceivedSequenceNumber := 0, lastReceivedByteCount := 0
      sequenceNumber := 1, startKeepalive := 0, escapePending := false, lastWasCr := true, inRawMode := false
      polled := 0, received := [], written := [], sent := [], deactivations := [], reads := []
      userInputs := [], messages := [] }
  sent_quiet := List.forall_mem_nil _
  userInputs_nil := rfl
  reads_nil := rfl

/-- The datagram is sent to the BMC as characters for the console. -/
theorem stdinClosed_not_receiveOnly : ¬ ∀ x : RedPill, x.ReceiveOnly := by
  intro h
  have hsent := (h stdinClosed).sent
  exact absurd hsent (by decide +kernel)

end RedPill

end KTools.Sol
