import KTools.Hpm.Upload

/-!
# Rules for the commands

What a command leaves as it is: it hands its own request to the board and requests for the status, and notes nothing
unless it is a block (`Keeps (On J)`). What it uses up: at least one answer, and it stops only where nothing more
comes (`Consumes`), so that no loop runs out of turns before the answers do.
-/

namespace KTools.Hpm
open KTools.Lib KTools.Lib.Bytes KTools.Lanplus

/-! ### What the commands hand over -/

/-- A property of the requests handed over and the uploads noted. -/
def On (J : List IpmiRq → List Upload → Prop) (s : State) : Prop := J s.sent s.uploads

/-- `J` is kept when the request is handed over. -/
def Sends (J : List IpmiRq → List Upload → Prop) (req : IpmiRq) : Prop :=
  ∀ sent uploads, J sent uploads → J (sent ++ [req]) uploads

section keeps
variable {J : List IpmiRq → List Upload → Prop} {host : Host} {intf : Intf} {cap : TargetCap}

/-- A change of the other variables. -/
theorem modify_keeps {f : State → State} (hsent : ∀ s, (f s).sent = s.sent) (huploads : ∀ s, (f s).uploads = s.uploads) :
    Keeps (On J) (modify f : HpmM PUnit) := by
  apply Keeps.modify
  intro s hs
  unfold On
  rw [hsent, huploads]
  exact hs

theorem time_keeps : Keeps (On J) (time host) := by
  refine Keeps.bind Keeps.get fun s => Keeps.bind ?_ fun _ => Keeps.pure _
  exact modify_keeps (fun _ => rfl) fun _ => rfl

theorem malloc_keeps : Keeps (On J) (malloc host) := by
  refine Keeps.bind Keeps.get fun s => Keeps.bind ?_ fun _ => Keeps.pure _
  exact modify_keeps (fun _ => rfl) fun _ => rfl

theorem reopenTurns_keeps (limit : UInt32) (opens : List Bool) :
    ∀ w, Keeps (On J) (reopenTurns host limit opens w) := by
  induction opens with
  | nil => intro w; exact Keeps.throw _
  | cons opened opens ih =>
    intro w
    refine Keeps.bind ?_ fun _ => Keeps.ite ?_ (Keeps.pure _)
    · exact modify_keeps (fun _ => rfl) fun _ => rfl
    · exact time_keeps.bind fun _ => time_keeps.bind fun _ => ih _

theorem inaccessible_keeps (w : Waited) : Keeps (On J) (w.inaccessible host) := by
  refine time_keeps.bind fun _ => Keeps.ite ?_ (Keeps.pure _)
  exact time_keeps.bind fun _ => Keeps.pure _

theorem busy_keeps (w : Waited) : Keeps (On J) (w.busy host) := by
  refine time_keeps.bind fun _ => Keeps.ite ?_ (Keeps.pure _)
  exact time_keeps.bind fun _ => Keeps.pure _

theorem noAnswer_keeps (limit : UInt32) (req : IpmiRq) (w : Waited) :
    Keeps (On J) (noAnswer host intf limit req w) := by
  refine Keeps.bind Keeps.get fun s => ?_
  apply Keeps.ite (Keeps.pure _)
  apply Keeps.ite
  · -- a length error is made up
    refine Keeps.bind ?_ fun _ => Keeps.pure _
    exact modify_keeps (fun _ => rfl) fun _ => rfl
  apply Keeps.ite (Keeps.pure _)
  apply Keeps.ite
  · exact (reopenTurns_keeps _ _ _).bind fun _ => Keeps.pure _
  · exact Keeps.pure _

theorem noticed_keeps (limit : UInt32) (req : IpmiRq) (w : Waited) (answer : Option Reply) :
    Keeps (On J) (noticed host intf limit req w answer) := by
  cases answer with
  | none => exact noAnswer_keeps _ _ _
  | some r => exact Keeps.pure _

/-- The request is handed over, at least once. -/
theorem sendTurns_hands {K : List IpmiRq → List Upload → Prop} {req : IpmiRq} (hK : Sends K req)
    (limit limit' : UInt32) (answers : List (Option Reply)) :
    ∀ {J : List IpmiRq → List Upload → Prop}, (∀ sent uploads, J sent uploads → K (sent ++ [req]) uploads) →
      ∀ w, Triple (On K) (On J) (sendTurns host intf limit limit' req answers w) fun _ => On K := by
  induction answers with
  | nil =>
    intro J h w
    refine Triple.bind (Triple.modify (Q := fun _ => On K) ?_) fun _ => Triple.throw fun _ h => h
    exact fun s hs => h _ _ hs
  | cons answer answers ih =>
    intro J h w
    refine Triple.bind (Triple.modify (Q := fun _ => On K) ?_) fun _ => (noticed_keeps _ _ _ _).triple.bind fun x =>
      Triple.ite (fun _ => Triple.ite (fun _ => ?_) fun _ => Triple.pure fun _ h => h) fun _ => ?_
    · exact fun s hs => h _ _ hs
    · exact (inaccessible_keeps _).triple.bind fun _ => ih hK _
    · obtain ⟨rsp, w⟩ := x
      cases rsp with
      | none => exact Triple.pure fun _ h => h
      | some r =>
        refine Triple.ite (fun _ => Triple.ite (fun _ => ?_) fun _ => Triple.pure fun _ h => h) fun _ => ?_
        · exact (busy_keeps _).triple.bind fun _ => ih hK _
        · refine Triple.bind (Keeps.triple ?_) fun _ => Triple.pure fun _ h => h
          exact modify_keeps (fun _ => rfl) fun _ => rfl

theorem hpmfwupgSendCmd_hands {K : List IpmiRq → List Upload → Prop} {req : IpmiRq} (hK : Sends K req)
    (h : ∀ sent uploads, J sent uploads → K (sent ++ [req]) uploads) {E : State → Prop} (hJE : ∀ s, On J s → E s)
    (hKE : ∀ s, On K s → E s) : Triple E (On J) (hpmfwupgSendCmd host intf cap req) fun _ => On K :=
  (time_keeps.triple.error hJE).bind fun _ => Triple.get_bind' fun _ => (sendTurns_hands hK _ _ _ h _).error hKE

theorem hpmfwupgSendCmd_keeps {req : IpmiRq} (h : Sends J req) : Keeps (On J) (hpmfwupgSendCmd host intf cap req) :=
  fun _ hs => (hpmfwupgSendCmd_hands h h (fun _ h => h) fun _ h => h).ends (fun _ h => h) (fun _ _ h => h) hs

end keeps

/-! ### What the commands keep -/

/-- `I` does not look at the clock, the allocations and the number of retries. -/
def Aloof (I : State → Prop) : Prop :=
  ∀ (s : State) (ticks allocs errorCount : Nat), I s → I { s with ticks := ticks, allocs := allocs, errorCount := errorCount }

theorem on_aloof (J : List IpmiRq → List Upload → Prop) : Aloof (On J) := fun _ _ _ _ h => h

def statusRequest : IpmiRq := hpmRequest getUpgradeStatusCmd [picmgIdentifier]

def finishRequest (componentId : UInt8) (imageLength : UInt32) : IpmiRq :=
  hpmRequest finishFirmwareUploadCmd ([picmgIdentifier, componentId] ++ le32 imageLength)

def blockRequest (blockNumber : UInt8) (data : List UInt8) : IpmiRq :=
  hpmRequest uploadFirmwareBlockCmd ([picmgIdentifier, blockNumber] ++ data)

section commands
variable {I : State → Prop} {host : Host} {intf : Intf} {cap : TargetCap}

theorem Aloof.time (hI : Aloof I) : Keeps I (time host) := by
  refine Keeps.bind Keeps.get fun s => Keeps.bind (Keeps.modify ?_) fun _ => Keeps.pure _
  exact fun t ht => hI t _ _ _ ht

theorem Aloof.malloc (hI : Aloof I) : Keeps I (malloc host) := by
  refine Keeps.bind Keeps.get fun s => Keeps.bind (Keeps.modify ?_) fun _ => Keeps.pure _
  exact fun t ht => hI t _ _ _ ht

theorem Aloof.isRetryable (hI : Aloof I) (ccode : UInt8) : Keeps I (isRetryable ccode) := by
  refine Keeps.ite (Keeps.bind Keeps.get fun s => Keeps.bind (Keeps.modify ?_) fun _ => Keeps.pure _) (Keeps.pure _)
  exact fun t ht => hI t _ _ _ ht

theorem hpmfwupgGetUpgradeStatus_keeps (hI : Aloof I) (h : Keeps I (hpmfwupgSendCmd host intf cap statusRequest)) :
    Keeps I (hpmfwupgGetUpgradeStatus host intf cap) := by
  refine Keeps.bind h fun rsp => ?_
  cases rsp with
  | none => exact Keeps.pure _
  | some r => exact Keeps.ite (Keeps.pure _) ((hI.isRetryable _).bind fun _ => Keeps.ite (Keeps.pure _) (Keeps.pure _))

theorem waitTurns_keeps (hI : Aloof I) (h : Keeps I (hpmfwupgSendCmd host intf cap statusRequest)) (limit since : UInt32)
    (fuel : Nat) : ∀ now status, Keeps I (waitTurns host intf cap limit since fuel now status) := by
  induction fuel with
  | zero =>
    intro now status
    unfold waitTurns
    cases status with
    | none => exact Keeps.pure _
    | some code => exact Keeps.ite (Keeps.throw _) (Keeps.ite (Keeps.pure _) (Keeps.pure _))
  | succ fuel ih =>
    intro now status
    unfold waitTurns
    cases status with
    | none => exact Keeps.pure _
    | some code =>
      refine Keeps.ite ?_ (Keeps.ite (Keeps.pure _) (Keeps.pure _))
      exact hI.time.bind fun _ => (hpmfwupgGetUpgradeStatus_keeps hI h).bind fun _ => ih _ _

theorem hpmfwupgWaitLongDurationCmd_keeps (hI : Aloof I) (h : Keeps I (hpmfwupgSendCmd host intf cap statusRequest)) :
    Keeps I (hpmfwupgWaitLongDurationCmd host intf cap) :=
  hI.time.bind fun _ => Keeps.get.bind fun _ => (hpmfwupgGetUpgradeStatus_keeps hI h).bind fun _ =>
    waitTurns_keeps hI h _ _ _ _ _

theorem initiate_keeps {mask action : UInt8} (hI : Aloof I) (h : Keeps I (hpmfwupgSendCmd host intf cap statusRequest))
    (h' : Keeps I (hpmfwupgSendCmd host intf cap
      (hpmRequest initiateUpgradeActionCmd [picmgIdentifier, mask, action]))) :
    Keeps I (hpmfwupgInitiateUpgradeAction host intf cap mask action) := by
  refine Keeps.bind h' fun rsp => ?_
  cases rsp with
  | none => exact Keeps.pure _
  | some r => exact Keeps.ite (hpmfwupgWaitLongDurationCmd_keeps hI h) (Keeps.ite (Keeps.pure _) (Keeps.pure _))

theorem blockResult_keeps (hI : Aloof I) (h : Keeps I (hpmfwupgSendCmd host intf cap statusRequest)) (ccode : UInt8) :
    Keeps I (blockResult host intf cap ccode) := by
  refine Keeps.ite (hpmfwupgWaitLongDurationCmd_keeps hI h) (Keeps.ite ?_ (Keeps.pure _))
  exact (hI.isRetryable _).bind fun _ => Keeps.ite (Keeps.pure _) (Keeps.ite (Keeps.pure _) (Keeps.pure _))

/-- A block keeps what its commands keep, and is the one that was to be sent. -/
theorem uploadBlock_keeps {blockNumber : UInt8} {data : List UInt8} (hI : Aloof I)
    (h : Keeps I (hpmfwupgSendCmd host intf cap statusRequest))
    (h' : Keeps I (hpmfwupgSendCmd host intf cap (blockRequest blockNumber data))) :
    Triple I I (uploadBlock host intf cap blockNumber data) fun u s => u.number = blockNumber ∧ u.data = data ∧ I s := by
  refine h'.triple.bind fun rsp => ?_
  cases rsp with
  | none => exact Triple.pure fun s hs => ⟨rfl, rfl, hs⟩
  | some r => exact (blockResult_keeps hI h _).triple.bind fun rc => Triple.pure fun s hs => ⟨rfl, rfl, hs⟩

/-- What the answer to the finish request makes of the result. -/
theorem finish_triple {E P : State → Prop} {compare : Bool} {componentId : UInt8} {imageLength : UInt32} (hI : Aloof I)
    (h : Keeps I (hpmfwupgSendCmd host intf cap statusRequest))
    (h' : Triple E P (hpmfwupgSendCmd host intf cap (finishRequest componentId imageLength)) fun _ => I)
    (hE : ∀ s, I s → E s) :
    Triple E P (hpmfwupgFinishFirmwareUpload host intf cap compare componentId imageLength) fun _ => I := by
  refine Triple.bind h' fun rsp => Triple.error (Keeps.triple ?_) hE
  cases rsp with
  | none => exact Keeps.pure _
  | some r =>
    exact Keeps.ite (hpmfwupgWaitLongDurationCmd_keeps hI h) (Keeps.ite (Keeps.pure _) (Keeps.ite (Keeps.pure _)
      (Keeps.pure _)))

end commands

section notes
variable {J : List IpmiRq → List Upload → Prop} {host : Host} {intf : Intf} {cap : TargetCap}

/-- The finish request is handed over. -/
theorem finish_hands {K : List IpmiRq → List Upload → Prop} {compare : Bool} {componentId : UInt8} {imageLength : UInt32}
    (h : ∀ sent uploads, J sent uploads → K (sent ++ [finishRequest componentId imageLength]) uploads)
    (hstatus : Sends K statusRequest) (hfinish : Sends K (finishRequest componentId imageLength)) {E : State → Prop}
    (hJE : ∀ s, On J s → E s) (hKE : ∀ s, On K s → E s) :
    Triple E (On J) (hpmfwupgFinishFirmwareUpload host intf cap compare componentId imageLength) fun _ => On K :=
  finish_triple (on_aloof K) (hpmfwupgSendCmd_keeps hstatus) (hpmfwupgSendCmd_hands hfinish h hJE hKE) hKE

/-- A block: its request and the status requests are handed over, and then it is noted. -/
theorem hpmfwupgUploadFirmwareBlock_notes {blockNumber : UInt8} {data : List UInt8} (h : Sends J statusRequest)
    (h' : Sends J (blockRequest blockNumber data)) {K : Upload → List IpmiRq → List Upload → Prop}
    (hnote : ∀ u : Upload, u.number = blockNumber → u.data = data →
      ∀ sent uploads, J sent uploads → K u sent (uploads ++ [u])) :
    Triple (On J) (On J) (hpmfwupgUploadFirmwareBlock host intf cap blockNumber data) fun u => On (K u) := by
  refine (uploadBlock_keeps (on_aloof J) (hpmfwupgSendCmd_keeps h) (hpmfwupgSendCmd_keeps h')).bind fun u =>
    Triple.bind (Triple.modify (Q := fun _ => On (K u)) ?_) fun _ => Triple.pure fun s hs => hs
  exact fun s hs => hnote u hs.1 hs.2.1 _ _ hs.2.2

end notes

/-! ### What a stage keeps -/

section stage
variable {I : State → Prop} {host : Host} {intf : Intf} {up : Upgrade} {image : Nat → UInt8}

/-- What every command keeps is kept by the stage, if it does not look at the notes either. -/
structure Kept (host : Host) (intf : Intf) (cap : TargetCap) (I : State → Prop) : Prop where
  aloof : Aloof I
  notes : ∀ (s : State) uploads, I s → I { s with uploads := uploads }
  commands : ∀ req, Keeps I (hpmfwupgSendCmd host intf cap req)

theorem Kept.uploadTurns (h : Kept host intf up.cap I) (firmware : Nat → UInt8) (firmwareLength : UInt32) (fuel : Nat) :
    ∀ p, Keeps I (uploadTurns host intf up.cap firmware firmwareLength fuel p) := by
  induction fuel with
  | zero =>
    intro p
    unfold KTools.Hpm.uploadTurns
    exact Keeps.ite (Keeps.throw _) (Keeps.pure _)
  | succ fuel ih =>
    intro p
    unfold KTools.Hpm.uploadTurns
    refine Keeps.ite (Keeps.bind ?_ fun u => ih _) (Keeps.pure _)
    have hblock := @uploadBlock_keeps I host intf up.cap p.blockNumber (p.block firmware) h.aloof
      (h.commands statusRequest) (h.commands _)
    have hnote : Triple I I (hpmfwupgUploadFirmwareBlock host intf up.cap p.blockNumber (p.block firmware))
        fun _ => I := by
      refine hblock.bind fun u => Triple.bind (Triple.modify (Q := fun _ => I) ?_) fun _ => Triple.pure fun s hs => hs
      exact fun s hs => h.notes s _ hs.2.2
    exact fun s hs => hnote.ends (fun _ h => h) (fun _ _ h => h) hs

theorem Kept.initiate (h : Kept host intf up.cap I) (mask action : UInt8) :
    Keeps I (hpmfwupgInitiateUpgradeAction host intf up.cap mask action) :=
  initiate_keeps h.aloof (h.commands statusRequest) (h.commands _)

theorem Kept.uploadFirmware (h : Kept host intf up.cap I) (components componentId : UInt8) (firmware : Nat → UInt8)
    (firmwareLength : UInt32) :
    Keeps I (uploadFirmware host intf up components componentId firmware firmwareLength) := by
  refine h.aloof.malloc.bind fun ok => Keeps.ite ?_ (Keeps.pure _)
  refine (h.initiate _ _).bind fun rc => Keeps.ite ?_ (Keeps.pure _)
  refine Keeps.bind Keeps.get fun s => ?_
  refine (h.uploadTurns _ _ _ _).bind fun p => Keeps.ite ?_ (Keeps.pure _)
  have hfinish := @finish_triple I host intf up.cap I I up.compare componentId p.totalSent h.aloof
    (h.commands statusRequest) (h.commands _).triple fun _ h => h
  refine Keeps.bind ?_ fun _ => Keeps.pure _
  exact fun s hs => hfinish.ends (fun _ h => h) (fun _ _ h => h) hs

theorem Kept.recordAction (h : Kept host intf up.cap I) (pImagePtr : Nat) :
    Keeps I (recordAction host intf up image pImagePtr) := by
  have hfor : ∀ components action, Keeps I (initiateFor host intf up components action) :=
    fun _ _ => Keeps.ite (h.initiate _ _) (Keeps.pure _)
  apply Keeps.ite
  · exact (hfor _ _).bind fun _ => Keeps.pure _
  apply Keeps.ite
  · exact (hfor _ _).bind fun _ => Keeps.pure _
  apply Keeps.ite
  · apply Keeps.ite (Keeps.pure _)
    apply Keeps.ite
    · exact (h.uploadFirmware _ _ _ _).bind fun _ => Keeps.pure _
    · exact Keeps.pure _
  · exact Keeps.pure _

theorem Kept.stage (h : Kept host intf up.cap I) (imageSize : Nat) :
    Keeps I (hpmfwupgUpgradeStage host intf up image imageSize) := by
  have hturns : ∀ fuel pImagePtr, Keeps I (stageTurns host intf up image imageSize fuel pImagePtr) := by
    intro fuel
    induction fuel with
    | zero =>
      intro pImagePtr
      exact Keeps.ite (Keeps.throw _) (Keeps.pure _)
    | succ fuel ih =>
      intro pImagePtr
      apply Keeps.ite
      · refine Keeps.ite ?_ (Keeps.pure _)
        exact (h.recordAction _).bind fun x => Keeps.ite (ih _) (Keeps.pure _)
      · exact Keeps.pure _
  exact hturns _ _

end stage

/-! ### The answers that are used up -/

/-- Nothing more comes from the board. -/
def Exhausted (s : State) : Prop := s.answers = [] ∨ s.opens = []

/-- `m` uses up an answer, and stops only where nothing more comes. -/
def Consumes {α : Type} (m : HpmM α) : Prop :=
  ∀ n, Triple Exhausted (fun s => s.answers.length ≤ n) m fun _ s => s.answers.length < n

/-- `m` uses up no answer, and stops only where nothing more comes. -/
def Spares {α : Type} (m : HpmM α) : Prop :=
  ∀ answers, Triple Exhausted (fun s => s.answers = answers) m fun _ s => s.answers = answers

section consumes
variable {α β : Type} {host : Host} {intf : Intf} {cap : TargetCap}

theorem Spares.pure (a : α) : Spares (Pure.pure a) := fun _ => Triple.pure fun _ h => h

theorem Spares.modify {f : State → State} (h : ∀ s, (f s).answers = s.answers) : Spares (modify f) :=
  fun _ => Triple.modify fun s hs => (h s).trans hs

theorem Spares.get : Spares get := fun _ _ hs => hs

theorem Spares.bind {m : HpmM α} {f : α → HpmM β} (hm : Spares m) (hf : ∀ a, Spares (f a)) : Spares (m >>= f) :=
  fun answers => (hm answers).bind fun a => hf a answers

theorem Spares.ite {p : Prop} [Decidable p] {m m' : HpmM α} (hm : Spares m) (hm' : Spares m') :
    Spares (if p then m else m') :=
  fun answers => Triple.ite (fun _ => hm answers) fun _ => hm' answers

/-- The rest may use up more. -/
theorem Consumes.bind {m : HpmM α} {f : α → HpmM β} (hm : Consumes m)
    (hf : ∀ a n, Triple Exhausted (fun s => s.answers.length < n) (f a) fun _ s => s.answers.length < n) :
    Consumes (m >>= f) :=
  fun n => (hm n).bind fun a => hf a n

theorem Spares.triple {m : HpmM α} (hm : Spares m) (P : List (Option Reply) → Prop) :
    Triple Exhausted (fun s => P s.answers) m fun _ s => P s.answers :=
  fun s hs => (hm s.answers).post (fun _ t ht => by rwa [ht]) s rfl

theorem time_spares : Spares (time host) :=
  Spares.bind Spares.get fun _ => Spares.bind (Spares.modify fun _ => rfl) fun _ => Spares.pure _

theorem reopenTurns_spares (limit : UInt32) (answers : List (Option Reply)) (opens : List Bool) :
    ∀ w, Triple Exhausted (fun s => s.answers = answers ∧ s.opens = opens) (reopenTurns host limit opens w)
      fun _ s => s.answers = answers := by
  induction opens with
  | nil => intro w; exact Triple.throw fun s hs => .inr hs.2
  | cons opened opens ih =>
    intro w
    refine Triple.bind (Triple.modify (Q := fun _ s => s.answers = answers ∧ s.opens = opens) fun s hs => ⟨hs.1, rfl⟩)
      fun _ => Triple.ite (fun _ => ?_) fun _ => Triple.pure fun s hs => hs.1
    have htime : Triple Exhausted (fun s => s.answers = answers ∧ s.opens = opens) (time host)
        fun _ s => s.answers = answers ∧ s.opens = opens := fun s hs => hs
    exact htime.bind fun _ => htime.bind fun _ => ih _

theorem inaccessible_spares (w : Waited) : Spares (w.inaccessible host) :=
  time_spares.bind fun _ => Spares.ite (time_spares.bind fun _ => Spares.pure _) (Spares.pure _)

theorem busy_spares (w : Waited) : Spares (w.busy host) :=
  time_spares.bind fun _ => Spares.ite (time_spares.bind fun _ => Spares.pure _) (Spares.pure _)

theorem noticed_spares (limit : UInt32) (req : IpmiRq) (w : Waited) (answer : Option Reply) :
    Spares (noticed host intf limit req w answer) := by
  cases answer with
  | some r => exact Spares.pure _
  | none =>
    refine fun answers => Triple.get_bind fun s hs => Triple.ite (fun _ => ?_) fun _ => Triple.ite (fun _ => ?_) fun _ =>
      Triple.ite (fun _ => ?_) fun _ => Triple.ite (fun _ => ?_) fun _ => ?_
    · exact Triple.pure fun t ht => by rwa [ht]
    · exact Triple.bind (Triple.modify (Q := fun _ s => s.answers = answers) fun t ht => by rwa [ht]) fun _ =>
        Triple.pure fun _ h => h
    · exact Triple.pure fun t ht => by rwa [ht]
    · refine Triple.bind ((reopenTurns_spares limit answers s.opens w).pre fun t ht => ?_) fun _ => Triple.pure fun _ h => h
      rw [ht]
      exact ⟨hs, rfl⟩
    · exact Triple.pure fun t ht => by rwa [ht]

theorem sendTurns_consumes (limit limit' : UInt32) (req : IpmiRq) (n : Nat) (answers : List (Option Reply)) :
    ∀ w, answers.length ≤ n → Triple Exhausted (fun s => s.answers = answers)
      (sendTurns host intf limit limit' req answers w) fun _ s => s.answers.length < n := by
  induction answers with
  | nil =>
    intro w _
    exact Triple.bind (Triple.modify (Q := fun _ s => s.answers = []) fun s hs => hs) fun _ => Triple.throw fun s => .inl
  | cons answer answers ih =>
    intro w hn
    have hless : answers.length < n := hn
    have hdone : ∀ (a : Option Reply), Triple Exhausted (fun s => s.answers = answers) (Pure.pure a : HpmM _)
        fun _ s => s.answers.length < n := fun a => Triple.pure fun s hs => by rwa [hs]
    have hagain := fun w => ih w (Nat.le_of_lt hless)
    refine Triple.bind (Triple.modify (Q := fun _ s => s.answers = answers) fun s hs => rfl) fun _ =>
      (noticed_spares limit req w answer answers).bind fun x => Triple.ite (fun _ => Triple.ite (fun _ => ?_) fun _ =>
        hdone _) fun _ => ?_
    · exact (inaccessible_spares _ _).bind fun w => hagain w
    · obtain ⟨rsp, w⟩ := x
      cases rsp with
      | none => exact hdone _
      | some r =>
        refine Triple.ite (fun _ => Triple.ite (fun _ => ?_) fun _ => hdone _) fun _ => ?_
        · exact (busy_spares _ _).bind fun w => hagain w
        · exact Triple.bind (Triple.modify (Q := fun _ s => s.answers = answers) fun s hs => hs) fun _ => hdone _

theorem hpmfwupgSendCmd_consumes (req : IpmiRq) : Consumes (hpmfwupgSendCmd host intf cap req) :=
  fun n => (time_spares.triple fun answers => answers.length ≤ n).bind fun _ => Triple.get_bind fun s hs =>
    (sendTurns_consumes _ _ req n s.answers _ hs).pre fun t ht => by rw [ht]

theorem isRetryable_spares (ccode : UInt8) : Spares (isRetryable ccode) :=
  Spares.ite (Spares.bind Spares.get fun _ => Spares.bind (Spares.modify fun _ => rfl) fun _ => Spares.pure _)
    (Spares.pure _)

/-- What an answer to a command makes of the result, without another command. -/
theorem Consumes.spares {m : HpmM α} {f : α → HpmM β} (hm : Consumes m) (hf : ∀ a, Spares (f a)) :
    Consumes (m >>= f) :=
  hm.bind fun a n => (hf a).triple fun answers => answers.length < n

theorem hpmfwupgGetUpgradeStatus_consumes : Consumes (hpmfwupgGetUpgradeStatus host intf cap) := by
  refine (hpmfwupgSendCmd_consumes _).spares fun rsp => ?_
  cases rsp with
  | none => exact Spares.pure _
  | some r =>
    refine Spares.ite (Spares.pure _) ((isRetryable_spares _).bind fun _ => ?_)
    exact Spares.ite (Spares.pure _) (Spares.pure _)

theorem waitTurns_waiting (limit since : UInt32) (n fuel : Nat) :
    ∀ now status, Triple Exhausted (fun s => s.answers.length ≤ fuel ∧ s.answers.length < n)
      (waitTurns host intf cap limit since fuel now status) fun _ s => s.answers.length < n := by
  have hdone : ∀ (fuel : Nat) (rc : Rc), Triple Exhausted (fun s => s.answers.length ≤ fuel ∧ s.answers.length < n)
      (Pure.pure rc : HpmM Rc) fun _ s => s.answers.length < n := fun _ _ => Triple.pure fun s hs => hs.2
  induction fuel with
  | zero =>
    intro now status
    unfold waitTurns
    cases status with
    | none => exact hdone _ _
    | some code =>
      refine Triple.ite (fun _ => Triple.throw fun s hs => .inl ?_) fun _ => Triple.ite (fun _ => hdone _ _) fun _ =>
        hdone _ _
      exact List.eq_nil_of_length_eq_zero (Nat.le_zero.1 hs.1)
  | succ fuel ih =>
    intro now status
    unfold waitTurns
    cases status with
    | none => exact hdone _ _
    | some code =>
      refine Triple.ite (fun _ => ?_) fun _ => Triple.ite (fun _ => hdone _ _) fun _ => hdone _ _
      refine (time_spares.triple fun answers => answers.length ≤ fuel + 1 ∧ answers.length < n).bind fun _ => ?_
      refine Triple.bind (Q := fun _ s => s.answers.length ≤ fuel ∧ s.answers.length < n) (fun s hs => ?_) fun _ => ih _ _
      refine (hpmfwupgGetUpgradeStatus_consumes s.answers.length).post (fun _ t ht => ?_) s (Nat.le_refl _)
      omega

theorem hpmfwupgWaitLongDurationCmd_less (n : Nat) :
    Triple Exhausted (fun s => s.answers.length < n) (hpmfwupgWaitLongDurationCmd host intf cap)
      fun _ s => s.answers.length < n := by
  refine (time_spares.triple fun answers => answers.length < n).bind fun _ => Triple.get_bind fun s hs => ?_
  refine Triple.bind (Q := fun _ t => t.answers.length ≤ s.answers.length ∧ t.answers.length < n) (fun t ht => ?_)
    fun _ => waitTurns_waiting _ _ n _ _ _
  refine (hpmfwupgGetUpgradeStatus_consumes t.answers.length).post (fun _ t' ht' => ?_) t (Nat.le_refl _)
  rw [ht] at ht'
  omega

/-- A command that may take long. -/
theorem initiate_consumes (mask action : UInt8) : Consumes (hpmfwupgInitiateUpgradeAction host intf cap mask action) := by
  refine (hpmfwupgSendCmd_consumes _).bind fun rsp n => ?_
  cases rsp with
  | none => exact Triple.pure fun _ h => h
  | some r =>
    exact Triple.ite (fun _ => hpmfwupgWaitLongDurationCmd_less n) fun _ => Triple.ite (fun _ => Triple.pure fun _ h => h)
      fun _ => Triple.pure fun _ h => h

theorem finish_consumes (compare : Bool) (componentId : UInt8) (imageLength : UInt32) :
    Consumes (hpmfwupgFinishFirmwareUpload host intf cap compare componentId imageLength) := by
  refine (hpmfwupgSendCmd_consumes _).bind fun rsp n => ?_
  cases rsp with
  | none => exact Triple.pure fun _ h => h
  | some r =>
    exact Triple.ite (fun _ => hpmfwupgWaitLongDurationCmd_less n) fun _ => Triple.ite (fun _ => Triple.pure fun _ h => h)
      fun _ => Triple.ite (fun _ => Triple.pure fun _ h => h) fun _ => Triple.pure fun _ h => h

theorem hpmfwupgUploadFirmwareBlock_consumes (blockNumber : UInt8) (data : List UInt8) :
    Consumes (hpmfwupgUploadFirmwareBlock host intf cap blockNumber data) := by
  have hblock : Consumes (uploadBlock host intf cap blockNumber data) := by
    refine (hpmfwupgSendCmd_consumes _).bind fun rsp n => ?_
    cases rsp with
    | none => exact Triple.pure fun _ h => h
    | some r =>
      refine Triple.bind (Q := fun _ s => s.answers.length < n) ?_ fun _ => Triple.pure fun _ h => h
      refine Triple.ite (fun _ => hpmfwupgWaitLongDurationCmd_less n) fun _ => ?_
      refine Triple.ite (fun _ => ?_) fun _ => Triple.pure fun _ h => h
      refine ((isRetryable_spares _).triple fun answers => answers.length < n).bind fun _ => ?_
      refine Triple.ite (fun _ => Triple.pure fun _ h => h) fun _ => ?_
      exact Triple.ite (fun _ => Triple.pure fun _ h => h) fun _ => Triple.pure fun _ h => h
  exact hblock.spares fun u => Spares.bind (Spares.modify fun _ => rfl) fun _ => Spares.pure _

theorem uploadTurns_waiting (firmware : Nat → UInt8) (firmwareLength : UInt32) (fuel : Nat) :
    ∀ p, Triple Exhausted (fun s => s.answers.length < fuel)
      (uploadTurns host intf cap firmware firmwareLength fuel p) fun _ _ => True := by
  induction fuel with
  | zero => exact fun p s hs => absurd hs (Nat.not_lt_zero _)
  | succ fuel ih =>
    intro p
    unfold uploadTurns
    refine Triple.ite (fun _ => ?_) fun _ => Triple.pure fun _ _ => trivial
    refine Triple.bind (Q := fun _ s => s.answers.length < fuel) (fun s hs => ?_) fun u => ih _
    exact (hpmfwupgUploadFirmwareBlock_consumes _ _ fuel).pre (fun _ => Nat.le_of_lt_succ) s hs

theorem malloc_spares : Spares (malloc host) :=
  Spares.bind Spares.get fun _ => Spares.bind (Spares.modify fun _ => rfl) fun _ => Spares.pure _

/-- `m` returns with `Q`, or it waits for the board: it stops only where nothing more comes. -/
def Waits {α : Type} (m : HpmM α) (Q : α → Prop) : Prop := Triple Exhausted (fun _ => True) m fun a _ => Q a

theorem Consumes.waits {m : HpmM α} (hm : Consumes m) : Waits m fun _ => True :=
  fun s _ => (hm s.answers.length).post (fun _ _ _ => trivial) s (Nat.le_refl _)

theorem Spares.waits {m : HpmM α} (hm : Spares m) : Waits m fun _ => True :=
  fun s _ => (hm s.answers).post (fun _ _ _ => trivial) s rfl

variable {up : Upgrade}

/-- When it succeeds, the pointer moves on. -/
theorem uploadFirmware_waits (components componentId : UInt8) (firmware : Nat → UInt8) (firmwareLength : UInt32) :
    Waits (uploadFirmware host intf up components componentId firmware firmwareLength) fun x =>
      x.1 = .success → x.2 = true := by
  refine malloc_spares.waits.bind fun ok => Triple.ite (fun _ => ?_) fun _ => Triple.pure fun _ _ h => absurd h (by simp)
  refine (initiate_consumes _ _).waits.bind fun rc => Triple.ite (fun _ => ?_) fun hrc =>
    Triple.pure fun _ _ h => absurd h hrc
  refine Triple.get_bind fun s _ => Triple.bind (Q := fun _ _ => True) ?_ fun p => Triple.ite (fun _ => ?_) fun hrc =>
    Triple.pure fun _ _ h => absurd h hrc
  · exact (uploadTurns_waiting _ _ _ _).pre fun t ht => ht ▸ Nat.lt_succ_self _
  · exact (finish_consumes _ _ _).waits.bind fun _ => Triple.pure fun _ _ _ => rfl

variable {image : Nat → UInt8}

theorem action_waits (components : UInt8) (pImagePtr : Nat) :
    Waits (hpmFwupgActionUploadFirmware host intf up image components pImagePtr) fun x =>
      x.1 = .success → pImagePtr + actionRecordSize ≤ x.2 := by
  have hnext : pImagePtr + actionRecordSize ≤
      pImagePtr + actionRecordSize + firmwareImageSize + (firmwareLengthAt image pImagePtr).toNat := by omega
  refine Triple.ite (fun _ => Triple.pure fun _ _ h => absurd h (by simp)) fun _ => Triple.ite (fun _ => ?_) fun _ =>
    Triple.pure fun _ _ _ => hnext
  refine (uploadFirmware_waits _ _ _ _).bind fun x => Triple.pure fun s hmoves hrc => ?_
  show _ ≤ if x.2 = true then _ else _
  rw [if_pos (hmoves hrc)]
  exact hnext

theorem initiateFor_waits (components action : UInt8) :
    Waits (initiateFor host intf up components action) fun _ => True :=
  Triple.ite (fun _ => (initiate_consumes _ _).waits) fun _ => Triple.pure fun _ _ => trivial

theorem recordAction_waits (pImagePtr : Nat) :
    Waits (recordAction host intf up image pImagePtr) fun x => x.1 = .success → pImagePtr + actionRecordSize ≤ x.2 := by
  refine Triple.ite (fun _ => ?_) fun _ => Triple.ite (fun _ => ?_) fun _ => Triple.ite (fun _ => ?_) fun _ =>
    Triple.pure fun _ _ h => absurd h (by simp)
  · exact (initiateFor_waits _ _).bind fun _ => Triple.pure fun _ _ _ => Nat.le_refl _
  · exact (initiateFor_waits _ _).bind fun _ => Triple.pure fun _ _ _ => Nat.le_refl _
  · exact action_waits _ _

theorem stageTurns_waits (imageSize fuel : Nat) :
    ∀ pImagePtr, imageSize ≤ fuel + pImagePtr →
      Waits (stageTurns host intf up image imageSize fuel pImagePtr) fun _ => True := by
  induction fuel with
  | zero =>
    intro pImagePtr hsize
    refine Triple.ite (fun hbefore => ?_) fun _ => Triple.pure fun _ _ => trivial
    omega
  | succ fuel ih =>
    intro pImagePtr hsize
    refine Triple.ite (fun _ => Triple.ite (fun _ => ?_) fun _ => Triple.pure fun _ _ => trivial) fun _ =>
      Triple.pure fun _ _ => trivial
    intro s hs
    refine ((recordAction_waits _).bind fun x => Triple.ite (fun hrc => ?_) fun _ => Triple.pure fun _ _ => trivial) s hs
    intro t ht
    have hnext : pImagePtr + 3 ≤ x.2 := ht hrc
    exact ih x.2 (by omega) t trivial

/-- **The stage comes to an end**, or waits for the board, whatever the bytes of the image are. -/
theorem hpmfwupgUpgradeStage_waits (host : Host) (intf : Intf) (up : Upgrade) (image : Nat → UInt8) (imageSize : Nat) :
    Waits (hpmfwupgUpgradeStage host intf up image imageSize) fun _ => True :=
  stageTurns_waits imageSize imageSize _ (Nat.le_add_right _ _)

end consumes

end KTools.Hpm
