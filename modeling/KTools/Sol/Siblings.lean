import KTools.Sol.SetParam

/-!
# The fields beside the one that is set

Seven of the fields that `ipmi_sol_set_param` sets share a parameter with other fields, which are to be written as
the BMC has reported them. `ipmi_get_sol_info` goes on after a parameter that is not supported or that comes with
an unexpected length, and then the structure on the stack still holds what it held before.

The other fields are kept exactly when the read of the field's own parameter is answered with a value, or the call
fails before it writes (`keeps_iff`).
-/

namespace KTools.Sol.Config
open KTools.Lanplus

namespace SolParam

/-- The read of the parameter that the field is part of. -/
def read : SolParam → SolRead
  | characterAccumulateLevel | characterSendThreshold => characterIntervalRead
  | retryCount | retryInterval => retryRead
  | _ => authenticationRead

/-- The fields that are sent beside the one that is set are those of the response: of the authentication byte,
the bit 0x80 is force-encryption, the bit 0x40 force-authentication and 0x0F the privilege level. -/
def Kept (p : SolParam) (sent reported : List UInt8) : Prop :=
  match p with
  | forceEncryption => sent.getD 0 0 &&& 0x4F = reported.getD 1 0 &&& 0x4F
  | forceAuthentication => sent.getD 0 0 &&& 0x8F = reported.getD 1 0 &&& 0x8F
  | privilegeLevel => sent.getD 0 0 &&& 0xC0 = reported.getD 1 0 &&& 0xC0
  | characterAccumulateLevel => sent.getD 1 0 = reported.getD 2 0
  | characterSendThreshold => sent.getD 0 0 = reported.getD 1 0
  | retryCount => sent.getD 1 0 = reported.getD 2 0
  | retryInterval => sent.getD 0 0 = reported.getD 1 0
  | _ => True

def Reports (p : SolParam) (rsp : Option CmdRsp) (data : List UInt8) : Prop :=
  rsp = some ⟨0, data⟩ ∧ data.length = p.read.size

end SolParam

namespace Call
variable (x : Call)

/-- A write of `p` sends the fields beside it as they were reported in this call. -/
def Write (p : SolParam) (rq : SolRq) : Prop :=
  ∃ sent, rq = setRq x.channel p sent ∧
    ∃ r ∈ x.log, r.rq = p.read.rq x.channel ∧ ∃ data, p.Reports r.rsp data ∧ p.Kept sent data

/-- The call fails without a write, or each of its writes keeps the other fields. -/
def Keeps : Prop :=
  ∀ p, SolParam.ofName x.param = some p → p.shared →
    ((ipmiSolSetParam x).1 = -1 ∧ ∀ e ∈ x.log, ∀ sent, e.rq ≠ setRq x.channel p sent) ∨
      ∀ e ∈ x.log, (∃ sent, e.rq = setRq x.channel p sent) → x.Write p e.rq

/-- A call that gets to its write has a report of the parameter. -/
def Reported : Prop :=
  ∀ p own, x.Prepared p own → p.shared → (x.guarded = true → Succeeds (x.replies p.readCount)) →
    ∃ data, p.Reports (x.replies p.read.selector.toNat) data

end Call

/-! ### The bits of the authentication byte -/

theorem forall_byte {P : UInt8 → Prop} (h : ∀ n < 256, P (UInt8.ofNat n)) : ∀ b, P b := by
  intro b
  have := h b.toNat b.toNat_lt
  rwa [UInt8.ofNat_toNat] at this

theorem own_masked {own mask : UInt8} (h : own &&& mask = 0) (y z : UInt8) :
    (own ||| y ||| z) &&& mask = (y ||| z) &&& mask := by
  have hbits : own.toBitVec &&& mask.toBitVec = 0#8 := congrArg UInt8.toBitVec h
  apply UInt8.toBitVec_inj.1
  simp only [UInt8.toBitVec_and, UInt8.toBitVec_or, BitVec.and_or_distrib_right, hbits, BitVec.zero_or]

/-- A bit that is put into a `uint8_t` of its own and back. -/
def throughFlag (b bit : UInt8) : UInt8 := if (if b &&& bit ≠ 0 then (1 : UInt8) else 0) ≠ 0 then bit else 0x00

theorem flag_and_level : ∀ b, (throughFlag b 0x40 ||| (b &&& 0x0F)) &&& 0x4F = b &&& 0x4F ∧
    (throughFlag b 0x80 ||| (b &&& 0x0F)) &&& 0x8F = b &&& 0x8F ∧
      (throughFlag b 0x80 ||| throughFlag b 0x40) &&& 0xC0 = b &&& 0xC0 :=
  forall_byte (by decide +kernel)

theorem forall_lookup {P : UInt8 → Prop} {table : List (String × UInt8)} (hall : ∀ e ∈ table, P e.2) {value : String}
    {own : UInt8} (h : table.lookup value = some own) : P own := by
  obtain ⟨pre, post, rfl, -⟩ := List.lookup_eq_some_iff.1 h
  exact hall (value, own) (by simp)

/-- The fields that a good response stores are sent as it reports them. -/
theorem fields_kept {p : SolParam} {value : String} {own : UInt8} (hvalue : p.parse value = some own)
    (data : List UInt8) (params : SolConfigParameters) : p.Kept (p.fields own (p.read.store data params)) data := by
  obtain ⟨hencryption, hauthentication, hlevel⟩ := flag_and_level (data.getD 1 0)
  cases p with
  | forceEncryption =>
    have hmask := forall_lookup (P := fun own => own &&& 0x4F = 0) (by decide) hvalue
    exact (own_masked hmask _ _).trans hencryption
  | forceAuthentication =>
    have hmask := forall_lookup (P := fun own => own &&& 0x8F = 0) (by decide) hvalue
    exact (own_masked hmask _ _).trans hauthentication
  | privilegeLevel =>
    have hmask := forall_lookup (P := fun own => own &&& 0xC0 = 0) (by decide) hvalue
    exact (own_masked hmask _ _).trans hlevel
  | characterAccumulateLevel | characterSendThreshold | retryCount | retryInterval => rfl
  | setInProgress | enabled | nonVolatileBitRate | volatileBitRate => trivial

/-! ### The structure behind all reads -/

structure SolRead.Beside {α : Type} (r : SolRead) (f : SolConfigParameters → α) : Prop where
  store : ∀ data params, f (r.store data params) = f params
  notSupported : ∀ g, r.notSupported = some g → ∀ params, f (g params) = f params

section Info
variable {α : Type} (replies : Nat → Option CmdRsp) (channel : UInt8)

theorem SolRead.Beside.step {r : SolRead} {f : SolConfigParameters → α} (h : r.Beside f)
    {params params' : SolConfigParameters} {rsp : Option CmdRsp} (hstep : r.step params rsp = some params') :
    f params' = f params := by
  cases rsp with
  | none => cases hstep
  | some a =>
    rw [SolRead.step] at hstep
    split at hstep
    · obtain rfl := Option.some.inj hstep
      split
      · exact h.store _ _
      · rfl
    · split at hstep
      · obtain ⟨g, hg, rfl⟩ := Option.map_eq_some_iff.1 hstep
        exact h.notSupported g hg params
      · cases hstep

theorem ipmiGetSolInfo_beside {f : SolConfigParameters → α} : ∀ (reads : List SolRead) (params : SolConfigParameters)
    (log : List Exchange), (∀ r ∈ reads, r.Beside f) → ∀ params',
      (ipmiGetSolInfo replies channel reads params log).1 = some params' → f params' = f params := by
  intro reads
  induction reads with
  | nil =>
    intro params log _ params' h
    exact congrArg f (Option.some.inj h).symm
  | cons r rest ih =>
    intro params log hall params' h
    obtain ⟨hr, hrest⟩ := List.forall_mem_cons.1 hall
    rw [ipmiGetSolInfo] at h
    split at h
    · cases h
    · rename_i params₁ hstep
      exact (ih params₁ _ hrest params' h).trans (hr.step hstep)

/-- The structure behind a read with a good response, and behind reads that pass over what it stored. -/
theorem ipmiGetSolInfo_stored {f : SolConfigParameters → α} {r : SolRead} {post : List SolRead} {data : List UInt8}
    (hpost : ∀ r' ∈ post, r'.Beside f) (hlen : data.length = r.size) :
    ∀ (pre : List SolRead) (params : SolConfigParameters) (log : List Exchange) {params' : SolConfigParameters},
      (ipmiGetSolInfo replies channel (pre ++ r :: post) params log).1 = some params' →
        replies (log.length + pre.length) = some ⟨0, data⟩ → ∃ q, f params' = f (r.store data q) := by
  intro pre
  induction pre with
  | nil =>
    intro params log params' h hreply
    rw [List.nil_append, ipmiGetSolInfo] at h
    rw [List.length_nil, Nat.add_zero] at hreply
    simp only [sendrecv, hreply, SolRead.step, if_true, if_pos hlen] at h
    exact ⟨params, ipmiGetSolInfo_beside replies channel post _ _ hpost _ h⟩
  | cons r' pre ih =>
    intro params log params' h hreply
    rw [List.cons_append, ipmiGetSolInfo] at h
    split at h
    · cases h
    · refine ih _ _ h ?_
      rw [List.length_cons, Nat.add_comm pre.length, ← Nat.add_assoc] at hreply
      rwa [sendrecv, List.length_append]

end Info

theorem SolRead.Beside.of_id {α : Type} {r : SolRead} {f : SolConfigParameters → α} (hid : r.notSupported = some id)
    (hstore : ∀ data params, f (r.store data params) = f params) : r.Beside f :=
  ⟨hstore, fun g hg params => by rw [← Option.some.inj (hid.symm.trans hg)]; rfl⟩

/-- The last four reads are of no shared parameter. -/
theorem beside_last {p : SolParam} (hp : p.shared = true) (own channel : UInt8) (port : Option UInt16) :
    ∀ r ∈ (solReads channel port).drop 5, r.Beside (p.fields own) := by
  have hfields : ∀ params params' : SolConfigParameters,
      (params.forceEncryption, params.forceAuthentication, params.privilegeLevel, params.characterAccumulateLevel,
        params.characterSendThreshold, params.retryCount, params.retryInterval) =
      (params'.forceEncryption, params'.forceAuthentication, params'.privilegeLevel, params'.characterAccumulateLevel,
        params'.characterSendThreshold, params'.retryCount, params'.retryInterval) →
      p.fields own params = p.fields own params' := by
    intro params params' h
    simp only [Prod.mk.injEq] at h
    cases p <;> simp [SolParam.fields, h]
  refine List.forall_mem_cons.2 ⟨.of_id rfl fun _ _ => hfields _ _ rfl, List.forall_mem_cons.2
    ⟨.of_id rfl fun _ _ => hfields _ _ rfl, List.forall_mem_cons.2 ⟨⟨fun _ _ => hfields _ _ rfl, ?_⟩,
      List.forall_mem_singleton.2 ⟨fun _ _ => hfields _ _ rfl, ?_⟩⟩⟩⟩
  · intro g hg params
    rw [← Option.some.inj hg]
    exact hfields _ _ rfl
  · intro g hg params
    obtain ⟨n, -, rfl⟩ := Option.map_eq_some_iff.1 hg
    exact hfields _ _ rfl

/-- The read of a shared parameter among all the reads; those behind it are of other fields. -/
theorem solReads_split {p : SolParam} (hp : p.shared = true) (own channel : UInt8) (port : Option UInt16) :
    ∃ pre post, solReads channel port = pre ++ p.read :: post ∧ pre.length = p.read.selector.toNat ∧
      ∀ r ∈ post, r.Beside (p.fields own) := by
  have hlast := beside_last hp own channel port
  refine ⟨(solReads channel port).take p.read.selector.toNat,
    (solReads channel port).drop (p.read.selector.toNat + 1), ?_, ?_, ?_⟩
  · cases p <;> rfl
  · cases p <;> rfl
  · cases p with
    | setInProgress | enabled | nonVolatileBitRate | volatileBitRate => cases hp
    | retryCount | retryInterval => exact hlast
    | characterAccumulateLevel | characterSendThreshold =>
      exact List.forall_mem_cons.2 ⟨.of_id rfl fun _ _ => rfl, hlast⟩
    | forceEncryption | forceAuthentication | privilegeLevel =>
      exact List.forall_mem_cons.2 ⟨.of_id rfl fun _ _ => rfl,
        List.forall_mem_cons.2 ⟨.of_id rfl fun _ _ => rfl, hlast⟩⟩

/-! ### A call keeps the other fields -/

namespace Call
variable {x : Call} {p : SolParam} {own : UInt8}

theorem params_kept (hprepared : x.Prepared p own) (hshared : p.shared = true) {params : SolConfigParameters}
    (hparams : (ipmiGetSolInfo x.replies x.channel (solReads x.channel x.port) x.stack []).1 = some params)
    {data : List UInt8} (hreport : p.Reports (x.replies p.read.selector.toNat) data) :
    p.Kept (p.fields own params) data := by
  obtain ⟨pre, post, hsplit, hpre, hpost⟩ := solReads_split hshared own x.channel x.port
  rw [hsplit] at hparams
  obtain ⟨q, hq⟩ := ipmiGetSolInfo_stored x.replies x.channel hpost hreport.2 pre x.stack [] hparams
    (by rw [List.length_nil, Nat.zero_add, hpre, hreport.1])
  rw [hq]
  exact fields_kept hprepared.value data q

/-- The number of a read is its selector. -/
theorem rsp_readsOf (x : Call) (p : SolParam) : ∀ e ∈ x.readsOf p, e.rsp = x.replies (e.rq.data.getD 1 0).toNat := by
  intro e he
  unfold readsOf at he
  split at he
  · simp only [readLog, solReads, List.mem_cons, List.not_mem_nil, or_false] at he
    rcases he with rfl | rfl | rfl | rfl | rfl | rfl | rfl | rfl | rfl
    all_goals rfl
  · cases he

theorem read_mem_readsOf (hshared : p.shared = true) :
    ⟨p.read.rq x.channel, x.replies p.read.selector.toNat⟩ ∈ x.readsOf p := by
  rw [readsOf, if_pos hshared]
  cases p with
  | setInProgress | enabled | nonVolatileBitRate | volatileBitRate => cases hshared
  | forceEncryption | forceAuthentication | privilegeLevel =>
    exact List.mem_cons_of_mem _ (List.mem_cons_of_mem _ List.mem_cons_self)
  | characterAccumulateLevel | characterSendThreshold =>
    exact List.mem_cons_of_mem _ (List.mem_cons_of_mem _ (List.mem_cons_of_mem _ List.mem_cons_self))
  | retryCount | retryInterval =>
    exact List.mem_cons_of_mem _ (List.mem_cons_of_mem _ (List.mem_cons_of_mem _
      (List.mem_cons_of_mem _ List.mem_cons_self)))

/-- What a log holds behind its reads is written, and only the request itself is of the parameter. -/
theorem Course.behind {rq : SolRq} {log : List Exchange} {result : Int} {log' : List Exchange}
    (h : Course x rq log result log') : ∃ tail, log' = log ++ tail ∧
      ∀ e ∈ tail, e.rq = rq ∨ ∃ value, e.rq = setRq x.channel .setInProgress [value] := by
  cases h with
  | refused => exact ⟨_, rfl, by simpa using .inr ⟨_, rfl⟩⟩
  | unanswered => exact ⟨_, rfl, by simpa using .inr ⟨_, rfl⟩⟩
  | closed _ _ _ _ mid _ hmid =>
    refine ⟨_, by rw [List.append_assoc, List.append_assoc], ?_⟩
    intro e he
    simp only [List.mem_append, List.mem_cons, List.not_mem_nil, or_false] at he
    rcases he with (rfl | rfl) | hcommit | rfl
    · exact .inr ⟨_, rfl⟩
    · exact .inl rfl
    · exact .inr ⟨_, hmid e hcommit⟩
    · exact .inr ⟨_, rfl⟩
  | unguarded => exact ⟨_, rfl, by simp⟩

theorem Course.sends {rq : SolRq} {log : List Exchange} {result : Int} {log' : List Exchange}
    (h : Course x rq log result log') (hopen : x.guarded = true → Succeeds (x.replies log.length)) :
    ∃ e ∈ log', e.rq = rq := by
  cases h with
  | refused hguard hrefused => exact absurd (hopen hguard) hrefused
  | unanswered => exact ⟨⟨rq, none⟩, by simp, rfl⟩
  | @closed _ _ rsp => exact ⟨⟨rq, some rsp⟩, by simp, rfl⟩
  | unguarded => exact ⟨⟨rq, x.replies log.length⟩, by simp, rfl⟩

theorem Course.refused_of {rq : SolRq} {log : List Exchange} {result : Int} {log' : List Exchange}
    (h : Course x rq log result log') (hguard : x.guarded = true) (hrefused : ¬ Succeeds (x.replies log.length)) :
    result = -1 ∧ ∀ e ∈ log', e ∈ log ∨ e.rq = x.openRq := by
  cases h with
  | refused =>
    refine ⟨rfl, fun e he => ?_⟩
    rcases List.mem_append.1 he with he | he
    · exact .inl he
    · exact .inr (by rw [List.mem_singleton.1 he])
  | unanswered _ hopen => exact absurd hopen hrefused
  | closed _ hopen => exact absurd hopen hrefused
  | unguarded hunguarded =>
    rw [hguard] at hunguarded
    cases hunguarded

theorem setRq_ne_of_cmd {e : Exchange} (h : e.rq.cmd = getSolConfigParameters) (sent : List UInt8) :
    e.rq ≠ setRq x.channel p sent := by
  intro hset
  rw [hset] at h
  exact absurd h (by decide : setSolConfigParameters ≠ getSolConfigParameters)

variable (x) in
/-- The other fields are kept exactly when a call that gets to its write has a report of them. -/
theorem keeps_iff : x.Keeps ↔ x.Reported := by
  constructor
  · intro hkeeps p own hprepared hshared hopen
    cases x.ends with
    | indicator hname => exact absurd (Option.some.inj (hprepared.name.symm.trans hname)) hprepared.other
    | failed hnot => exact absurd hprepared (hnot p own)
    | @wrote p' own' params hprepared' hparams hcourse =>
      obtain rfl : p' = p := Option.some.inj (hprepared'.name.symm.trans hprepared.name)
      rw [← x.length_readsOf] at hopen
      obtain ⟨e, hmem, hrq⟩ := Course.sends hcourse hopen
      rcases hkeeps p' hprepared.name hshared with ⟨-, hnone⟩ | hwrites
      · exact absurd hrq (hnone e hmem _)
      · obtain ⟨sent, -, r, hr, hread, data, hreport, -⟩ := hwrites e hmem ⟨_, hrq⟩
        refine ⟨data, ?_, hreport.2⟩
        obtain ⟨tail, htail, hbehind⟩ := Course.behind hcourse
        rw [htail] at hr
        have hcmd : r.rq.cmd = getSolConfigParameters := by rw [hread]; rfl
        rcases List.mem_append.1 hr with hr | hr
        · rw [← hreport.1, x.rsp_readsOf p' r hr, hread]
          rfl
        · -- what follows the reads reads nothing
          rcases hbehind r hr with hset | ⟨value, hset⟩
          · exact absurd hset (setRq_ne_of_cmd hcmd _)
          · exact absurd hset (setRq_ne_of_cmd hcmd _)
  · intro hreported p hname hshared
    cases x.ends with
    | indicator hindicator =>
      obtain rfl : p = .setInProgress := Option.some.inj (hname.symm.trans hindicator)
      cases hshared
    | failed _ hresult hreads => exact .inl ⟨hresult, fun e he sent => setRq_ne_of_cmd (hreads e he) sent⟩
    | @wrote p' own params hprepared hparams hcourse =>
      obtain rfl : p' = p := Option.some.inj (hprepared.name.symm.trans hname)
      by_cases hopen : x.guarded = true → Succeeds (x.replies p'.readCount)
      · obtain ⟨data, hreport⟩ := hreported p' own hprepared hshared hopen
        have hkept := params_kept hprepared hshared (hparams hshared) hreport
        obtain ⟨tail, htail, hbehind⟩ := Course.behind hcourse
        refine .inr fun e he ⟨sent, hsent⟩ =>
          ⟨sent, hsent, ⟨p'.read.rq x.channel, x.replies p'.read.selector.toNat⟩, ?_, rfl, data, hreport, ?_⟩
        · rw [htail]
          exact List.mem_append_left _ (read_mem_readsOf hshared)
        · rw [htail] at he
          rcases List.mem_append.1 he with hread | hwrite
          · exact absurd hsent (setRq_ne_of_cmd (x.cmd_readsOf p' e hread) sent)
          · rcases hbehind e hwrite with hset | ⟨value, hset⟩
            · obtain rfl : sent = p'.fields own params := by
                have := congrArg (fun rq => rq.data.drop 2) (hsent.symm.trans hset)
                exact this
              exact hkept
            · exact absurd (hsent.symm.trans hset) (x.setRq_ne hprepared.other sent value)
      · -- the guard cannot be opened
        obtain ⟨hguard, hrefused⟩ := Classical.not_imp.1 hopen
        rw [← x.length_readsOf] at hrefused
        obtain ⟨hresult, hlog⟩ := Course.refused_of hcourse hguard hrefused
        refine .inl ⟨hresult, fun e he sent hset => ?_⟩
        rcases hlog e he with hread | hopened
        · exact setRq_ne_of_cmd (x.cmd_readsOf p' e hread) sent hset
        · exact x.setRq_ne hprepared.other sent _ (hset.symm.trans hopened)

/-- A BMC that reports no authentication, and a stack with 0x04 where the privilege level is to be. -/
def unsupported : Call where
  channel := 1
  param := "force-encryption"
  value := "true"
  guarded := false
  port := some 623
  stack := ⟨0, 0, 0, 0, 4, 0, 0, 0, 0, 0, 0, 0, 0⟩
  replies := fun n => if n = 2 then some ⟨0x80, []⟩ else if n < 9 then some ⟨0, [0]⟩ else some ⟨0, []⟩

/-- The privilege level that is written is that of the stack. -/
theorem unsupported_not_keeps : ¬ unsupported.Keeps := by
  intro h
  have hwrite : (⟨⟨0x21, [1, 2, 0x84]⟩, some ⟨0, []⟩⟩ : Exchange) ∈ unsupported.log := by decide
  rcases h .forceEncryption (by decide) rfl with ⟨hfails, -⟩ | hkeeps
  · exact absurd hfails (by decide)
  · obtain ⟨sent, -, r, hr, hread, data, hreport, -⟩ := hkeeps _ hwrite ⟨[0x84], rfl⟩
    have hnone : ∀ e ∈ unsupported.log, e.rq = SolParam.forceEncryption.read.rq 1 → e.rsp = some ⟨0x80, []⟩ := by
      decide
    have := (hnone r hr hread).symm.trans hreport.1
    simp at this

end Call

end KTools.Sol.Config
