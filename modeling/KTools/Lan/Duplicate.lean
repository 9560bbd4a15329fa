import KTools.Lan.Attribution

/-!
# A duplicate request

A BMC that has seen a request already answers a retry with the completion code 0xcf. `ipmi_lan_send_cmd` ignores
such a response and polls once more, "keep polling" for the response to the first try. But the response has taken
the entry out of the list, and without bridging it was the only one: nothing that comes now can match, wherever in a
run a call waits for its response (`Run.waits_duplicate`), and the call goes on to its next try.

As in `Run.responses_attributed` this rests on the allocations.
-/

namespace KTools.Lan
open KTools.Lib KTools.Lanplus

/-- A request that is not bridged, with at most one entry. -/
structure Direct (l : Link) : Prop where
  unbridged : l.intf.unbridged = true
  entries : l.entries.length ≤ 1

/-- An IPMI response has taken the entry. -/
def Taken (l : Link) : Prop := (∃ p, l.rsp.payload = .solPacket p) ∨ l.entries = []

theorem direct_recvPacket : Triple Direct Direct ipmiLanRecvPacket fun _ => Direct := by
  have htake : Triple Direct Direct takeArrival fun _ => Direct := by
    refine .get_bind fun l hl => ?_
    cases l.arrivals with
    | nil => exact .pure fun s hs => hs ▸ hl
    | cons a rest =>
      rintro s rfl
      exact ⟨hl.unbridged, hl.entries⟩
  have hstore : ∀ bytes, Triple Direct Direct (storePacket bytes) fun _ => Direct := fun bytes =>
    .ite (fun _ => .pure fun _ h => h) fun _ =>
      .bind (.modify fun _ h => ⟨h.unbridged, h.entries⟩) fun _ => .pure fun _ h => h
  refine .bind htake fun a => ?_
  cases a with
  | silence => exact .pure fun _ h => h
  | datagram bytes => exact hstore bytes
  | refused =>
    refine .bind htake fun a => ?_
    cases a with
    | silence => exact .pure fun _ h => h
    | datagram bytes => exact hstore bytes
    | refused => exact .pure fun _ h => h

theorem direct_matchResponse (x : Nat) :
    Triple Direct Direct (matchResponse x) fun t l => Direct l ∧ ∀ y, t = .last y → Taken l := by
  refine .get_bind fun l hl => ?_
  dsimp only
  generalize ipmiResponseAt l.rsp.data (x - 7) = r
  cases hfind : ipmiReqLookupEntry r.rqSeq r.cmd l.entries with
  | none => exact .pure fun s hs => ⟨hs ▸ hl, nofun⟩
  | some entry =>
    have hremoved : ipmiReqRemoveEntry r.rqSeq r.cmd l.entries = [] := by
      have hlength : (ipmiReqRemoveEntry r.rqSeq r.cmd l.entries).length = l.entries.length - 1 :=
        List.length_eraseP_of_mem (List.mem_of_find?_eq_some hfind) (List.find?_some hfind)
      have hone := hl.entries
      exact List.length_eq_zero_iff.1 (by omega)
    refine .get_bind fun l' hl' => ?_
    obtain rfl := hl'
    have hends : endsLayer l'.intf entry r = false := by
      unfold endsLayer
      rw [hl.unbridged]
      rfl
    rw [hends, if_neg nofun]
    refine .bind (.modify (Q := fun _ l => Direct l ∧ Taken l) ?_) fun _ => .pure fun l h => ⟨h.1, fun _ _ => h.2⟩
    rintro l rfl
    exact ⟨⟨hl.unbridged, by dsimp only; rw [hremoved]; exact Nat.zero_le _⟩, .inr hremoved⟩

/-- What is read into the response leaves the entries alone. -/
theorem direct_modifyRsp (f : IpmiRs → IpmiRs) : Triple Direct Direct (modifyRsp f) fun _ => Direct :=
  .modify fun _ h => ⟨h.unbridged, h.entries⟩

theorem direct_readSolPacket : Triple Direct Direct readSolPacket fun _ l => Direct l ∧ Taken l := by
  refine .bind (Q := fun _ l => Direct l ∧ Taken l) (.modify fun l h => ?_) fun _ => .pure fun l h => h
  exact ⟨⟨h.unbridged, h.entries⟩, .inl ⟨_, rfl⟩⟩

theorem direct_handleIpmiClass :
    Triple Direct Direct handleIpmiClass fun t l => Direct l ∧ ∀ y, t = .last y → Taken l := by
  have hheader : Triple Direct Direct readSessionHeader fun _ => Direct := direct_modifyRsp _
  have hresponse (x : Nat) : Triple Direct Direct (readIpmiResponse x) fun _ => Direct := direct_modifyRsp _
  refine hheader.bind fun _ => .get_bind' fun l => .ite (fun _ => ?_) fun _ => ?_
  · exact direct_readSolPacket.post fun t l h => ⟨h.1, fun _ _ => h.2⟩
  · exact (hresponse _).bind fun _ => direct_matchResponse _

theorem direct_handlePacket :
    Triple Direct Direct handlePacket fun t l => Direct l ∧ ∀ y, t = .last y → Taken l := by
  refine .get_bind' fun l => .ite (fun _ => ?_) fun _ => .ite (fun _ => direct_handleIpmiClass) fun _ => ?_
  · -- a pong, or NULL
    refine .pure fun l h => ⟨h, ?_⟩
    split
    · exact nofun
    · exact nofun
  · exact .pure fun l h => ⟨h, nofun⟩

theorem direct_pollTurns (fuel : Nat) :
    Triple Direct Direct (pollTurns fuel) fun answer l => Direct l ∧ (answer = some .packet → Taken l) := by
  induction fuel with
  | zero => exact .throw fun _ h => h
  | succ fuel ih =>
    refine .bind direct_handlePacket fun t => ?_
    cases t with
    | null => exact .pure fun l h => ⟨h.1, nofun⟩
    | pong => exact .pure fun l h => ⟨h.1, nofun⟩
    | next =>
      exact .bind (direct_recvPacket.pre fun l h => h.1) fun _ => .ite (fun _ => ih) fun _ => .pure fun l h => ⟨h, nofun⟩
    | again => exact ih.pre fun l h => h.1
    | last x =>
      refine .bind (.modify (Q := fun _ l => Direct l ∧ Taken l) ?_) fun _ => .pure fun l h => ⟨h.1, fun _ => h.2⟩
      rintro l ⟨h, htaken⟩
      refine ⟨⟨h.unbridged, h.entries⟩, ?_⟩
      have hlast := htaken x rfl
      unfold Taken at hlast ⊢
      dsimp only
      split
      · exact hlast
      · exact hlast

theorem direct_ipmiLanPollRecv :
    Triple Direct Direct ipmiLanPollRecv fun answer l => Direct l ∧ (answer = some .packet → Taken l) := by
  refine direct_recvPacket.bind fun received => .ite (fun _ => ?_) fun _ => ?_
  · exact .get_bind' fun l => direct_pollTurns _
  · exact .pure fun l h => ⟨h, nofun⟩

theorem direct_pollReply : Triple Direct Direct pollReply fun _ => Direct := by
  refine direct_ipmiLanPollRecv.bind fun answer => .get_bind' fun l => .ite (fun _ => ?_) fun _ => ?_
  · exact direct_ipmiLanPollRecv.conseq (fun l h => h.1) fun answer l h => h.1
  · exact .pure fun l h => h.1

/-- After a duplicate request no IPMI response is taken. -/
theorem pollReply_duplicate {l l₁ l' : Link} (h : Direct l) (hfirst : ipmiLanPollRecv l = .ok (some .packet) l₁)
    (hcode : l₁.rsp.ccode = duplicateRequest) (hipmi : ∃ r, l₁.rsp.payload = .ipmiResponse r)
    (hreply : pollReply l = .ok (some .packet) l') : ∃ p, l'.rsp.payload = .solPacket p := by
  have htaken : Taken l₁ := by
    have hends := direct_ipmiLanPollRecv l h
    rw [hfirst] at hends
    exact hends.2 rfl
  have hnone : l₁.entries = [] := by
    refine htaken.resolve_left ?_
    rintro ⟨p, hp⟩
    obtain ⟨r, hr⟩ := hipmi
    rw [hr] at hp
    cases hp
  rw [pollReply, bind_ok hfirst, get_bind_apply, if_pos ⟨nofun, hcode⟩] at hreply
  have hwithin := ipmiLanPollRecv_within (P := fun _ => False) (fun _ _ _ _ h => h) l₁
    ⟨rfl, rfl, rfl, by rw [hnone]; exact List.forall_mem_nil _⟩
  rw [hreply] at hwithin
  have hmatched := hwithin.2 rfl
  unfold Matched at hmatched
  split at hmatched
  · rename_i p hp
    exact ⟨p, hp⟩
  · obtain ⟨e, he, -⟩ := hmatched
    exact he.elim
  · exact hmatched.elim

/-! ### Where a call waits -/

/-- The packet is handed to `send`. -/
def Link.handed (l : Link) (msg : List UInt8) : Link := { l with sent := l.sent ++ [msg] }

/-- The entry for a packet that was not sent is taken out. -/
def Link.unsent (l : Link) (target : UInt8) : Link :=
  { l with entries := ipmiReqRemoveEntry l.currSeq target l.entries }

section waits
variable (c : Digests) (req : IpmiRq) (targetCmd : UInt8) (retry : Nat)

/-- With these attempts to come, the loop of a call that is in `l` comes to wait for a response in `w`: for the
packet that it sends now, or for a later one, after a `send` that fails or a poll that gives nothing. -/
inductive Waits : Nat → List Attempt → Link → Link → Prop where
  | now {tries : Nat} {a : Attempt} {rest : List Attempt} {l l₁ : Link} {target : UInt8} {msg : List UInt8}
      (built : ipmiLanBuildCmd c req targetCmd (tries ≠ 0) a l = .ok (some (target, msg)) l₁) (sent : a.sendOk = true)
      (answered : l₁.noanswer = false) : Waits tries (a :: rest) l (l₁.handed msg)
  | unsent {tries : Nat} {a : Attempt} {rest : List Attempt} {l l₁ w : Link} {target : UInt8} {msg : List UInt8}
      (built : ipmiLanBuildCmd c req targetCmd (tries ≠ 0) a l = .ok (some (target, msg)) l₁)
      (failed : a.sendOk = false) (later : Waits (tries + 1) rest ((l₁.handed msg).unsent target) w) :
      Waits tries (a :: rest) l w
  | again {tries : Nat} {a : Attempt} {rest : List Attempt} {l l₁ l₂ w : Link} {target : UInt8} {msg : List UInt8}
      (built : ipmiLanBuildCmd c req targetCmd (tries ≠ 0) a l = .ok (some (target, msg)) l₁) (sent : a.sendOk = true)
      (answered : l₁.noanswer = false) (nothing : pollReply (l₁.handed msg) = .ok none l₂) (left : tries + 1 < retry)
      (later : Waits (tries + 1) rest l₂ w) : Waits tries (a :: rest) l w

/-- What the loop leaves with is what the call has got where it waited. -/
theorem sendTurns_waits (attempts : List Attempt) : ∀ {tries : Nat} {l l' : Link} {answer : Answer},
    sendTurns c req targetCmd retry tries attempts l = .ok (.leave (some answer)) l' →
      ∃ w, Waits c req targetCmd retry tries attempts l w ∧ pollReply w = .ok (some answer) l' := by
  induction attempts with
  | nil => intro tries l l' answer h; cases h
  | cons a rest ih =>
    intro tries l l' answer h
    rw [sendTurns] at h
    obtain ⟨built, l₁, hbuilt, h⟩ := bind_eq_ok h
    cases built with
    | none => cases h
    | some built =>
      obtain ⟨target, msg⟩ := built
      have hhanded : (modify fun l => { l with sent := l.sent ++ [msg] } : LanM PUnit) l₁ = .ok ⟨⟩ (l₁.handed msg) := rfl
      dsimp only at h
      rw [bind_ok hhanded] at h
      cases hsend : a.sendOk with
      | false =>
        have hunsent : (modify fun l => { l with entries := ipmiReqRemoveEntry l.currSeq target l.entries } : LanM PUnit)
            (l₁.handed msg) = .ok ⟨⟩ ((l₁.handed msg).unsent target) := rfl
        rw [hsend, if_pos (show (!false) = true from rfl), bind_ok hunsent] at h
        obtain ⟨w, hwaits, hreply⟩ := ih h
        exact ⟨w, .unsent hbuilt hsend hwaits, hreply⟩
      | true =>
        rw [hsend, if_neg (show ¬ (!true) = true from nofun), get_bind_apply] at h
        cases hnoanswer : (l₁.handed msg).noanswer with
        | true =>
          rw [hnoanswer, if_pos rfl] at h
          cases h
        | false =>
          rw [hnoanswer, if_neg nofun] at h
          obtain ⟨reply, l₂, hreply, h⟩ := bind_eq_ok h
          cases reply with
          | some reply =>
            obtain ⟨hleave, rfl⟩ := EStateM.Result.ok.inj h
            cases hleave
            exact ⟨_, .now hbuilt hsend hnoanswer, hreply⟩
          | none =>
            dsimp only at h
            split at h
            · cases h
            · rename_i hleft
              obtain ⟨w, hwaits, hlast⟩ := ih h
              exact ⟨w, .again hbuilt hsend hnoanswer hreply (Nat.lt_of_not_le hleft) hwaits, hlast⟩

end waits

section single
variable {c : Digests} {intf : Intf} {req : IpmiRq} {seq : UInt8} {rets : List Returned} {targetCmd : UInt8}
  {retry : Nat}

theorem length_updateEntry (seq cmd : UInt8) (f : RqEntry → RqEntry) (entries : List RqEntry) :
    (updateEntry seq cmd f entries).length = entries.length := by
  induction entries with
  | nil => rfl
  | cons e rest ih =>
    rw [updateEntry]
    split
    · rfl
    · exact congrArg (· + 1) ih

/-- The entries of an unbridged call are found under its sequence number and command, so there is never a second
one. -/
theorem ipmiReqEntry_direct {a : Attempt} (hun : intf.unbridged = true) :
    Triple (fun _ => True) (fun l => Within (CallEntry intf req seq) intf seq rets l ∧ l.entries.length ≤ 1)
      (ipmiReqEntry req targetCmd seq a) fun _ l => l.entries.length ≤ 1 := by
  refine .get_bind fun l ⟨hwithin, hone⟩ => ?_
  cases hfind : ipmiReqLookupEntry seq req.cmd l.entries with
  | some entry => exact .pure fun s hs => hs ▸ hone
  | none =>
    have hnil : l.entries = [] := by
      refine List.eq_nil_iff_forall_not_mem.2 fun e he => ?_
      have hentry := hwithin.entries e he
      unfold CallEntry at hentry
      rw [hun, if_pos rfl] at hentry
      have hkey : e.hasKey seq req.cmd = true := by simp [RqEntry.hasKey, hentry]
      exact absurd (List.find?_eq_none.1 hfind e he) (not_not.2 hkey)
    refine .ite (fun _ => .pure fun s hs => hs ▸ hone) fun _ => ?_
    rintro s rfl
    show (s.entries ++ _).length ≤ 1
    rw [hnil]
    exact Nat.le_refl 1

theorem ipmiLanBuildCmd_direct {isRetry : Bool} {a : Attempt} (hun : intf.unbridged = true) :
    Triple (fun _ => True) (fun l => Ready intf req seq rets isRetry l ∧ l.entries.length ≤ 1)
      (ipmiLanBuildCmd c req targetCmd isRetry a) fun _ l => l.entries.length ≤ 1 := by
  refine .bind (Q := fun _ l => Within (CallEntry intf req seq) intf seq rets l ∧ l.entries.length ≤ 1)
    (.modify fun l h => ⟨⟨h.1.interface, h.1.currSeq, h.1.returned, h.1.entries⟩, h.2⟩) fun _ => ?_
  refine .get_bind fun l hl => ?_
  dsimp only
  rw [hl.1.currSeq]
  refine .bind ((ipmiReqEntry_direct hun).pre fun s hs => hs ▸ hl) fun entry => ?_
  cases entry with
  | none => exact .pure fun s hs => hs
  | some entry =>
    refine .ite (fun _ => .pure fun s hs => hs) fun _ => .get_bind' fun l' => ?_
    refine .bind (Q := fun _ l => l.entries.length ≤ 1) (.modify fun l hl => ?_) fun _ => ?_
    · exact Nat.le_trans (Nat.le_of_eq (length_updateEntry _ _ _ _)) hl
    · exact .bind (Q := fun _ l => l.entries.length ≤ 1) (.modify fun l hl => hl) fun _ => .pure fun l hl => hl

/-- Before a transmission of the call: where it is not bridged, there is at most one entry. -/
structure Sole (intf : Intf) (req : IpmiRq) (seq : UInt8) (rets : List Returned) (isRetry : Bool) (l : Link) : Prop
    extends Ready intf req seq rets isRetry l where
  one : intf.unbridged = true → l.entries.length ≤ 1

/-- While the call waits. -/
structure SoleWithin (i : Intf) (req : IpmiRq) (seq : UInt8) (rets : List Returned) (l : Link) : Prop
    extends Within (CallEntry i req seq) i seq rets l where
  one : i.unbridged = true → l.entries.length ≤ 1

theorem SoleWithin.direct {l : Link} (h : SoleWithin intf req seq rets l) (hun : l.intf.unbridged = true) : Direct l :=
  ⟨hun, h.one (h.intf ▸ hun)⟩

theorem ipmiLanBuildCmd_sole {isRetry : Bool} {a : Attempt} {l l₁ : Link} {built : UInt8 × List UInt8}
    (ha : a.entryAllocated = true ∧ a.msgAllocated = true) (h : Sole intf req seq rets isRetry l)
    (hbuilt : ipmiLanBuildCmd c req targetCmd isRetry a l = .ok (some built) l₁) : SoleWithin intf req seq rets l₁ := by
  have hready : Triple _ (Ready intf req seq rets isRetry) (ipmiLanBuildCmd c req targetCmd isRetry a) _ :=
    ipmiLanBuildCmd_ready ha
  have hwithin := hready l h.toReady
  rw [hbuilt] at hwithin
  refine ⟨hwithin.2, fun hun => ?_⟩
  have hdirect : Triple _ (fun l => Ready intf req seq rets isRetry l ∧ l.entries.length ≤ 1)
      (ipmiLanBuildCmd c req targetCmd isRetry a) _ := ipmiLanBuildCmd_direct hun
  have hone := hdirect l ⟨h.toReady, h.one hun⟩
  rwa [hbuilt] at hone

theorem pollReply_sole {l l' : Link} {answer : Option Answer} (h : SoleWithin intf req seq rets l)
    (hreply : pollReply l = .ok answer l') : SoleWithin intf req seq rets l' := by
  have hwithin := pollReply_within (layered_callEntry intf req seq) l h.toWithin
  rw [hreply] at hwithin
  refine ⟨hwithin.1, fun hun => ?_⟩
  have hdirect := direct_pollReply l (h.direct (h.intf ▸ hun))
  rw [hreply] at hdirect
  exact hdirect.entries

theorem SoleWithin.handed {l : Link} (h : SoleWithin intf req seq rets l) (msg : List UInt8) :
    SoleWithin intf req seq rets (l.handed msg) :=
  ⟨⟨h.intf, h.currSeq, h.returned, h.entries⟩, h.one⟩

theorem SoleWithin.unsent {l : Link} (h : SoleWithin intf req seq rets l) (target : UInt8) :
    SoleWithin intf req seq rets (l.unsent target) :=
  ⟨⟨h.intf, h.currSeq, h.returned, removeEntry_all h.entries _ _⟩,
    fun hun => Nat.le_trans List.length_eraseP_le (h.one hun)⟩

/-- A retry has the sequence number of the first transmission. -/
theorem SoleWithin.again {isRetry₀ : Bool} {currSeq₀ : UInt8} (hseq : nextCurrSeq isRetry₀ currSeq₀ = seq) {l : Link}
    (h : SoleWithin intf req seq rets l) (tries : Nat) : Sole intf req seq rets (tries + 1 ≠ 0) l := by
  refine ⟨⟨h.intf, ?_, h.returned, h.entries⟩, h.one⟩
  rw [h.currSeq, ← hseq]
  exact nextCurrSeq_retry _ _

/-- Wherever the call waits, its entries are its own, and without bridging there is at most one. -/
theorem Waits.sole {isRetry₀ : Bool} {currSeq₀ : UInt8} (hseq : nextCurrSeq isRetry₀ currSeq₀ = seq) {tries : Nat}
    {attempts : List Attempt} {l w : Link} (hwaits : Waits c req targetCmd retry tries attempts l w)
    (halloc : ∀ a ∈ attempts, a.entryAllocated = true ∧ a.msgAllocated = true) :
    Sole intf req seq rets (tries ≠ 0) l → SoleWithin intf req seq rets w := by
  induction hwaits with
  | now hbuilt _ _ =>
    intro h
    exact (ipmiLanBuildCmd_sole (halloc _ List.mem_cons_self) h hbuilt).handed _
  | unsent hbuilt _ _ ih =>
    intro h
    have hbuilt := ipmiLanBuildCmd_sole (halloc _ List.mem_cons_self) h hbuilt
    exact ih (fun a ha => halloc a (.tail _ ha)) (((hbuilt.handed _).unsent _).again hseq _)
  | again hbuilt _ _ hnothing _ _ ih =>
    intro h
    have hbuilt := ipmiLanBuildCmd_sole (halloc _ List.mem_cons_self) h hbuilt
    exact ih (fun a ha => halloc a (.tail _ ha)) ((pollReply_sole (hbuilt.handed _) hnothing).again hseq _)

end single

/-- In the run a call waits for its response in the state `w`. -/
def Run.WaitsAt (r : Run) (w : Link) : Prop :=
  ∃ before req targetCmd retry attempts after l,
    r.steps = before ++ .call req targetCmd retry attempts :: after ∧
      runSteps r.digests before (.start r.intf r.session r.noanswer r.arrivals) = .ok ⟨⟩ l ∧
        Waits r.digests req targetCmd retry 0 attempts l w

theorem Run.WaitsAt.direct {r : Run} {w : Link} (h : r.WaitsAt w) (halloc : ∀ step ∈ r.steps, step.Allocates)
    (hun : w.intf.unbridged = true) : Direct w := by
  obtain ⟨before, req, targetCmd, retry, attempts, after, l, hsteps, hbefore, hwaits⟩ := h
  have hrun : Triple AllAttributed Settled (runSteps r.digests before) fun _ => Settled :=
    runSteps_settled fun step hs => halloc step (hsteps ▸ List.mem_append_left _ hs)
  have hsettled := hrun (.start r.intf r.session r.noanswer r.arrivals) ⟨rfl, List.forall_mem_nil _⟩
  rw [hbefore] at hsettled
  have hcall : Step.Allocates (.call req targetCmd retry attempts) :=
    halloc _ (hsteps ▸ List.mem_append_right _ List.mem_cons_self)
  have hentries := hsettled.entries
  have hsole : Sole l.intf req (nextCurrSeq false l.currSeq) l.returned ((0 : Nat) ≠ 0) l :=
    ⟨⟨rfl, rfl, rfl, hentries ▸ List.forall_mem_nil _⟩, fun _ => hentries ▸ Nat.zero_le 1⟩
  exact (hwaits.sole rfl hcall hsole).direct hun

/-- **After a duplicate request** no IPMI response is taken, in any run: what the call gets where it waits is nothing,
a pong, or a SOL packet. -/
theorem Run.waits_duplicate (r : Run) (halloc : ∀ step ∈ r.steps, step.Allocates) {w l₁ l' : Link}
    (hwaits : r.WaitsAt w) (hun : w.intf.unbridged = true) (hfirst : ipmiLanPollRecv w = .ok (some .packet) l₁)
    (hcode : l₁.rsp.ccode = duplicateRequest) (hipmi : ∃ r, l₁.rsp.payload = .ipmiResponse r)
    (hreply : pollReply w = .ok (some .packet) l') : ∃ p, l'.rsp.payload = .solPacket p :=
  pollReply_duplicate (hwaits.direct halloc hun) hfirst hcode hipmi hreply

/-! ### A duplicate and a SOL packet -/

theorem ok_finalState {ε σ α : Type} {m : EStateM ε σ α} {s : σ} {a : α} (h : m.run' s = some a) :
    m s = .ok a (finalState m s) := by
  unfold EStateM.run' EStateM.run at h
  unfold finalState
  cases hrun : m s with
  | ok b t =>
    rw [hrun] at h
    rw [Option.some.inj h]
  | error e t =>
    rw [hrun] at h
    cases h

/-- The request is answered as a duplicate, and then characters come. -/
def duplicateRun : Run where
  digests := .zero
  intf := directIntf
  session := presession
  noanswer := false
  arrivals := [.datagram (replyPacket 7 0x23 1 duplicateRequest []),
    .datagram (rmcpHeader ++ [(0 : UInt8)] ++ le32 0 ++ le32 0x10000000 ++ [5, 1, 0, 0, 0, 0])]
  steps := [.call ⟨6, 0, 0x23, []⟩ 0 4 [⟨true, true, true⟩]]

/-- The link when the request of the run has been sent. -/
def duplicateWait : Link :=
  let l := Link.start directIntf presession false duplicateRun.arrivals
  Link.handed { l with
    currSeq := 1
    entries := [builtEntry l.intf 1 ⟨0, ⟨0x23, 0⟩, 1, 0⟩]
    allocs := 1
    session := { l.session with inSeq := nextInSeq l.session.inSeq } }
      (ipmiLanBuildMsg .zero directIntf presession ⟨6, 0, 0x23, []⟩ 1).2

theorem duplicateRun_waitsAt : duplicateRun.WaitsAt duplicateWait :=
  ⟨[], _, _, _, _, [], _, rfl, rfl, .now rfl rfl rfl⟩

theorem duplicateRun_sol : ∃ p, (finalState pollReply duplicateWait).rsp.payload = .solPacket p := by
  have halloc : ∀ step ∈ duplicateRun.steps, step.Allocates := by
    refine List.forall_mem_singleton.2 fun a ha => ?_
    rw [List.mem_singleton.1 ha]
    exact ⟨rfl, rfl⟩
  exact Run.waits_duplicate duplicateRun halloc duplicateRun_waitsAt rfl (ok_finalState (by decide +kernel))
    (by decide +kernel) ⟨_, rfl⟩ (ok_finalState (a := some Answer.packet) (by decide +kernel))

end KTools.Lan
