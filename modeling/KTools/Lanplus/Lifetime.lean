import KTools.Lanplus.Attribution

/-!
# The lifetime of a pending request

The loop of `ipmi_lanplus_send_payload` keeps a pointer to the entry of its last transmission. It reads the
entry for the message when it transmits, and again, behind a turn without a response, for the sequence number
and the command under which it removes the entry; between the two, `ipmi_lan_poll_single` may have removed it.
The next turn transmits, with a new entry, only when the time is up; else it waits with the pointer to the
entry that has been freed. `callTouches` lists the reads and the waits of a call, `IpmiCall.Safe` says that all
of them find what they need, and `IpmiCall.lifetime_safe_iff` when that is so: the call keeps its entry, or older
requests with its keys stand in for it.

A datagram that takes the entry is followed through its embedded responses (`Takes`). The invariant of the walk
(`Owns`): the entries have different numbers, and the call's entry has keys of its transmissions.
-/

namespace KTools.Lanplus
open KTools.Lib

/-! ### Reads and waits -/

/-- The entry is in the list. -/
def Pending (entry : Nat) (entries : List RqEntry) : Prop := ∃ x ∈ entries, x.alloc = entry

/-- A response with one of the keys can be matched. -/
def Matchable (keys : List RqKey) (entries : List RqEntry) : Prop := ∃ x ∈ entries, (x.rqSeq, x.msg.cmd) ∈ keys

/-- What a call does with the pending requests: it reads an entry, or it waits for a packet. -/
inductive Touch where
  | read (entry : Nat) (entries : List RqEntry)
  | wait (keys : List RqKey) (entries : List RqEntry)

def Touch.Valid : Touch → Prop
  | read entry entries => Pending entry entries
  | wait keys entries => Matchable keys entries

instance (entry : Nat) (entries : List RqEntry) : Decidable (Pending entry entries) :=
  inferInstanceAs (Decidable (∃ x ∈ entries, x.alloc = entry))

instance (keys : List RqKey) (entries : List RqEntry) : Decidable (Matchable keys entries) :=
  inferInstanceAs (Decidable (∃ x ∈ entries, (x.rqSeq, x.msg.cmd) ∈ keys))

instance : DecidablePred Touch.Valid := fun t =>
  match t with
  | .read entry entries => inferInstanceAs (Decidable (Pending entry entries))
  | .wait keys entries => inferInstanceAs (Decidable (Matchable keys entries))

def Link.waitTouch (l : Link) : Touch := .wait l.ledger.keys l.rx.entries

/-- The link with which `pollReplyFrom` goes on behind a packet: one that it skips, or a response with the
completion code 0xcf. -/
def behindPacket (w : World) (a : Arrival) (rest : List Arrival) (l : Link) : Option Link :=
  match pollSingle w a { l with arrivals := rest } with
  | .ok .again l' => some l'
  | .ok .rsp l' => if l'.rx.rsp.ccode = duplicateRequest then some l' else none
  | _ => none

/-- The waits of `pollReplyFrom`. -/
def replyTouches (w : World) : List Arrival → Link → List Touch
  | [], l => [l.waitTouch]
  | a :: rest, l => l.waitTouch :: ((behindPacket w a rest l).elim [] fun l' => replyTouches w rest l')

/-- The read of `entry->msg_data`. -/
def buildTouches (w : World) (req : IpmiRq) (isRetry : Bool) (a : Attempt) (l : Link) : Option Nat → List Touch
  | some _ => []
  | none =>
    match buildIpmiCmd w req isRetry a l with
    | .ok (some (entry, _)) l' => [.read entry l'.rx.entries]
    | _ => []

/-- The entry and the link of a turn that waits for a reply. -/
def waitingTurn (w : World) (req : IpmiRq) (isRetry : Bool) (a : Attempt) (sent : Option Nat) (l : Link) :
    Option (Nat × Link) :=
  match turnEntry w req isRetry a sent l with
  | .ok (some entry) l' => if l'.noanswer then none else some (entry, l')
  | _ => none

/-- The link behind a wait that ends with NULL. -/
def emptyPoll (w : World) (l : Link) : Option Link :=
  match pollReply w l with
  | .ok false l' => some l'
  | _ => none

/-- `ipmi_req_remove_entry` with the key that is read through the pointer. -/
def removeOwn (entry : Nat) (a : Attempt) (l : Link) : Link :=
  let key := entryKey l.rx.entries entry a.freedKey
  { l with rx := { l.rx with entries := ipmiReqRemoveEntry key.1 key.2 l.rx.entries } }

/-- `xmit` behind a turn. -/
def timeUp (a : Attempt) (l : Link) : Bool := decide ((l.timeout : Int) ≤ a.elapsed)

/-- The next turn transmits or not. -/
def nextTurn (entry : Nat) (a : Attempt) (l : Link) : Option Nat × Link :=
  let l := removeOwn entry a l
  if timeUp a l then (none, { l with timeout := l.timeout + 1 }) else (some entry, l)

/-- What a call does with the pending requests in the turns that are left. -/
def callTouches (w : World) (req : IpmiRq) : Bool → Option Nat → List Attempt → Link → List Touch
  | _, _, [], _ => []
  | isRetry, sent, a :: rest, l =>
    buildTouches w req isRetry a l sent ++
      (waitingTurn w req isRetry a sent l).elim [] fun (entry, l₁) =>
        replyTouches w l₁.arrivals l₁ ++
          (emptyPoll w l₁).elim [] fun l₂ =>
            .read entry l₂.rx.entries ::
              callTouches w req true (nextTurn entry a l₂).1 rest (nextTurn entry a l₂).2

theorem waitingTurn_some {w : World} {req : IpmiRq} {isRetry : Bool} {sent : Option Nat} {a : Attempt}
    {entry : Nat} {l l₁ : Link} (h : waitingTurn w req isRetry a sent l = some (entry, l₁)) :
    turnEntry w req isRetry a sent l = .ok (some entry) l₁ ∧ l₁.noanswer = false := by
  unfold waitingTurn at h
  split at h
  · rename_i hrun
    split at h
    · cases h
    · rename_i hnoanswer
      obtain ⟨rfl, rfl⟩ := Prod.mk.inj (Option.some.inj h)
      exact ⟨hrun, eq_false_of_ne_true hnoanswer⟩
  · cases h

theorem emptyPoll_some {w : World} {l l' : Link} (h : emptyPoll w l = some l') :
    pollReply w l = .ok false l' := by
  unfold emptyPoll at h
  split at h
  · rename_i hrun
    cases h
    exact hrun
  · cases h

/-- The turns are those of the loop. -/
theorem ipmiTurns_next {w : World} {req : IpmiRq} {isRetry : Bool} {sent : Option Nat} {a : Attempt}
    {rest : List Attempt} {entry : Nat} {l l₁ l₂ : Link}
    (hwait : waitingTurn w req isRetry a sent l = some (entry, l₁)) (hempty : emptyPoll w l₁ = some l₂) :
    ipmiTurns w req isRetry sent (a :: rest) l =
      ipmiTurns w req true (nextTurn entry a l₂).1 rest (nextTurn entry a l₂).2 := by
  obtain ⟨hentry, hnoanswer⟩ := waitingTurn_some hwait
  have hpoll := emptyPoll_some hempty
  show (turnEntry w req isRetry a sent >>= _) l = _
  rw [bind_ok hentry]
  dsimp only
  rw [get_bind_apply, hnoanswer]
  show (pollReply w >>= _) l₁ = _
  rw [bind_ok hpoll]
  show (if ((removeOwn entry a l₂).timeout : Int) ≤ a.elapsed then do
      modify fun l => { l with timeout := l.timeout + 1 }
      ipmiTurns w req true none rest
    else ipmiTurns w req true (some entry) rest : Tx LoopEnd) (removeOwn entry a l₂) = _
  by_cases htime : ((removeOwn entry a l₂).timeout : Int) ≤ a.elapsed
  · rw [if_pos htime]
    simp only [nextTurn, timeUp, htime, decide_true, if_true]
    rfl
  · rw [if_neg htime]
    simp only [nextTurn, timeUp, htime, decide_false, Bool.false_eq_true, if_false]

/-! ### What takes the entry -/

/-- The pending requests when the bridge that the response at `off` comes from has been counted down. -/
def countedDown (data : Nat → UInt8) (off : Nat) (entries : List RqEntry) : List RqEntry :=
  updateEntry (ipmiResponseAt data off).rqSeq (ipmiResponseAt data off).cmd RqEntry.decrementBridging entries

/-- The response at `off` has the key of the entry, and no earlier one has it. -/
def Finds (entry : Nat) (data : Nat → UInt8) (off : Nat) (entries : List RqEntry) : Prop :=
  ∃ x, pendingEntry data off entries = some x ∧ x.alloc = entry

/-- The responses at `off` take the entry out of the list: the one that is answered, or, where a bridge's
success embeds another response, the one with the key of that success. -/
def Takes (entry : Nat) (data : Nat → UInt8) (entries : List RqEntry) (off payloadSize : Nat) : Prop :=
  match pendingEntry data off entries with
  | none => False
  | some x =>
    if x.bridgingLevel ≠ 0 ∧ data (off + 6) = 0 then
      match payloadSize with
      | rest + 9 =>
        Finds entry data off (countedDown data off entries) ∨
          Takes entry (dataBehind data off (rest + 1)) (entriesBehind data off entries) 0 (rest + 1)
      | _ => False
    else x.alloc = entry

/-- The datagram `d` is an IPMI packet that passes the checks, and `q` is its payload. -/
structure Responds (e : RxEnv) (rx : RxState) (a : Arrival) (d : List UInt8) (q : (Nat → UInt8) × Nat) : Prop where
  arrival : a = some d
  nonempty : d.take ipmiBufSize ≠ []
  rmcpClass : (received (d.take ipmiBufSize) rx).rsp.data offsetRmcpClass = rmcpClassIpmi
  payloadtype : (sessionAt (received (d.take ipmiBufSize) rx).rsp.data offsetAuthtype).payloadtype = payloadTypeIpmi
  accepted : acceptedPayload e (received (d.take ipmiBufSize) rx).rsp.data (d.take ipmiBufSize).length = some q

/-- The responses in the datagram take the entry out of the list. -/
def TakenBy (e : RxEnv) (entry : Nat) (a : Arrival) (rx : RxState) : Prop :=
  ∃ d q, Responds e rx a d q ∧
    Takes entry q.1 rx.entries (payloadStart (received (d.take ipmiBufSize) rx).rsp.data offsetAuthtype) q.2

section entries
variable {entry : Nat} {entries : List RqEntry}

theorem pending_iff : Pending entry entries ↔ entry ∈ entries.map RqEntry.alloc := List.mem_map.symm

theorem updateEntry_alloc (seq cmd : UInt8) :
    (updateEntry seq cmd RqEntry.decrementBridging entries).map RqEntry.alloc = entries.map RqEntry.alloc := by
  induction entries with
  | nil => rfl
  | cons x rest ih =>
    unfold updateEntry
    split
    · rfl
    · rw [List.map_cons, List.map_cons, ih]

theorem removeEntry_alloc (seq cmd : UInt8) :
    ((ipmiReqRemoveEntry seq cmd entries).map RqEntry.alloc).Sublist (entries.map RqEntry.alloc) :=
  List.Sublist.map _ List.eraseP_sublist

/-- Only the first entry with the key is removed. -/
theorem pending_removeEntry (hnodup : (entries.map RqEntry.alloc).Nodup) (hpending : Pending entry entries)
    (seq cmd : UInt8) : Pending entry (ipmiReqRemoveEntry seq cmd entries) ↔
      ¬ ∃ x, ipmiReqLookupEntry seq cmd entries = some x ∧ x.alloc = entry := by
  induction entries with
  | nil => obtain ⟨x, hx, -⟩ := hpending; cases hx
  | cons y rest ih =>
    rw [List.map_cons, List.nodup_cons] at hnodup
    unfold ipmiReqRemoveEntry ipmiReqLookupEntry
    by_cases hkey : y.hasKey seq cmd = true
    · rw [List.eraseP_cons_of_pos hkey, List.find?_cons_of_pos hkey]
      constructor
      · rintro hrest ⟨x, hx, rfl⟩
        obtain rfl := Option.some.inj hx
        exact hnodup.1 (pending_iff.1 hrest)
      · intro hne
        obtain ⟨x, hx, hentry⟩ := hpending
        rcases List.mem_cons.1 hx with rfl | hx
        · exact absurd ⟨_, rfl, hentry⟩ hne
        · exact ⟨x, hx, hentry⟩
    · rw [List.eraseP_cons_of_neg hkey, List.find?_cons_of_neg hkey]
      by_cases hy : y.alloc = entry
      · refine ⟨fun _ => ?_, fun _ => ⟨y, List.mem_cons_self, hy⟩⟩
        rintro ⟨x, hx, hentry⟩
        exact hnodup.1 (List.mem_map.2 ⟨x, List.mem_of_find?_eq_some hx, hentry.trans hy.symm⟩)
      · have hrest : Pending entry rest := by
          obtain ⟨x, hx, hentry⟩ := hpending
          rcases List.mem_cons.1 hx with rfl | hx
          · exact absurd hentry hy
          · exact ⟨x, hx, hentry⟩
        refine Iff.trans ⟨?_, ?_⟩ (ih hnodup.2 hrest)
        · rintro ⟨x, hx, hentry⟩
          rcases List.mem_cons.1 hx with rfl | hx
          · exact absurd hentry hy
          · exact ⟨x, hx, hentry⟩
        · rintro ⟨x, hx, hentry⟩
          exact ⟨x, List.mem_cons_of_mem _ hx, hentry⟩

end entries

/-! ### One datagram -/

section responses

/-- What a turn of the loop over responses leaves of the pending requests. -/
theorem handleIpmiResponse_entries {off payloadSize : Nat} {s s' : RxState} {turn : Turn}
    (hrun : handleIpmiResponse off payloadSize s = .ok turn s') :
    (turn = .again ∧ pendingEntry s.rsp.data off s.entries = none ∧ s'.entries = s.entries) ∨
      ∃ x, pendingEntry s.rsp.data off s.entries = some x ∧
        ((turn = .again ∧ (x.bridgingLevel ≠ 0 ∧ s.rsp.data (off + 6) = 0) ∧ payloadSize ≤ 8 ∧
            s'.entries = countedDown s.rsp.data off s.entries) ∨
          (turn = .embedded ∧ (x.bridgingLevel ≠ 0 ∧ s.rsp.data (off + 6) = 0)) ∨
          (turn = .last ∧ ¬ (x.bridgingLevel ≠ 0 ∧ s.rsp.data (off + 6) = 0) ∧
            s'.entries = ipmiReqRemoveEntry (ipmiResponseAt s.rsp.data off).rqSeq
              (ipmiResponseAt s.rsp.data off).cmd s.entries)) := by
  cases hfind : pendingEntry s.rsp.data off s.entries with
  | none =>
    rw [handleIpmiResponse_none hfind] at hrun
    cases hrun
    exact .inl ⟨rfl, rfl, rfl⟩
  | some x =>
    refine .inr ⟨x, rfl, ?_⟩
    have hmatch := (handleIpmiResponse_some hfind payloadSize).symm.trans hrun
    by_cases hbridged : x.bridgingLevel ≠ 0 ∧ s.rsp.data (off + 6) = 0
    · simp only [matchedResponse, if_pos hbridged] at hmatch
      obtain ⟨_, s₁, hupdate, hmatch⟩ := bind_eq_ok hmatch
      cases hupdate
      by_cases hsize : 8 < payloadSize
      · rw [if_pos hsize] at hmatch
        obtain ⟨_, s₂, -, hmatch⟩ := bind_eq_ok hmatch
        obtain ⟨_, s₃, -, hmatch⟩ := bind_eq_ok hmatch
        obtain ⟨_, s₄, -, hmatch⟩ := bind_eq_ok hmatch
        cases hmatch
        exact .inr (.inl ⟨rfl, hbridged⟩)
      · rw [if_neg hsize] at hmatch
        cases hmatch
        exact .inl ⟨rfl, hbridged, Nat.le_of_not_lt hsize, rfl⟩
    · simp only [matchedResponse, if_neg hbridged] at hmatch
      obtain ⟨_, s₁, hremove, hmatch⟩ := bind_eq_ok hmatch
      cases hremove
      obtain ⟨_, s₂, hshift, hmatch⟩ := bind_eq_ok hmatch
      obtain ⟨t, hrun', hentries, -⟩ := shiftData_run off payloadSize ipmiResponseLength 1 _
      obtain ⟨-, rfl⟩ := EStateM.Result.ok.inj (hrun'.symm.trans hshift)
      cases hmatch
      exact .inr (.inr ⟨rfl, hbridged, hentries⟩)

/-- **The loop over responses** takes the entry out of the list as `Takes` says, by induction on the size of
the payload. -/
theorem ipmiResponses_takes (entry payloadSize : Nat) :
    ∀ {off : Nat} {s s' : RxState} {p : Poll}, (s.entries.map RqEntry.alloc).Nodup →
      ipmiResponses off payloadSize s = .ok p s' →
      p ≠ .null ∧ (s'.entries.map RqEntry.alloc).Sublist (s.entries.map RqEntry.alloc) ∧
        (Pending entry s.entries →
          (Pending entry s'.entries ↔ ¬ Takes entry s.rsp.data s.entries off payloadSize)) := by
  induction payloadSize using Nat.strongRecOn with
  | _ payloadSize ih =>
    intro off s s' p hnodup hrun
    have hcounted : (countedDown s.rsp.data off s.entries).map RqEntry.alloc = s.entries.map RqEntry.alloc :=
      updateEntry_alloc _ _
    unfold ipmiResponses at hrun
    obtain ⟨turn, s₁, hturn, hrest⟩ := bind_eq_ok hrun
    unfold Takes
    rcases handleIpmiResponse_entries hturn with ⟨rfl, hfind, hentries⟩ | ⟨x, hfind, hcase⟩
    · cases hrest
      rw [hentries, hfind]
      exact ⟨by decide, .refl _, fun hpending => ⟨fun _ => not_false, fun _ => hpending⟩⟩
    rw [hfind]
    rcases hcase with ⟨rfl, hbridged, hsize, hentries⟩ | ⟨rfl, hbridged⟩ | ⟨rfl, hbridged, hentries⟩
    · cases hrest
      simp only [if_pos hbridged, hentries, hcounted]
      refine ⟨by decide, .refl _, fun hpending => ⟨fun _ => ?_, fun _ => ?_⟩⟩
      · split
        · omega
        · exact not_false
      · rw [pending_iff, hcounted]
        exact pending_iff.1 hpending
    · obtain ⟨-, -, -, -, hsize, hentries, hdata, -⟩ := handleIpmiResponse_embedded hturn
      obtain ⟨rest, rfl⟩ := Nat.exists_eq_add_of_le' (show 9 ≤ payloadSize from hsize)
      have hsub : (s₁.entries.map RqEntry.alloc).Sublist (s.entries.map RqEntry.alloc) := by
        rw [hentries, ← hcounted]
        exact removeEntry_alloc _ _
      obtain ⟨hnull, hsub', htakes⟩ := ih (rest + 1) (by omega) (hnodup.sublist hsub) hrest
      simp only [if_pos hbridged]
      refine ⟨hnull, hsub'.trans hsub, fun hpending => ?_⟩
      have hnodup' : ((countedDown s.rsp.data off s.entries).map RqEntry.alloc).Nodup := by
        rw [hcounted]
        exact hnodup
      have hpending' : Pending entry (countedDown s.rsp.data off s.entries) := by
        rw [pending_iff, hcounted]
        exact pending_iff.1 hpending
      have hremoved : Pending entry s₁.entries ↔
          ¬ Finds entry s.rsp.data off (countedDown s.rsp.data off s.entries) := by
        rw [hentries]
        exact pending_removeEntry hnodup' hpending' _ _
      rw [hdata, hentries] at htakes
      rw [hentries] at hremoved
      have hbefore : Pending entry s'.entries → Pending entry (entriesBehind s.rsp.data off s.entries) := by
        rw [pending_iff, pending_iff, ← hentries]
        exact fun h => hsub'.subset h
      rw [not_or, ← hremoved]
      exact ⟨fun h => ⟨hbefore h, (htakes (hbefore h)).1 h⟩, fun h => (htakes h.1).2 h.2⟩
    · cases hrest
      simp only [if_neg hbridged, hentries]
      refine ⟨by decide, removeEntry_alloc _ _, fun hpending => ?_⟩
      rw [pending_removeEntry hnodup hpending]
      refine not_congr ⟨?_, fun h => ⟨x, hfind, h⟩⟩
      rintro ⟨y, hy, hentry⟩
      obtain rfl := Option.some.inj (hfind.symm.trans hy)
      exact hentry

end responses

/-- **One datagram.** A poll takes entries out of the list and adds none; the entry of the call stays unless
the datagram takes it, and all stay when NULL is returned. -/
theorem pollSingle_takes (entry : Nat) {w : World} {a : Arrival} {l l' : Link} {p : Poll}
    (hnodup : (l.rx.entries.map RqEntry.alloc).Nodup) (hrun : pollSingle w a l = .ok p l') :
    (l'.rx.entries.map RqEntry.alloc).Sublist (l.rx.entries.map RqEntry.alloc) ∧
      (p = .null → l'.rx.entries = l.rx.entries) ∧
      (Pending entry l.rx.entries → (Pending entry l'.rx.entries ↔ ¬ TakenBy (l.env w) entry a l.rx)) := by
  rw [pollSingle_link] at hrun
  cases hpoll : ipmiLanPollSingle (l.env w) a l.rx with
  | error e rx => rw [hpoll] at hrun; cases hrun
  | ok p' rx =>
    rw [hpoll] at hrun
    obtain ⟨rfl, rfl⟩ := EStateM.Result.ok.inj hrun
    show (rx.entries.map RqEntry.alloc).Sublist (l.rx.entries.map RqEntry.alloc) ∧
      (p' = .null → rx.entries = l.rx.entries) ∧
      (Pending entry l.rx.entries → (Pending entry rx.entries ↔ ¬ TakenBy (l.env w) entry a l.rx))
    by_cases hresponds : ∃ d q, Responds (l.env w) l.rx a d q
    · obtain ⟨d, q, rfl, hne, hclass, htype, hq⟩ := hresponds
      rw [pollSingle_take _ d hne] at hpoll
      obtain ⟨s₁, hdata, hentries, hloop⟩ := handleDatagram_responses hclass hq htype hpoll
      have hsame : s₁.entries = l.rx.entries := hentries
      obtain ⟨hnull, hsub, htakes⟩ := ipmiResponses_takes entry q.2 (by rw [hsame]; exact hnodup) hloop
      rw [hdata, hsame] at htakes
      rw [hsame] at hsub
      refine ⟨hsub, fun h => absurd h hnull, fun hpending => (htakes hpending).trans (not_congr ?_)⟩
      refine ⟨fun h => ⟨d, q, ⟨rfl, hne, hclass, htype, hq⟩, h⟩, ?_⟩
      rintro ⟨d', q', ⟨hd, -, -, -, hq'⟩, h⟩
      obtain rfl := Option.some.inj hd
      obtain rfl := Option.some.inj (hq.symm.trans hq')
      exact h
    · have hsame : rx.entries = l.rx.entries := by
        rcases pollSingle_ok hpoll with ⟨-, rfl⟩ | ⟨d, rfl, hne, houtcome⟩
        · rfl
        · cases houtcome with
          | dropped _ hentries => exact hentries
          | pong _ _ _ hentries => exact hentries
          | awaited _ _ _ _ _ hentries => exact hentries
          | responses hclass hq htype hipmi _ _ _ =>
            exact absurd ⟨d, _, rfl, hne, hclass, htype ▸ hipmi, hq⟩ hresponds
      rw [hsame]
      refine ⟨.refl _, fun _ => rfl, fun hpending => ⟨fun _ => ?_, fun _ => hpending⟩⟩
      rintro ⟨d, q, h, -⟩
      exact hresponds ⟨d, q, h⟩

/-! ### The invariant of a call -/

/-- The entries are different, and have been allocated. -/
structure Numbered (l : Link) : Prop where
  nodup : (l.rx.entries.map RqEntry.alloc).Nodup
  bound : ∀ x ∈ l.rx.entries, x.alloc < l.allocs

/-- The entry, as long as it is in the list, has keys of the call's transmissions. -/
structure Owns (entry : Nat) (l : Link) : Prop extends Numbered l where
  keys : ∀ x ∈ l.rx.entries, x.alloc = entry → OwnKeys l.ledger.keys x

theorem Numbered.mono {l l' : Link} (h : Numbered l)
    (hsub : (l'.rx.entries.map RqEntry.alloc).Sublist (l.rx.entries.map RqEntry.alloc))
    (hallocs : l.allocs ≤ l'.allocs) : Numbered l' where
  nodup := h.nodup.sublist hsub
  bound := by
    intro x hx
    obtain ⟨y, hy, heq⟩ := List.mem_map.1 (hsub.subset (List.mem_map_of_mem hx))
    rw [← heq]
    exact Nat.lt_of_lt_of_le (h.bound y hy) hallocs

theorem Owns.matchable {entry : Nat} {l : Link} (h : Owns entry l) (hpending : Pending entry l.rx.entries) :
    l.waitTouch.Valid := by
  obtain ⟨x, hx, hentry⟩ := hpending
  exact ⟨x, hx, (h.keys x hx hentry).1⟩

section poll
variable {w : World} {entry : Nat} {l l' : Link}

theorem pollSingle_frame {a : Arrival} {p : Poll} (hrun : pollSingle w a l = .ok p l') :
    ∃ rx, l' = l.afterPoll a rx ∧ ipmiLanPollSingle (l.env w) a l.rx = .ok p rx := by
  rw [pollSingle_link] at hrun
  cases hpoll : ipmiLanPollSingle (l.env w) a l.rx with
  | error e rx => rw [hpoll] at hrun; cases hrun
  | ok p' rx =>
    rw [hpoll] at hrun
    obtain ⟨rfl, rfl⟩ := EStateM.Result.ok.inj hrun
    exact ⟨rx, rfl, rfl⟩

theorem pollSingle_owns {a : Arrival} {p : Poll} (h : Owns entry l) (hrun : pollSingle w a l = .ok p l') :
    Owns entry l' := by
  obtain ⟨hsub, -, -⟩ := pollSingle_takes entry h.nodup hrun
  obtain ⟨rx, rfl, hpoll⟩ := pollSingle_frame hrun
  refine ⟨h.toNumbered.mono hsub (Nat.le_refl _), ?_⟩
  rcases pollSingle_ok hpoll with ⟨-, rfl⟩ | ⟨d, -, -, houtcome⟩
  · exact h.keys
  · exact houtcome.entries_all (fun x hlevel hx hentry => (hx hentry).decrement hlevel) h.keys

/-- The loop goes on from the link behind the packet. -/
theorem behindPacket_some {a : Arrival} {rest : List Arrival} (h : behindPacket w a rest l = some l') :
    (∃ p, pollSingle w a { l with arrivals := rest } = .ok p l') ∧
      pollReplyFrom w (a :: rest) l = pollReplyFrom w rest l' := by
  unfold behindPacket at h
  split at h
  · rename_i hrun
    cases h
    exact ⟨⟨_, hrun⟩, bind_ok (f := _) hrun⟩
  · rename_i hrun
    split at h
    · rename_i hccode
      cases h
      refine ⟨⟨_, hrun⟩, (bind_ok (f := _) hrun).trans ?_⟩
      show (if l'.rx.rsp.ccode = duplicateRequest then pollReplyFrom w rest else return true : Tx Bool) l' = _
      rw [if_pos hccode]
    · cases h
  · cases h

/-- Else it ends with the packet, and returns NULL only when the poll does. -/
theorem behindPacket_none {a : Arrival} {rest : List Arrival} {b : Bool}
    (h : behindPacket w a rest l = none) (hrun : pollReplyFrom w (a :: rest) l = .ok b l') :
    ∃ p, pollSingle w a { l with arrivals := rest } = .ok p l' ∧ (b = false → p = .null) := by
  have hrun' : (pollSingle w a >>= _) { l with arrivals := rest } = .ok b l' := hrun
  obtain ⟨p, l₁, hpoll, hrest⟩ := bind_eq_ok hrun'
  unfold behindPacket at h
  rw [hpoll] at h
  cases p with
  | null =>
    cases hrest
    exact ⟨.null, hpoll, fun _ => rfl⟩
  | again => cases h
  | rsp =>
    have hreturn : (if l₁.rx.rsp.ccode = duplicateRequest then pollReplyFrom w rest
        else return true : Tx Bool) l₁ = .ok b l' := hrest
    dsimp only at h
    split at h
    · cases h
    · rename_i hccode
      rw [if_neg hccode] at hreturn
      cases hreturn
      exact ⟨.rsp, hpoll, nofun⟩

/-- What a wait keeps: the invariant, and it adds no entry. -/
theorem pollReplyFrom_owns {arrivals : List Arrival} : ∀ {l l' : Link} {b : Bool}, Owns entry l →
    pollReplyFrom w arrivals l = .ok b l' →
      Owns entry l' ∧ l'.noanswer = l.noanswer ∧
        (Pending entry l'.rx.entries → Pending entry l.rx.entries) := by
  induction arrivals with
  | nil =>
    intro l l' b h hrun
    cases hrun
    exact ⟨h, rfl, id⟩
  | cons a rest ih =>
    intro l l' b h hrun
    have hstep : ∀ {p : Poll} {l₁ : Link}, pollSingle w a { l with arrivals := rest } = .ok p l₁ →
        Owns entry l₁ ∧ l₁.noanswer = l.noanswer ∧
          (Pending entry l₁.rx.entries → Pending entry l.rx.entries) := by
      intro p l₁ hpoll
      have howns : Owns entry { l with arrivals := rest } := ⟨⟨h.nodup, h.bound⟩, h.keys⟩
      obtain ⟨hsub, -, -⟩ := pollSingle_takes entry howns.nodup hpoll
      refine ⟨pollSingle_owns howns hpoll, ?_, fun hpending => ?_⟩
      · obtain ⟨rx, rfl, -⟩ := pollSingle_frame hpoll
        rfl
      · rw [pending_iff] at hpending ⊢
        exact hsub.subset hpending
    cases hbehind : behindPacket w a rest l with
    | none =>
      obtain ⟨p, hpoll, -⟩ := behindPacket_none hbehind hrun
      exact hstep hpoll
    | some l₁ =>
      obtain ⟨⟨p, hpoll⟩, hloop⟩ := behindPacket_some hbehind
      obtain ⟨howns, hnoanswer, hpending⟩ := hstep hpoll
      obtain ⟨howns', hnoanswer', hpending'⟩ := ih howns (hloop.symm.trans hrun)
      exact ⟨howns', hnoanswer'.trans hnoanswer, fun h => hpending (hpending' h)⟩

end poll

/-! ### When a wait is safe -/

/-- Older requests stand in for an entry that is lost: while packet after packet is skipped, some entry in the list
can be matched, and the packet that ends the wait is not NULL. -/
def StoodIn (w : World) : List Arrival → Link → Prop
  | [], _ => False
  | a :: rest, l => Matchable l.ledger.keys l.rx.entries ∧
      match behindPacket w a rest l with
      | some l' => StoodIn w rest l'
      | none => ∀ l', pollSingle w a { l with arrivals := rest } ≠ .ok .null l'

/-- No packet behind which the loop goes on takes the entry. -/
def Spares (w : World) (entry : Nat) : List Arrival → Link → Prop
  | [], _ => True
  | a :: rest, l => ∀ l', behindPacket w a rest l = some l' →
      ¬ TakenBy (l.env w) entry a l.rx ∧ Spares w entry rest l'

/-- A packet behind which the loop goes on takes the entry, and older requests stand in for it. -/
def TakenStoodIn (w : World) (entry : Nat) : List Arrival → Link → Prop
  | [], _ => False
  | a :: rest, l => ∃ l', behindPacket w a rest l = some l' ∧
      (TakenBy (l.env w) entry a l.rx ∧ StoodIn w rest l' ∨
        ¬ TakenBy (l.env w) entry a l.rx ∧ TakenStoodIn w entry rest l')

section wait
variable {w : World} {entry : Nat}

/-- The waits without the entry, by induction on the packets. -/
theorem stoodIn_iff {arrivals : List Arrival} : ∀ {l : Link},
    ((∀ t ∈ replyTouches w arrivals l, t.Valid) ∧ ∀ l', pollReplyFrom w arrivals l ≠ .ok false l') ↔
      StoodIn w arrivals l := by
  induction arrivals with
  | nil => exact fun {l} => ⟨fun h => h.2 l rfl, False.elim⟩
  | cons a rest ih =>
    intro l
    unfold replyTouches StoodIn
    rw [List.forall_mem_cons, and_assoc]
    refine and_congr_right fun _ => ?_
    cases hbehind : behindPacket w a rest l with
    | none =>
      refine ⟨fun h l' hpoll => h.2 l' (bind_ok (f := _) hpoll), fun h => ⟨List.forall_mem_nil _, ?_⟩⟩
      intro l' hrun
      obtain ⟨p, hpoll, hnull⟩ := behindPacket_none hbehind hrun
      exact h l' (hnull rfl ▸ hpoll)
    | some l₁ =>
      rw [(behindPacket_some hbehind).2]
      exact ih

/-- A wait that older requests stand in for does not end with NULL. -/
theorem TakenStoodIn.not_empty {arrivals : List Arrival} : ∀ {l : Link}, TakenStoodIn w entry arrivals l →
    ∀ l', pollReplyFrom w arrivals l ≠ .ok false l' := by
  induction arrivals with
  | nil => exact fun h => h.elim
  | cons a rest ih =>
    rintro l ⟨l₁, hbehind, h⟩
    rw [(behindPacket_some hbehind).2]
    rcases h with ⟨-, h⟩ | ⟨-, h⟩
    · exact (stoodIn_iff.2 h).2
    · exact ih h

/-- **A wait** that starts with the entry in the list, by induction on the packets. -/
theorem wait_safe_iff {arrivals : List Arrival} : ∀ {l : Link}, Owns entry l → Pending entry l.rx.entries →
    (((∀ t ∈ replyTouches w arrivals l, t.Valid) ∧
        ∀ l', pollReplyFrom w arrivals l = .ok false l' → Pending entry l'.rx.entries) ↔
      Spares w entry arrivals l ∨ TakenStoodIn w entry arrivals l) := by
  induction arrivals with
  | nil =>
    intro l h hpending
    refine ⟨fun _ => .inl trivial, fun _ => ⟨List.forall_mem_singleton.2 (h.matchable hpending), ?_⟩⟩
    intro l' hrun
    cases hrun
    exact hpending
  | cons a rest ih =>
    intro l h hpending
    have howns : Owns entry { l with arrivals := rest } := ⟨⟨h.nodup, h.bound⟩, h.keys⟩
    unfold replyTouches Spares TakenStoodIn
    rw [List.forall_mem_cons, and_iff_right (h.matchable hpending)]
    cases hbehind : behindPacket w a rest l with
    | none =>
      refine ⟨fun _ => .inl fun _ h => (Option.some_ne_none _ h.symm).elim, fun _ => ⟨List.forall_mem_nil _, ?_⟩⟩
      intro l' hrun
      obtain ⟨p, hpoll, hnull⟩ := behindPacket_none hbehind hrun
      obtain ⟨-, hsame, -⟩ := pollSingle_takes entry howns.nodup hpoll
      rw [hsame (hnull rfl)]
      exact hpending
    | some l₁ =>
      obtain ⟨⟨p, hpoll⟩, hloop⟩ := behindPacket_some hbehind
      obtain ⟨-, -, htaken⟩ := pollSingle_takes entry howns.nodup hpoll
      have htaken' : Pending entry l₁.rx.entries ↔ ¬ TakenBy (l.env w) entry a l.rx := htaken hpending
      have howns₁ := pollSingle_owns howns hpoll
      rw [hloop]
      show ((∀ t ∈ replyTouches w rest l₁, t.Valid) ∧ _) ↔ _
      simp only [Option.some.injEq, forall_eq', exists_eq_left']
      by_cases hby : TakenBy (l.env w) entry a l.rx
      · have hgone : ¬ Pending entry l₁.rx.entries := fun h => (htaken'.1 h) hby
        simp only [hby, not_true_eq_false, false_and, or_false, false_or, true_and]
        rw [← stoodIn_iff]
        constructor
        · rintro ⟨hvalid, hleft⟩
          exact ⟨hvalid, fun l'' hrun => hgone ((pollReplyFrom_owns howns₁ hrun).2.2 (hleft l'' hrun))⟩
        · rintro ⟨hvalid, hleft⟩
          exact ⟨hvalid, fun l'' hrun => absurd hrun (hleft l'')⟩
      · simp only [hby, not_false_eq_true, true_and, false_and, false_or]
        exact ih howns₁ (htaken'.2 hby)

end wait

/-! ### Transmissions -/

/-- The entry is in the list, and can be matched. -/
def Held (entry : Nat) (l : Link) : Prop := Owns entry l ∧ Pending entry l.rx.entries

theorem Held.mono {entry : Nat} {l l' : Link} (h : Held entry l) (hrx : l'.rx = l.rx)
    (hallocs : l'.allocs = l.allocs) (hledger : l'.ledger = l.ledger) : Held entry l' := by
  obtain ⟨⟨⟨hnodup, hbound⟩, hkeys⟩, hpending⟩ := h
  refine ⟨⟨⟨?_, ?_⟩, ?_⟩, ?_⟩
  · rwa [hrx]
  · rwa [hrx, hallocs]
  · rwa [hrx, hledger]
  · rwa [hrx]

section transmit
variable {w : World} {req : IpmiRq}

theorem noteKeys_numbered (keys : List RqKey) :
    Triple (fun _ => True) Numbered (noteKeys keys) fun _ l => Numbered l ∧ ∀ k ∈ keys, k ∈ l.ledger.keys :=
  .modify fun _ h => ⟨⟨h.nodup, h.bound⟩, fun _ hk => List.mem_append_right _ hk⟩

theorem addEntry_held {keys : List RqKey} {entry : Nat → RqEntry} (halloc : ∀ n, (entry n).alloc = n)
    (hown : ∀ n, OwnKeys keys (entry n)) :
    Triple (fun _ => True) (fun l => Numbered l ∧ ∀ k ∈ keys, k ∈ l.ledger.keys) (ipmiReqAddEntry entry)
      Held := by
  refine .get_bind fun l h => .bind (Q := fun _ => Held l.allocs) (.modify ?_) fun _ => .pure fun _ h => h
  rintro l rfl
  obtain ⟨⟨hnodup, hbound⟩, hkeys⟩ := h
  refine ⟨⟨⟨?_, ?_⟩, ?_⟩, entry l.allocs, List.mem_append_right _ (List.mem_singleton_self _), halloc _⟩
  · show ((l.rx.entries ++ [entry l.allocs]).map RqEntry.alloc).Nodup
    rw [List.map_append, List.map_singleton, halloc, List.nodup_append]
    refine ⟨hnodup, List.pairwise_singleton _ _, ?_⟩
    rintro n hn m hm
    obtain ⟨x, hx, rfl⟩ := List.mem_map.1 hn
    rw [List.mem_singleton.1 hm]
    exact Nat.ne_of_lt (hbound x hx)
  · show ∀ x ∈ l.rx.entries ++ [entry l.allocs], x.alloc < l.allocs + 1
    rw [List.forall_mem_append, List.forall_mem_singleton, halloc]
    exact ⟨fun x hx => Nat.lt_succ_of_lt (hbound x hx), Nat.lt_succ_self _⟩
  · show ∀ x ∈ l.rx.entries ++ [entry l.allocs], x.alloc = l.allocs → OwnKeys l.ledger.keys x
    rw [List.forall_mem_append, List.forall_mem_singleton]
    refine ⟨fun x hx heq => absurd heq (Nat.ne_of_lt (hbound x hx)), fun _ => ?_⟩
    exact ⟨hkeys _ (hown _).1, fun hlevel => hkeys _ ((hown _).2 hlevel)⟩

/-- What the building of a message leaves. -/
def LeavesHeld (built : Option (Nat × List UInt8)) (l : Link) : Prop :=
  Numbered l ∧ ∀ entry msg, built = some (entry, msg) → Held entry l

theorem buildV15_held (a : Attempt) :
    Triple (fun _ => True) Numbered (ipmiLanplusBuildV15IpmiCmd req a) LeavesHeld := by
  refine .ite (fun _ => .pure fun _ h => ⟨h, nofun⟩) fun _ => .bind (noteKeys_numbered _) fun _ => ?_
  refine .bind (addEntry_held (fun _ => rfl) fun _ => ⟨List.mem_singleton_self _, fun h => absurd rfl h⟩)
    fun entry => .ite (fun _ => .pure fun _ h => ⟨h.1.toNumbered, nofun⟩) fun _ => .get_bind' fun l => .pure ?_
  intro _ h
  refine ⟨h.1.toNumbered, ?_⟩
  rintro entry' msg ⟨⟩
  exact h

theorem buildV2xMsg_held (entry : Nat) (payload : V2Payload) (iv : List UInt8) (currSeq : UInt8) :
    Triple (fun _ => True) (Held entry) (buildV2xMsg w payload iv currSeq) fun _ => Held entry :=
  buildV2xMsg_intf (fun _ _ => trivial) (fun _ _ h => h.mono rfl rfl rfl) payload iv currSeq

theorem buildV2x_held (isRetry : Bool) (a : Attempt) :
    Triple (fun _ => True) Numbered (ipmiLanplusBuildV2xIpmiCmd w req isRetry a) LeavesHeld := by
  refine .bind (.modify (Q := fun _ => Numbered) fun _ h => ⟨h.nodup, h.bound⟩) fun _ =>
    .get_bind' fun l => .ite (fun _ => .pure fun _ h => ⟨h, nofun⟩) fun _ => ?_
  refine .bind (noteKeys_numbered _) fun _ => .bind (addEntry_held (fun n => ?_) (ownKeys_new l.intf _))
    fun entry => .bind (buildV2xMsg_held entry _ _ _) fun _ => .pure ?_
  · split
    · rfl
    · rfl
  · intro _ h
    refine ⟨h.1.toNumbered, ?_⟩
    rintro entry' msg ⟨⟩
    exact h

theorem buildIpmiCmd_held (isRetry : Bool) (a : Attempt) :
    Triple (fun _ => True) Numbered (buildIpmiCmd w req isRetry a) LeavesHeld :=
  .get_bind' fun _ => .ite (fun _ => buildV15_held a) fun _ => buildV2x_held isRetry a

theorem transmitIpmi_held (isRetry : Bool) (a : Attempt) :
    Triple (fun _ => True) Numbered (transmitIpmi w req isRetry a) fun sent l =>
      Numbered l ∧ ∀ entry ∈ sent, Held entry l := by
  refine .bind (buildIpmiCmd_held isRetry a) fun built => ?_
  cases built with
  | none => exact .pure fun _ h => ⟨h.1, nofun⟩
  | some built =>
    refine .bind (Q := fun _ => Held built.1) ?_ fun _ => .ite (fun _ => .pure fun _ h => ⟨h.1.toNumbered, ?_⟩)
      fun _ => .pure fun _ h => ⟨h.1.toNumbered, nofun⟩
    · refine .bind (.modify (Q := fun _ => Held built.1) fun l h => ?_) fun _ => .pure fun _ h => h
      exact Held.mono (h.2 built.1 built.2 rfl) rfl rfl rfl
    · rintro entry ⟨⟩
      exact h

end transmit

/-! ### When a call is safe -/

/-- The entry is the first one with the key that is read through the pointer to it. -/
def Frees (entry : Nat) (a : Attempt) (l : Link) : Prop :=
  let key := entryKey l.rx.entries entry a.freedKey
  ∃ x, ipmiReqLookupEntry key.1 key.2 l.rx.entries = some x ∧ x.alloc = entry

/-- The turn frees the entry, and another turn waits without transmitting. -/
def Loses (entry : Nat) (a : Attempt) (rest : List Attempt) (l : Link) : Prop :=
  Frees entry a l ∧ timeUp a (removeOwn entry a l) = false ∧ rest ≠ []

/-- The turns that are left lose no entry: no packet behind which a turn goes on takes it, and no turn without a
response frees it unless the time is up or it is the last one. -/
def TurnsKeep (w : World) (req : IpmiRq) : Bool → Option Nat → List Attempt → Link → Prop
  | _, _, [], _ => True
  | isRetry, sent, a :: rest, l => (waitingTurn w req isRetry a sent l).elim True fun (entry, l₁) =>
      Spares w entry l₁.arrivals l₁ ∧ (emptyPoll w l₁).elim True fun l₂ =>
        ¬ Loses entry a rest l₂ ∧ TurnsKeep w req true (nextTurn entry a l₂).1 rest (nextTurn entry a l₂).2

/-- One of the turns that are left loses its entry, in its wait or behind it, and older requests stand in for it. -/
def TurnsStoodIn (w : World) (req : IpmiRq) : Bool → Option Nat → List Attempt → Link → Prop
  | _, _, [], _ => False
  | isRetry, sent, a :: rest, l => (waitingTurn w req isRetry a sent l).elim False fun (entry, l₁) =>
      TakenStoodIn w entry l₁.arrivals l₁ ∨
        Spares w entry l₁.arrivals l₁ ∧ (emptyPoll w l₁).elim False fun l₂ =>
          let next := nextTurn entry a l₂
          Loses entry a rest l₂ ∧ StoodIn w next.2.arrivals next.2 ∨
            ¬ Loses entry a rest l₂ ∧ TurnsStoodIn w req true next.1 rest next.2

section turns
variable {w : World} {req : IpmiRq} {entry : Nat} {a : Attempt} {l l' : Link}

theorem removeOwn_owns (h : Owns entry l) : Owns entry (removeOwn entry a l) where
  toNumbered := h.toNumbered.mono (removeEntry_alloc _ _) (Nat.le_refl _)
  keys := removeEntry_all h.keys _ _

theorem removeOwn_pending (h : Held entry l) :
    Pending entry (removeOwn entry a l).rx.entries ↔ ¬ Frees entry a l :=
  pending_removeEntry h.1.nodup h.2 _ _

/-- What the next turn starts with: the entry, or none when it transmits. -/
def TurnReady : Option Nat → Link → Prop
  | none, l => Numbered l
  | some entry, l => Held entry l

theorem waitingTurn_held {isRetry : Bool} {sent : Option Nat} (h : TurnReady sent l)
    (hwait : waitingTurn w req isRetry a sent l = some (entry, l')) : Held entry l' ∧ l'.noanswer = false := by
  obtain ⟨hentry, hnoanswer⟩ := waitingTurn_some hwait
  refine ⟨?_, hnoanswer⟩
  cases sent with
  | some entry =>
    cases hentry
    exact h
  | none =>
    have htransmit : transmitIpmi w req isRetry a l = .ok (some entry) l' := hentry
    have hheld : Triple _ Numbered (transmitIpmi w req isRetry a) _ := transmitIpmi_held isRetry a
    replace hheld := hheld l h
    rw [htransmit] at hheld
    exact hheld.2 entry rfl

theorem buildTouches_valid {isRetry : Bool} {sent : Option Nat} (h : TurnReady sent l) :
    ∀ t ∈ buildTouches w req isRetry a l sent, t.Valid := by
  cases sent with
  | some entry => exact List.forall_mem_nil _
  | none =>
    have hheld : Triple _ Numbered (buildIpmiCmd w req isRetry a) LeavesHeld := buildIpmiCmd_held isRetry a
    replace hheld := hheld l h
    simp only [buildTouches]
    cases hrun : buildIpmiCmd w req isRetry a l with
    | error e l' => exact List.forall_mem_nil _
    | ok built l' =>
      rw [hrun] at hheld
      cases built with
      | none => exact List.forall_mem_nil _
      | some built => exact List.forall_mem_singleton.2 (hheld.2 built.1 built.2 rfl).2

theorem emptyPoll_none (h : emptyPoll w l = none) (l' : Link) : pollReplyFrom w l.arrivals l ≠ .ok false l' := by
  intro hrun
  have hpoll : pollReply w l = .ok false l' := hrun
  unfold emptyPoll at h
  rw [hpoll] at h
  cases h

/-- A turn that waits without its entry is only safe when older requests stand in for it. -/
theorem lost_safe_iff {rest : List Attempt} (h : Owns entry l) (hgone : ¬ Pending entry l.rx.entries)
    (hnoanswer : l.noanswer = false) :
    (∀ t ∈ callTouches w req true (some entry) (a :: rest) l, t.Valid) ↔ StoodIn w l.arrivals l := by
  have hwait : waitingTurn w req true a (some entry) l = some (entry, l) := by
    show (if l.noanswer then none else some (entry, l)) = some (entry, l)
    rw [hnoanswer]
    rfl
  unfold callTouches
  rw [hwait]
  show (∀ t ∈ replyTouches w l.arrivals l ++ (emptyPoll w l).elim [] _, t.Valid) ↔ _
  rw [List.forall_mem_append, ← stoodIn_iff]
  cases hempty : emptyPoll w l with
  | none =>
    refine ⟨fun hvalid => ⟨hvalid.1, emptyPoll_none hempty⟩, fun hstood => ⟨hstood.1, ?_⟩⟩
    exact List.forall_mem_nil _
  | some l₂ =>
    have hpoll : pollReplyFrom w l.arrivals l = .ok false l₂ := emptyPoll_some hempty
    obtain ⟨-, -, hpending⟩ := pollReplyFrom_owns h hpoll
    refine ⟨fun hvalid => ?_, fun hstood => absurd hpoll (hstood.2 l₂)⟩
    have hread : Pending entry l₂.rx.entries := hvalid.2 _ List.mem_cons_self
    exact absurd (hpending hread) hgone

theorem nextTurn_held {rest : List Attempt} (h : Held entry l) (hkept : ¬ Loses entry a rest l)
    (hrest : rest ≠ []) : TurnReady (nextTurn entry a l).1 (nextTurn entry a l).2 := by
  have howns := removeOwn_owns (a := a) h.1
  unfold nextTurn
  by_cases htime : timeUp a (removeOwn entry a l) = true
  · simp only [htime, if_true]
    exact ⟨howns.nodup, howns.bound⟩
  · simp only [eq_false_of_ne_true htime, Bool.false_eq_true, if_false]
    exact ⟨howns, (removeOwn_pending h).2 fun hfrees => hkept ⟨hfrees, eq_false_of_ne_true htime, hrest⟩⟩

/-- The turns behind a turn without a response. -/
theorem next_safe_iff {rest : List Attempt} (h : Held entry l) (hnoanswer : l.noanswer = false)
    (ih : ∀ {isRetry : Bool} {sent : Option Nat} {l : Link}, TurnReady sent l →
      ((∀ t ∈ callTouches w req isRetry sent rest l, t.Valid) ↔
        TurnsKeep w req isRetry sent rest l ∨ TurnsStoodIn w req isRetry sent rest l)) :
    (∀ t ∈ callTouches w req true (nextTurn entry a l).1 rest (nextTurn entry a l).2, t.Valid) ↔
      ¬ Loses entry a rest l ∧ TurnsKeep w req true (nextTurn entry a l).1 rest (nextTurn entry a l).2 ∨
        (Loses entry a rest l ∧ StoodIn w (nextTurn entry a l).2.arrivals (nextTurn entry a l).2 ∨
          ¬ Loses entry a rest l ∧ TurnsStoodIn w req true (nextTurn entry a l).1 rest (nextTurn entry a l).2) := by
  by_cases hloses : Loses entry a rest l
  · simp only [hloses, not_true_eq_false, false_and, or_false, false_or, true_and]
    obtain ⟨hfrees, htime, hrest⟩ := hloses
    obtain ⟨b, rest', rfl⟩ := List.exists_cons_of_ne_nil hrest
    have hgone : ¬ Pending entry (removeOwn entry a l).rx.entries := fun hpending =>
      (removeOwn_pending h).1 hpending hfrees
    simp only [nextTurn, htime, Bool.false_eq_true, if_false]
    exact lost_safe_iff (removeOwn_owns h.1) hgone hnoanswer
  · simp only [hloses, not_false_eq_true, true_and, false_and, false_or]
    by_cases hrest : rest = []
    · subst hrest
      exact ⟨fun _ => .inl trivial, fun _ => List.forall_mem_nil _⟩
    · exact ih (nextTurn_held h hloses hrest)

/-- **The turns of a call**, by induction on the turns that are left. -/
theorem turns_safe_iff {attempts : List Attempt} : ∀ {isRetry : Bool} {sent : Option Nat} {l : Link},
    TurnReady sent l → ((∀ t ∈ callTouches w req isRetry sent attempts l, t.Valid) ↔
      TurnsKeep w req isRetry sent attempts l ∨ TurnsStoodIn w req isRetry sent attempts l) := by
  induction attempts with
  | nil => exact fun _ => ⟨fun _ => .inl trivial, fun _ => List.forall_mem_nil _⟩
  | cons a rest ih =>
    intro isRetry sent l h
    unfold callTouches TurnsKeep TurnsStoodIn
    rw [List.forall_mem_append, and_iff_right (buildTouches_valid h)]
    cases hwait : waitingTurn w req isRetry a sent l with
    | none => exact ⟨fun _ => .inl trivial, fun _ => List.forall_mem_nil _⟩
    | some turn =>
      obtain ⟨entry, l₁⟩ := turn
      obtain ⟨hheld, hnoanswer⟩ := waitingTurn_held h hwait
      have hwaits : _ ↔ Spares w entry l₁.arrivals l₁ ∨ TakenStoodIn w entry l₁.arrivals l₁ :=
        wait_safe_iff hheld.1 hheld.2
      simp only [Option.elim_some, List.forall_mem_append]
      cases hempty : emptyPoll w l₁ with
      | none =>
        simp only [Option.elim_none, and_true, and_false, or_false]
        rw [← hwaits]
        refine ⟨fun hvalid => ⟨hvalid.1, fun l' hrun => absurd hrun (emptyPoll_none hempty l')⟩,
          fun hfit => ⟨hfit.1, List.forall_mem_nil _⟩⟩
      | some l₂ =>
        have hpoll : pollReplyFrom w l₁.arrivals l₁ = .ok false l₂ := emptyPoll_some hempty
        obtain ⟨howns, hsame, -⟩ := pollReplyFrom_owns hheld.1 hpoll
        have hnot : ¬ TakenStoodIn w entry l₁.arrivals l₁ := fun h => h.not_empty l₂ hpoll
        have hleft : (∀ l', pollReplyFrom w l₁.arrivals l₁ = .ok false l' → Pending entry l'.rx.entries) ↔
            Pending entry l₂.rx.entries := by
          refine ⟨fun h => h l₂ hpoll, fun h l' hrun => ?_⟩
          obtain ⟨-, rfl⟩ := EStateM.Result.ok.inj (hpoll.symm.trans hrun)
          exact h
        rw [hleft, or_iff_left hnot] at hwaits
        simp only [Option.elim_some, List.forall_mem_cons]
        rw [or_iff_right hnot, ← and_or_left, ← hwaits, and_assoc]
        refine and_congr_right fun _ => and_congr_right fun hpending => ?_
        exact next_safe_iff ⟨howns, hpending⟩ (hsame.trans hnoanswer) ih

end turns

/-! ### Runs -/

section run
variable {w : World}

theorem pollSingle_numbered (a : Arrival) :
    Triple (fun _ => True) Numbered (pollSingle w a) fun _ => Numbered := by
  intro l h
  cases hrun : pollSingle w a l with
  | error e l' => trivial
  | ok p l' =>
    obtain ⟨hsub, -, -⟩ := pollSingle_takes 0 h.nodup hrun
    obtain ⟨rx, rfl, -⟩ := pollSingle_frame hrun
    exact h.mono hsub (Nat.le_refl _)

/-- A step that leaves the entries and their count alone. -/
theorem modify_numbered {f : Link → Link} (hrx : ∀ l, (f l).rx = l.rx) (hallocs : ∀ l, (f l).allocs = l.allocs) :
    Triple (fun _ => True) Numbered (modify f : Tx PUnit) fun _ => Numbered := by
  refine .modify fun l h => ⟨?_, ?_⟩
  · rw [hrx l]
    exact h.nodup
  · rw [hrx l, hallocs l]
    exact h.bound

theorem setArrivals_numbered (arrivals : List Arrival) :
    Triple (fun _ => True) Numbered (setArrivals arrivals) fun _ => Numbered :=
  modify_numbered (fun _ => rfl) fun _ => rfl

theorem pollRecvFrom_numbered : ∀ arrivals : List Arrival,
    Triple (fun _ => True) Numbered (pollRecvFrom w arrivals) fun _ => Numbered := by
  intro arrivals
  induction arrivals with
  | nil => exact .pure fun _ h => h
  | cons a rest ih =>
    refine .bind (setArrivals_numbered rest) fun _ => .bind (pollSingle_numbered a) fun p => ?_
    cases p with
    | null => exact .pure fun _ h => h
    | rsp => exact .pure fun _ h => h
    | again => exact ih

theorem pollReplyFrom_numbered : ∀ arrivals : List Arrival,
    Triple (fun _ => True) Numbered (pollReplyFrom w arrivals) fun _ => Numbered := by
  intro arrivals
  induction arrivals with
  | nil => exact .pure fun _ h => h
  | cons a rest ih =>
    refine .bind (setArrivals_numbered rest) fun _ => .bind (pollSingle_numbered a) fun p => ?_
    cases p with
    | null => exact .pure fun _ h => h
    | again => exact ih
    | rsp => exact .get_bind' fun l => .ite (fun _ => ih) fun _ => .pure fun _ h => h

theorem pollReply_numbered : Triple (fun _ => True) Numbered (pollReply w) fun _ => Numbered :=
  .get_bind' fun l => pollReplyFrom_numbered l.arrivals

theorem ipmiTurns_numbered {req : IpmiRq} (attempts : List Attempt) : ∀ (isRetry : Bool) (sent : Option Nat),
    Triple (fun _ => True) Numbered (ipmiTurns w req isRetry sent attempts) fun _ => Numbered := by
  induction attempts with
  | nil => exact fun _ _ => .pure fun _ h => h
  | cons a rest ih =>
    intro isRetry sent
    have hentry : Triple (fun _ => True) Numbered (turnEntry w req isRetry a sent) fun _ => Numbered := by
      cases sent with
      | some entry => exact .pure fun _ h => h
      | none => exact (transmitIpmi_held isRetry a).post fun _ _ h => h.1
    refine .bind hentry fun entry => ?_
    cases entry with
    | none => exact .pure fun _ h => h
    | some entry =>
      have hremove : Triple (fun _ => True) Numbered (modify (removeOwn entry a) : Tx PUnit) fun _ => Numbered :=
        .modify fun l h => h.mono (removeEntry_alloc _ _) (Nat.le_refl _)
      have htimeout : Triple (fun _ => True) Numbered
          (modify fun l => { l with timeout := l.timeout + 1 } : Tx PUnit) fun _ => Numbered :=
        modify_numbered (fun _ => rfl) fun _ => rfl
      refine .get_bind' fun l => .ite (fun _ => .pure fun _ h => h) fun _ => ?_
      refine .bind pollReply_numbered fun b => .ite (fun _ => .pure fun _ h => h) fun _ => ?_
      refine hremove.bind fun _ => .get_bind' fun l => .ite (fun _ => ?_) fun _ => ih true (some entry)
      exact htimeout.bind fun _ => ih true none

theorem handshakeTurn_numbered {payload : V2Payload} {may : LanplusState → Bool} {sentState : LanplusState}
    (attempts : List Attempt) :
    Triple (fun _ => True) Numbered (handshakeTurn w payload may sentState attempts) fun _ => Numbered := by
  have hbuild : ∀ iv, Triple (fun _ => True) Numbered (buildV2xMsg w payload iv 0) fun _ => Numbered := fun iv =>
    buildV2xMsg_intf (fun _ _ => trivial) (fun _ _ h => ⟨h.nodup, h.bound⟩) payload iv 0
  have hsend (msg : List UInt8) (a : Attempt) :
      Triple (fun _ => True) Numbered (ipmiLanSendPacket msg a) fun _ => Numbered :=
    .bind (modify_numbered (fun _ => rfl) fun _ => rfl) fun _ => .pure fun _ h => h
  have hstate : Triple (fun _ => True) Numbered (setSessionState sentState) fun _ => Numbered :=
    modify_numbered (fun _ => rfl) fun _ => rfl
  cases attempts with
  | nil => exact .pure fun _ h => h
  | cons a rest =>
    refine .get_bind' fun l => .ite (fun _ => .throw fun _ _ => trivial) fun _ => ?_
    refine (hbuild a.iv).bind fun msg => (hsend msg a).bind fun sent => ?_
    -- `send` fails, or no answer is expected
    refine .ite (fun _ => .pure fun _ h => h) fun _ => ?_
    refine .ite (fun _ => .pure fun _ h => h) fun _ => ?_
    refine hstate.bind fun _ => ?_
    exact pollReply_numbered.bind fun rsp => .pure fun _ h => h

theorem sendTurns_numbered (attempts : List Attempt) (request : Request) :
    Triple (fun _ => True) Numbered (sendTurns w attempts request) fun _ => Numbered := by
  cases request with
  | ipmi req => exact ipmiTurns_numbered attempts false none
  | openSession bytes =>
    unfold sendTurns
    exact handshakeTurn_numbered attempts
  | rakp1 bytes =>
    unfold sendTurns
    exact handshakeTurn_numbered attempts
  | rakp3 bytes =>
    unfold sendTurns
    exact handshakeTurn_numbered attempts

theorem sendPayload_numbered (attempts : List Attempt) (request : Request) :
    Triple (fun _ => True) Numbered (ipmiLanplusSendPayload w request attempts) fun _ => Numbered := by
  have hcall : Triple (fun _ => True) Numbered (noteCall request) fun _ => Numbered :=
    modify_numbered (fun _ => rfl) fun _ => rfl
  have hreturn : Triple (fun _ => True) Numbered noteReturn fun _ => Numbered :=
    modify_numbered (fun _ => rfl) fun _ => rfl
  have hreturned : Triple (fun _ => True) Numbered (noteReturned request) fun _ => Numbered :=
    modify_numbered (fun _ => rfl) fun _ => rfl
  refine hcall.bind fun _ => .get_bind' fun l => (sendTurns_numbered attempts request).bind fun r => ?_
  cases r with
  | returnNull => exact hreturn.bind fun _ => .pure fun _ h => h
  | leave rsp =>
    refine .bind (modify_numbered (fun _ => rfl) fun _ => rfl) fun _ => ?_
    cases rsp with
    | true => exact hreturned.bind fun _ => hreturn.bind fun _ => .pure fun _ h => h
    | false => exact hreturn.bind fun _ => .pure fun _ h => h

theorem step_numbered (step : Step) : Triple (fun _ => True) Numbered (step.run w) fun _ => Numbered := by
  cases step with
  | call request attempts => exact .bind (sendPayload_numbered attempts request) fun _ => .pure fun _ h => h
  | poll => exact .bind (.get_bind' fun l => pollRecvFrom_numbered l.arrivals) fun _ => .pure fun _ h => h
  | setIntf intf noanswer => exact .modify fun _ h => ⟨h.nodup, h.bound⟩
  | clearEntries => exact .modify fun l h => ⟨List.nodup_nil, List.forall_mem_nil _⟩

/-- The pending requests of a run are numbered. -/
theorem runSteps_numbered (steps : List Step) :
    Triple (fun _ => True) Numbered (runSteps w steps) fun _ => Numbered := by
  induction steps with
  | nil => exact .pure fun _ h => h
  | cons step rest ih => exact .bind (step_numbered step) fun _ => ih

theorem Run.numbered {r : Run} {l : Link}
    (hrun : runSteps r.world r.steps (.start r.intf r.noanswer r.timeout r.arrivals) = .ok ⟨⟩ l) :
    Numbered l := by
  have h := runSteps_numbered (w := r.world) r.steps (.start r.intf r.noanswer r.timeout r.arrivals)
    ⟨List.nodup_nil, List.forall_mem_nil _⟩
  rwa [hrun] at h

end run

/-! ### Calls -/

/-- A call of `ipmi_lanplus_send_payload` for an IPMI request, in a state that a run leaves
(`Run.numbered`). -/
structure IpmiCall where
  world : World
  link : Link
  numbered : Numbered link
  req : IpmiRq
  attempts : List Attempt

namespace IpmiCall
variable (c : IpmiCall)

/-- The link in which the loop starts. -/
def start : Link := finalState (noteCall (.ipmi c.req)) c.link

def touches : List Touch := callTouches c.world c.req false none c.attempts c.start

/-- The call reads an entry only while it is in the list, and in each of its waits there is an entry that a
response to its transmissions can be matched with. -/
def Safe : Prop := ∀ t ∈ c.touches, t.Valid

/-- No wait and no turn of the call loses its entry. -/
def Keeps : Prop := TurnsKeep c.world c.req false none c.attempts c.start

/-- The call loses its entry, and older requests stand in for it until a response comes. -/
def StandsIn : Prop := TurnsStoodIn c.world c.req false none c.attempts c.start

/-- **The lifetime of a pending request.** -/
theorem lifetime_safe_iff : c.Safe ↔ c.Keeps ∨ c.StandsIn := by
  have hready : TurnReady none c.start := ⟨c.numbered.nodup, c.numbered.bound⟩
  exact turns_safe_iff hready

/-! ### A turn that only polls again -/

/-- Get Device ID with two turns. The first poll is empty at once, and the response comes in the second. -/
def emptyPoll : IpmiCall where
  world := ⟨.plain, fun _ => 0⟩
  link := .start (Run.intfIn .active) false 1 [none, some Run.firstReply]
  numbered := ⟨List.nodup_nil, List.forall_mem_nil _⟩
  req := Run.getDeviceId
  attempts := [Run.attempt, Run.attempt]

/-- The second turn waits without an entry, drops the response, and reads the entry that has been freed. -/
theorem emptyPoll_not_safe : ¬ ∀ c : IpmiCall, c.Safe := by
  intro h
  have hinvalid : emptyPoll.touches.any (fun t => !decide t.Valid) = true := by decide +kernel
  obtain ⟨t, ht, hnot⟩ := List.any_eq_true.1 hinvalid
  rw [Bool.not_eq_true', decide_eq_false_iff_not] at hnot
  exact hnot (h emptyPoll t ht)

end IpmiCall

end KTools.Lanplus
