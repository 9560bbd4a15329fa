import KTools.Sdr.Genuine

/-!
# Every lookup finds what there is

The device may refuse parts that are longer than a limit, or leave them unanswered, and it may cancel the reservation,
but not twice in a row; otherwise it completes what it is asked for. Then a run of lookups returns within a number of
requests that the size of the repository bounds, and every lookup in it gives what it would give on the whole
repository, whatever was looked up before it.
-/

namespace KTools.Sdr
open KTools.Lib KTools.Lib.Bytes KTools.Lanplus

/-- The answer is complete, or too long to be given, or says that the reservation is lost. -/
def Outcome (limit offset length : UInt8) (answer : Option Rsp) : Prop :=
  (∃ rsp, answer = some rsp ∧ rsp.ccode = 0 ∧ rsp.dataLen ≠ 0) ∨
  (offset ≠ 0 ∧ limit < length ∧ ∀ rsp, answer = some rsp → rsp.ccode = ccCantRetNumReqBytes) ∨
  ∃ rsp, answer = some rsp ∧ rsp.ccode = ccResCanceled

/-- The request with this number finds the reservation cancelled. -/
def Cancels (device : Nat → IpmiRq → Option Rsp) (n : Nat) : Prop :=
  ∃ itr id offset length rsp, device n (sdrRequest itr id offset length) = some rsp ∧ rsp.ccode = ccResCanceled

structure Obliging (repo : Repository) (device : Nat → IpmiRq → Option Rsp) (limit : UInt8) : Prop where
  limit_pos : 1 ≤ limit
  identifies : ∀ n, ∃ rsp, device n (request netfnApp bmcGetDeviceId []) = some rsp ∧ rsp.ccode = 0 ∧
    (rsp.data 1 &&& 0x80 = 0 ∨ rsp.data 5 &&& 2 ≠ 0 ∨ rsp.data 5 &&& 1 ≠ 0)
  informs : ∀ n, ∃ rsp, device n (request netfnStorage getSdrRepoInfo []) = some rsp ∧ rsp.ccode = 0 ∧
    wordAt rsp.data 1 ≠ 0
  informsDevice : ∀ n, ∃ rsp, device n (request netfnSe getDeviceSdrInfo []) = some rsp ∧ rsp.ccode = 0 ∧
    rsp.dataLen ≠ 0
  reserves : ∀ n useBuiltin, ∃ rsp, device n (request (if useBuiltin = true then netfnSe else netfnStorage)
    getSdrReserveRepo []) = some rsp ∧ rsp.ccode = 0
  gives : ∀ n itr id offset length r rest, repo.Addresses id r rest →
    Outcome limit offset length (device n (sdrRequest itr id offset length))
  patient : ∀ n, Cancels device n → ¬ Cancels device (n + 2)

section requests
variable {w : World} {repo : Repository} {limit : UInt8}

theorem sendrecv_returns (req : IpmiRq) {s : State} (h : s.exchanges < w.patience) :
    Returns (sendrecv w req) s fun rsp s' =>
      rsp = w.device s.exchanges req ∧ s' = { s with exchanges := s.exchanges + 1 } := by
  refine Returns.get_bind ?_
  rw [if_pos h]
  exact Returns.modify_bind (Returns.pure ⟨rfl, rfl⟩)

theorem Obliging.reservation_returns (hobl : Obliging repo w.device limit) (useBuiltin : Bool) {s : State}
    (h : s.exchanges < w.patience) :
    Returns (ipmiSdrGetReservation w useBuiltin) s fun reservation s' =>
      reservation.isSome = true ∧ s' = { s with exchanges := s.exchanges + 1 } := by
  obtain ⟨rsp, hrsp, hok⟩ := hobl.reserves s.exchanges useBuiltin
  refine (sendrecv_returns _ h).bind fun answer s' hs' => ?_
  rw [hs'.1, hrsp]
  simp only [hok, ne_eq, not_true, if_false]
  exact Returns.pure ⟨rfl, hs'.2⟩

/-- The next request finds the reservation in place. -/
theorem Obliging.headerTry_returns (hobl : Obliging repo w.device limit) (itr : Iterator) {r : Record}
    {rest : List Record} (hr : repo.Addresses itr.next r rest) (tries : Nat) {s : State}
    (h : s.exchanges < w.patience) (hcancel : ¬ Cancels w.device s.exchanges) :
    Returns (headerTries w (tries + 1) itr) s fun p s' =>
      p.1.isSome = true ∧ s'.exchanges = s.exchanges + 1 := by
  refine (sendrecv_returns _ h).bind fun answer s' hs' => ?_
  rcases hobl.gives s.exchanges itr itr.next 0 5 r rest hr with hok | htoo | hc5
  · obtain ⟨rsp, hrsp, hok, -⟩ := hok
    rw [hs'.1, hrsp]
    simp only [hok]
    exact Returns.pure ⟨rfl, by rw [hs'.2]⟩
  · exact absurd rfl htoo.1
  · obtain ⟨rsp, hrsp, hc5⟩ := hc5
    exact absurd ⟨_, _, _, _, rsp, hrsp, hc5⟩ hcancel

/-- A header takes a request, and two more when the reservation is lost. -/
theorem Obliging.headerTries_returns (hobl : Obliging repo w.device limit) {itr : Iterator} {r : Record}
    {rest : List Record} (hr : repo.Addresses itr.next r rest) {s : State} (h : s.exchanges + 3 ≤ w.patience) :
    Returns (headerTries w 5 itr) s fun p s' => p.1.isSome = true ∧ s'.exchanges ≤ s.exchanges + 3 := by
  by_cases hcancel : Cancels w.device s.exchanges
  · refine (sendrecv_returns _ (by omega)).bind fun answer s' hs' => ?_
    rcases hobl.gives s.exchanges itr itr.next 0 5 r rest hr with hok | htoo | hc5
    · obtain ⟨rsp, hrsp, hok, -⟩ := hok
      rw [hs'.1, hrsp]
      simp only [hok]
      exact Returns.pure ⟨rfl, by rw [hs'.2]; simp⟩
    · exact absurd rfl htoo.1
    · obtain ⟨rsp, hrsp, hc5⟩ := hc5
      rw [hs'.1, hrsp]
      simp only [hc5, if_true]
      have hone : s'.exchanges < w.patience := by
        rw [hs'.2]
        simp only
        omega
      refine (hobl.reservation_returns itr.useBuiltIn hone).bind fun reservation t ht => ?_
      obtain ⟨reservation, rfl⟩ := Option.isSome_iff_exists.1 ht.1
      have hexchanges : t.exchanges = s.exchanges + 2 := by rw [ht.2, hs'.2]
      refine (hobl.headerTry_returns { itr with reservation := reservation } hr 3 (by omega) ?_).mono
        fun p u hu => ⟨hu.1, by omega⟩
      rw [hexchanges]
      exact hobl.patient _ hcancel
  · exact (hobl.headerTry_returns itr hr 4 (by omega) hcancel).mono fun p s' h => ⟨h.1, by omega⟩

/-- So many requests are enough from the one with number `n` on, where `turns` more of them will be of use: each is
the last of at most three. -/
def Enough (device : Nat → IpmiRq → Option Rsp) (n turns cost : Nat) : Prop :=
  cost = 3 * turns ∨ ¬ Cancels device n ∧ cost + 2 = 3 * turns

theorem Enough.next {device : Nat → IpmiRq → Option Rsp} {n turns cost : Nat} (h : Enough device n turns cost)
    (turns' : Nat) (hlt : turns' < turns) : 3 * turns' + 1 ≤ cost := by
  rcases h with h | h
  · omega
  · omega

theorem Obliging.recordTurns_returns (hobl : Obliging repo w.device limit) {id : UInt16} {r : Record}
    {rest : List Record} (hr : repo.Addresses id r rest) (hlen : r.body.length ≤ 251) (fuel : Nat) (itr : Iterator)
    (i : Nat) (data : Nat → UInt8) (s : State) (hread : 1 ≤ s.sdrMaxReadLen ∧ s.sdrMaxReadLen ≤ 254)
    {turns cost : Nat} (hturns : r.body.length - i + s.sdrMaxReadLen.toNat = turns)
    (hcost : Enough w.device s.exchanges turns cost)
    (hfuel : cost < fuel) (hpatience : s.exchanges + cost ≤ w.patience) :
    Returns (recordTurns w id r.body.length fuel itr i data) s fun p s' =>
      p.1.isSome = true ∧ s'.exchanges ≤ s.exchanges + cost := by
  induction fuel generalizing itr i data s turns cost with
  | zero => omega
  | succ fuel ih =>
    unfold recordTurns
    refine Returns.ite (fun hlt => ?_) fun _ => Returns.pure ⟨rfl, Nat.le_add_right _ _⟩
    refine Returns.get_bind ?_
    have hlength := toNat_readLength (r.body.length - i) (by omega) (by omega) hread.2
    generalize readLength (r.body.length - i) s.sdrMaxReadLen = length at hlength ⊢
    have hpos : 3 ≤ cost ∨ ¬ Cancels w.device s.exchanges ∧ 1 ≤ cost := by
      rcases hcost with h | h
      · omega
      · exact .inr ⟨h.1, by omega⟩
    refine (sendrecv_returns _ (by omega)).bind fun answer t ht => ?_
    obtain ⟨rfl, rfl⟩ := ht
    rcases hobl.gives s.exchanges itr id (UInt8.ofNat (i + 5)) length r rest hr with hok | htoo | hc5
    · -- the part is read
      obtain ⟨rsp, hrsp, hok, hdata⟩ := hok
      rw [hrsp]
      have hc0 : (0 : UInt8) ≠ ccCantRetNumReqBytes := by decide
      have hc5 : (0 : UInt8) ≠ ccResCanceled := by decide
      simp only [hok, hdata, hc0, hc5, ne_eq, not_true, or_self, if_false]
      refine (ih itr (i + length.toNat) _ { s with exchanges := s.exchanges + 1 } hread rfl (.inl rfl) ?_ ?_).mono
        fun p u hu => ⟨hu.1, ?_⟩
      all_goals
        have := hcost.next (r.body.length - (i + length.toNat) + s.sdrMaxReadLen.toNat) (by omega)
        simp only at *
        omega
    · -- a shorter length is tried
      have hshort : 1 < length := by
        have := UInt8.lt_iff_toNat_lt.1 htoo.2.1
        have := UInt8.le_iff_toNat_le.1 hobl.limit_pos
        exact UInt8.lt_iff_toNat_lt.2 (by simp at *; omega)
      have hshort' := UInt8.lt_iff_toNat_lt.1 hshort
      have hnext : Returns
          (do
            modify fun s => { s with sdrMaxReadLen := (length.toNat : Int) - 1 }
            if 1 < length then recordTurns w id r.body.length fuel itr i data else return (none, itr))
          { s with exchanges := s.exchanges + 1 }
          fun p s' => p.1.isSome = true ∧ s'.exchanges ≤ s.exchanges + cost := by
        refine Returns.modify_bind ?_
        rw [if_pos hshort]
        refine (ih itr i data _ ?_ rfl (.inl rfl) ?_ ?_).mono fun p u hu => ⟨hu.1, ?_⟩
        all_goals
          have := hcost.next (r.body.length - i + ((length.toNat : Int) - 1).toNat) (by simp at hshort'; omega)
          simp only [UInt8.reduceToNat] at *
          omega
      cases hrsp : w.device s.exchanges (sdrRequest itr id (UInt8.ofNat (i + 5)) length) with
      | none => exact hnext
      | some rsp =>
        simp only [htoo.2.2 rsp hrsp, if_true]
        exact hnext
    · -- the reservation is renewed, and the next request is of use
      obtain ⟨rsp, hrsp, hc5⟩ := hc5
      rw [hrsp]
      have hca : ccResCanceled ≠ ccCantRetNumReqBytes := by decide
      have hcancels : Cancels w.device s.exchanges := ⟨_, _, _, _, rsp, hrsp, hc5⟩
      have hcost' := hcost.resolve_right fun h => h.1 hcancels
      simp only [hc5, hca, if_true, if_false]
      refine (hobl.reservation_returns itr.useBuiltIn (by simp only; omega)).bind fun reservation t ht => ?_
      obtain ⟨reservation, rfl⟩ := Option.isSome_iff_exists.1 ht.1
      obtain rfl := ht.2
      have hnext : Enough w.device (s.exchanges + 2) turns (cost - 2) := .inr ⟨hobl.patient _ hcancels, by omega⟩
      refine (ih _ i data { s with exchanges := s.exchanges + 2 } hread hturns hnext ?_ ?_).mono
        fun p u hu => ⟨hu.1, ?_⟩
      all_goals
        simp only at *
        omega

/-- A record takes at most so many requests. -/
theorem Obliging.getRecord_returns (hobl : Obliging repo w.device limit) (hsize : 3 ≤ w.maxResponseDataSize)
    (header : Header) {r : Record} {rest : List Record} (hr : repo.Addresses header.id r rest)
    (hpos : 0 < r.body.length) (hlen : r.body.length ≤ 251) (hlength : header.length = UInt8.ofNat r.body.length)
    (itr : Iterator) {s : State} (hread : 0 ≤ s.sdrMaxReadLen ∧ s.sdrMaxReadLen ≤ 254)
    (hpatience : s.exchanges + 1515 ≤ w.patience) :
    Returns (ipmiSdrGetRecord w header itr) s fun p s' => p.1.isSome = true ∧ s'.exchanges ≤ s.exchanges + 1515 := by
  have hsize' : 3 ≤ w.maxResponseDataSize.toNat := UInt16.le_iff_toNat_le.1 hsize
  have hlen' : header.length.toNat = r.body.length := by
    rw [hlength, UInt8.toNat_ofNat']
    omega
  unfold ipmiSdrGetRecord
  simp only [hlen']
  rw [if_neg (by omega)]
  refine Returns.modify_bind (Returns.get_bind ?_)
  generalize ht : (if s.sdrMaxReadLen = 0 then _ else s : State) = t
  have hexchanges : t.exchanges = s.exchanges := by
    subst ht
    split <;> rfl
  have hread' : 1 ≤ t.sdrMaxReadLen ∧ t.sdrMaxReadLen ≤ 254 := by
    subst ht
    split
    · simp only
      split <;> omega
    · omega
  refine (hobl.recordTurns_returns hr hlen _ itr 0 _ t hread' rfl (.inl rfl) (by omega) (by omega)).mono
    fun p u hu => ⟨hu.1, by omega⟩

theorem Obliging.getNextHeader_returns (hobl : Obliging repo w.device limit) (hdev : Faithful repo w.device)
    {done rest : List Record} {r : Record} (hsplit : repo.records = done ++ r :: rest) {itr : Iterator}
    (hitr : itr.Before done (r :: rest)) {s : State} (hpatience : s.exchanges + 3 ≤ w.patience) :
    Returns (ipmiSdrGetNextHeader w itr) s fun p s' =>
      p.1.isSome = true ∧ s'.exchanges ≤ s.exchanges + 3 := by
  have hmem : r ∈ repo.records := by simp [hsplit]
  have hr := hitr.addresses hsplit
  have hnext : itr.next ≠ 0xFFFF := by
    rw [hitr]
    split
    · decide
    · exact repo.ne_last r hmem
  unfold ipmiSdrGetNextHeader
  rw [if_neg hnext]
  have htrivial : Aloof fun _ => True := fun _ _ h => h
  refine Returns.bind (Q := fun p s' => p.1.isSome = true ∧ s'.exchanges ≤ s.exchanges + 3) ?_ fun p t ht => ?_
  · refine ((hobl.headerTries_returns hr hpatience).and_triple (htrivial.headerTries 5 itr) trivial).bind
      fun p t ht => Returns.pure ⟨?_, ht.1.2⟩
    obtain ⟨rsp, hrsp⟩ := Option.isSome_iff_exists.1 ht.1.1
    obtain ⟨n, itr', hn, hok⟩ := ht.2.2.2 rsp hrsp
    have hheader := (hdev n _ _ _ _ _ _ _ hn hok hr).header
    have hpos := repo.length_pos r hmem
    have hlen := repo.length_le r hmem
    have hlength : rsp.data 6 ≠ 0 := by
      rw [hheader.2.2]
      intro h
      have h0 := congrArg UInt8.toNat h
      rw [UInt8.toNat_ofNat'] at h0
      simp at h0
      omega
    simp [hrsp, headerOf, hlength]
  · obtain ⟨header, itr'⟩ := p
    obtain ⟨header, rfl⟩ := Option.isSome_iff_exists.1 ht.1
    exact Returns.pure ⟨rfl, ht.2⟩

/-- What a turn of the loops reads. -/
def Turn.reads (w : World) (r : Record) : Turn := if r.isKnown = true then .kept (entryOf w r) else .left

/-- All records of `done` are kept, and the requests suffice for `rest`. -/
def Ahead (w : World) (repo : Repository) (done rest : List Record) (s : State) : Prop :=
  s.records = entries w done ∧ s.exchanges + 1518 * rest.length ≤ w.patience ∧ ∃ sub, Open w repo done sub rest s

theorem readOn_nil {done sub : List Record} {itr : Iterator} (hitr : itr.Before done []) {s : State}
    (hs : Stands w repo done sub [] s) :
    Returns (readOn w itr) s fun turn s' => turn = .finished ∧ s' = { s with sdrListItr := some itr } := by
  have hdone : done ≠ [] := by
    rintro rfl
    exact repo.nonempty (by simpa using hs.split)
  have hnext : itr.next = 0xFFFF := by rw [hitr, if_neg hdone, nextId]
  unfold readOn ipmiSdrGetNextHeader
  rw [if_pos hnext, pure_bind]
  exact Returns.modify_bind (Returns.pure ⟨rfl, rfl⟩)

theorem Obliging.readOn_cons (hobl : Obliging repo w.device limit) (hsize : 3 ≤ w.maxResponseDataSize)
    (hdev : Faithful repo w.device) {done sub rest : List Record} {r : Record} {itr : Iterator}
    (hitr : itr.Before done (r :: rest)) {s : State} (hs : Stands w repo done sub (r :: rest) s)
    (hpatience : s.exchanges + 1518 ≤ w.patience) :
    Returns (readOn w itr) s fun turn s' =>
      s'.exchanges ≤ s.exchanges + 1518 ∧ (turn = .finished → False) ∧ (turn = .left ↔ r.isKnown = false) := by
  have hmem : r ∈ repo.records := by simp [hs.split]
  have hranged := stands_ranged w repo done sub (r :: rest)
  refine ((hobl.getNextHeader_returns hdev hs.split hitr (by omega)).and_triple
    (ipmiSdrGetNextHeader_triple hranged.aloof hdev hs.split hitr) hs).bind fun p t ht => ?_
  obtain ⟨header, itr'⟩ := p
  obtain ⟨⟨hsome, hexchanges⟩, ht, hnone | ⟨r', rest', hrest, hheader, hitr'⟩⟩ := ht
  · exact absurd (hnone.1 ▸ hsome) (by simp)
  · obtain ⟨rfl, rfl⟩ := List.cons.inj hrest
    simp only at hheader
    subst hheader
    refine (hobl.getRecord_returns hsize (r.header rest) ⟨done, hs.split, .inl rfl⟩ (repo.length_pos r hmem)
      (repo.length_le r hmem) rfl itr' ht.readLen (by omega)).bind fun p u hu => ?_
    obtain ⟨record, itr''⟩ := p
    obtain ⟨record, rfl⟩ := Option.isSome_iff_exists.1 hu.1
    refine Returns.modify_bind (Returns.ite (fun hknown => Returns.modify_bind (Returns.pure ⟨?_, ?_, ?_⟩))
      fun hknown => Returns.pure ⟨?_, ?_, ?_⟩)
    · simp only
      omega
    · simp
    · simpa [Record.isKnown, Record.header] using hknown
    · simp only
      omega
    · simp
    · simpa [Record.isKnown, Record.header] using hknown

/-- A turn where records are left reads the next one. -/
theorem Ahead.reads (hobl : Obliging repo w.device limit) (hsize : 3 ≤ w.maxResponseDataSize)
    (hdev : Faithful repo w.device) {done rest : List Record} {r : Record} {s : State}
    (hs : Ahead w repo done (r :: rest) s) {itr : Iterator} (hitr : s.sdrListItr = some itr) :
    Returns (readOn w itr) s fun turn s' =>
      turn = Turn.reads w r ∧ Ahead w repo (done ++ [r]) rest s' := by
  obtain ⟨hrecords, hpatience, sub, hstands, itr', hitr', hbefore⟩ := hs
  obtain rfl := Option.some.inj (hitr.symm.trans hitr')
  rw [List.length_cons, Nat.mul_succ, ← Nat.add_assoc] at hpatience
  have hone : s.exchanges + 1518 ≤ w.patience := by omega
  refine ((hobl.readOn_cons hsize hdev hbefore hstands hone).and_triple (readOn_triple hsize hdev hbefore)
    hstands).mono fun turn t ht => ?_
  obtain ⟨⟨hexchanges, hnot, hleft⟩, ht⟩ := ht
  cases turn with
  | finished => exact (hnot rfl).elim
  | left =>
    obtain ⟨r', rest', hrest, ht⟩ := ht
    obtain ⟨rfl, rfl⟩ := List.cons.inj hrest
    have hunknown := hleft.1 rfl
    refine ⟨by simp [Turn.reads, hunknown], ?_, by omega, _, ht⟩
    rw [ht.1.records, ← hstands.records, hrecords, entries_append]
    simp [entries, hunknown]
  | kept e =>
    obtain ⟨r', rest', hrest, hknown, rfl, ht⟩ := ht
    obtain ⟨rfl, rfl⟩ := List.cons.inj hrest
    refine ⟨by simp [Turn.reads, hknown], ?_, by omega, _, ht⟩
    rw [ht.1.records, entries_append, ← hstands.records, hrecords, ← entries_append]

/-- Where none is left, a turn ends the loop. -/
theorem Ahead.ends {done : List Record} {s : State} (hs : Ahead w repo done [] s) {itr : Iterator}
    (hitr : s.sdrListItr = some itr) :
    Returns (readOn w itr) s fun turn s' => turn = .finished ∧ Ahead w repo done [] s' := by
  obtain ⟨hrecords, hpatience, sub, hstands, itr', hitr', hbefore⟩ := hs
  obtain rfl := Option.some.inj (hitr.symm.trans hitr')
  refine (readOn_nil hbefore hstands).mono fun turn t ht => ⟨ht.1, ?_⟩
  obtain rfl := ht.2
  exact ⟨hrecords, hpatience, sub, hstands.setItr _, itr, rfl, hbefore⟩

theorem Ahead.itr {done rest : List Record} {s : State} (hs : Ahead w repo done rest s) :
    ∃ itr, s.sdrListItr = some itr := by
  obtain ⟨-, -, sub, -, itr, hitr, -⟩ := hs
  exact ⟨itr, hitr⟩

theorem Ahead.split {done rest : List Record} {s : State} (hs : Ahead w repo done rest s) :
    repo.records = done ++ rest := by
  obtain ⟨-, -, sub, hstands, -⟩ := hs
  exact hstands.split

/-! ### The loops -/

/-- The iterator is open, and the requests suffice. -/
def AheadSome (w : World) (repo : Repository) (s : State) : Prop := ∃ done rest, Ahead w repo done rest s

variable (matching : Entry → Bool)

theorem findOneTurns_returns (hobl : Obliging repo w.device limit) (hsize : 3 ≤ w.maxResponseDataSize)
    (hdev : Faithful repo w.device) (rest : List Record) :
    ∀ (done : List Record) (fuel : Nat) (s : State), Ahead w repo done rest s → rest.length < fuel →
      Returns (findOneTurns w matching fuel) s fun found s' =>
        found = (entries w rest).find? matching ∧ AheadSome w repo s' := by
  induction rest with
  | nil =>
    intro done fuel s hs hfuel
    obtain ⟨fuel, rfl⟩ := Nat.exists_eq_add_one_of_ne_zero (Nat.ne_of_gt hfuel)
    obtain ⟨itr, hitr⟩ := hs.itr
    unfold findOneTurns
    refine Returns.get_bind ?_
    simp only [hitr]
    refine (hs.ends hitr).bind fun turn t ht => ?_
    obtain rfl := ht.1
    exact Returns.pure ⟨rfl, _, _, ht.2⟩
  | cons r rest ih =>
    intro done fuel s hs hfuel
    obtain ⟨fuel, rfl⟩ := Nat.exists_eq_add_one_of_ne_zero (show fuel ≠ 0 by omega)
    obtain ⟨itr, hitr⟩ := hs.itr
    simp only [List.length_cons] at hfuel
    unfold findOneTurns
    refine Returns.get_bind ?_
    simp only [hitr]
    refine (hs.reads hobl hsize hdev hitr).bind fun turn t ht => ?_
    obtain ⟨rfl, ht⟩ := ht
    have hrest := ih (done ++ [r]) fuel t ht (by omega)
    unfold Turn.reads
    by_cases hknown : r.isKnown = true
    · simp only [hknown, if_true, entries, List.filter_cons, List.map_cons, List.find?_cons]
      refine Returns.ite (fun he => Returns.pure ?_) fun he => hrest.mono fun found u hu => ?_
      · rw [he]
        exact ⟨rfl, _, _, ht⟩
      · simp only [he]
        exact hu
    · simp only [hknown, entries, List.filter_cons]
      exact hrest

theorem findAllTurns_returns (hobl : Obliging repo w.device limit) (hsize : 3 ≤ w.maxResponseDataSize)
    (hdev : Faithful repo w.device) (rest : List Record) :
    ∀ (done : List Record) (fuel : Nat) (head : List Entry) (s : State), Ahead w repo done rest s →
      rest.length < fuel →
      Returns (findAllTurns w matching fuel head) s fun found s' =>
        found = head ++ (entries w rest).filter matching ∧ AheadSome w repo s' := by
  induction rest with
  | nil =>
    intro done fuel head s hs hfuel
    obtain ⟨fuel, rfl⟩ := Nat.exists_eq_add_one_of_ne_zero (Nat.ne_of_gt hfuel)
    obtain ⟨itr, hitr⟩ := hs.itr
    unfold findAllTurns
    refine Returns.get_bind ?_
    simp only [hitr]
    refine (hs.ends hitr).bind fun turn t ht => ?_
    obtain rfl := ht.1
    exact Returns.pure ⟨by simp [entries], _, _, ht.2⟩
  | cons r rest ih =>
    intro done fuel head s hs hfuel
    obtain ⟨fuel, rfl⟩ := Nat.exists_eq_add_one_of_ne_zero (show fuel ≠ 0 by omega)
    obtain ⟨itr, hitr⟩ := hs.itr
    simp only [List.length_cons] at hfuel
    unfold findAllTurns
    refine Returns.get_bind ?_
    simp only [hitr]
    refine (hs.reads hobl hsize hdev hitr).bind fun turn t ht => ?_
    obtain ⟨rfl, ht⟩ := ht
    unfold Turn.reads
    by_cases hknown : r.isKnown = true
    · simp only [hknown, if_true]
      refine (ih (done ++ [r]) fuel _ t ht (by omega)).mono fun found u hu => ⟨?_, hu.2⟩
      rw [hu.1]
      simp only [entries, List.filter_cons, hknown, if_true, List.map_cons]
      split <;> simp
    · simp only [hknown]
      refine (ih (done ++ [r]) fuel head t ht (by omega)).mono fun found u hu => ⟨?_, hu.2⟩
      rw [hu.1]
      simp [entries, hknown]

/-! ### The lookups -/

theorem Obliging.reservedIterator_returns (hobl : Obliging repo w.device limit) (useBuiltIn : Bool) {s : State}
    (h : s.exchanges < w.patience) :
    Returns (reservedIterator w useBuiltIn) s fun itr s' => itr.isSome = true ∧ s'.exchanges = s.exchanges + 1 := by
  refine (hobl.reservation_returns useBuiltIn h).bind fun reservation t ht => ?_
  obtain ⟨reservation, rfl⟩ := Option.isSome_iff_exists.1 ht.1
  exact Returns.pure ⟨rfl, by rw [ht.2]⟩

theorem usesDeviceSdrs_isSome (before : Bool) {devid : Nat → UInt8}
    (h : devid 1 &&& 0x80 = 0 ∨ devid 5 &&& 2 ≠ 0 ∨ devid 5 &&& 1 ≠ 0) :
    (usesDeviceSdrs false before devid).isSome = true := by
  unfold usesDeviceSdrs
  split
  · split
    · rw [if_pos (by simp_all)]
      rfl
    · rfl
  · rfl

/-- The iterator is opened with three requests. -/
theorem Obliging.start_returns (hobl : Obliging repo w.device limit) {s : State} (h : s.exchanges + 3 ≤ w.patience) :
    Returns (ipmiSdrStart w false) s fun itr s' => itr.isSome = true ∧ s'.exchanges = s.exchanges + 3 := by
  refine (sendrecv_returns _ (by omega)).bind fun answer t ht => ?_
  obtain ⟨devid, hdevid, hok, hsdrs⟩ := hobl.identifies s.exchanges
  rw [ht.1, hdevid]
  obtain rfl := ht.2
  simp only [hok, ne_eq, not_true, if_false]
  refine Returns.get_bind ?_
  obtain ⟨useBuiltIn, huse⟩ := Option.isSome_iff_exists.1 (usesDeviceSdrs_isSome s.useBuiltIn hsdrs)
  simp only [huse]
  refine Returns.modify_bind (Returns.ite (fun _ => ?_) fun _ => ?_)
  · refine (sendrecv_returns _ (by simp only; omega)).bind fun answer t ht => ?_
    obtain ⟨rsp, hrsp, hok, hdata⟩ := hobl.informsDevice (s.exchanges + 1)
    rw [ht.1, hrsp]
    obtain rfl := ht.2
    simp only [hok, hdata, not_true, or_self, if_false]
    exact (hobl.reservedIterator_returns true (by simp only; omega)).mono fun itr u hu => ⟨hu.1, by rw [hu.2]⟩
  · refine (sendrecv_returns _ (by simp only; omega)).bind fun answer t ht => ?_
    obtain ⟨rsp, hrsp, hok, hcount⟩ := hobl.informs (s.exchanges + 1)
    rw [ht.1, hrsp]
    obtain rfl := ht.2
    simp only [hok, hcount, not_true, if_false]
    exact (hobl.reservedIterator_returns false (by simp only; omega)).mono fun itr u hu => ⟨hu.1, by rw [hu.2]⟩

/-- The iterator is open, or nothing has been read, and the requests suffice. -/
def ReadyAhead (w : World) (repo : Repository) (s : State) : Prop :=
  AheadSome w repo s ∨ s.sdrListItr = none ∧ Stands w repo [] [] repo.records s ∧
    s.exchanges + 3 + 1518 * repo.records.length ≤ w.patience

theorem opened_returns (hobl : Obliging repo w.device limit) {s : State} (hs : ReadyAhead w repo s) :
    Returns (opened w) s fun ok s' => ok = true ∧ AheadSome w repo s' := by
  refine Returns.get_bind ?_
  rcases hs with ⟨done, rest, hs⟩ | ⟨hitr, hstands, hpatience⟩
  · obtain ⟨itr, hitr⟩ := hs.itr
    simp only [hitr]
    exact Returns.pure ⟨rfl, done, rest, hs⟩
  · have hranged := stands_ranged w repo [] [] repo.records
    simp only [hitr]
    refine ((hobl.start_returns (by omega)).and_triple (ipmiSdrStart_triple hranged.aloof
      (fun _ _ h => ⟨h.split, h.sublist, h.records, h.readLen⟩) false) hstands).bind fun itr t ht => ?_
    obtain ⟨itr, rfl⟩ := Option.isSome_iff_exists.1 ht.1.1
    refine Returns.modify_bind (Returns.pure ⟨rfl, [], repo.records, ht.2.1.records, ?_, [], ht.2.1.setItr _, itr,
      rfl, ht.2.2 itr rfl⟩)
    simp only [ht.1.2]
    exact hpatience

/-- There is a turn for each record that is left. -/
theorem Ahead.length_lt {done rest : List Record} {s : State} (hs : Ahead w repo done rest s) :
    rest.length < w.patience - s.exchanges + 1 := by
  obtain ⟨-, hpatience, -⟩ := hs
  omega

theorem findOne_returns (hobl : Obliging repo w.device limit) (hsize : 3 ≤ w.maxResponseDataSize)
    (hdev : Faithful repo w.device) {s : State} (hs : ReadyAhead w repo s) :
    Returns (findOne w matching) s fun found s' =>
      found = (entries w repo.records).find? matching ∧ ReadyAhead w repo s' := by
  refine (opened_returns hobl hs).bind fun ok t ht => ?_
  obtain ⟨rfl, done, rest, ht⟩ := ht
  refine Returns.get_bind ?_
  rw [ht.split, entries_append, List.find?_append, ht.1]
  cases hfind : (entries w done).find? matching with
  | some e => exact Returns.pure ⟨rfl, .inl ⟨done, rest, ht⟩⟩
  | none =>
    exact (findOneTurns_returns matching hobl hsize hdev rest done _ t ht ht.length_lt).mono fun found u hu =>
      ⟨by rw [hu.1, Option.none_or], .inl hu.2⟩

theorem findAll_returns (hobl : Obliging repo w.device limit) (hsize : 3 ≤ w.maxResponseDataSize)
    (hdev : Faithful repo w.device) {s : State} (hs : ReadyAhead w repo s) :
    Returns (findAll w matching) s fun found s' =>
      found = some ((entries w repo.records).filter matching) ∧ ReadyAhead w repo s' := by
  refine (opened_returns hobl hs).bind fun ok t ht => ?_
  obtain ⟨rfl, done, rest, ht⟩ := ht
  refine Returns.get_bind ?_
  rw [ht.split, entries_append, List.filter_append, ← ht.1]
  exact (findAllTurns_returns matching hobl hsize hdev rest done _ _ t ht ht.length_lt).bind fun found u hu =>
    Returns.pure ⟨by rw [hu.1], .inl hu.2⟩

theorem Lookup.run_returns (hobl : Obliging repo w.device limit) (hsize : 3 ≤ w.maxResponseDataSize)
    (hdev : Faithful repo w.device) (l : Lookup) {s : State} (hs : ReadyAhead w repo s) :
    Returns (l.run w) s fun a s' => a = l.foundIn (entries w repo.records) ∧ ReadyAhead w repo s' := by
  cases l with
  | bynumtype genId num type =>
    exact (findOne_returns _ hobl hsize hdev hs).bind fun found t ht => Returns.pure ⟨by rw [ht.1]; rfl, ht.2⟩
  | bysensortype type =>
    exact (findAll_returns _ hobl hsize hdev hs).bind fun found t ht => Returns.pure ⟨by rw [ht.1]; rfl, ht.2⟩
  | byentity id inst =>
    exact (findAll_returns _ hobl hsize hdev hs).bind fun found t ht => Returns.pure ⟨by rw [ht.1]; rfl, ht.2⟩
  | bytype type =>
    exact (findAll_returns _ hobl hsize hdev hs).bind fun found t ht => Returns.pure ⟨by rw [ht.1]; rfl, ht.2⟩

theorem runAll_returns (hobl : Obliging repo w.device limit) (hsize : 3 ≤ w.maxResponseDataSize)
    (hdev : Faithful repo w.device) (lookups : List Lookup) {s : State} (hs : ReadyAhead w repo s) :
    Returns (runAll w lookups) s fun answers s' =>
      answers = lookups.map (Lookup.foundIn · (entries w repo.records)) ∧ ReadyAhead w repo s' := by
  induction lookups generalizing s with
  | nil => exact Returns.pure ⟨rfl, hs⟩
  | cons l lookups ih =>
    refine (l.run_returns hobl hsize hdev hs).bind fun a t ht => (ih ht.2).bind fun answers u hu => Returns.pure ?_
    rw [ht.1, hu.1]
    exact ⟨rfl, hu.2⟩

end requests

/-- Three requests, and 1518 for each record of the repository, are enough for every run of lookups, and every lookup
gives what it gives on the whole repository: the first record that matches, or all of them in order, among those of a
kind that is kept. -/
theorem runAll_complete (w : World) (repo : Repository) (limit : UInt8) (hsize : 3 ≤ w.maxResponseDataSize)
    (hdev : Faithful repo w.device) (hobl : Obliging repo w.device limit)
    (hpatience : 3 + 1518 * repo.records.length ≤ w.patience) (lookups : List Lookup) :
    Returns (runAll w lookups) initial fun answers _ =>
      answers = lookups.map (Lookup.foundIn · (entries w repo.records)) := by
  have hready : ReadyAhead w repo initial := by
    refine .inr ⟨rfl, ⟨rfl, List.Sublist.refl _, rfl, by decide⟩, ?_⟩
    rw [show initial.exchanges = 0 from rfl, Nat.zero_add]
    exact hpatience
  exact (runAll_returns hobl hsize hdev lookups hready).mono fun _ _ h => h.1

section device
variable {repo : Repository} {limit : UInt8}

theorem fussyDevice_cancels {n : Nat} (h : Cancels (repo.fussyDevice limit) n) : n % 3 = 0 := by
  obtain ⟨itr, id, offset, length, rsp, hrsp, hc5⟩ := h
  rw [fussyDevice_sdrRequest] at hrsp
  by_contra hn
  rw [if_neg hn] at hrsp
  split at hrsp
  · cases hrsp
  · split at hrsp
    · obtain rfl := Option.some.inj hrsp
      exact absurd hc5 (by decide)
    · obtain rfl := Option.some.inj hrsp
      exact absurd hc5 (by simp [Record.give, ccResCanceled])

theorem fussyDevice_obliging (hlimit : 1 ≤ limit) : Obliging repo (repo.fussyDevice limit) limit where
  limit_pos := hlimit
  identifies n := ⟨_, rfl, rfl, .inl (by decide)⟩
  informs n := ⟨_, rfl, rfl, by decide⟩
  informsDevice n := ⟨_, rfl, rfl, by decide⟩
  reserves n useBuiltin := ⟨_, rfl, rfl⟩
  gives n itr id offset length r rest hr := by
    rw [fussyDevice_sdrRequest, hr.addressed]
    split
    · exact .inr (.inr ⟨_, rfl, rfl⟩)
    · split
      · rename_i h
        exact .inr (.inl ⟨h.2, h.1, by simp⟩)
      · exact .inl ⟨_, rfl, rfl, by simp [Record.give, wordBytes]⟩
  patient n h h' := by
    have := fussyDevice_cancels h
    have := fussyDevice_cancels h'
    omega

end device

def smallAnswers (answers : List Answer) (_ : State) : Prop :=
  answers = smallLookups.map (Lookup.foundIn · (entries smallWorld smallRepository.records))

theorem smallRun_complete : Returns (runAll smallWorld smallLookups) initial smallAnswers :=
  runAll_complete smallWorld smallRepository 4 (by decide) Repository.fussyDevice_faithful
    (fussyDevice_obliging (by decide)) (by decide) smallLookups

end KTools.Sdr
