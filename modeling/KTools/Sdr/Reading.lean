import KTools.Sdr.Repository

/-!
# What is read is the record

Against a faithful device a header that is read is that of the record the iterator stands before, and the record that
is read, in whatever parts and after whatever refusals and lost reservations, has the bytes it has in the repository.
-/

namespace KTools.Sdr
open KTools.Lib KTools.Lib.Bytes KTools.Lanplus

/-- A property of the state that does not say how many requests there were. -/
def Aloof (P : State → Prop) : Prop := ∀ s n, P s → P { s with exchanges := n }

/-- A property that says nothing of the length read at most either, but that it is in range. -/
structure Ranged (P : State → Prop) : Prop where
  aloof : Aloof P
  readLen : ∀ s, P s → 0 ≤ s.sdrMaxReadLen ∧ s.sdrMaxReadLen ≤ 254
  setReadLen : ∀ s len, 0 ≤ len → len ≤ 254 → P s → P { s with sdrMaxReadLen := len }

/-- While a record is read, something can be read. -/
def Reading (P : State → Prop) (s : State) : Prop := P s ∧ 1 ≤ s.sdrMaxReadLen

section read
variable {w : World} {P : State → Prop}

theorem Aloof.sendrecv (hP : Aloof P) (req : IpmiRq) :
    Triple P P (sendrecv w req) fun rsp s => P s ∧ ∃ n, w.device n req = rsp := by
  refine Triple.get_bind fun s hs => Triple.ite (fun _ => ?_) fun _ => ?_
  · refine (Triple.modify (Q := fun _ => P) ?_).bind fun _ => Triple.pure fun t ht => ⟨ht, s.exchanges, rfl⟩
    rintro _ rfl
    exact hP _ _ hs
  · refine Triple.throw ?_
    rintro _ rfl
    exact hs

theorem Aloof.reservation (hP : Aloof P) (useBuiltin : Bool) :
    Triple P P (ipmiSdrGetReservation w useBuiltin) fun _ => P := by
  refine (hP.sendrecv _).bind fun rsp => ?_
  refine Triple.pre (P := P) ?_ fun _ h => h.1
  cases rsp with
  | none => exact Triple.pure fun _ h => h
  | some rsp => exact Triple.ite (fun _ => Triple.pure fun _ h => h) fun _ => Triple.pure fun _ h => h

/-- The same iterator, but for the reservation. -/
def Iterator.Renewed (itr itr' : Iterator) : Prop := ∃ reservation, itr' = { itr with reservation := reservation }

theorem Iterator.Renewed.rfl {itr : Iterator} : itr.Renewed itr := ⟨_, Eq.refl itr⟩

theorem Iterator.Renewed.renew {itr itr' : Iterator} {reservation : UInt16}
    (h : Iterator.Renewed { itr with reservation := reservation } itr') : itr.Renewed itr' := by
  obtain ⟨reservation', rfl⟩ := h
  exact ⟨reservation', Eq.refl _⟩

theorem Aloof.headerTries (hP : Aloof P) (tries : Nat) (itr : Iterator) :
    Triple P P (headerTries w tries itr) fun p s => P s ∧ itr.Renewed p.2 ∧
      ∀ rsp, p.1 = some rsp → ∃ n itr', w.device n (sdrRequest itr' itr.next 0 5) = some rsp ∧ rsp.ccode = 0 := by
  induction tries generalizing itr with
  | zero => exact Triple.pure fun _ hs => ⟨hs, .rfl, by simp⟩
  | succ tries ih =>
    refine (hP.sendrecv _).bind fun rsp => ?_
    cases rsp with
    | none => exact (ih itr).pre fun _ h => h.1
    | some rsp =>
      refine Triple.ite (fun _ => ?_) fun _ => Triple.ite (fun _ => ?_) fun hok => ?_
      · refine Triple.pre (P := P) ((hP.reservation _).bind fun reservation => ?_) fun _ h => h.1
        cases reservation with
        | none => exact Triple.pure fun _ hs => ⟨hs, .rfl, by simp⟩
        | some reservation => exact (ih _).post fun p s h => ⟨h.1, h.2.1.renew, h.2.2⟩
      · exact (ih itr).pre fun _ h => h.1
      · refine Triple.pure fun s h => ⟨h.1, .rfl, ?_⟩
        obtain ⟨n, hn⟩ := h.2
        rintro _ ⟨⟩
        exact ⟨n, itr, hn, by simpa using hok⟩

/-- The length that is asked for is at most that of the rest, and at most the length read. -/
theorem toNat_readLength (rest : Nat) {len : Int} (hrest : rest ≤ 255) (h0 : 0 ≤ len) (h254 : len ≤ 254) :
    ((readLength rest len).toNat : Int) = min (rest : Int) len := by
  simp only [readLength, UInt8.toNat_ofNat']
  split <;> omega

theorem Ranged.reading (hP : Ranged P) : Aloof (Reading P) := fun s n h => ⟨hP.aloof s n h.1, h.2⟩

/-- What comes of reading a record. -/
def ReadsOnly (w : World) (r : Record) (P : State → Prop) (itr : Iterator)
    (p : Option (Nat → UInt8) × Iterator) (s : State) : Prop :=
  P s ∧ itr.Renewed p.2 ∧ ∀ record, p.1 = some record → record = (entryOf w r).record

theorem readsOnly_none {r : Record} {itr : Iterator} {s : State} (h : P s) : ReadsOnly w r P itr (none, itr) s :=
  ⟨h, .rfl, by simp⟩

theorem readsOnly_all {r : Record} {itr : Iterator} {s : State} {i : Nat} {data : Nat → UInt8} (h : P s)
    (hi : r.body.length ≤ i) (hdata : data = store (blankRecord w r.body.length) 0 (r.body.take i)) :
    ReadsOnly w r P itr (some data, itr) s := by
  refine ⟨h, .rfl, ?_⟩
  rintro _ ⟨⟩
  rw [hdata, List.take_of_length_le hi, entryOf]

/-- What has been read of the record is right, and so is all of it. -/
theorem recordTurns_triple (hP : Ranged P) {repo : Repository} (hdev : Faithful repo w.device) {id : UInt16}
    {r : Record} {rest : List Record} (hr : repo.Addresses id r rest) (hlen : r.body.length ≤ 251) (fuel : Nat)
    (itr : Iterator) (i : Nat) (data : Nat → UInt8) (hi : i ≤ r.body.length)
    (hdata : data = store (blankRecord w r.body.length) 0 (r.body.take i)) :
    Triple P (Reading P) (recordTurns w id r.body.length fuel itr i data) (ReadsOnly w r P itr) := by
  induction fuel generalizing itr i data with
  | zero =>
    unfold recordTurns
    exact Triple.ite (fun _ => Triple.throw fun _ h => h.1) fun hge =>
      Triple.pure fun s hs => readsOnly_all hs.1 (by omega) hdata
  | succ fuel ih =>
    unfold recordTurns
    refine Triple.ite (fun hlt => ?_) fun hge => Triple.pure fun s hs => readsOnly_all hs.1 (by omega) hdata
    refine Triple.get_bind fun s hs => ?_
    have hs' := hP.readLen s hs.1
    have hlength := toNat_readLength (r.body.length - i) (by omega) hs'.1 hs'.2
    have hpos := hs.2
    generalize readLength (r.body.length - i) s.sdrMaxReadLen = length at hlength ⊢
    refine Triple.pre (P := Reading P) ?_ fun t ht => ht ▸ hs
    -- the request is made again with a shorter length, unless there is none
    have hshorter : Triple P (Reading P)
        (do
          modify fun s => { s with sdrMaxReadLen := (length.toNat : Int) - 1 }
          if 1 < length then recordTurns w id r.body.length fuel itr i data else return (none, itr))
        (ReadsOnly w r P itr) := by
      refine (Triple.modify (Q := fun _ s => P s ∧ s.sdrMaxReadLen = (length.toNat : Int) - 1) ?_).bind fun _ =>
        Triple.ite (fun hlt => ?_) fun _ => Triple.pure fun _ h => readsOnly_none h.1
      · intro t ht
        exact ⟨hP.setReadLen _ _ (by omega) (by omega) ht.1, rfl⟩
      · refine (ih itr i data hi hdata).pre fun t ht => ⟨ht.1, ?_⟩
        have := UInt8.lt_iff_toNat_lt.1 hlt
        rw [ht.2]
        simp at this
        omega
    refine (hP.reading.sendrecv _).error (fun _ h => h.1) |>.bind fun rsp => ?_
    cases rsp with
    | none => exact hshorter.pre fun _ h => h.1
    | some rsp =>
      refine Triple.ite (fun _ => hshorter.pre fun _ h => h.1) fun _ => Triple.ite (fun _ => ?_) fun _ =>
        Triple.ite (fun _ => Triple.pure fun s h => readsOnly_none h.1.1) fun hok => ?_
      · refine Triple.pre (P := Reading P) (((hP.reading.reservation _).error fun _ h => h.1).bind fun reservation =>
          ?_) fun _ h => h.1
        cases reservation with
        | none => exact Triple.pure fun _ h => readsOnly_none h.1
        | some reservation => exact (ih _ i data hi hdata).post fun p s h => ⟨h.1, h.2.1.renew, h.2.2⟩
      · intro t ht
        obtain ⟨ht, n, hn⟩ := ht
        have hpart := (hdev n _ _ _ _ _ _ _ hn (by simp_all) hr).part (by omega) (by omega)
        refine ih itr _ _ (by omega) ?_ t ht
        have htake : (r.body.take i).length = i := by simp [hi]
        have hstore := store_append (blankRecord w r.body.length) 0 (r.body.take i) (slice rsp.data 2 length.toNat)
        rw [htake, Nat.zero_add, hpart, ← List.take_add, ← hdata, ← hpart] at hstore
        exact hstore

theorem setReadLen_triple (hP : Ranged P) (hsize : 3 ≤ w.maxResponseDataSize) :
    Triple P P (setReadLen w) fun _ => Reading P := by
  have hsize' : 3 ≤ w.maxResponseDataSize.toNat := UInt16.le_iff_toNat_le.1 hsize
  refine Triple.modify fun s hs => ?_
  have hrange := hP.readLen s hs
  simp only
  split
  · exact ⟨hP.setReadLen _ _ (by split <;> omega) (by split <;> omega) hs, by simp only; split <;> omega⟩
  · exact ⟨hs, by omega⟩

theorem ipmiSdrGetRecord_triple (hP : Ranged P) (hsize : 3 ≤ w.maxResponseDataSize) {repo : Repository}
    (hdev : Faithful repo w.device) {header : Header} {r : Record} {rest : List Record}
    (hr : repo.Addresses header.id r rest) (hlen : r.body.length ≤ 251)
    (hlength : header.length = UInt8.ofNat r.body.length) (itr : Iterator) :
    Triple P P (ipmiSdrGetRecord w header itr) (ReadsOnly w r P itr) := by
  have hlen' : header.length.toNat = r.body.length := by
    rw [hlength, UInt8.toNat_ofNat']
    omega
  unfold ipmiSdrGetRecord
  simp only [hlen']
  refine Triple.ite (fun _ => Triple.pure fun _ h => readsOnly_none h) fun _ => ?_
  refine (setReadLen_triple hP hsize).bind fun _ => Triple.get_bind' fun s => ?_
  exact recordTurns_triple hP hdev hr hlen _ itr 0 _ (Nat.zero_le _) (by simp)

/-- The iterator stands before `rest`. -/
def Iterator.Before (itr : Iterator) (done rest : List Record) : Prop :=
  itr.next = if done = [] then 0 else nextId rest

theorem Iterator.Before.addresses {repo : Repository} {itr : Iterator} {done rest : List Record} {r : Record}
    (h : itr.Before done (r :: rest)) (hsplit : repo.records = done ++ r :: rest) :
    repo.Addresses itr.next r rest := by
  refine ⟨done, hsplit, ?_⟩
  rw [Iterator.Before] at h
  split at h
  · rename_i hdone
    exact .inr ⟨h, hdone⟩
  · exact .inl h

/-- The header that leads to the record `r`. -/
def Record.header (r : Record) (rest : List Record) : Header :=
  ⟨nextId rest, r.id, r.type, UInt8.ofNat r.body.length⟩

/-- No header, or that of the next record. -/
def GetsNext (P : State → Prop) (done rest : List Record) (p : Option Header × Iterator) (s : State) : Prop :=
  P s ∧ (p.1 = none ∧ p.2.Before done rest ∨
    ∃ r rest', rest = r :: rest' ∧ p.1 = some (r.header rest') ∧ p.2.Before (done ++ [r]) rest')

/-- The header of the record that is addressed. -/
theorem headerOf_gives {itr : Iterator} {done rest : List Record} {r : Record} {rsp : Rsp}
    (h : itr.Before done (r :: rest)) (hrsp : Gives r rest 0 5 rsp) {header : Header}
    (hheader : headerOf itr.next rsp = some header) : header = r.header rest := by
  obtain ⟨hid, htype, hlength⟩ := hrsp.header
  unfold headerOf at hheader
  split at hheader
  · cases hheader
  · obtain rfl := Option.some.inj hheader
    simp only [Record.header, Header.mk.injEq, hrsp.next, htype, hlength, true_and, and_true]
    split
    · rw [Iterator.Before] at h
      split at h
      · contradiction
      · exact h
    · exact hid

theorem ipmiSdrGetNextHeader_triple (hP : Aloof P) {repo : Repository} (hdev : Faithful repo w.device)
    {done rest : List Record} (hsplit : repo.records = done ++ rest) {itr : Iterator} (hitr : itr.Before done rest) :
    Triple P P (ipmiSdrGetNextHeader w itr) (GetsNext P done rest) := by
  refine Triple.ite (fun _ => Triple.pure fun s hs => ⟨hs, .inl ⟨rfl, hitr⟩⟩) fun hnext => ?_
  obtain ⟨r, rest, rfl⟩ : ∃ r rest', rest = r :: rest' := by
    cases rest with
    | nil =>
      refine absurd ?_ hnext
      rw [hitr, if_neg (by rintro rfl; exact repo.nonempty (by simpa using hsplit))]
      rfl
    | cons r rest => exact ⟨r, rest, rfl⟩
  refine Triple.bind (Q := fun p s => P s ∧ itr.Renewed p.2 ∧ ∀ header, p.1 = some header → header = r.header rest)
    ?_ fun p => ?_
  · refine (hP.headerTries 5 itr).bind fun p => Triple.pure fun s h => ⟨h.1, h.2.1, ?_⟩
    intro header hheader
    obtain ⟨rsp, hrsp, hof⟩ := Option.bind_eq_some_iff.1 hheader
    obtain ⟨n, itr', hn, hok⟩ := h.2.2 rsp hrsp
    obtain ⟨reservation, hp⟩ := h.2.1
    rw [hp] at hof
    exact headerOf_gives hitr (hdev n _ _ _ _ _ _ _ hn hok (hitr.addresses hsplit)) hof
  · obtain ⟨header, itr'⟩ := p
    cases header with
    | none =>
      refine Triple.pure fun s h => ⟨h.1, .inl ⟨rfl, ?_⟩⟩
      obtain ⟨reservation, rfl⟩ := h.2.1
      exact hitr
    | some header =>
      refine Triple.pure fun s h => ⟨h.1, .inr ⟨r, rest, rfl, ?_, ?_⟩⟩
      · rw [h.2.2 header rfl]
      · rw [Iterator.Before, if_neg (by simp), h.2.2 header rfl, Record.header]

end read

end KTools.Sdr
