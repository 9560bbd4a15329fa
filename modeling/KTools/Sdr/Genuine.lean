import KTools.Sdr.Reading

/-!
# What is kept is in the repository

Against a faithful device every run of lookups keeps, in order and each at most once, records of the repository, with
the bytes they have there; and what a lookup finds is what was looked for in a part of the repository.
-/

namespace KTools.Sdr
open KTools.Lib KTools.Lib.Bytes KTools.Lanplus

theorem entries_append (w : World) (a b : List Record) : entries w (a ++ b) = entries w a ++ entries w b := by
  simp [entries]

/-- The records `done` have been read, those of `sub` successfully, and `rest` are left. -/
structure Stands (w : World) (repo : Repository) (done sub rest : List Record) (s : State) : Prop where
  split : repo.records = done ++ rest
  sublist : sub.Sublist done
  records : s.records = entries w sub
  readLen : 0 ≤ s.sdrMaxReadLen ∧ s.sdrMaxReadLen ≤ 254

/-- The iterator has been put back. -/
def Open (w : World) (repo : Repository) (done sub rest : List Record) (s : State) : Prop :=
  Stands w repo done sub rest s ∧ ∃ itr, s.sdrListItr = some itr ∧ itr.Before done rest

/-- What is kept is part of the repository, in its order. -/
def Kept (w : World) (repo : Repository) (s : State) : Prop :=
  ∃ sub, sub.Sublist repo.records ∧ s.records = entries w sub

/-- Between two lookups: the iterator is open, or nothing has been read. -/
def Ready (w : World) (repo : Repository) (s : State) : Prop :=
  (∃ done sub rest, Open w repo done sub rest s) ∨ s.sdrListItr = none ∧ Stands w repo [] [] repo.records s

section list
variable {w : World} {repo : Repository}

theorem Stands.kept {done sub rest : List Record} {s : State} (h : Stands w repo done sub rest s) :
    Kept w repo s := by
  refine ⟨sub, ?_, h.records⟩
  rw [h.split]
  exact h.sublist.trans (List.sublist_append_left done rest)

theorem stands_ranged (w : World) (repo : Repository) (done sub rest : List Record) :
    Ranged (Stands w repo done sub rest) where
  aloof _ _ h := ⟨h.split, h.sublist, h.records, h.readLen⟩
  readLen _ h := h.readLen
  setReadLen _ _ h0 h254 h := ⟨h.split, h.sublist, h.records, h0, h254⟩

theorem Stands.left {done sub rest : List Record} {r : Record} {s : State}
    (h : Stands w repo done sub (r :: rest) s) : Stands w repo (done ++ [r]) sub rest s where
  split := by rw [h.split, List.append_assoc, List.singleton_append]
  sublist := h.sublist.trans (List.sublist_append_left done [r])
  records := h.records
  readLen := h.readLen

theorem Stands.kept_one {done sub rest : List Record} {r : Record} {s : State}
    (h : Stands w repo done sub (r :: rest) s) (hknown : r.isKnown = true) :
    Stands w repo (done ++ [r]) (sub ++ [r]) rest { s with records := s.records ++ [entryOf w r] } where
  split := by rw [h.split, List.append_assoc, List.singleton_append]
  sublist := h.sublist.append (List.Sublist.refl [r])
  records := by
    rw [entries_append, h.records]
    simp [entries, hknown]
  readLen := h.readLen

theorem Stands.setItr {done sub rest : List Record} {s : State} (h : Stands w repo done sub rest s)
    (itr : Option Iterator) : Stands w repo done sub rest { s with sdrListItr := itr } :=
  ⟨h.split, h.sublist, h.records, h.readLen⟩

/-- What a turn of the loops does. -/
def Turn.Is (w : World) (repo : Repository) (done sub rest : List Record) : Turn → State → Prop
  | .finished, s => Open w repo done sub rest s
  | .left, s => ∃ r rest', rest = r :: rest' ∧ Open w repo (done ++ [r]) sub rest' s
  | .kept e, s => ∃ r rest', rest = r :: rest' ∧ r.isKnown = true ∧ e = entryOf w r ∧
      Open w repo (done ++ [r]) (sub ++ [r]) rest' s

theorem readOn_triple (hsize : 3 ≤ w.maxResponseDataSize) (hdev : Faithful repo w.device)
    {done sub rest : List Record} {itr : Iterator} (hitr : itr.Before done rest) :
    Triple (Kept w repo) (Stands w repo done sub rest) (readOn w itr) (Turn.Is w repo done sub rest) := by
  have hranged := stands_ranged w repo done sub rest
  intro s hs
  refine ((ipmiSdrGetNextHeader_triple hranged.aloof hdev hs.split hitr).error fun _ => Stands.kept).bind
    (fun p => ?_) s hs
  obtain ⟨header, itr'⟩ := p
  cases header with
  | none =>
    refine (Triple.modify (Q := fun _ => Open w repo done sub rest) ?_).bind fun _ => Triple.pure fun _ h => h
    rintro t ⟨ht, h | h⟩
    · exact ⟨ht.setItr _, itr', rfl, h.2⟩
    · obtain ⟨r, rest', -, hnone, -⟩ := h
      cases hnone
  | some header =>
    by_cases hrest : ∃ r rest', rest = r :: rest' ∧ header = r.header rest' ∧ itr'.Before (done ++ [r]) rest'
    · obtain ⟨r, rest', rfl, rfl, hitr'⟩ := hrest
      have hmem : r ∈ repo.records := by simp [hs.split]
      refine Triple.pre (P := Stands w repo done sub (r :: rest')) ?_ fun _ h => h.1
      refine ((ipmiSdrGetRecord_triple hranged hsize hdev ⟨done, hs.split, .inl rfl⟩ (repo.length_le r hmem) rfl
        itr').error fun _ => Stands.kept).bind fun p => ?_
      obtain ⟨record, itr''⟩ := p
      refine (Triple.modify (Q := fun _ t => Open w repo (done ++ [r]) sub rest' t ∧
        Stands w repo done sub (r :: rest') t ∧
        ∀ record', record = some record' → record' = (entryOf w r).record) ?_).bind fun _ => ?_
      · rintro t ⟨ht, ⟨reservation, hren⟩, hrecord⟩
        obtain rfl := hren
        exact ⟨⟨ht.left.setItr _, _, rfl, hitr'⟩, ht.setItr _, hrecord⟩
      · cases record with
        | none => exact Triple.pure fun t h => ⟨r, rest', rfl, h.1⟩
        | some record =>
          refine Triple.ite (fun hknown => ?_) fun _ => Triple.pure fun t h => ⟨r, rest', rfl, h.1⟩
          refine (Triple.modify (Q := fun _ t => Open w repo (done ++ [r]) (sub ++ [r]) rest' t ∧
            record = (entryOf w r).record) ?_).bind fun _ => Triple.pure fun t h => ⟨r, rest', rfl, hknown, ?_, h.1⟩
          · rintro t ⟨⟨-, itr₁, hitr₁, hbefore⟩, ht, hrecord⟩
            obtain rfl := hrecord record rfl
            exact ⟨⟨ht.kept_one hknown, itr₁, hitr₁, hbefore⟩, rfl⟩
          · rw [h.2]
            rfl
    · rintro t ⟨ht, h | h⟩
      · cases h.1
      · obtain ⟨r, rest', hr, hheader, hbefore⟩ := h
        exact absurd ⟨r, rest', hr, Option.some.inj hheader, hbefore⟩ hrest

/-- The iterator is open. -/
def Opened (w : World) (repo : Repository) (s : State) : Prop := ∃ done sub rest, Open w repo done sub rest s

theorem Opened.kept {s : State} (h : Opened w repo s) : Kept w repo s := by
  obtain ⟨done, sub, rest, h, -⟩ := h
  exact h.kept

theorem readOn_keeps (hsize : 3 ≤ w.maxResponseDataSize) (hdev : Faithful repo w.device) {itr : Iterator} {s : State}
    (hs : Opened w repo s) (hitr : s.sdrListItr = some itr) :
    Triple (Kept w repo) (fun t => t = s) (readOn w itr) fun turn t => Opened w repo t ∧
      match turn with
      | .kept e => t.records = s.records ++ [e]
      | _ => t.records = s.records := by
  obtain ⟨done, sub, rest, hstands, itr', hitr', hbefore⟩ := hs
  obtain rfl := Option.some.inj (hitr.symm.trans hitr')
  refine (readOn_triple hsize hdev hbefore).conseq (fun t ht => ht ▸ hstands) fun turn t ht => ?_
  cases turn with
  | finished => exact ⟨⟨_, _, _, ht⟩, ht.1.records.trans hstands.records.symm⟩
  | left =>
    obtain ⟨r, rest', -, ht⟩ := ht
    exact ⟨⟨_, _, _, ht⟩, ht.1.records.trans hstands.records.symm⟩
  | kept e =>
    obtain ⟨r, rest', -, hknown, rfl, ht⟩ := ht
    refine ⟨⟨_, _, _, ht⟩, ?_⟩
    simp only
    rw [ht.1.records, entries_append, hstands.records]
    simp [entries, hknown]

variable (matching : Entry → Bool)

theorem findOneTurns_triple (hsize : 3 ≤ w.maxResponseDataSize) (hdev : Faithful repo w.device) (fuel : Nat) :
    Triple (Kept w repo) (fun s => Opened w repo s ∧ s.records.find? matching = none) (findOneTurns w matching fuel)
      fun found s => Opened w repo s ∧ found = s.records.find? matching := by
  induction fuel with
  | zero => exact Triple.throw fun _ h => h.1.kept
  | succ fuel ih =>
    refine Triple.get_bind fun s hs => ?_
    cases hitr : s.sdrListItr with
    | none => exact Triple.pure fun t ht => by obtain rfl := ht; exact ⟨hs.1, hs.2.symm⟩
    | some itr =>
      refine (readOn_keeps hsize hdev hs.1 hitr).bind fun turn => ?_
      cases turn with
      | finished => exact Triple.pure fun t ht => ⟨ht.1, by rw [ht.2, hs.2]⟩
      | left => exact ih.pre fun t ht => ⟨ht.1, by rw [ht.2, hs.2]⟩
      | kept e =>
        refine Triple.ite (fun he => Triple.pure fun t ht => ⟨ht.1, ?_⟩) fun he => ih.pre fun t ht => ⟨ht.1, ?_⟩
        · simp [ht.2, List.find?_append, hs.2, he]
        · simp [ht.2, List.find?_append, hs.2, he]

theorem findAllTurns_triple (hsize : 3 ≤ w.maxResponseDataSize) (hdev : Faithful repo w.device) (fuel : Nat)
    (head : List Entry) :
    Triple (Kept w repo) (fun s => Opened w repo s ∧ head = s.records.filter matching)
      (findAllTurns w matching fuel head) fun found s => Opened w repo s ∧ found = s.records.filter matching := by
  induction fuel generalizing head with
  | zero => exact Triple.throw fun _ h => h.1.kept
  | succ fuel ih =>
    refine Triple.get_bind fun s hs => ?_
    cases hitr : s.sdrListItr with
    | none => exact Triple.pure fun t ht => by obtain rfl := ht; exact hs
    | some itr =>
      refine (readOn_keeps hsize hdev hs.1 hitr).bind fun turn => ?_
      cases turn with
      | finished => exact Triple.pure fun t ht => ⟨ht.1, by rw [ht.2, hs.2]⟩
      | left => exact (ih head).pre fun t ht => ⟨ht.1, by rw [ht.2, hs.2]⟩
      | kept e =>
        refine (ih _).pre fun t ht => ⟨ht.1, ?_⟩
        simp only [ht.2, List.filter_append, ← hs.2, List.filter_cons, List.filter_nil]
        split <;> simp

/-! ### The iterator -/

section start
variable {P : State → Prop}

theorem reservedIterator_triple (hP : Aloof P) (useBuiltIn : Bool) :
    Triple P P (reservedIterator w useBuiltIn) fun itr s => P s ∧ ∀ i, itr = some i → i.next = 0 := by
  refine (hP.reservation useBuiltIn).bind fun reservation => ?_
  cases reservation with
  | none => exact Triple.pure fun _ h => ⟨h, by simp⟩
  | some reservation => exact Triple.pure fun _ h => ⟨h, by rintro _ ⟨⟩; rfl⟩

/-- A new iterator is before the first record. -/
theorem ipmiSdrStart_triple (hP : Aloof P) (hset : ∀ s b, P s → P { s with useBuiltIn := b }) (useBuiltin : Bool) :
    Triple P P (ipmiSdrStart w useBuiltin) fun itr s => P s ∧ ∀ i, itr = some i → i.next = 0 := by
  have hnone : Triple P P (pure none : SdrM (Option Iterator)) fun itr s => P s ∧ ∀ i, itr = some i → i.next = 0 :=
    Triple.pure fun _ h => ⟨h, by simp⟩
  refine (hP.sendrecv _).bind fun devid => Triple.pre (P := P) ?_ fun _ h => h.1
  cases devid with
  | none => exact hnone
  | some devid =>
    refine Triple.ite (fun _ => hnone) fun _ => Triple.get_bind' fun s => ?_
    cases usesDeviceSdrs useBuiltin s.useBuiltIn devid.data with
    | none => exact hnone
    | some useBuiltIn =>
      refine (Triple.modify (Q := fun _ => P) fun s => hset s useBuiltIn).bind fun _ => Triple.ite (fun _ => ?_)
        fun _ => ?_
      · refine (hP.sendrecv _).bind fun rsp => Triple.pre (P := P) ?_ fun _ h => h.1
        cases rsp with
        | none => exact hnone
        | some rsp => exact Triple.ite (fun _ => hnone) fun _ => reservedIterator_triple hP true
      · refine (hP.sendrecv _).bind fun rsp => Triple.pre (P := P) ?_ fun _ h => h.1
        cases rsp with
        | none => exact hnone
        | some rsp =>
          exact Triple.ite (fun _ => hnone) fun _ => Triple.ite (fun _ => Triple.throw fun _ h => h) fun _ =>
            reservedIterator_triple hP false

end start

theorem opened_triple : Triple (Kept w repo) (Ready w repo) (opened w) fun ok s =>
    if ok = true then Opened w repo s else Ready w repo s ∧ s.records = [] := by
  refine Triple.get_bind fun s hs => ?_
  cases hitr : s.sdrListItr with
  | some itr =>
    refine Triple.pure fun t ht => ?_
    obtain rfl := ht
    rcases hs with hs | hs
    · exact hs
    · exact absurd (hs.1.symm.trans hitr) (by simp)
  | none =>
    have hstands : Stands w repo [] [] repo.records s := by
      rcases hs with ⟨done, sub, rest, -, itr, hsome, -⟩ | hs
      · exact absurd (hitr.symm.trans hsome) (by simp)
      · exact hs.2
    have hranged := stands_ranged w repo [] [] repo.records
    refine Triple.pre (P := Stands w repo [] [] repo.records) ?_ fun t ht => ht ▸ hstands
    refine ((ipmiSdrStart_triple hranged.aloof (fun _ _ h => ⟨h.split, h.sublist, h.records, h.readLen⟩)
      false).error fun _ => Stands.kept).bind fun itr => ?_
    refine (Triple.modify (Q := fun _ s => Stands w repo [] [] repo.records s ∧ s.sdrListItr = itr ∧
      ∀ i, itr = some i → i.next = 0) fun t ht => ⟨ht.1.setItr _, rfl, ht.2⟩).bind fun _ => Triple.pure fun t ht => ?_
    cases itr with
    | none => exact ⟨.inr ⟨ht.2.1, ht.1⟩, ht.1.records⟩
    | some itr => exact ⟨[], [], repo.records, ht.1, itr, ht.2.1, ht.2.2 itr rfl⟩

theorem findOne_triple (hsize : 3 ≤ w.maxResponseDataSize) (hdev : Faithful repo w.device) :
    Triple (Kept w repo) (Ready w repo) (findOne w matching) fun found s =>
      Ready w repo s ∧ found = s.records.find? matching := by
  refine opened_triple.bind fun ok => Triple.ite (fun hok => ?_) fun hok => Triple.pure fun s hs => ?_
  · subst hok
    refine Triple.get_bind fun s hs => ?_
    simp only [if_true] at hs
    cases hfind : s.records.find? matching with
    | some e =>
      refine Triple.pure fun t ht => ?_
      obtain rfl := ht
      exact ⟨.inl hs, hfind.symm⟩
    | none =>
      exact (findOneTurns_triple matching hsize hdev _).conseq (fun t ht => ht ▸ ⟨hs, hfind⟩) fun _ _ h =>
        ⟨.inl h.1, h.2⟩
  · rw [if_neg hok] at hs
    simp [hs.2, hs.1]

theorem findAll_triple (hsize : 3 ≤ w.maxResponseDataSize) (hdev : Faithful repo w.device) :
    Triple (Kept w repo) (Ready w repo) (findAll w matching) fun found s =>
      Ready w repo s ∧ (found = none ∨ found = some (s.records.filter matching)) := by
  refine opened_triple.bind fun ok => Triple.ite (fun hok => ?_) fun hok => Triple.pure fun s hs => ?_
  · subst hok
    refine Triple.get_bind fun s hs => ?_
    simp only [if_true] at hs
    refine ((findAllTurns_triple matching hsize hdev _ _).pre fun t ht => ?_).bind fun head =>
      Triple.pure fun t ht => ⟨.inl ht.1, .inr ?_⟩
    · obtain rfl := ht
      exact ⟨hs, rfl⟩
    · rw [ht.2]
  · rw [if_neg hok] at hs
    exact ⟨hs.1, .inl rfl⟩

end list

/-! ### Runs -/

/-- The lookups, with what they look for. -/
inductive Lookup where
  | bynumtype (genId : UInt16) (num type : UInt8)
  | bysensortype (type : UInt8)
  | byentity (id inst : UInt8)
  | bytype (type : UInt8)

/-- What a lookup returns: one record or NULL, or a list or NULL. -/
inductive Answer where
  | one (e : Option Entry)
  | all (l : Option (List Entry))

namespace Lookup

def matching : Lookup → Entry → Bool
  | .bynumtype genId num type => Entry.has (hasNumberAndType genId num type)
  | .bysensortype type => Entry.has (hasSensorType type)
  | .byentity id inst => Entry.has (hasEntity id inst)
  | .bytype type => Entry.has fun t _ => t == type

def run (w : World) : Lookup → SdrM Answer
  | .bynumtype genId num type => return .one (← ipmiSdrFindSdrBynumtype w genId num type)
  | .bysensortype type => return .all (← ipmiSdrFindSdrBysensortype w type)
  | .byentity id inst => return .all (← ipmiSdrFindSdrByentity w id inst)
  | .bytype type => return .all (← ipmiSdrFindSdrBytype w type)

/-- What is found in a list. -/
def foundIn (l : Lookup) (list : List Entry) : Answer :=
  match l with
  | .bynumtype .. => .one (list.find? l.matching)
  | _ => .all (some (list.filter l.matching))

/-- NULL. -/
def failed : Lookup → Answer
  | .bynumtype .. => .one none
  | _ => .all none

end Lookup

def runAll (w : World) : List Lookup → SdrM (List Answer)
  | [] => return []
  | l :: lookups => do
    let a ← l.run w
    let as ← runAll w lookups
    return a :: as

/-- Nothing has been read. -/
def initial : State := ⟨0, 0, false, none, []⟩

/-- NULL, or what was looked for, found in a part of the repository. -/
def Lookup.Answered (w : World) (repo : Repository) (l : Lookup) (a : Answer) : Prop :=
  a = l.failed ∨ ∃ sub, sub.Sublist repo.records ∧ a = l.foundIn (entries w sub)

section run
variable {w : World} {repo : Repository}

theorem Ready.kept {s : State} (h : Ready w repo s) : Kept w repo s := by
  rcases h with h | h
  · exact Opened.kept h
  · exact h.2.kept

theorem ready_initial : Ready w repo initial :=
  .inr ⟨rfl, rfl, List.Sublist.refl _, rfl, by decide⟩

theorem Lookup.run_triple (hsize : 3 ≤ w.maxResponseDataSize) (hdev : Faithful repo w.device) (l : Lookup) :
    Triple (Kept w repo) (Ready w repo) (l.run w) fun a s =>
      Ready w repo s ∧ (a = l.failed ∨ a = l.foundIn s.records) := by
  cases l with
  | bynumtype genId num type =>
    exact (findOne_triple _ hsize hdev).bind fun found => Triple.pure fun s h => ⟨h.1, .inr (by rw [h.2]; rfl)⟩
  | bysensortype type =>
    exact (findAll_triple _ hsize hdev).bind fun found => Triple.pure fun s h =>
      ⟨h.1, h.2.imp (fun h => by rw [h]; rfl) fun h => by rw [h]; rfl⟩
  | byentity id inst =>
    exact (findAll_triple _ hsize hdev).bind fun found => Triple.pure fun s h =>
      ⟨h.1, h.2.imp (fun h => by rw [h]; rfl) fun h => by rw [h]; rfl⟩
  | bytype type =>
    exact (findAll_triple _ hsize hdev).bind fun found => Triple.pure fun s h =>
      ⟨h.1, h.2.imp (fun h => by rw [h]; rfl) fun h => by rw [h]; rfl⟩

theorem Lookup.run_answered (hsize : 3 ≤ w.maxResponseDataSize) (hdev : Faithful repo w.device) (l : Lookup) :
    Triple (Kept w repo) (Ready w repo) (l.run w) fun a s => Ready w repo s ∧ l.Answered w repo a := by
  refine (l.run_triple hsize hdev).post fun a s h => ⟨h.1, ?_⟩
  obtain ⟨sub, hsub, hrecords⟩ := h.1.kept
  rw [hrecords] at h
  exact h.2.imp id fun h => ⟨sub, hsub, h⟩

theorem runAll_triple (hsize : 3 ≤ w.maxResponseDataSize) (hdev : Faithful repo w.device) (lookups : List Lookup) :
    Triple (Kept w repo) (Ready w repo) (runAll w lookups) fun answers s =>
      Ready w repo s ∧ List.Forall₂ (Lookup.Answered w repo) lookups answers := by
  induction lookups with
  | nil => exact Triple.pure fun _ h => ⟨h, .nil⟩
  | cons l lookups ih =>
    intro s hs
    refine ((l.run_answered hsize hdev).bind fun a => ?_) s hs
    intro s hs
    have hrest : Triple (Kept w repo) (fun t => t = s) _ _ := ih.pre fun t ht => ht ▸ hs.1
    exact (hrest.bind fun answers => Triple.pure fun t ht => ⟨ht.1, .cons hs.2 ht.2⟩) s rfl

end run

/-- Whatever the device refuses, cancels or leaves unanswered, a run of lookups keeps records of the repository with
the bytes they have there, in its order and each at most once; every lookup finds what it looks for in a part of the
repository, or returns NULL. -/
theorem runAll_genuine (w : World) (repo : Repository) (hsize : 3 ≤ w.maxResponseDataSize)
    (hdev : Faithful repo w.device) (lookups : List Lookup) :
    Triple (Kept w repo) (fun s => s = initial) (runAll w lookups) fun answers s =>
      Kept w repo s ∧ List.Forall₂ (Lookup.Answered w repo) lookups answers :=
  (runAll_triple hsize hdev lookups).conseq (fun _ h => h ▸ ready_initial) fun _ _ h => ⟨h.1.kept, h.2⟩

/-- A sensor, a record that is left out, and a locator. -/
def smallRepository : Repository where
  records := [⟨0, 0x51, fullSensor, [0x20, 0, 7, 4, 1, 0, 0, 2, 9, 9]⟩, ⟨5, 0x51, 0xC0, [1, 2, 3]⟩,
    ⟨9, 0x51, fruDeviceLocator, [0x20, 0, 0, 0, 0, 0, 0, 4, 1]⟩]
  nonempty := by decide
  nodup := by decide
  ne_last := by decide
  ne_first := by decide
  length_pos := by decide
  length_le := by decide

def smallWorld : World := ⟨smallRepository.fussyDevice 4, 5000, 40, fun _ => 0xEE⟩

def smallLookups : List Lookup := [.byentity 4 1, .bynumtype 0x20 7 2, .bytype fruDeviceLocator]

def smallAnswered (answers : List Answer) (s : State) : Prop :=
  Kept smallWorld smallRepository s ∧ List.Forall₂ (Lookup.Answered smallWorld smallRepository) smallLookups answers

theorem smallRun_genuine :
    Triple (Kept smallWorld smallRepository) (Eq initial) (runAll smallWorld smallLookups) smallAnswered :=
  (runAll_genuine smallWorld smallRepository (by decide) Repository.fussyDevice_faithful smallLookups).pre
    fun _ h => h.symm

end KTools.Sdr
