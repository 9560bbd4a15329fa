import KTools.Sdr.Records
import Mathlib.Tactic.IntervalCases

/-!
# Repositories

A device that has a repository gives the bytes of the record it is asked for, and the id of the next one, wherever it
completes a request (`Faithful`). It may refuse any request, cancel any reservation and leave any request unanswered.
-/

namespace KTools.Sdr
open KTools.Lib KTools.Lib.Bytes KTools.Lanplus

/-! ### The repository -/

structure Record where
  id : UInt16
  version : UInt8
  type : UInt8
  body : List UInt8

def Record.bytes (r : Record) : List UInt8 :=
  wordBytes r.id ++ [r.version, r.type, UInt8.ofNat r.body.length] ++ r.body

/-- The records of a device in the order in which it gives them; the part after the header can be addressed by a
byte. -/
structure Repository where
  records : List Record
  nonempty : records ≠ []
  nodup : (records.map Record.id).Nodup
  ne_last : ∀ r ∈ records, r.id ≠ 0xFFFF
  ne_first : ∀ r ∈ records.tail, r.id ≠ 0
  length_pos : ∀ r ∈ records, 0 < r.body.length
  length_le : ∀ r ∈ records, r.body.length ≤ 251

/-- The id that leads to the records left. -/
def nextId : List Record → UInt16
  | [] => 0xFFFF
  | r :: _ => r.id

/-- A request with `id` is for `r`, and `rest` come after it. -/
def Repository.Addresses (repo : Repository) (id : UInt16) (r : Record) (rest : List Record) : Prop :=
  ∃ done, repo.records = done ++ r :: rest ∧ (id = r.id ∨ id = 0 ∧ done = [])

/-- The answer with `length` bytes of `r` from `offset` on, as far as it has them. -/
structure Gives (r : Record) (rest : List Record) (offset length : UInt8) (rsp : Rsp) : Prop where
  next : wordAt rsp.data 0 = nextId rest
  bytes : ∀ k < length.toNat, ∀ h : offset.toNat + k < r.bytes.length,
    rsp.data (2 + k) = r.bytes[offset.toNat + k]

/-- A completed request for a part of a record gives that part. -/
def Faithful (repo : Repository) (device : Nat → IpmiRq → Option Rsp) : Prop :=
  ∀ n itr id offset length rsp r rest, device n (sdrRequest itr id offset length) = some rsp → rsp.ccode = 0 →
    repo.Addresses id r rest → Gives r rest offset length rsp

/-- The record as it is kept. -/
def entryOf (w : World) (r : Record) : Entry :=
  ⟨r.id, r.type, store (blankRecord w r.body.length) 0 r.body⟩

def Record.isKnown (r : Record) : Bool := known r.type

/-- The records of a kind that is kept, as they are kept. -/
def entries (w : World) (records : List Record) : List Entry := (records.filter Record.isKnown).map (entryOf w)

/-! ### Records -/

namespace Record
variable (r : Record)

theorem length_bytes : r.bytes.length = 5 + r.body.length := by
  simp [bytes, wordBytes]
  omega

theorem bytes_body {k : Nat} (hk : k < r.body.length) (h : 5 + k < r.bytes.length) : r.bytes[5 + k] = r.body[k] := by
  simp only [bytes, wordBytes, List.cons_append, List.nil_append, Nat.add_comm 5 k, List.getElem_cons_succ]

theorem bytes_id (h0 : 0 < r.bytes.length) (h1 : 1 < r.bytes.length) :
    r.bytes[1] = (r.id >>> 8).toUInt8 ∧ r.bytes[0] = r.id.toUInt8 := by
  simp [bytes, wordBytes]

theorem bytes_type (h : 3 < r.bytes.length) : r.bytes[3] = r.type := by
  simp [bytes, wordBytes]

theorem bytes_length (h : 4 < r.bytes.length) : r.bytes[4] = UInt8.ofNat r.body.length := by
  simp [bytes, wordBytes]

end Record

theorem word_of_bytes (x : UInt16) : (x >>> 8).toUInt8.toUInt16 <<< 8 ||| x.toUInt8.toUInt16 = x := by
  apply UInt16.toBitVec_inj.1
  simp only [UInt16.toBitVec_or, UInt16.toBitVec_shiftLeft, UInt8.toBitVec_toUInt16, UInt16.toBitVec_toUInt8,
    UInt16.toBitVec_shiftRight]
  ext i hi
  interval_cases i <;> simp

section gives
variable {r : Record} {rest : List Record} {rsp : Rsp}

theorem Gives.byte {offset length : UInt8} (h : Gives r rest offset length rsp) {k : Nat} (hk : k < length.toNat)
    (hr : offset.toNat + k < r.bytes.length) : rsp.data (2 + k) = r.bytes[offset.toNat + k] := h.bytes k hk hr

/-- What the header says. -/
theorem Gives.header (h : Gives r rest 0 5 rsp) :
    wordAt rsp.data 2 = r.id ∧ rsp.data 5 = r.type ∧ rsp.data 6 = UInt8.ofNat r.body.length := by
  have hlen := r.length_bytes
  have h0 := h.byte (k := 0) (by decide) (by simp; omega)
  have h1 := h.byte (k := 1) (by decide) (by simp; omega)
  have h3 := h.byte (k := 3) (by decide) (by simp; omega)
  have h4 := h.byte (k := 4) (by decide) (by simp; omega)
  simp only [UInt8.toNat_zero, Nat.zero_add] at h0 h1 h3 h4
  refine ⟨?_, h3.trans (r.bytes_type _), h4.trans (r.bytes_length _)⟩
  rw [wordAt, h1, h0, (r.bytes_id (by omega) (by omega)).1, (r.bytes_id (by omega) (by omega)).2, word_of_bytes]

/-- What a part of the record is. -/
theorem Gives.part {i : Nat} {length : UInt8} (h : Gives r rest (UInt8.ofNat (i + 5)) length rsp) (hi : i ≤ 250)
    (hlen : i + length.toNat ≤ r.body.length) :
    slice rsp.data 2 length.toNat = (r.body.drop i).take length.toNat := by
  have hoff : (UInt8.ofNat (i + 5)).toNat = i + 5 := by
    simp
    omega
  refine List.ext_getElem (by simp; omega) fun k hk hk' => ?_
  simp only [length_slice] at hk
  rw [getElem_slice, h.byte hk (by rw [hoff, r.length_bytes]; omega)]
  simp only [hoff, List.getElem_take, List.getElem_drop, show i + 5 + k = 5 + (i + k) by omega]
  exact r.bytes_body (by omega) _

end gives

/-! ### A device -/

/-- The record with an id, and the ones after it. -/
def lookFor (id : UInt16) : List Record → Option (Record × List Record)
  | [] => none
  | r :: rest => if id = r.id then some (r, rest) else lookFor id rest

/-- The record that a request is for, and the ones after it. -/
def Repository.addressed (repo : Repository) (id : UInt16) : Option (Record × List Record) :=
  match repo.records with
  | [] => none
  | r :: rest => if id = 0 then some (r, rest) else lookFor id (r :: rest)

/-- A part of a record. -/
def Record.give (r : Record) (rest : List Record) (offset length : UInt8) : Rsp :=
  let bytes := wordBytes (nextId rest) ++ (r.bytes.drop offset.toNat).take length.toNat
  ⟨0, bytes.length, fun i => bytes.getD i 0⟩

def refusal (ccode : UInt8) : Rsp := ⟨ccode, 0, fun _ => 0⟩

/-- Every third request for a part of a record finds the reservation cancelled, and a part after the header that is
longer than `limit` is not answered. What else is asked for is answered with ones. -/
def Repository.fussyDevice (repo : Repository) (limit : UInt8) (n : Nat) (req : IpmiRq) : Option Rsp :=
  match req.data with
  | [_, _, id0, id1, offset, length] =>
    if n % 3 = 0 then some (refusal ccResCanceled)
    else if limit < length ∧ offset ≠ 0 then none
    else
      match repo.addressed (id1.toUInt16 <<< 8 ||| id0.toUInt16) with
      | none => some (refusal 0xCB)
      | some (r, rest) => some (r.give rest offset length)
  | _ => some ⟨0, 16, fun _ => 1⟩

section device
variable {repo : Repository} {limit : UInt8}

theorem lookFor_append {id : UInt16} (done : List Record) {rest : List Record} {r : Record} (hid : id = r.id)
    (hdone : ∀ r' ∈ done, r'.id ≠ id) : lookFor id (done ++ r :: rest) = some (r, rest) := by
  induction done with
  | nil => simp [lookFor, hid]
  | cons r' done ih =>
    rw [List.cons_append, lookFor, if_neg fun h => hdone r' List.mem_cons_self h.symm]
    exact ih fun r'' h => hdone r'' (List.mem_cons_of_mem _ h)

/-- A record is addressed in one way. -/
theorem Repository.Addresses.addressed {id : UInt16} {r : Record} {rest : List Record}
    (h : repo.Addresses id r rest) :
    repo.addressed id = some (r, rest) := by
  obtain ⟨done, hsplit, h⟩ := h
  have hfirst := repo.ne_first
  have hnodup := repo.nodup
  rw [Repository.addressed]
  rw [hsplit] at hfirst hnodup ⊢
  cases done with
  | nil =>
    simp only [List.nil_append]
    split
    · rfl
    · rename_i hne
      simp only [and_true] at h
      exact lookFor_append [] (h.resolve_right hne) (by simp)
  | cons r' done =>
    obtain rfl := h.resolve_right (by simp)
    simp only [List.cons_append]
    rw [if_neg (hfirst r (by simp))]
    refine lookFor_append (r' :: done) rfl fun r'' hr'' heq => ?_
    rw [List.map_append, List.nodup_append] at hnodup
    exact hnodup.2.2 r''.id (List.mem_map_of_mem hr'') r.id (by simp) heq

theorem wordAt_wordBytes (x : UInt16) (bytes : List UInt8) :
    wordAt (fun i => (wordBytes x ++ bytes).getD i 0) 0 = x := by
  simp only [wordAt, wordBytes, List.cons_append, List.nil_append, List.getD_cons_succ, List.getD_cons_zero]
  exact word_of_bytes x

theorem Record.gives_give (r : Record) (rest : List Record) (offset length : UInt8) :
    Gives r rest offset length (r.give rest offset length) where
  next := wordAt_wordBytes _ _
  bytes k hk h := by
    simp only [Record.give, wordBytes, List.cons_append, List.nil_append, Nat.add_comm 2 k, List.getD_cons_succ]
    rw [List.getD_eq_getElem _ _ (by simp; omega)]
    simp

theorem fussyDevice_sdrRequest (n : Nat) (itr : Iterator) (id : UInt16) (offset length : UInt8) :
    repo.fussyDevice limit n (sdrRequest itr id offset length) =
      if n % 3 = 0 then some (refusal ccResCanceled)
      else if limit < length ∧ offset ≠ 0 then none
      else match repo.addressed id with
        | none => some (refusal 0xCB)
        | some (r, rest) => some (r.give rest offset length) := by
  have hid : (id >>> 8).toUInt8.toUInt16 <<< 8 ||| id.toUInt8.toUInt16 = id := word_of_bytes id
  simp only [Repository.fussyDevice, sdrRequest, request, wordBytes, List.cons_append, List.nil_append, hid]

theorem Repository.fussyDevice_faithful : Faithful repo (repo.fussyDevice limit) := by
  intro n itr id offset length rsp r rest hrsp hok hr
  rw [fussyDevice_sdrRequest, hr.addressed] at hrsp
  split at hrsp
  · obtain rfl := Option.some.inj hrsp
    exact absurd hok (by decide)
  · split at hrsp
    · cases hrsp
    · obtain rfl := Option.some.inj hrsp
      exact r.gives_give rest offset length

end device

end KTools.Sdr
