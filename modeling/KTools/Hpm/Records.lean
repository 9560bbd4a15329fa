import Mathlib.Algebra.Group.Nat.Defs
import KTools.Hpm.Delivery

/-!
# The records of an image

`Image` is an image as the specification has it: a header with OEM data, records of the three kinds, and a signature.
The upgrade stage, which moves a pointer over the bytes, performs the records one after the other until one fails
(`hpmfwupgUpgradeStage_performs`), whatever lies behind the image in memory: it reads nothing there.
-/

namespace KTools.Hpm
open KTools.Lib KTools.Lib.Bytes KTools.Lanplus

/-! ### An upload reads its firmware -/

section reads
variable {host : Host} {intf : Intf} {cap : TargetCap} {firmwareLength : UInt32}

/-- The loop stays within the firmware, while there is no error. -/
def Progress.Inside (firmwareLength : UInt32) (p : Progress) : Prop :=
  p.rc = .success → p.pData ≤ p.stop ∧ p.stop ≤ firmwareLength.toNat

theorem Progress.Inside.next {p : Progress} (h : p.Inside firmwareLength) (hrc : p.rc = .success) (u : Upload) :
    (p.next intf firmwareLength u).Inside firmwareLength := by
  obtain ⟨hdata, hstop⟩ := h hrc
  unfold Progress.next
  split
  · unfold Progress.accepted
    split
    · exact fun h => absurd h (by simp)
    · rename_i hfits
      split
      · exact fun _ => ⟨Nat.le_add_right _ _, section_fits hfits⟩
      · exact fun _ => ⟨p.count_stop hdata, hstop⟩
  · unfold Progress.refused
    split
    · split
      · exact fun _ => ⟨hdata, hstop⟩
      · split
        · exact fun _ => ⟨hdata, hstop⟩
        · exact fun h => absurd h (by simp)
    · split
      · exact fun _ => ⟨hdata, hstop⟩
      · exact fun h => absurd h (by simp)

/-- Only the bytes of the firmware are read. -/
theorem uploadTurns_congr {firmware firmware' : Nat → UInt8}
    (h : ∀ i, i < firmwareLength.toNat → firmware i = firmware' i) (fuel : Nat) :
    ∀ p : Progress, p.Inside firmwareLength →
      uploadTurns host intf cap firmware firmwareLength fuel p =
        uploadTurns host intf cap firmware' firmwareLength fuel p := by
  induction fuel with
  | zero =>
    intro p _
    unfold uploadTurns
    rfl
  | succ fuel ih =>
    intro p hp
    unfold uploadTurns
    by_cases hgo : p.pData < p.stop ∧ p.rc = .success
    · rw [if_pos hgo, if_pos hgo]
      obtain ⟨hdata, hstop⟩ := hp hgo.2
      have hblock : p.block firmware = p.block firmware' := by
        apply slice_congr
        intro i _ hi
        exact h i (Nat.lt_of_lt_of_le hi (Nat.le_trans (p.count_stop hdata) hstop))
      rw [hblock]
      exact bind_congr fun u => ih _ (hp.next hgo.2 u)
    · rw [if_neg hgo, if_neg hgo]

theorem uploadFirmware_congr {firmware firmware' : Nat → UInt8}
    (h : ∀ i, i < firmwareLength.toNat → firmware i = firmware' i) (up : Upgrade) (components componentId : UInt8) :
    uploadFirmware host intf up components componentId firmware firmwareLength =
      uploadFirmware host intf up components componentId firmware' firmwareLength := by
  have hstart : (Progress.start (ipmiIntfGetMaxRequestDataSize intf) firmwareLength).Inside firmwareLength :=
    fun _ => ⟨Nat.zero_le _, Nat.le_of_eq (Nat.zero_add _)⟩
  refine bind_congr fun ok => ite_congr rfl (fun _ => bind_congr fun rc => ite_congr rfl (fun _ => ?_) fun _ => rfl)
    fun _ => rfl
  apply bind_congr
  intro s
  rw [uploadTurns_congr h _ _ hstart]

/-- When it succeeds, the pointer moves on. -/
theorem uploadFirmware_moves {up : Upgrade} {components componentId : UInt8} {firmware : Nat → UInt8} {s s' : State}
    {moves : Bool} (h : uploadFirmware host intf up components componentId firmware firmwareLength s =
      .ok (.success, moves) s') : moves = true := by
  have hmoves := @uploadFirmware_waits host intf up components componentId firmware firmwareLength s trivial
  rw [h] at hmoves
  exact hmoves rfl

end reads

/-! ### Images -/

/-- The firmware of a component: the bytes before its length, and which bytes the checksum is over. -/
structure FirmwareRecord where
  components : UInt8
  description : List UInt8
  firmware : List UInt8
  long : Bool
  length_description : description.length = 27
  length_firmware : firmware.length < 2 ^ 32

inductive Record where
  | backup (components : UInt8)
  | prepare (components : UInt8)
  | firmware (r : FirmwareRecord)

/-- The byte that makes the sum 0. -/
def checksumFor (bytes : List UInt8) : UInt8 := - hpmfwupgCalculateChecksum bytes

/-- `struct HpmfwupgFirmwareImage`. -/
def FirmwareRecord.image (r : FirmwareRecord) : List UInt8 := r.description ++ le32 (UInt32.ofNat r.firmware.length)

def FirmwareRecord.header (r : FirmwareRecord) : List UInt8 :=
  [actionUploadFirmware, r.components,
    checksumFor ([actionUploadFirmware, r.components] ++ if r.long then r.image else [])] ++ r.image

def Record.bytes : Record → List UInt8
  | .backup components => [actionBackupComponents, components, checksumFor [actionBackupComponents, components]]
  | .prepare components => [actionPrepareComponents, components, checksumFor [actionPrepareComponents, components]]
  | .firmware r => r.header ++ r.firmware

/-- The parts of an image; the checksum of its header is not looked at in the upgrade stage. -/
structure Image where
  header : List UInt8
  oemData : List UInt8
  checksum : UInt8
  records : List Record
  signature : List UInt8
  length_header : header.length = 32
  length_oemData : oemData.length < 2 ^ 16
  length_signature : signature.length = 16

def recordBytes (records : List Record) : List UInt8 := records.flatMap Record.bytes

def Image.front (image : Image) : List UInt8 :=
  image.header ++ le16 image.oemData.length ++ image.oemData ++ [image.checksum]

def Image.bytes (image : Image) : List UInt8 := image.front ++ recordBytes image.records ++ image.signature

/-! ### What the records say -/

section perform
variable (host : Host) (intf : Intf) (up : Upgrade)

def performFirmware (r : FirmwareRecord) : HpmM Rc := do
  if ipmiIntfGetMaxRequestDataSize intf ≤ uploadReqSize then return .error
  else if up.selects (componentIdOf 8 r.components) then
    let x ← uploadFirmware host intf up r.components (componentIdOf 8 r.components) (fun i => r.firmware.getD i 0)
      (UInt32.ofNat r.firmware.length)
    return x.1
  else return .success

def perform : Record → HpmM Rc
  | .backup components => initiateFor host intf up components upgradeActionBackup
  | .prepare components => initiateFor host intf up components upgradeActionPrepare
  | .firmware r => performFirmware host intf up r

/-- One record after the other, until one fails. -/
def performAll : List Record → HpmM Rc
  | [] => return .success
  | r :: records => do
    let rc ← perform host intf up r
    if rc = .success then performAll records else return rc

end perform

/-! ### The bytes in memory -/

/-- The bytes are at `off`. -/
def Holds (image : Nat → UInt8) (off : Nat) (bytes : List UInt8) : Prop := slice image off bytes.length = bytes

section bytes
variable {image : Nat → UInt8} {off : Nat}

theorem holds_append {a b : List UInt8} :
    Holds image off (a ++ b) ↔ Holds image off a ∧ Holds image (off + a.length) b := by
  unfold Holds
  rw [List.length_append, slice_add]
  constructor
  · intro h
    exact List.append_inj h (length_slice _ _ _)
  · intro h
    rw [h.1, h.2]

theorem holds_three {x y z : UInt8} (h : Holds image off [x, y, z]) : image off = x ∧ image (off + 1) = y := by
  have hlist : [image off, image (off + 1), image (off + 2)] = [x, y, z] := h
  simp only [List.cons.injEq] at hlist
  exact ⟨hlist.1, hlist.2.1⟩

theorem wordAt_le32 {w : UInt32} (h : Holds image off (le32 w)) : wordAt image off = w := by
  have hlist : [image off, image (off + 1), image (off + 2), image (off + 3)] = le32 w := h
  unfold le32 at hlist
  simp only [List.cons.injEq, and_true] at hlist
  obtain ⟨h0, h1, h2, h3⟩ := hlist
  unfold wordAt
  rw [h0, h1, h2, h3]
  apply UInt32.toNat_inj.1
  have hw := w.toNat_lt
  simp only [UInt32.toNat_add, UInt32.toNat_shiftLeft, UInt8.toNat_toUInt32, UInt32.toNat_toUInt8,
    UInt32.toNat_shiftRight]
  have h24 : (24 : UInt32).toNat % 32 = 24 := rfl
  have h16 : (16 : UInt32).toNat % 32 = 16 := rfl
  have h8 : (8 : UInt32).toNat % 32 = 8 := rfl
  rw [h24, h16, h8]
  simp only [Nat.shiftLeft_eq, Nat.shiftRight_eq_div_pow]
  omega

theorem foldl_add (bytes : List UInt8) : ∀ x, bytes.foldl (· + ·) x = x + hpmfwupgCalculateChecksum bytes := by
  unfold hpmfwupgCalculateChecksum
  induction bytes with
  | nil => intro x; exact (UInt8.add_zero x).symm
  | cons b bytes ih =>
    intro x
    rw [List.foldl_cons, List.foldl_cons, ih (x + b), ih (0 + b), UInt8.zero_add, UInt8.add_assoc]

/-- The checksum, after two bytes and before the rest, makes the sum 0. -/
theorem checksumFor_sum (x y : UInt8) (bytes : List UInt8) :
    hpmfwupgCalculateChecksum ([x, y, checksumFor ([x, y] ++ bytes)] ++ bytes) = 0 := by
  have h := foldl_add bytes
  unfold checksumFor
  rw [hpmfwupgCalculateChecksum, List.foldl_append, h]
  rw [hpmfwupgCalculateChecksum, List.foldl_append, h]
  simp only [List.foldl_cons, List.foldl_nil]
  grind

theorem length_firmwareImage (r : FirmwareRecord) : r.image.length = firmwareImageSize := by
  rw [FirmwareRecord.image, List.length_append, r.length_description, length_le32]
  rfl

theorem length_header (r : FirmwareRecord) : r.header.length = 34 := by
  rw [FirmwareRecord.header, List.length_append, length_firmwareImage]
  rfl

/-- A record as the specification has it is valid. -/
theorem record_valid {r : Record} (h : Holds image off r.bytes) :
    hpmfwupgValidateActionRecordChecksum image off = true := by
  have hshort : ∀ x y : UInt8, Holds image off [x, y, checksumFor [x, y]] →
      hpmfwupgValidateActionRecordChecksum image off = true := by
    intro x y hbytes
    have hsum := checksumFor_sum x y []
    have hslice : slice image off actionRecordSize = _ := hbytes
    rw [List.append_nil, List.append_nil] at hsum
    rw [hpmfwupgValidateActionRecordChecksum, hslice, hsum]
    rfl
  cases r with
  | backup components => exact hshort _ _ h
  | prepare components => exact hshort _ _ h
  | firmware r =>
    obtain ⟨hheader, -⟩ := holds_append.1 h
    have hslice := hheader
    rw [Holds, length_header] at hslice
    rw [FirmwareRecord.header] at hheader hslice
    obtain ⟨hthree, -⟩ := holds_append.1 hheader
    cases hlong : r.long with
    | false =>
      rw [hlong] at hthree
      exact hshort _ _ hthree
    | true =>
      rw [hlong] at hslice
      have htype := (holds_three hthree).1
      have hsum := checksumFor_sum actionUploadFirmware r.components r.image
      have hsum' : hpmfwupgCalculateChecksum (slice image off (actionRecordSize + firmwareImageSize)) = 0 := by
        refine (congrArg _ hslice).trans ?_
        exact hsum
      rw [hpmfwupgValidateActionRecordChecksum, hsum', htype]
      simp

end bytes

/-! ### The stage -/

section stage
variable {host : Host} {intf : Intf} {up : Upgrade} {image : Nat → UInt8} {pImagePtr : Nat}

/-- The loop after a record. -/
def andThen (k : Nat → HpmM Rc) (x : Rc × Nat) : HpmM Rc := if x.1 = .success then k x.2 else return x.1

theorem firmware_record {r : FirmwareRecord} (h : Holds image pImagePtr (r.header ++ r.firmware)) :
    firmwareLengthAt image pImagePtr = UInt32.ofNat r.firmware.length ∧
      ∀ i, i < (UInt32.ofNat r.firmware.length).toNat → firmwareAt image pImagePtr i = r.firmware.getD i 0 := by
  obtain ⟨hheader, hfirmware⟩ := holds_append.1 h
  have hlength : (UInt32.ofNat r.firmware.length).toNat = r.firmware.length :=
    UInt32.toNat_ofNat_of_lt' r.length_firmware
  constructor
  · rw [FirmwareRecord.header, FirmwareRecord.image, holds_append, holds_append] at hheader
    have hword := hheader.2.2
    rw [r.length_description] at hword
    exact wordAt_le32 hword
  · intro i hi
    rw [hlength] at hi
    have hget : (slice image (pImagePtr + r.header.length) r.firmware.length)[i]? = r.firmware[i]? := by rw [hfirmware]
    rw [length_header, List.getElem?_eq_getElem (by rwa [length_slice]), List.getElem?_eq_getElem hi,
      getElem_slice] at hget
    rw [List.getD_eq_getElem _ _ hi, ← Option.some.inj hget]
    rfl

theorem action_performs {r : FirmwareRecord} (h : Holds image pImagePtr (r.header ++ r.firmware)) (k : Nat → HpmM Rc) :
    (hpmFwupgActionUploadFirmware host intf up image r.components pImagePtr >>= andThen k) =
      performFirmware host intf up r >>= fun rc =>
        if rc = .success then k (pImagePtr + (r.header ++ r.firmware).length) else return rc := by
  obtain ⟨hlength, hbytes⟩ := firmware_record h
  have hnext : pImagePtr + actionRecordSize + firmwareImageSize + (UInt32.ofNat r.firmware.length).toNat =
      pImagePtr + (r.header ++ r.firmware).length := by
    rw [List.length_append, length_header, UInt32.toNat_ofNat_of_lt' r.length_firmware, Nat.add_assoc, Nat.add_assoc,
      ← Nat.add_assoc actionRecordSize]
    rfl
  have hsame := @uploadFirmware_congr host intf (UInt32.ofNat r.firmware.length) _ _ hbytes up r.components
    (componentIdOf 8 r.components)
  unfold hpmFwupgActionUploadFirmware performFirmware
  rw [hlength, hnext]
  dsimp only
  rw [hsame]
  split
  · rfl
  · split
    · funext s
      simp only [Bind.bind, EStateM.bind]
      cases hrun : uploadFirmware host intf up r.components (componentIdOf 8 r.components)
          (fun i => r.firmware.getD i 0) (UInt32.ofNat r.firmware.length) s with
      | error e t => rfl
      | ok x t =>
        obtain ⟨rc, moves⟩ := x
        by_cases hrc : rc = .success
        · subst hrc
          rw [uploadFirmware_moves hrun]
          rfl
        · simp only [andThen, Pure.pure, EStateM.pure, if_neg hrc]
    · rfl

/-- A record is performed, and the pointer moves on to the next one. -/
theorem recordAction_performs {r : Record} (h : Holds image pImagePtr r.bytes) (k : Nat → HpmM Rc) :
    (recordAction host intf up image pImagePtr >>= andThen k) =
      perform host intf up r >>= fun rc =>
        if rc = .success then k (pImagePtr + r.bytes.length) else return rc := by
  unfold recordAction
  dsimp only
  cases r with
  | backup components =>
    obtain ⟨htype, hcomponents⟩ := holds_three h
    rw [htype, hcomponents, if_pos rfl, bind_assoc]
    rfl
  | prepare components =>
    obtain ⟨htype, hcomponents⟩ := holds_three h
    rw [htype, hcomponents, if_neg (by decide), if_pos rfl, bind_assoc]
    rfl
  | firmware r =>
    obtain ⟨htype, hcomponents⟩ := holds_three (holds_append.1 (holds_append.1 h).1).1
    rw [htype, hcomponents, if_neg (by decide), if_neg (by decide), if_pos rfl]
    exact action_performs h k

variable {imageSize : Nat}

theorem stageTurns_succ (fuel : Nat) :
    stageTurns host intf up image imageSize (fuel + 1) pImagePtr =
      if pImagePtr < imageSize - md5SignatureLength then
        if hpmfwupgValidateActionRecordChecksum image pImagePtr then
          recordAction host intf up image pImagePtr >>= andThen (stageTurns host intf up image imageSize fuel)
        else return .error
      else return .success := rfl

theorem stageTurns_stop (h : ¬ pImagePtr < imageSize - md5SignatureLength) (fuel : Nat) :
    stageTurns host intf up image imageSize fuel pImagePtr = Pure.pure .success := by
  cases fuel with
  | zero => exact if_neg h
  | succ fuel => exact if_neg h

theorem stageTurns_record {r : Record} (h : Holds image pImagePtr r.bytes)
    (hbefore : pImagePtr < imageSize - md5SignatureLength) (fuel : Nat) :
    stageTurns host intf up image imageSize (fuel + 1) pImagePtr =
      perform host intf up r >>= fun rc =>
        if rc = .success then stageTurns host intf up image imageSize fuel (pImagePtr + r.bytes.length)
        else return rc := by
  rw [stageTurns_succ, if_pos hbefore, if_pos (record_valid h)]
  exact recordAction_performs h _

theorem Record.three_le (r : Record) : 3 ≤ r.bytes.length := by
  cases r with
  | backup components => exact Nat.le_refl _
  | prepare components => exact Nat.le_refl _
  | firmware r =>
    rw [Record.bytes, List.length_append, length_header]
    omega

/-- The records are performed one after the other, and the loop goes on behind them. -/
theorem stageTurns_records (records : List Record) :
    ∀ {pImagePtr : Nat} (fuel : Nat), Holds image pImagePtr (recordBytes records) →
      pImagePtr + (recordBytes records).length ≤ imageSize - md5SignatureLength →
      stageTurns host intf up image imageSize (fuel + records.length) pImagePtr =
        performAll host intf up records >>= fun rc =>
          if rc = .success then
            stageTurns host intf up image imageSize fuel (pImagePtr + (recordBytes records).length)
          else return rc := by
  induction records with
  | nil =>
    intro pImagePtr fuel _ _
    rw [performAll, pure_bind, if_pos rfl]
    rfl
  | cons r records ih =>
    intro pImagePtr fuel hbytes hsize
    have hcons : recordBytes (r :: records) = r.bytes ++ recordBytes records := List.flatMap_cons
    rw [hcons] at hbytes hsize ⊢
    rw [List.length_append] at hsize ⊢
    obtain ⟨hr, hrest⟩ := holds_append.1 hbytes
    have hthree := r.three_le
    have hfuel : fuel + (r :: records).length = (fuel + records.length) + 1 := rfl
    rw [hfuel, stageTurns_record hr (by omega), performAll, bind_assoc]
    apply bind_congr
    intro rc
    by_cases hrc : rc = .success
    · rw [if_pos hrc, if_pos hrc, ih fuel hrest (by omega), ← Nat.add_assoc]
    · rw [if_neg hrc, if_neg hrc, pure_bind, if_neg hrc]

theorem length_recordBytes (records : List Record) : records.length ≤ (recordBytes records).length := by
  induction records with
  | nil => exact Nat.le_refl _
  | cons r records ih =>
    have hthree := r.three_le
    have hcons : recordBytes (r :: records) = r.bytes ++ recordBytes records := List.flatMap_cons
    rw [hcons, List.length_append, List.length_cons]
    omega

theorem Image.length_front (image : Image) : image.front.length = imageHeaderSize + image.oemData.length + 1 := by
  unfold Image.front
  rw [List.length_append, List.length_append, List.length_append, image.length_header]
  rfl

/-- The stage starts behind the header. -/
theorem stage_start (contents : Image) (h : Holds image 0 contents.front) :
    hpmfwupgUpgradeStage host intf up image imageSize =
      stageTurns host intf up image imageSize imageSize contents.front.length := by
  obtain ⟨hword, -⟩ := holds_append.1 (holds_append.1 h).1
  rw [holds_append, contents.length_header] at hword
  have hlist : [image 32, image 33] = le16 contents.oemData.length := hword.2
  unfold le16 at hlist
  simp only [List.cons.injEq, and_true] at hlist
  have hlength : (image 32).toNat + 256 * (image 33).toNat = contents.oemData.length := by
    have hlt := contents.length_oemData
    rw [hlist.1, hlist.2, Nat.shiftRight_eq_div_pow, UInt8.toNat_ofNat', UInt8.toNat_ofNat']
    omega
  unfold hpmfwupgUpgradeStage
  rw [hlength, contents.length_front]

/-- **The upgrade stage** on an image: its records are performed one after the other until one fails, and it succeeds
when all of them do. What lies behind the image in memory is not read. -/
theorem hpmfwupgUpgradeStage_performs (host : Host) (intf : Intf) (up : Upgrade) (contents : Image)
    {memory : Nat → UInt8} (h : Holds memory 0 contents.bytes) :
    hpmfwupgUpgradeStage host intf up memory contents.bytes.length = performAll host intf up contents.records := by
  obtain ⟨hfront, -⟩ := holds_append.1 h
  obtain ⟨hfront, hrecords⟩ := holds_append.1 hfront
  rw [Nat.zero_add] at hrecords
  have hsize : contents.bytes.length = contents.front.length + (recordBytes contents.records).length + 16 := by
    rw [Image.bytes, List.length_append, List.length_append, contents.length_signature]
  have hcount := length_recordBytes contents.records
  obtain ⟨fuel, hfuel⟩ : ∃ fuel, contents.bytes.length = fuel + contents.records.length :=
    ⟨contents.bytes.length - contents.records.length, by omega⟩
  have hend : contents.bytes.length - md5SignatureLength =
      contents.front.length + (recordBytes contents.records).length := by
    rw [hsize]
    rfl
  have hturns := @stageTurns_records host intf up memory contents.bytes.length contents.records contents.front.length fuel
    hrecords (Nat.le_of_eq hend.symm)
  rw [← hfuel] at hturns
  rw [stage_start contents hfront, hturns, stageTurns_stop (fun h => absurd h (hend ▸ Nat.lt_irrefl _))]
  have hsame : ∀ rc : Rc, (if rc = .success then Pure.pure .success else Pure.pure rc : HpmM Rc) = Pure.pure rc := by
    intro rc
    cases rc <;> rfl
  simp only [hsame, bind_pure]

/-- Bytes behind the records that are no record are an error, once the records have been performed. -/
theorem hpmfwupgUpgradeStage_invalid (contents : Image)
    (h : Holds image 0 (contents.front ++ recordBytes contents.records))
    (hbefore : contents.front.length + (recordBytes contents.records).length < imageSize - md5SignatureLength)
    (hinvalid : hpmfwupgValidateActionRecordChecksum image
      (contents.front.length + (recordBytes contents.records).length) = false) :
    hpmfwupgUpgradeStage host intf up image imageSize =
      performAll host intf up contents.records >>= fun rc => return if rc = .success then .error else rc := by
  obtain ⟨hfront, hrecords⟩ := holds_append.1 h
  rw [Nat.zero_add] at hrecords
  have hcount := length_recordBytes contents.records
  obtain ⟨fuel, hfuel⟩ : ∃ fuel, imageSize = fuel + 1 + contents.records.length :=
    ⟨imageSize - contents.records.length - 1, by omega⟩
  have hturns := @stageTurns_records host intf up image imageSize contents.records contents.front.length (fuel + 1)
    hrecords (Nat.le_of_lt hbefore)
  rw [← hfuel] at hturns
  rw [stage_start contents hfront, hturns, stageTurns_succ, if_pos hbefore, if_neg (by rw [hinvalid]; decide)]
  apply bind_congr
  intro rc
  cases rc <;> rfl

end stage

/-! ### An image -/

def fiveBytesRecord : FirmwareRecord where
  components := 1
  description := List.replicate 27 0
  firmware := [11, 12, 13, 14, 15]
  long := true
  length_description := rfl
  length_firmware := by decide

def smallImage : Image where
  header := List.replicate 32 0
  oemData := [1, 2]
  checksum := 0
  records := [.prepare 1, .firmware fiveBytesRecord, .backup 2]
  signature := List.replicate 16 0
  length_header := rfl
  length_oemData := by decide
  length_signature := rfl

theorem smallImage_performs :
    hpmfwupgUpgradeStage idleHost shortIntf bothComponents (store (fun _ => 0xFF) 0 smallImage.bytes)
      smallImage.bytes.length =
        performAll idleHost shortIntf bothComponents [.prepare 1, .firmware fiveBytesRecord, .backup 2] :=
  hpmfwupgUpgradeStage_performs idleHost shortIntf bothComponents smallImage (slice_store _ _ _)

end KTools.Hpm
