import KTools.Hpm.Rules
import Mathlib.Data.List.Induction

/-!
# What an upload delivers

The board takes the blocks that it accepts as the bytes of a section of the firmware, the whole of it at first; with
its answer to a block it may ask for another section, which begins with the next block. When the upload succeeds, the
board has all of the section that it last asked for (`hpmFwupgActionUploadFirmware_delivers`). No block reaches
beyond the firmware or is longer than the interface allows, whether or not the upload comes to its end
(`hpmFwupgActionUploadFirmware_within`).
-/

namespace KTools.Hpm
open KTools.Lib KTools.Lib.Bytes KTools.Lanplus

/-! ### The board's side -/

def Upload.accepted (u : Upload) : Bool := u.rc = .success

/-- A section of the firmware, and the bytes of it that have come. -/
structure Section where
  offset : Nat
  length : Nat
  bytes : List UInt8

/-- The answer to a block may ask for another section. -/
def Section.next (sec : Section) (u : Upload) : Section :=
  if u.accepted then
    if u.imageOffset ≠ 0 then ⟨u.imageOffset.toNat, u.blockLength.toNat, []⟩
    else { sec with bytes := sec.bytes ++ u.data }
  else sec

/-- The section that the board wants after these uploads. -/
def delivered (firmwareLength : Nat) (uploads : List Upload) : Section := uploads.foldl Section.next ⟨0, firmwareLength, []⟩

def acceptedBytes (uploads : List Upload) : List UInt8 := (uploads.filter Upload.accepted).flatMap Upload.data

/-- A block has the number of the blocks accepted before it: one that was refused is sent again under its number. -/
def Numbered (uploads : List Upload) : Prop :=
  ∀ i (h : i < uploads.length), uploads[i].number = UInt8.ofNat ((uploads.take i).countP Upload.accepted)

theorem delivered_concat (firmwareLength : Nat) (uploads : List Upload) (u : Upload) :
    delivered firmwareLength (uploads ++ [u]) = (delivered firmwareLength uploads).next u := by
  unfold delivered
  rw [List.foldl_append]
  rfl

theorem acceptedBytes_concat (uploads : List Upload) (u : Upload) :
    acceptedBytes (uploads ++ [u]) = acceptedBytes uploads ++ if u.accepted then u.data else [] := by
  unfold acceptedBytes
  rw [List.filter_append, List.flatMap_append]
  cases h : u.accepted with
  | true => simp [h]
  | false => simp [h]

theorem numbered_nil : Numbered [] := fun i h => absurd h (Nat.not_lt_zero i)

theorem Numbered.concat {uploads : List Upload} (h : Numbered uploads) {u : Upload}
    (hu : u.number = UInt8.ofNat (uploads.countP Upload.accepted)) : Numbered (uploads ++ [u]) := by
  intro i hi
  rw [List.length_append, List.length_singleton] at hi
  rcases Nat.lt_or_eq_of_le (Nat.le_of_lt_succ hi) with hlt | heq
  · rw [List.getElem_append_left hlt, List.take_append_of_le_length (Nat.le_of_lt hlt)]
    exact h i hlt
  · subst heq
    rw [List.getElem_append_right (Nat.le_refl _), List.take_append_of_le_length (Nat.le_refl _), List.take_length]
    simpa using hu

/-- Where no section is asked for, the firmware is the section, and all bytes accepted are of it. -/
theorem delivered_whole (firmwareLength : Nat) (uploads : List Upload) (h : ∀ u ∈ uploads, u.imageOffset = 0) :
    delivered firmwareLength uploads = ⟨0, firmwareLength, acceptedBytes uploads⟩ := by
  induction uploads using List.reverseRecOn with
  | nil => rfl
  | append_singleton uploads u ih =>
    rw [delivered_concat, acceptedBytes_concat, ih fun v hv => h v (List.mem_append_left _ hv), Section.next,
      h u (List.mem_append_right _ (List.mem_singleton_self u))]
    cases u.accepted with
    | true => rfl
    | false => simp

/-! ### The loop -/

section upload
variable {host : Host} {intf : Intf} {cap : TargetCap} {firmware : Nat → UInt8} {firmwareLength : UInt32}

/-- The variables of the loop say what the board has. -/
structure Delivers (firmware : Nat → UInt8) (firmwareLength : UInt32) (uploads : List Upload) (p : Progress) : Prop where
  offset : (delivered firmwareLength.toNat uploads).offset = p.pDataTemp
  length : (delivered firmwareLength.toNat uploads).length = p.lengthOfBlock.toNat
  position : p.pData = p.pDataTemp + (delivered firmwareLength.toNat uploads).bytes.length
  bytes : (delivered firmwareLength.toNat uploads).bytes =
    slice firmware p.pDataTemp (delivered firmwareLength.toNat uploads).bytes.length
  within : p.pData ≤ p.stop
  fits : p.stop ≤ firmwareLength.toNat
  number : p.blockNumber = UInt8.ofNat (uploads.countP Upload.accepted)
  total : p.totalSent = UInt32.ofNat (acceptedBytes uploads).length

theorem Progress.count_le (p : Progress) : p.count ≤ p.bufLength.toNat := by
  unfold Progress.count
  split
  · exact Nat.le_refl _
  · omega

theorem Progress.count_stop (p : Progress) (h : p.pData ≤ p.stop) : p.pData + p.count ≤ p.stop := by
  unfold Progress.count
  split
  · assumption
  · omega

theorem delivers_start (maxRqSize : UInt16) : Delivers firmware firmwareLength [] (.start maxRqSize firmwareLength) where
  offset := rfl
  length := rfl
  position := rfl
  bytes := rfl
  within := Nat.zero_le _
  fits := Nat.le_of_eq (Nat.zero_add _)
  number := rfl
  total := rfl

theorem Delivers.refused {uploads : List Upload} {p : Progress} (h : Delivers firmware firmwareLength uploads p)
    {u : Upload} (hrefused : u.accepted = false) (bufLength : UInt16) :
    Delivers firmware firmwareLength (uploads ++ [u]) { p with bufLength := bufLength } := by
  have hsec : delivered firmwareLength.toNat (uploads ++ [u]) = delivered firmwareLength.toNat uploads := by
    rw [delivered_concat, Section.next, hrefused]
    rfl
  constructor
  · rw [hsec]
    exact h.offset
  · rw [hsec]
    exact h.length
  · rw [hsec]
    exact h.position
  · rw [hsec]
    exact h.bytes
  · exact h.within
  · exact h.fits
  · rw [List.countP_append, List.countP_singleton, hrefused]
    exact h.number
  · rw [acceptedBytes_concat, hrefused]
    exact h.total.trans (by simp)

/-- A section that passes the check is part of the firmware. -/
theorem section_fits {imageOffset blockLength : UInt32}
    (h : ¬ (firmwareLength < imageOffset + blockLength ∨ imageOffset + blockLength < blockLength)) :
    imageOffset.toNat + blockLength.toNat ≤ firmwareLength.toNat := by
  rw [not_or, UInt32.lt_iff_toNat_lt, UInt32.lt_iff_toNat_lt, UInt32.toNat_add] at h
  have hoffset := imageOffset.toNat_lt
  have hlength := blockLength.toNat_lt
  omega

theorem Delivers.accepted {uploads : List Upload} {p : Progress} (h : Delivers firmware firmwareLength uploads p)
    {u : Upload} (haccepted : u.accepted = true) (hdata : u.data = p.block firmware)
    (hfits : ¬ (firmwareLength < u.imageOffset + u.blockLength ∨ u.imageOffset + u.blockLength < u.blockLength)) :
    Delivers firmware firmwareLength (uploads ++ [u]) (p.accepted firmwareLength u.imageOffset u.blockLength) := by
  have hlen : u.data.length = p.count := by rw [hdata, Progress.block, length_slice]
  have hnumber : p.blockNumber + 1 = UInt8.ofNat ((uploads ++ [u]).countP Upload.accepted) := by
    rw [List.countP_append, List.countP_singleton, haccepted, h.number, if_pos rfl, UInt8.ofNat_add]
    rfl
  have htotal : p.totalSent + UInt32.ofNat p.count = UInt32.ofNat (acceptedBytes (uploads ++ [u])).length := by
    rw [acceptedBytes_concat, haccepted, if_pos rfl, List.length_append, hlen, h.total, UInt32.ofNat_add]
  have hsec : delivered firmwareLength.toNat (uploads ++ [u]) = (delivered firmwareLength.toNat uploads).next u :=
    delivered_concat _ _ _
  rw [Section.next, if_pos haccepted] at hsec
  rw [Progress.accepted, if_neg hfits]
  by_cases hoffset : u.imageOffset = 0
  · rw [if_neg (not_not_intro hoffset)] at hsec
    simp only [hoffset, ne_eq, not_true_eq_false, if_false]
    have hbytes : (delivered firmwareLength.toNat (uploads ++ [u])).bytes =
        (delivered firmwareLength.toNat uploads).bytes ++ p.block firmware := by rw [hsec, hdata]
    have hbytesLen : (delivered firmwareLength.toNat (uploads ++ [u])).bytes.length =
        (delivered firmwareLength.toNat uploads).bytes.length + p.count := by
      rw [hbytes, List.length_append, Progress.block, length_slice]
    refine ⟨?_, ?_, ?_, ?_, p.count_stop h.within, h.fits, hnumber, htotal⟩
    · rw [hsec]
      exact h.offset
    · rw [hsec]
      exact h.length
    · rw [hbytesLen]
      have hpos := h.position
      show p.pData + p.count = p.pDataTemp + _
      omega
    · rw [hbytesLen, slice_add, hbytes, ← h.bytes, ← h.position]
      rfl
  · rw [if_pos hoffset] at hsec
    simp only [ne_eq, hoffset, not_false_eq_true, if_true]
    refine ⟨?_, ?_, ?_, ?_, Nat.le_add_right _ _, section_fits hfits, hnumber, htotal⟩
    · rw [hsec]
    · rw [hsec]
    · rw [hsec]
      rfl
    · rw [hsec]
      rfl

/-- While there is no error, the variables say what the board has. -/
def Consistent (firmware : Nat → UInt8) (firmwareLength : UInt32) (uploads : List Upload) (p : Progress) : Prop :=
  Numbered uploads ∧ (p.rc = .success → Delivers firmware firmwareLength uploads p)

/-- The length of the blocks never grows. -/
theorem Progress.bufLength_next (p : Progress) (u : Upload) :
    (p.next intf firmwareLength u).bufLength ≤ p.bufLength := by
  unfold Progress.next
  split
  · unfold Progress.accepted
    split
    · exact UInt16.le_refl _
    · split
      · exact UInt16.le_refl _
      · exact UInt16.le_refl _
  · unfold Progress.refused
    split
    · split
      · rename_i h
        exact UInt16.sub_le (UInt16.le_of_lt h.2)
      · split
        · rename_i h
          apply UInt16.sub_le
          rw [UInt16.le_iff_toNat_le]
          exact Nat.pos_of_ne_zero fun h0 => h (UInt16.toNat_inj.1 h0)
        · exact UInt16.le_refl _
    · split
      · exact UInt16.le_refl _
      · exact UInt16.le_refl _

/-- **One turn** of the loop. -/
theorem Consistent.next {uploads : List Upload} {p : Progress} (h : Consistent firmware firmwareLength uploads p)
    (hrc : p.rc = .success) {u : Upload} (hnumber : u.number = p.blockNumber) (hdata : u.data = p.block firmware) :
    Consistent firmware firmwareLength (uploads ++ [u]) (p.next intf firmwareLength u) := by
  have hdelivers := h.2 hrc
  refine ⟨h.1.concat (hnumber.trans hdelivers.number), fun hnext => ?_⟩
  unfold Progress.next at hnext ⊢
  by_cases hu : u.rc = .success
  · rw [if_pos hu] at hnext ⊢
    apply hdelivers.accepted (decide_eq_true hu) hdata
    intro hbad
    rw [Progress.accepted, if_pos hbad] at hnext
    exact absurd hnext (by simp)
  · rw [if_neg hu] at hnext ⊢
    have hrefused : u.accepted = false := decide_eq_false hu
    unfold Progress.refused at hnext ⊢
    split at hnext
    · rename_i hshorter
      rw [if_pos hshorter]
      split at hnext
      · rename_i hlan
        rw [if_pos hlan]
        exact hdelivers.refused hrefused _
      · rename_i hlan
        rw [if_neg hlan]
        split at hnext
        · rename_i hone
          rw [if_pos hone]
          exact hdelivers.refused hrefused _
        · exact absurd hnext (by simp)
    · rename_i hshorter
      rw [if_neg hshorter]
      split at hnext
      · rename_i hretry
        rw [if_pos hretry]
        exact hdelivers.refused hrefused p.bufLength
      · exact absurd hnext (by simp)

/-- A block that is sent is part of the firmware, and not longer than the interface allows. -/
def BlockWithin (firmware : Nat → UInt8) (firmwareLength : UInt32) (maxRqSize : UInt16) (req : IpmiRq) : Prop :=
  req.cmd = uploadFirmwareBlockCmd →
    ∃ blockNumber off len, req = blockRequest blockNumber (slice firmware off len) ∧
      off + len ≤ firmwareLength.toNat ∧ uploadReqSize.toNat + len ≤ maxRqSize.toNat

/-- Since `before`, only such requests have been sent. -/
def SentWithin (firmware : Nat → UInt8) (firmwareLength : UInt32) (maxRqSize : UInt16) (before : List IpmiRq)
    (sent : List IpmiRq) (_ : List Upload) : Prop :=
  ∃ more, sent = before ++ more ∧ ∀ req ∈ more, BlockWithin firmware firmwareLength maxRqSize req

variable {maxRqSize : UInt16} {before : List IpmiRq} {noted : List Upload}

theorem SentWithin.concat {sent : List IpmiRq} {uploads uploads' : List Upload}
    (h : SentWithin firmware firmwareLength maxRqSize before sent uploads) {req : IpmiRq}
    (hreq : BlockWithin firmware firmwareLength maxRqSize req) :
    SentWithin firmware firmwareLength maxRqSize before (sent ++ [req]) uploads' := by
  obtain ⟨more, rfl, hmore⟩ := h
  refine ⟨more ++ [req], List.append_assoc _ _ _, fun r hr => ?_⟩
  rcases List.mem_append.1 hr with hr | hr
  · exact hmore r hr
  · exact List.mem_singleton.1 hr ▸ hreq

theorem finish_ne_upload : finishFirmwareUploadCmd ≠ uploadFirmwareBlockCmd := by decide

theorem initiate_ne_upload : initiateUpgradeActionCmd ≠ uploadFirmwareBlockCmd := by decide

theorem status_ne_upload : getUpgradeStatusCmd ≠ uploadFirmwareBlockCmd := by decide

/-- A request for something else. -/
theorem blockWithin_of_ne {req : IpmiRq} (h : req.cmd ≠ uploadFirmwareBlockCmd) :
    BlockWithin firmware firmwareLength maxRqSize req := fun hcmd => absurd hcmd h

/-- What holds at the head of the loop. -/
def AtTurn (firmware : Nat → UInt8) (firmwareLength : UInt32) (maxRqSize : UInt16) (before : List IpmiRq)
    (noted : List Upload) (p : Progress) (sent : List IpmiRq) (uploads : List Upload) : Prop :=
  SentWithin firmware firmwareLength maxRqSize before sent uploads ∧
    ∃ us, uploads = noted ++ us ∧ Consistent firmware firmwareLength us p

theorem AtTurn.sends {p : Progress} {req : IpmiRq} (hreq : BlockWithin firmware firmwareLength maxRqSize req) :
    Sends (AtTurn firmware firmwareLength maxRqSize before noted p) req :=
  fun _ _ h => ⟨h.1.concat hreq, h.2⟩

theorem uploadTurns_delivers (fuel : Nat) :
    ∀ p, uploadReqSize.toNat + p.bufLength.toNat ≤ maxRqSize.toNat →
      Triple (On (SentWithin firmware firmwareLength maxRqSize before))
        (On (AtTurn firmware firmwareLength maxRqSize before noted p))
        (uploadTurns host intf cap firmware firmwareLength fuel p)
        fun p' s => On (AtTurn firmware firmwareLength maxRqSize before noted p') s ∧
          ¬ (p'.pData < p'.stop ∧ p'.rc = .success) := by
  induction fuel with
  | zero =>
    intro p _
    unfold uploadTurns
    exact Triple.ite (fun _ => Triple.throw fun s hs => hs.1) fun hstop => Triple.pure fun s hs => ⟨hs, hstop⟩
  | succ fuel ih =>
    intro p hbuf
    unfold uploadTurns
    refine Triple.ite (fun hgo => ?_) fun hstop => Triple.pure fun s hs => ⟨hs, hstop⟩
    -- the precondition also gives that the block is within the section
    intro s hs
    obtain ⟨us, hus, hcons⟩ := hs.2
    have hdelivers := hcons.2 hgo.2
    have hwithin : BlockWithin firmware firmwareLength maxRqSize (blockRequest p.blockNumber (p.block firmware)) :=
      fun _ => ⟨p.blockNumber, p.pData, p.count, rfl, Nat.le_trans (p.count_stop hdelivers.within) hdelivers.fits,
        Nat.le_trans (Nat.add_le_add_left p.count_le _) hbuf⟩
    have hstatus : BlockWithin firmware firmwareLength maxRqSize statusRequest :=
      blockWithin_of_ne status_ne_upload
    have hnotes := @hpmfwupgUploadFirmwareBlock_notes (AtTurn firmware firmwareLength maxRqSize before noted p) host intf
      cap p.blockNumber (p.block firmware) (AtTurn.sends hstatus) (AtTurn.sends hwithin)
      (fun u => AtTurn firmware firmwareLength maxRqSize before noted (p.next intf firmwareLength u))
      (fun u hnumber hdata sent uploads h => by
        obtain ⟨hsent, us, rfl, hcons⟩ := h
        exact ⟨hsent, us ++ [u], List.append_assoc _ _ _, hcons.next hgo.2 hnumber hdata⟩)
    refine ((hnotes.error fun t ht => ht.1).bind fun u => ih _ ?_) s hs
    have hnext := UInt16.le_iff_toNat_le.1 (@Progress.bufLength_next intf firmwareLength p u)
    omega

/-! ### The upload -/

/-- The board has all of the section that it last asked for. -/
structure Complete (firmware : Nat → UInt8) (firmwareLength : UInt32) (uploads : List Upload) : Prop where
  numbered : Numbered uploads
  fits : (delivered firmwareLength.toNat uploads).offset + (delivered firmwareLength.toNat uploads).length ≤
    firmwareLength.toNat
  bytes : (delivered firmwareLength.toNat uploads).bytes =
    slice firmware (delivered firmwareLength.toNat uploads).offset (delivered firmwareLength.toNat uploads).length

theorem Consistent.complete {uploads : List Upload} {p : Progress} (h : Consistent firmware firmwareLength uploads p)
    (hrc : p.rc = .success) (hstop : ¬ (p.pData < p.stop ∧ p.rc = .success)) :
    Complete firmware firmwareLength uploads ∧ p.totalSent = UInt32.ofNat (acceptedBytes uploads).length := by
  have hdelivers := h.2 hrc
  have hlength : (delivered firmwareLength.toNat uploads).bytes.length = p.lengthOfBlock.toNat := by
    have hposition := hdelivers.position
    have hwithin := hdelivers.within
    have hend : p.stop ≤ p.pData := Nat.le_of_not_lt fun hlt => hstop ⟨hlt, hrc⟩
    unfold Progress.stop at hwithin hend
    omega
  refine ⟨⟨h.1, ?_, ?_⟩, hdelivers.total⟩
  · rw [hdelivers.offset, hdelivers.length]
    exact hdelivers.fits
  · rw [hdelivers.offset, hdelivers.length, ← hlength]
    exact hdelivers.bytes

/-- After a successful upload. -/
def Uploaded (firmware : Nat → UInt8) (firmwareLength : UInt32) (componentId : UInt8) (noted : List Upload)
    (sent : List IpmiRq) (uploads : List Upload) : Prop :=
  ∃ us, uploads = noted ++ us ∧ Complete firmware firmwareLength us ∧
    finishRequest componentId (UInt32.ofNat (acceptedBytes us).length) ∈ sent

theorem Uploaded.concat {componentId : UInt8} {sent : List IpmiRq} {uploads : List Upload}
    (h : Uploaded firmware firmwareLength componentId noted sent uploads) (req : IpmiRq) :
    Uploaded firmware firmwareLength componentId noted (sent ++ [req]) uploads := by
  obtain ⟨us, hus, hcomplete, hmem⟩ := h
  exact ⟨us, hus, hcomplete, List.mem_append_left _ hmem⟩

/-- The finish request reports how many bytes have been accepted. -/
theorem finish_delivers {compare : Bool} {componentId : UInt8} {p : Progress} (hrc : p.rc = .success) :
    Triple (On (SentWithin firmware firmwareLength maxRqSize before))
      (fun s => On (AtTurn firmware firmwareLength maxRqSize before noted p) s ∧ ¬ (p.pData < p.stop ∧ p.rc = .success))
      (hpmfwupgFinishFirmwareUpload host intf cap compare componentId p.totalSent)
      fun _ => On fun sent uploads => SentWithin firmware firmwareLength maxRqSize before sent uploads ∧
        Uploaded firmware firmwareLength componentId noted sent uploads := by
  have hother : ∀ req : IpmiRq, req.cmd ≠ uploadFirmwareBlockCmd → Sends (fun sent uploads =>
      SentWithin firmware firmwareLength maxRqSize before sent uploads ∧
        Uploaded firmware firmwareLength componentId noted sent uploads) req :=
    fun req hreq _ _ h => ⟨h.1.concat (blockWithin_of_ne hreq), h.2.concat req⟩
  refine (finish_hands (J := fun sent uploads => SentWithin firmware firmwareLength maxRqSize before sent uploads ∧
    ∃ us, uploads = noted ++ us ∧ Complete firmware firmwareLength us ∧
      p.totalSent = UInt32.ofNat (acceptedBytes us).length) ?_ (hother _ status_ne_upload) (hother _ finish_ne_upload)
    (fun s hs => hs.1) fun s hs => hs.1).pre ?_
  · intro sent uploads h
    obtain ⟨hsent, us, hus, hcomplete, htotal⟩ := h
    refine ⟨hsent.concat (blockWithin_of_ne finish_ne_upload), us, hus, hcomplete, List.mem_append_right _ ?_⟩
    rw [htotal]
    exact List.mem_singleton_self _
  · intro s hs
    obtain ⟨⟨hsent, us, hus, hcons⟩, hstop⟩ := hs
    exact ⟨hsent, us, hus, hcons.complete hrc hstop⟩

theorem uploadFirmware_delivers {up : Upgrade} {components componentId : UInt8}
    (hsize : uploadReqSize ≤ ipmiIntfGetMaxRequestDataSize intf) :
    Triple (On (SentWithin firmware firmwareLength (ipmiIntfGetMaxRequestDataSize intf) before))
      (On fun sent uploads => SentWithin firmware firmwareLength (ipmiIntfGetMaxRequestDataSize intf) before sent uploads ∧
        uploads = noted)
      (uploadFirmware host intf up components componentId firmware firmwareLength)
      fun x s => On (SentWithin firmware firmwareLength (ipmiIntfGetMaxRequestDataSize intf) before) s ∧
        (x.1 = .success → x.2 = true ∧ On (Uploaded firmware firmwareLength componentId noted) s) := by
  have hinit : ∀ action, Sends (fun sent uploads =>
      SentWithin firmware firmwareLength (ipmiIntfGetMaxRequestDataSize intf) before sent uploads ∧ uploads = noted)
      (hpmRequest initiateUpgradeActionCmd [picmgIdentifier, components, action]) :=
    fun _ _ _ h => ⟨h.1.concat (blockWithin_of_ne initiate_ne_upload), h.2⟩
  have hstatus : Sends (fun sent uploads =>
      SentWithin firmware firmwareLength (ipmiIntfGetMaxRequestDataSize intf) before sent uploads ∧ uploads = noted)
      statusRequest := fun _ _ h => ⟨h.1.concat (blockWithin_of_ne status_ne_upload), h.2⟩
  refine (malloc_keeps.triple.error fun s hs => hs.1).bind fun ok => Triple.ite (fun _ => ?_) fun _ =>
    Triple.pure fun s hs => ⟨hs.1, fun h => absurd h (by decide)⟩
  refine ((initiate_keeps (on_aloof _) (hpmfwupgSendCmd_keeps hstatus)
    (hpmfwupgSendCmd_keeps (hinit _))).triple.error fun s hs => hs.1).bind fun rc => Triple.ite (fun _ => ?_)
    fun hrc => Triple.pure fun s hs => ⟨hs.1, fun h => absurd h hrc⟩
  refine Triple.get_bind' fun s => ?_
  have hbuf : uploadReqSize.toNat +
      (Progress.start (ipmiIntfGetMaxRequestDataSize intf) firmwareLength).bufLength.toNat ≤
        (ipmiIntfGetMaxRequestDataSize intf).toNat := by
    show _ + (_ - _ : UInt16).toNat ≤ _
    rw [UInt16.toNat_sub_of_le _ _ hsize]
    exact Nat.le_of_eq (Nat.add_sub_cancel' (UInt16.le_iff_toNat_le.1 hsize))
  have hturns := @uploadTurns_delivers host intf up.cap firmware firmwareLength _ before noted (s.answers.length + 1) _ hbuf
  refine Triple.bind (hturns.pre fun t ht => ⟨ht.1, [], ?_, numbered_nil, fun _ => delivers_start _⟩) fun p => Triple.ite (fun hrc => ?_) fun hrc => Triple.pure fun t ht => ⟨ht.1.1, fun h => absurd h hrc⟩
  · rw [ht.2, List.append_nil]
  · exact (finish_delivers hrc).bind fun rc => Triple.pure fun t ht => ⟨ht.1, fun _ => ⟨rfl, ht.2⟩⟩

variable {up : Upgrade} {image : Nat → UInt8} {components : UInt8} {pImagePtr : Nat}

theorem action_delivers :
    Triple (On (SentWithin (firmwareAt image pImagePtr) (firmwareLengthAt image pImagePtr)
        (ipmiIntfGetMaxRequestDataSize intf) before))
      (fun s => s.sent = before ∧ s.uploads = noted)
      (hpmFwupgActionUploadFirmware host intf up image components pImagePtr)
      fun x s => On (SentWithin (firmwareAt image pImagePtr) (firmwareLengthAt image pImagePtr)
          (ipmiIntfGetMaxRequestDataSize intf) before) s ∧
        (x.1 = .success → up.selects (componentIdOf 8 components) = true →
          On (Uploaded (firmwareAt image pImagePtr) (firmwareLengthAt image pImagePtr) (componentIdOf 8 components)
            noted) s) := by
  have hstart : ∀ s : State, s.sent = before ∧ s.uploads = noted →
      On (SentWithin (firmwareAt image pImagePtr) (firmwareLengthAt image pImagePtr)
        (ipmiIntfGetMaxRequestDataSize intf) before) s :=
    fun s hs => ⟨[], by rw [hs.1, List.append_nil], List.forall_mem_nil _⟩
  refine Triple.ite (fun _ => Triple.pure fun s hs => ⟨hstart s hs, fun h => absurd h (by simp)⟩) fun hsize =>
    Triple.ite (fun _ => ?_) fun hsel => Triple.pure fun s hs => ⟨hstart s hs, fun _ h => absurd h hsel⟩
  have hup := @uploadFirmware_delivers host intf (firmwareAt image pImagePtr) (firmwareLengthAt image pImagePtr) before
    noted up components (componentIdOf 8 components) (UInt16.le_of_lt (UInt16.not_le.1 hsize))
  refine (hup.pre fun s hs => ⟨hstart s hs, hs.2⟩).bind fun x => Triple.pure fun s hs => ⟨hs.1, fun hrc _ => (hs.2 hrc).2⟩

/-- **The blocks of an upload**: none reaches beyond the firmware, and none is longer than the interface allows,
whatever the board answers and wherever the run ends. -/
theorem hpmFwupgActionUploadFirmware_within (host : Host) (intf : Intf) (up : Upgrade) (image : Nat → UInt8)
    (components : UInt8) (pImagePtr : Nat) (s : State) :
    Ends (On (SentWithin (firmwareAt image pImagePtr) (firmwareLengthAt image pImagePtr)
      (ipmiIntfGetMaxRequestDataSize intf) s.sent))
      (hpmFwupgActionUploadFirmware host intf up image components pImagePtr) s :=
  action_delivers.ends (fun _ h => h) (fun _ _ h => h.1) ⟨rfl, rfl⟩

/-- **A successful upload** of a component that is selected: the board has accepted all of the section that it last
asked for, of the whole firmware when it has not asked for one, in blocks that are numbered one after the other;
and it has been told how many bytes it has accepted. -/
theorem hpmFwupgActionUploadFirmware_delivers {next : Nat} {s s' : State}
    (hselected : up.selects (componentIdOf 8 components) = true)
    (hrun : hpmFwupgActionUploadFirmware host intf up image components pImagePtr s = .ok (.success, next) s') :
    Uploaded (firmwareAt image pImagePtr) (firmwareLengthAt image pImagePtr) (componentIdOf 8 components) s.uploads
      s'.sent s'.uploads := by
  have h := @action_delivers host intf s.sent s.uploads up image components pImagePtr s ⟨rfl, rfl⟩
  rw [hrun] at h
  exact h.2 rfl hselected

/-- A board that has not asked for a section has accepted the firmware, and has been told its length. -/
theorem Uploaded.whole {componentId : UInt8} {sent : List IpmiRq} {uploads : List Upload}
    (h : Uploaded firmware firmwareLength componentId noted sent uploads)
    (hnone : ∀ u ∈ uploads.drop noted.length, u.imageOffset = 0) :
    acceptedBytes (uploads.drop noted.length) = slice firmware 0 firmwareLength.toNat ∧
      finishRequest componentId firmwareLength ∈ sent := by
  obtain ⟨us, rfl, hcomplete, hmem⟩ := h
  rw [List.drop_left] at hnone ⊢
  have hbytes := hcomplete.bytes
  rw [delivered_whole _ _ hnone] at hbytes
  refine ⟨hbytes, ?_⟩
  have hlength : acceptedBytes us = slice firmware 0 firmwareLength.toNat := hbytes
  rwa [hlength, length_slice, UInt32.ofNat_toNat] at hmem

end upload

/-! ### An upload -/

def Reply.code (ccode : UInt8) : Reply where
  ccode := ccode
  dataLen := 1
  data := fun _ => 0

/-- Block accepted, and a section asked for. -/
def Reply.section (offset length : UInt32) : Reply where
  ccode := 0
  dataLen := 9
  data := store (fun _ => 0) 1 (le32 offset ++ le32 length)

/-- Component 0 with a firmware of 5 bytes. -/
def fiveBytes : Nat → UInt8 := store (fun _ => 0) 0 ([2, 1, 0xFD] ++ List.replicate 27 0 ++ le32 5 ++ [11, 12, 13, 14, 15])

def idleHost : Host where
  clock := fun _ => 0
  mallocs := fun _ => true

/-- Blocks of 3 bytes. -/
def shortIntf : Intf where
  lan := false
  myAddr := 0x20
  targetAddr := 0
  targetChannel := 0
  transitAddr := 0
  transitChannel := 0
  maxRequestDataSize := 5

def bothComponents : Upgrade where
  cap := ⟨12, 12⟩
  compUpdateMask := 3
  compare := false

/-- The first block is too long, and the second answer asks for the last two bytes. -/
def pickyBoard : State where
  answers := [some (.code 0), some (.code 0xC7), some (.section 3 2), some (.code 0), some (.code 0)]
  opens := []
  ticks := 0
  allocs := 0
  sent := []
  isValidSize := false
  resizeErrors := 0
  errorCount := 0
  uploads := []

def pickyRun : HpmM (Rc × Nat) := hpmFwupgActionUploadFirmware idleHost shortIntf bothComponents fiveBytes 1 0

theorem pickyRun_delivers :
    Uploaded (firmwareAt fiveBytes 0) 5 0 [] (finalState pickyRun pickyBoard).sent (finalState pickyRun pickyBoard).uploads :=
  @hpmFwupgActionUploadFirmware_delivers idleHost shortIntf bothComponents fiveBytes 1 0 39 pickyBoard _ (by decide) rfl

example : (finalState pickyRun pickyBoard).uploads.map (fun u => (u.number, u.data, u.rc)) =
    [(0, [11, 12, 13], .uploadBlockLength), (0, [11, 12], .success), (1, [14, 15], .success)] := by
  decide +kernel

end KTools.Hpm
