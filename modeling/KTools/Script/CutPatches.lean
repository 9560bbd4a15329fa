import Mathlib.Order.Monotone.Basic
import Mathlib.Tactic.Common

/-!
# Cutting a range of patches over machines

`cut_patches.sh` takes a window of the patches since a commit, `patch_number` of them behind the first
`offset`, and builds one kernel on each machine: the machines get the patches up to a stop number, which moves
on by `space`, the window divided by the number of machines and rounded up. The stop number is cut off at the
number of all patches, not at the end of the window.

So the stop numbers grow in every run, but the last machine gets exactly the window (`Split.Covers`) only if
the division leaves no rest, or the window ends with the last patch (`Split.covers_iff`).

The numbers are far below `2 ^ 63`, where the arithmetic of the shell wraps around.
-/

namespace KTools.Script

/-! ### `cut_patches.sh` -/

/-- The offset and the number of patches, if the script has seven arguments. -/
structure Window where
  offset : Nat
  patchNumber : Nat
  deriving DecidableEq

/-- `space`: the quotient, and one more if it leaves a rest. -/
def spaceOf (patchNumber machineNumber : Nat) : Nat :=
  let space := patchNumber / machineNumber
  let testSpaceProduct := space * machineNumber
  if testSpaceProduct ≠ patchNumber then space + 1 else space

def stopNumber (allPatchNumber offset space cnt : Nat) : Nat :=
  let stopNumber := cnt * space + offset
  if stopNumber ≥ allPatchNumber then allPatchNumber else stopNumber

/-- The loop of `git am` from the patch `cursorNum` on, with `n` patches to go. -/
def amLoop : (cursorNum n : Nat) → List Nat
  | _, 0 => []
  | cursorNum, n + 1 => cursorNum :: amLoop (cursorNum + 1) n

/-- What a machine is built from. -/
structure Deployment where
  machine : List Char
  stop : Nat
  patches : List Nat

/-- The loop over the lines of the machine file. -/
def machineLoop (allPatchNumber offset space : Nat) : (cnt : Nat) → List (List Char) → List Deployment
  | _, [] => []
  | cnt, line :: rest =>
    let stop := stopNumber allPatchNumber offset space cnt
    ⟨line, stop, amLoop 1 stop⟩ :: machineLoop allPatchNumber offset space (cnt + 1) rest

/-- A run of the script: the number of patches since the commit, the last two arguments, and the lines of the
machine file. The window has a patch and lies among the patches, and there is a machine. -/
structure Split where
  allPatchNumber : Nat
  arguments : Option Window
  machines : List (List Char)
  patchNumber_pos : 0 < (arguments.getD ⟨0, allPatchNumber⟩).patchNumber
  window_le : (arguments.getD ⟨0, allPatchNumber⟩).offset + (arguments.getD ⟨0, allPatchNumber⟩).patchNumber ≤
    allPatchNumber
  machines_ne : machines ≠ []

namespace Split
variable (x : Split)

/-- Without arguments the window is all patches. -/
def window : Window := x.arguments.getD ⟨0, x.allPatchNumber⟩

/-- The number of the last patch of the window. -/
def windowEnd : Nat := x.window.offset + x.window.patchNumber

def space : Nat := spaceOf x.window.patchNumber x.machines.length

def deployments : List Deployment := machineLoop x.allPatchNumber x.window.offset x.space 1 x.machines

def stops : List Nat := x.deployments.map Deployment.stop

/-- The stop numbers grow within the window, and the last machine gets the whole window. -/
structure Covers : Prop where
  sorted : x.stops.Pairwise (· ≤ ·)
  within : ∀ stop ∈ x.stops, stop ≤ x.windowEnd
  last : x.stops.getLast? = some x.windowEnd

end Split

/-! ### The loops -/

theorem amLoop_eq (n : Nat) : ∀ cursorNum, amLoop cursorNum n = List.range' cursorNum n := by
  induction n with
  | zero => exact fun _ => rfl
  | succ n ih =>
    intro cursorNum
    rw [amLoop, ih, List.range'_succ]

/-- A machine is built from the patches up to its stop number. -/
theorem machineLoop_patches (all offset space : Nat) (machines : List (List Char)) :
    ∀ cnt, ∀ d ∈ machineLoop all offset space cnt machines, d.patches = List.range' 1 d.stop := by
  induction machines with
  | nil => exact fun _ _ h => absurd h List.not_mem_nil
  | cons line rest ih =>
    intro cnt d hd
    rcases List.mem_cons.1 hd with rfl | hd
    · exact amLoop_eq _ _
    · exact ih (cnt + 1) d hd

theorem machineLoop_stops (all offset space : Nat) (machines : List (List Char)) :
    ∀ cnt, (machineLoop all offset space cnt machines).map Deployment.stop =
      (List.range' cnt machines.length).map (stopNumber all offset space) := by
  induction machines with
  | nil => exact fun _ => rfl
  | cons line rest ih =>
    intro cnt
    rw [machineLoop, List.map_cons, ih, List.length_cons, List.range'_succ, List.map_cons]

theorem stopNumber_eq_min (all offset space cnt : Nat) :
    stopNumber all offset space cnt = min (cnt * space + offset) all := by
  simp only [stopNumber]
  split
  · omega
  · omega

theorem stopNumber_mono (all offset space : Nat) : Monotone (stopNumber all offset space) := by
  intro cnt cnt' h
  have hproduct : cnt * space ≤ cnt' * space := Nat.mul_le_mul_right space h
  rw [stopNumber_eq_min, stopNumber_eq_min]
  omega

/-! ### The division -/

section division
variable {patchNumber machineNumber : Nat}

/-- The machines cover the window when each moves on by `space`. -/
theorem le_mul_spaceOf (hpos : 0 < machineNumber) :
    patchNumber ≤ machineNumber * spaceOf patchNumber machineNumber := by
  have hdiv := Nat.div_add_mod patchNumber machineNumber
  have hmod := Nat.mod_lt patchNumber hpos
  unfold spaceOf
  dsimp only
  split
  · rw [Nat.mul_add, Nat.mul_one]
    omega
  · rename_i h
    rw [Nat.mul_comm]
    omega

theorem mul_spaceOf_eq_iff :
    machineNumber * spaceOf patchNumber machineNumber = patchNumber ↔ machineNumber ∣ patchNumber := by
  constructor
  · intro h
    exact ⟨_, h.symm⟩
  · intro h
    unfold spaceOf
    dsimp only
    rw [if_neg (not_not_intro (Nat.div_mul_cancel h)), Nat.mul_div_cancel' h]

end division

namespace Split
variable (x : Split)

theorem stops_eq : x.stops =
    (List.range' 1 x.machines.length).map (stopNumber x.allPatchNumber x.window.offset x.space) :=
  machineLoop_stops _ _ _ _ _

theorem machines_pos : 0 < x.machines.length := List.length_pos_iff.2 x.machines_ne

theorem mem_stops {stop : Nat} : stop ∈ x.stops ↔
    ∃ cnt, 1 ≤ cnt ∧ cnt ≤ x.machines.length ∧ stopNumber x.allPatchNumber x.window.offset x.space cnt = stop := by
  rw [stops_eq, List.mem_map]
  refine exists_congr fun cnt => ?_
  rw [List.mem_range'_1, and_assoc]
  refine and_congr_right fun _ => and_congr_left fun _ => ?_
  omega

theorem stops_sorted : x.stops.Pairwise (· ≤ ·) := by
  rw [stops_eq, List.pairwise_map]
  exact List.Pairwise.imp (fun h => stopNumber_mono _ _ _ (Nat.le_of_lt h)) List.pairwise_lt_range'

/-- The stop number of the last machine. -/
theorem stops_getLast : x.stops.getLast? =
    some (min (x.machines.length * x.space + x.window.offset) x.allPatchNumber) := by
  rw [stops_eq, List.getLast?_map, List.getLast?_range', if_neg (Nat.ne_of_gt x.machines_pos), Option.map_some,
    stopNumber_eq_min]
  rw [Nat.add_sub_cancel_left]

/-- **When the machines cover the window exactly**: the number of machines divides the number of patches, or
the window ends with the last patch. -/
theorem covers_iff : x.Covers ↔
    x.machines.length ∣ x.window.patchNumber ∨ x.windowEnd = x.allPatchNumber := by
  have hwindow : x.window.offset + x.window.patchNumber ≤ x.allPatchNumber := x.window_le
  have hspace : x.window.patchNumber ≤ x.machines.length * x.space := le_mul_spaceOf x.machines_pos
  rw [← mul_spaceOf_eq_iff]
  change _ ↔ x.machines.length * x.space = _ ∨ x.window.offset + x.window.patchNumber = _
  constructor
  · intro h
    have hlast := Option.some.inj (x.stops_getLast.symm.trans h.last)
    change min _ _ = x.window.offset + x.window.patchNumber at hlast
    omega
  · intro h
    refine ⟨x.stops_sorted, fun stop hstop => ?_, ?_⟩
    · obtain ⟨cnt, -, hcnt, rfl⟩ := x.mem_stops.1 hstop
      have hproduct : cnt * x.space ≤ x.machines.length * x.space := Nat.mul_le_mul_right _ hcnt
      rw [stopNumber_eq_min]
      change _ ≤ x.window.offset + x.window.patchNumber
      omega
    · rw [stops_getLast]
      change some _ = some (x.window.offset + x.window.patchNumber)
      congr 1
      omega

end Split

/-- Five of ten patches on two machines. -/
def fiveOfTen : Split where
  allPatchNumber := 10
  arguments := some ⟨0, 5⟩
  machines := [['a'], ['b']]
  patchNumber_pos := by decide
  window_le := by decide
  machines_ne := by decide

/-- The second machine is built with six patches. -/
theorem fiveOfTen_not_covers : ¬ ∀ x : Split, x.Covers := by
  intro h
  have hwithin := (h fiveOfTen).within 6 (by decide)
  exact absurd hwithin (by decide)

end KTools.Script
