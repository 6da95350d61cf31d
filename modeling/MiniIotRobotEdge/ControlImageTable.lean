import MiniIotRobotEdge.ControlPlcLadder

/-!
# The output image table of a ladder program

The abstract model: a table with one bit an address, and a list of drives that
are processed in rung order.  A drive is a coil with the power of its rung.
-/

namespace MiniIotRobotEdge

namespace Control

open StepRuns

/-- A coil and the power that its rung lets through. -/
structure Drive where
  power : Bool
  coil : PlcCoil
  deriving DecidableEq, Repr

namespace Drive

/-- The value that the drive assigns to its address, if any. -/
def assigned (drive : Drive) : Option Bool :=
  match drive.coil.type with
  | .output | .internal => some drive.power
  | .latchSet => if drive.power then some true else none
  | .latchReset => if drive.power then some false else none

/-- The bit of its address after the drive. -/
def apply (drive : Drive) (bit : Bool) : Bool := drive.assigned.getD bit

end Drive

/-- The drives of a scan, in rung order. -/
def drives (rungs : List PlcRung) : List Drive :=
  rungs.flatMap fun rung => rung.coils.map fun coil => ⟨rungPower rung, coil⟩

/-- The drives of one address. -/
def drivesOf (rungs : List PlcRung) (address : Nat) : List Drive :=
  (drives rungs).filter fun drive => drive.coil.address == address

/-- The image table after one drive. -/
def driveImage (image : Nat → Bool) (drive : Drive) : Nat → Bool :=
  Function.update image drive.coil.address (drive.apply (image drive.coil.address))

/-- The image table after a scan of the program. -/
def imageScan (plc : PlcProgram) (image : Nat → Bool) : Nat → Bool :=
  (drives plc.rungs).foldl driveImage image

/-- A program and the image table beside it. -/
structure Imaged where
  plc : PlcProgram
  image : Nat → Bool

def imagedStep (imaged : Imaged) (call : PlcCall) : Imaged where
  plc := plcExec imaged.plc call
  image :=
    match call with
    | .scanCycle => imageScan imaged.plc imaged.image
    | .writeInput _ _ => imaged.image

/-- Every output reads as its bit of the image table. -/
def OutputsMatch (imaged : Imaged) : Prop :=
  ∀ address, plcReadOutput imaged.plc address = imaged.image address

/-- On every address, the last of the later coils that assigns a value assigns
the one that the first coil has after its own turn. -/
def FirstCoilDecides (plc : PlcProgram) : Prop :=
  ∀ address first later, drivesOf plc.rungs address = first :: later →
    ∀ value ∈ later.reverse.findSome? Drive.assigned, value = first.apply first.coil.state

/-- A scan is made only when the first coil of every address decides. -/
def ScanAgrees (imaged : Imaged) : PlcCall → Prop
  | .scanCycle => FirstCoilDecides imaged.plc
  | .writeInput _ _ => True

/-- What a program keeps once it is built. -/
def Running (imaged : Imaged) : Prop := imaged.plc.fault = false

theorem foldl_driveImage (list : List Drive) (image : Nat → Bool) (address : Nat) :
    (list.foldl driveImage image) address =
      (list.filter fun drive => drive.coil.address == address).foldl
        (fun bit drive => drive.apply bit) (image address) := by
  induction list generalizing image with
  | nil => rfl
  | cons drive rest ih =>
      rw [List.foldl_cons, ih, driveImage]
      by_cases same : drive.coil.address = address
      · subst same
        simp
      · simp [same, Function.update_of_ne (Ne.symm same)]

/-- Only the last assignment counts. -/
theorem foldl_apply (list : List Drive) (bit : Bool) :
    list.foldl (fun bit drive => drive.apply bit) bit =
      (list.reverse.findSome? Drive.assigned).getD bit := by
  induction list generalizing bit with
  | nil => rfl
  | cons drive rest ih =>
      rw [List.foldl_cons, ih, List.reverse_cons, List.findSome?_append]
      cases rest.reverse.findSome? Drive.assigned with
      | some value => rfl
      | none =>
          simp only [Option.none_or, List.findSome?_cons, List.findSome?_nil]
          unfold Drive.apply
          cases drive.assigned <;> rfl

theorem updateCoil_state (drive : Drive) :
    (updateCoil drive.power drive.coil).state = drive.apply drive.coil.state := by
  unfold updateCoil Drive.apply Drive.assigned
  cases drive.coil.type <;> cases drive.power <;> rfl

/-- The output of an address is the state of its first coil. -/
theorem plcReadOutput_eq (plc : PlcProgram) (address : Nat) :
    plcReadOutput plc address =
      ((drivesOf plc.rungs address).head?.map fun drive => drive.coil.state).getD false := by
  have found : (drivesOf plc.rungs address).head?.map Drive.coil =
      plc.rungs.findSome? fun rung => rung.coils.find? fun coil => coil.address == address := by
    unfold drivesOf drives
    rw [List.head?_filter, List.find?_flatMap, List.map_findSome?]
    congr 1
    ext rung
    simp [List.find?_map, Function.comp_def]
  unfold plcReadOutput
  rw [← found]
  cases (drivesOf plc.rungs address).head? <;> rfl

theorem plcReadOutput_writeInput (plc : PlcProgram) (address other : Nat) (value : Bool) :
    plcReadOutput (plcWriteInput plc address value) other = plcReadOutput plc other := by
  unfold plcReadOutput plcWriteInput
  rw [List.findSome?_map]
  rfl

/-- A drive after the scan: its coil has been updated. -/
def Drive.scanned (drive : Drive) : Drive := ⟨drive.power, updateCoil drive.power drive.coil⟩

section Scan

variable {plc : PlcProgram} (running : plc.fault = false)
include running

theorem drives_scan : drives (plcScanCycle plc).rungs = (drives plc.rungs).map Drive.scanned := by
  have rungs : (plcScanCycle plc).rungs = plc.rungs.map fun rung =>
      { plcEvaluateRung rung with coils := rung.coils.map (updateCoil (rungPower rung)) } := by
    unfold plcScanCycle
    rw [if_neg (by simp [running])]
    exact List.map_map
  unfold drives
  rw [rungs, List.flatMap_map, List.map_flatMap]
  congr 1
  ext rung
  simp only [List.map_map]
  rfl

theorem drivesOf_scan (address : Nat) : drivesOf (plcScanCycle plc).rungs address =
    (drivesOf plc.rungs address).map Drive.scanned := by
  unfold drivesOf
  rw [drives_scan running, List.filter_map]
  rfl

/-- The scan leaves in the first coil what that coil assigns. -/
theorem plcReadOutput_scan (address : Nat) : plcReadOutput (plcScanCycle plc) address =
    ((drivesOf plc.rungs address).head?.map fun drive =>
      drive.apply drive.coil.state).getD false := by
  rw [plcReadOutput_eq, drivesOf_scan running, List.head?_map, Option.map_map]
  congr 2
  ext drive
  exact updateCoil_state drive

/-- One address: the first coil agrees with the image table after the scan
exactly when no later coil assigns something else. -/
theorem plcReadOutput_scan_iff {image : Nat → Bool} {address : Nat}
    (same : plcReadOutput plc address = image address) :
    plcReadOutput (plcScanCycle plc) address = imageScan plc image address ↔
      ∀ first later, drivesOf plc.rungs address = first :: later →
        ∀ value ∈ later.reverse.findSome? Drive.assigned,
          value = first.apply first.coil.state := by
  rw [plcReadOutput_scan running, imageScan, foldl_driveImage, ← same, plcReadOutput_eq]
  unfold drivesOf
  cases (drives plc.rungs).filter fun drive => drive.coil.address == address with
  | nil => simp
  | cons first later =>
      simp only [List.head?_cons, Option.map_some, Option.getD_some, List.foldl_cons, foldl_apply]
      constructor
      · rintro agree _ _ equal value assigned
        obtain ⟨rfl, rfl⟩ := List.cons.inj equal
        rw [Option.mem_def.mp assigned] at agree
        exact agree.symm
      · intro decides
        cases assigned : later.reverse.findSome? Drive.assigned with
        | none => rfl
        | some value => exact (decides first later rfl value assigned).symm

end Scan

/-- A call from a state in which the outputs match keeps them so exactly under
the condition on the scan. -/
theorem outputsMatch_step {imaged : Imaged} (call : PlcCall) (running : Running imaged)
    (same : OutputsMatch imaged) :
    OutputsMatch (imagedStep imaged call) ↔ ScanAgrees imaged call := by
  cases call with
  | writeInput address value =>
      refine iff_of_true (fun other => ?_) trivial
      exact (plcReadOutput_writeInput imaged.plc address other value).trans (same other)
  | scanCycle => exact forall_congr' fun address => plcReadOutput_scan_iff running (same address)

theorem running_step (imaged : Imaged) (call : PlcCall) (running : Running imaged) :
    Running (imagedStep imaged call) := by
  cases call with
  | writeInput address value => exact running
  | scanCycle =>
      unfold Running imagedStep plcExec plcScanCycle
      split_ifs
      · exact running
      · exact running

/-- What building keeps: no fault, and every coil off. -/
structure Unstarted (plc : PlcProgram) : Prop where
  fault : plc.fault = false
  off : ∀ rung ∈ plc.rungs, ∀ coil ∈ rung.coils, coil.state = false

theorem Unstarted.modify {plc : PlcProgram} (unstarted : Unstarted plc) (index : Nat)
    (change : PlcRung → PlcRung)
    (keeps : ∀ rung, (∀ coil ∈ rung.coils, coil.state = false) →
      ∀ coil ∈ (change rung).coils, coil.state = false) :
    Unstarted { plc with rungs := plc.rungs.modify index change } := by
  refine ⟨unstarted.fault, fun rung member => ?_⟩
  obtain ⟨position, found⟩ := List.mem_iff_getElem?.mp member
  rw [List.getElem?_modify] at found
  obtain ⟨old, oldFound, rfl⟩ := Option.map_eq_some_iff.mp found
  have before := unstarted.off old (List.mem_of_getElem? oldFound)
  split_ifs
  · exact keeps old before
  · exact before

theorem unstarted_build (plc : PlcProgram) (call : PlcBuildCall) (unstarted : Unstarted plc) :
    Unstarted (plcBuild plc call) := by
  cases call with
  | addRung =>
      simp only [plcBuild, plcAddRung]
      split_ifs
      · exact unstarted
      · refine ⟨unstarted.fault, fun rung member => ?_⟩
        rcases List.mem_append.mp member with old | new
        · exact unstarted.off rung old
        · obtain rfl := List.mem_singleton.mp new
          simp
  | addCoil rung name type address =>
      apply unstarted.modify rung _
      intro old before coil member
      unfold plcAddCoil at member
      split_ifs at member
      · exact before coil member
      · rcases List.mem_append.mp member with kept | new
        · exact before coil kept
        · obtain rfl := List.mem_singleton.mp new
          rfl
  | addContact rung name type address =>
      refine unstarted.modify rung _ fun old before coil member => before coil ?_
      unfold plcAddContact at member
      split_ifs at member <;> exact member
  | addTimer rung name type presetMs =>
      refine unstarted.modify rung _ fun old before coil member => before coil ?_
      unfold plcAddTimer at member
      split_ifs at member <;> exact member
  | addCounter rung name type preset =>
      refine unstarted.modify rung _ fun old before coil member => before coil ?_
      unfold plcAddCounter at member
      split_ifs at member <;> exact member

theorem Unstarted.outputsMatch {plc : PlcProgram} (unstarted : Unstarted plc) :
    OutputsMatch ⟨plc, fun _ => false⟩ := by
  intro address
  unfold plcReadOutput
  split
  case h_1 coil found =>
    obtain ⟨rung, member, coilFound⟩ := List.exists_of_findSome?_eq_some found
    exact unstarted.off rung member coil (List.mem_of_find?_eq_some coilFound)
  case h_2 => rfl

/-- A program that has been built, with an empty image table. -/
def builtProgram (builds : List PlcBuildCall) : Imaged :=
  ⟨after plcBuild plcInit builds, fun _ => false⟩

/-- Over every run of a program the outputs read as the image table exactly when
every scan leaves the decision to the first coil of each address. -/
theorem outputs_refine_image (builds : List PlcBuildCall) (calls : List PlcCall) :
    Always imagedStep OutputsMatch (builtProgram builds) calls ↔
      Throughout imagedStep ScanAgrees (builtProgram builds) calls := by
  have unstarted : Unstarted (after plcBuild plcInit builds) :=
    (always_of_kept unstarted_build ⟨rfl, by simp [plcInit]⟩).last
  exact always_iff_throughout running_step
    (fun imaged call running same => outputsMatch_step call running same) unstarted.fault
    unstarted.outputsMatch

/-- A set coil and a reset coil on address 5, each behind its own contact. -/
def latchPair : List PlcBuildCall :=
  [.addRung, .addContact 0 [] .no 0, .addCoil 0 [] .latchSet 5,
    .addRung, .addContact 1 [] .no 1, .addCoil 1 [] .latchReset 5]

/-- The reset coil is powered, and the output stays on. -/
theorem latchReset_not_read :
    ¬∀ builds calls, Always imagedStep OutputsMatch (builtProgram builds) calls := by
  intro refines
  have same := (refines latchPair [.writeInput 0 true, .scanCycle, .writeInput 0 false,
    .writeInput 1 true, .scanCycle]).last 5
  exact absurd same (by decide +kernel)

/-- The addresses of the coils, in rung order. -/
def coilAddresses (rungs : List PlcRung) : List Nat :=
  (drives rungs).map fun drive => drive.coil.address

theorem firstCoilDecides_of_nodup {plc : PlcProgram} (distinct : (coilAddresses plc.rungs).Nodup) :
    FirstCoilDecides plc := by
  intro address first later split value assigned
  have onAddress : ∀ drive ∈ first :: later, drive.coil.address = address := by
    intro drive member
    have kept := List.mem_filter.mp (split ▸ member)
    simpa using kept.2
  have single : ((first :: later).map fun drive => drive.coil.address).Nodup := by
    rw [← split]
    exact distinct.sublist (List.filter_sublist.map _)
  cases later with
  | nil => simp at assigned
  | cons second rest =>
      have clash : first.coil.address = second.coil.address := by
        rw [onAddress first (by simp), onAddress second (by simp)]
      simp [clash] at single

theorem coilAddresses_eq (rungs : List PlcRung) :
    coilAddresses rungs = rungs.flatMap fun rung => rung.coils.map PlcCoil.address := by
  unfold coilAddresses drives
  rw [List.map_flatMap]
  congr 1
  funext rung
  exact List.map_map

theorem coilAddresses_step (imaged : Imaged) (call : PlcCall) (running : Running imaged) :
    coilAddresses (imagedStep imaged call).plc.rungs = coilAddresses imaged.plc.rungs := by
  cases call with
  | writeInput address value =>
      rw [coilAddresses_eq, coilAddresses_eq]
      exact List.flatMap_map _ _ _
  | scanCycle =>
      unfold coilAddresses
      rw [imagedStep, plcExec, drives_scan running, List.map_map]
      rfl

/-- Where no two coils share an address, every run reads as the image table. -/
theorem outputs_match_of_nodup {builds : List PlcBuildCall}
    (distinct : (coilAddresses (builtProgram builds).plc.rungs).Nodup) (calls : List PlcCall) :
    Always imagedStep OutputsMatch (builtProgram builds) calls := by
  have unstarted : Unstarted (after plcBuild plcInit builds) :=
    (always_of_kept unstarted_build ⟨rfl, by simp [plcInit]⟩).last
  let kept (imaged : Imaged) : Prop :=
    Running imaged ∧ (coilAddresses imaged.plc.rungs).Nodup ∧ OutputsMatch imaged
  have always : Always imagedStep kept (builtProgram builds) calls := by
    apply always_of_kept
    · rintro imaged call ⟨running, apart, same⟩
      refine ⟨running_step imaged call running, ?_, (outputsMatch_step call running same).mpr ?_⟩
      · rw [coilAddresses_step imaged call running]
        exact apart
      · cases call with
        | writeInput address value => trivial
        | scanCycle => exact firstCoilDecides_of_nodup apart
    · exact ⟨unstarted.fault, distinct, unstarted.outputsMatch⟩
  exact always.imp fun imaged holds => holds.2.2

end Control

end MiniIotRobotEdge
