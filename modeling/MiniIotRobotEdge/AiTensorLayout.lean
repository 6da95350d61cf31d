import Mathlib.Data.List.Nodup
import Mathlib.Tactic.Ring
import MiniIotRobotEdge.LoopNests

/-!
# Tensor layouts

The model of the conversions between NHWC and NCHW in `edge_tpu_npu.c`.  Arrays
are functions of their index and no pointer is null.  No index, nor any part of
its sum, goes beyond the last one, so none overflows below `2 ^ 31` entries.
-/

namespace MiniIotRobotEdge

namespace Ai

open LoopNests

/-- The counters of the four loops. -/
structure TensorPlace where
  ni : Nat
  ci : Nat
  hi : Nat
  wi : Nat

def nchwIndex (c h w : Int) (place : TensorPlace) : Int :=
  place.ni * c * h * w + place.ci * h * w + place.hi * w + place.wi

def nhwcIndex (h w c : Int) (place : TensorPlace) : Int :=
  place.ni * h * w * c + place.hi * w * c + place.wi * c + place.ci

/-- The loops of `tensor_nhwc_to_nchw` around a body. -/
def forNchw {State : Type*} (n c h w : Int) (body : State → TensorPlace → State)
    (initial : State) : State :=
  (List.range n.toNat).foldl (fun state ni =>
    (List.range c.toNat).foldl (fun state ci =>
      (List.range h.toNat).foldl (fun state hi =>
        (List.range w.toNat).foldl (fun state wi => body state ⟨ni, ci, hi, wi⟩)
          state) state) state) initial

/-- The loops of `tensor_nchw_to_nhwc` around a body. -/
def forNhwc {State : Type*} (n h w c : Int) (body : State → TensorPlace → State)
    (initial : State) : State :=
  (List.range n.toNat).foldl (fun state ni =>
    (List.range h.toNat).foldl (fun state hi =>
      (List.range w.toNat).foldl (fun state wi =>
        (List.range c.toNat).foldl (fun state ci => body state ⟨ni, ci, hi, wi⟩)
          state) state) state) initial

/-- The dimensions for which the conversions return -1. -/
def TensorRefused (n h w c : Int) : Prop := n ≤ 0 ∨ h ≤ 0 ∨ w ≤ 0 ∨ c ≤ 0

instance (n h w c : Int) : Decidable (TensorRefused n h w c) :=
  inferInstanceAs (Decidable (_ ∨ _))

section Functions

variable {α : Type*}

/-- The tensor left in `nchw`, and the value returned. -/
def tensorNhwcToNchw (nhwc : Int → α) (n h w c : Int) (nchw : Int → α) : (Int → α) × Int :=
  if TensorRefused n h w c then (nchw, -1)
  else
    (forNchw n c h w (fun nchw place =>
      Function.update nchw (nchwIndex c h w place) (nhwc (nhwcIndex h w c place))) nchw, 0)

/-- The tensor left in `nhwc`, and the value returned. -/
def tensorNchwToNhwc (nchw : Int → α) (n c h w : Int) (nhwc : Int → α) : (Int → α) × Int :=
  if TensorRefused n h w c then (nhwc, -1)
  else
    (forNhwc n h w c (fun nhwc place =>
      Function.update nhwc (nhwcIndex h w c place) (nchw (nchwIndex c h w place))) nhwc, 0)

/-- The same loops over `int8_t`. -/
def tensorNhwcToNchwInt8 (nhwc : Int → Int8) (n h w c : Int) (nchw : Int → Int8) :
    (Int → Int8) × Int :=
  tensorNhwcToNchw nhwc n h w c nchw

end Functions

/-- The indices that `tensorNhwcToNchw` writes, in order. -/
def nchwWrites (n c h w : Int) : List Int :=
  forNchw n c h w (fun written place => written ++ [nchwIndex c h w place]) []

/-- The indices that `tensorNchwToNhwc` writes, in order. -/
def nhwcWrites (n h w c : Int) : List Int :=
  forNhwc n h w c (fun written place => written ++ [nhwcIndex h w c place]) []

def nchwPlaces (n c h w : Nat) : List TensorPlace :=
  (List.range n).flatMap fun ni => (List.range c).flatMap fun ci =>
    (List.range h).flatMap fun hi => (List.range w).map fun wi => ⟨ni, ci, hi, wi⟩

def nhwcPlaces (n h w c : Nat) : List TensorPlace :=
  (List.range n).flatMap fun ni => (List.range h).flatMap fun hi =>
    (List.range w).flatMap fun wi => (List.range c).map fun ci => ⟨ni, ci, hi, wi⟩

section Places

variable {State : Type*} {n h w c : Nat} {place : TensorPlace}

theorem forNchw_eq_foldl (body : State → TensorPlace → State) (initial : State) :
    forNchw n c h w body initial = (nchwPlaces n c h w).foldl body initial := by
  simp only [forNchw, nchwPlaces, List.foldl_flatMap, List.foldl_map, Int.toNat_natCast]

theorem forNhwc_eq_foldl (body : State → TensorPlace → State) (initial : State) :
    forNhwc n h w c body initial = (nhwcPlaces n h w c).foldl body initial := by
  simp only [forNhwc, nhwcPlaces, List.foldl_flatMap, List.foldl_map, Int.toNat_natCast]

/-- The four counters run over the same places in either order. -/
theorem mem_nchwPlaces_iff_mem_nhwcPlaces :
    place ∈ nchwPlaces n c h w ↔ place ∈ nhwcPlaces n h w c := by
  simp only [nchwPlaces, nhwcPlaces, List.mem_flatMap, List.mem_map, List.mem_range]
  constructor
  · rintro ⟨ni, hni, ci, hci, hi, hhi, wi, hwi, rfl⟩
    exact ⟨ni, hni, hi, hhi, wi, hwi, ci, hci, rfl⟩
  · rintro ⟨ni, hni, hi, hhi, wi, hwi, ci, hci, rfl⟩
    exact ⟨ni, hni, ci, hci, hi, hhi, wi, hwi, rfl⟩

theorem nchwIndex_eq (ni ci hi wi : Nat) :
    nchwIndex c h w ⟨ni, ci, hi, wi⟩ = (((ni * c + ci) * h + hi) * w + wi : Nat) := by
  rw [nchwIndex]
  push_cast
  ring

theorem nhwcIndex_eq (ni ci hi wi : Nat) :
    nhwcIndex h w c ⟨ni, ci, hi, wi⟩ = (((ni * h + hi) * w + wi) * c + ci : Nat) := by
  rw [nhwcIndex]
  push_cast
  ring

/-- The loops count through the indices in order. -/
theorem map_nchwIndex :
    (nchwPlaces n c h w).map (nchwIndex c h w) =
      (List.range (n * c * h * w)).map fun index : Nat => (index : Int) := by
  rw [← range_flatMap_four_map_range]
  simp only [nchwPlaces, List.map_flatMap, List.map_map, Function.comp_def, nchwIndex_eq]

theorem map_nhwcIndex :
    (nhwcPlaces n h w c).map (nhwcIndex h w c) =
      (List.range (n * h * w * c)).map fun index : Nat => (index : Int) := by
  rw [← range_flatMap_four_map_range]
  simp only [nhwcPlaces, List.map_flatMap, List.map_map, Function.comp_def, nhwcIndex_eq]

theorem nodup_indices (size : Nat) : ((List.range size).map fun index : Nat => (index : Int)).Nodup :=
  List.nodup_range.map Nat.cast_injective

/-- What the first conversion leaves where it writes. -/
theorem forNchw_write {α : Type*} (values : Int → α) (value : TensorPlace → α)
    (listed : place ∈ nchwPlaces n c h w) :
    forNchw n c h w (fun values place =>
      Function.update values (nchwIndex c h w place) (value place)) values
        (nchwIndex c h w place) = value place := by
  rw [forNchw_eq_foldl]
  apply foldl_write_apply _ values listed
  rw [map_nchwIndex]
  exact nodup_indices _

theorem forNhwc_write {α : Type*} (values : Int → α) (value : TensorPlace → α)
    (listed : place ∈ nhwcPlaces n h w c) :
    forNhwc n h w c (fun values place =>
      Function.update values (nhwcIndex h w c place) (value place)) values
        (nhwcIndex h w c place) = value place := by
  rw [forNhwc_eq_foldl]
  apply foldl_write_apply _ values listed
  rw [map_nhwcIndex]
  exact nodup_indices _

theorem exists_nchwIndex {index : Nat} (inside : index < n * c * h * w) :
    ∃ place ∈ nchwPlaces n c h w, nchwIndex c h w place = index := by
  have member : (index : Int) ∈ (nchwPlaces n c h w).map (nchwIndex c h w) := by
    rw [map_nchwIndex]
    exact List.mem_map.mpr ⟨index, List.mem_range.mpr inside, rfl⟩
  exact List.mem_map.mp member

theorem exists_nhwcIndex {index : Nat} (inside : index < n * h * w * c) :
    ∃ place ∈ nhwcPlaces n h w c, nhwcIndex h w c place = index := by
  have member : (index : Int) ∈ (nhwcPlaces n h w c).map (nhwcIndex h w c) := by
    rw [map_nhwcIndex]
    exact List.mem_map.mpr ⟨index, List.mem_range.mpr inside, rfl⟩
  exact List.mem_map.mp member

theorem nchwWrites_eq :
    nchwWrites n c h w = (List.range (n * c * h * w)).map fun index : Nat => (index : Int) := by
  rw [← map_nchwIndex, List.map_eq_flatMap, nchwWrites, forNchw_eq_foldl]
  exact List.foldl_append_eq_append

theorem nhwcWrites_eq :
    nhwcWrites n h w c = (List.range (n * h * w * c)).map fun index : Nat => (index : Int) := by
  rw [← map_nhwcIndex, List.map_eq_flatMap, nhwcWrites, forNhwc_eq_foldl]
  exact List.foldl_append_eq_append

/-- The first conversion and then the second one give every entry back. -/
theorem forNhwc_forNchw {α : Type*} (nhwc nchw back : Int → α) {index : Nat}
    (inside : index < n * h * w * c) :
    forNhwc n h w c (fun back place => Function.update back (nhwcIndex h w c place)
      (forNchw n c h w (fun nchw place => Function.update nchw (nchwIndex c h w place)
        (nhwc (nhwcIndex h w c place))) nchw (nchwIndex c h w place))) back index =
      nhwc index := by
  obtain ⟨place, listed, same⟩ := exists_nhwcIndex inside
  rw [← same, forNhwc_write back _ listed]
  exact forNchw_write nchw _ (mem_nchwPlaces_iff_mem_nhwcPlaces.mpr listed)

theorem forNchw_forNhwc {α : Type*} (nchw nhwc back : Int → α) {index : Nat}
    (inside : index < n * c * h * w) :
    forNchw n c h w (fun back place => Function.update back (nchwIndex c h w place)
      (forNhwc n h w c (fun nhwc place => Function.update nhwc (nhwcIndex h w c place)
        (nchw (nchwIndex c h w place))) nhwc (nhwcIndex h w c place))) back index =
      nchw index := by
  obtain ⟨place, listed, same⟩ := exists_nchwIndex inside
  rw [← same, forNchw_write back _ listed]
  exact forNhwc_write nhwc _ (mem_nchwPlaces_iff_mem_nhwcPlaces.mp listed)

/-- The indices below a bound, each of them once. -/
theorem count_indices (size : Nat) (index : Int) :
    ((List.range size).map fun index : Nat => (index : Int)).count index =
      if 0 ≤ index ∧ index < size then 1 else 0 := by
  split_ifs with inside
  · obtain ⟨index, rfl⟩ := Int.eq_ofNat_of_zero_le inside.1
    have below : index < size := by omega
    apply List.count_eq_one_of_mem (nodup_indices size)
    exact List.mem_map.mpr ⟨index, List.mem_range.mpr below, rfl⟩
  · rw [List.count_eq_zero]
    intro member
    obtain ⟨index, below, rfl⟩ := List.mem_map.mp member
    have below := List.mem_range.mp below
    exact inside ⟨by omega, by omega⟩

end Places

/-- Each conversion undoes the other, and writes every index of its output once. -/
theorem tensor_layout_round_trip {α : Type*} (nhwc nchw back : Int → α) {n h w c : Int}
    (images : 1 ≤ n) (height : 1 ≤ h) (width : 1 ≤ w) (channels : 1 ≤ c) :
    (∀ index, 0 ≤ index → index < n * h * w * c →
      (tensorNchwToNhwc (tensorNhwcToNchw nhwc n h w c nchw).1 n c h w back).1 index =
        nhwc index) ∧
    (∀ index, 0 ≤ index → index < n * h * w * c →
      (tensorNhwcToNchw (tensorNchwToNhwc nchw n c h w nhwc).1 n h w c back).1 index =
        nchw index) ∧
    (∀ index, (nchwWrites n c h w).count index =
      if 0 ≤ index ∧ index < n * h * w * c then 1 else 0) ∧
    ∀ index, (nhwcWrites n h w c).count index =
      if 0 ≤ index ∧ index < n * h * w * c then 1 else 0 := by
  have accepted : ¬TensorRefused n h w c := by
    rw [TensorRefused]
    omega
  lift n to Nat using by omega
  lift h to Nat using by omega
  lift w to Nat using by omega
  lift c to Nat using by omega
  have sizeEq : (n : Int) * h * w * c = (n * h * w * c : Nat) := by push_cast; ring
  have reordered : n * c * h * w = n * h * w * c := by ring
  rw [sizeEq]
  refine ⟨?_, ?_, ?_, ?_⟩
  · intro index nonneg below
    lift index to Nat using nonneg
    rw [tensorNchwToNhwc, tensorNhwcToNchw, if_neg accepted, if_neg accepted]
    exact forNhwc_forNchw nhwc nchw back (by omega)
  · intro index nonneg below
    lift index to Nat using nonneg
    rw [tensorNchwToNhwc, tensorNhwcToNchw, if_neg accepted, if_neg accepted]
    exact forNchw_forNhwc nchw nhwc back (by omega)
  · intro index
    rw [nchwWrites_eq, reordered, count_indices]
  · intro index
    rw [nhwcWrites_eq, count_indices]

/-- Two images of three by four pixels with two channels. -/
theorem tensor_layout_round_trip_two :
    (1 : Int) ≤ 2 ∧ (1 : Int) ≤ 3 ∧ (1 : Int) ≤ 4 ∧
      ∀ index : Int, 0 ≤ index → index < 2 * 3 * 4 * 2 →
        (tensorNchwToNhwc (tensorNhwcToNchw (fun index => index + 1) 2 3 4 2 fun _ => 0).1 2 2 3 4
          fun _ => 0).1 index = index + 1 :=
  ⟨by decide, by decide, by decide,
    (tensor_layout_round_trip (fun index => index + 1) (fun _ => 0) (fun _ => 0)
      (by decide) (by decide) (by decide) (by decide)).1⟩

end Ai

end MiniIotRobotEdge
