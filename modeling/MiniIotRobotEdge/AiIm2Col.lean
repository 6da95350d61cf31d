import Mathlib.Algebra.BigOperators.Ring.Finset
import Mathlib.Tactic.Linarith
import Mathlib.Tactic.Ring
import MiniIotRobotEdge.LoopNests

/-!
# Patches as columns

The model of `im2col` and `col2im_gradient` in `inference_opt.c`, over exact
numbers.  Arrays are functions of their index and no pointer is null; the
division is that of C, towards zero.  The second function is the adjoint of the
first: each sum runs over the taps of the patches that lie inside the image.
-/

namespace MiniIotRobotEdge

namespace Ai

open LoopNests

/-- The arguments that both functions share. -/
structure PatchGeometry where
  h : Int
  w : Int
  c : Int
  kh : Int
  kw : Int
  stride : Int
  pad : Int

/-- The indices of the four outer loops. -/
structure PatchTap where
  oy : Nat
  ox : Nat
  ky : Nat
  kx : Nat

namespace PatchGeometry

variable (g : PatchGeometry)

/-- The arguments for which both functions return -1. -/
def Refused : Prop := g.h ≤ 0 ∨ g.w ≤ 0 ∨ g.c ≤ 0 ∨ g.kh ≤ 0 ∨ g.kw ≤ 0 ∨ g.stride ≤ 0

instance : Decidable g.Refused := inferInstanceAs (Decidable (_ ∨ _))

def outH : Int := (g.h + 2 * g.pad - g.kh).tdiv g.stride + 1

def outW : Int := (g.w + 2 * g.pad - g.kw).tdiv g.stride + 1

def patchSize : Int := g.kh * g.kw * g.c

def iy (tap : PatchTap) : Int := tap.oy * g.stride + tap.ky - g.pad

def ix (tap : PatchTap) : Int := tap.ox * g.stride + tap.kx - g.pad

/-- The tap is inside the image, not in its border. -/
def Inside (tap : PatchTap) : Prop :=
  0 ≤ g.iy tap ∧ g.iy tap < g.h ∧ 0 ≤ g.ix tap ∧ g.ix tap < g.w

instance (tap : PatchTap) : Decidable (g.Inside tap) := inferInstanceAs (Decidable (_ ∧ _))

/-- `col_offset + in_offset + ci`. -/
def colIndex (tap : PatchTap) (ci : Nat) : Int :=
  (tap.oy * g.outW + tap.ox) * g.patchSize + (tap.ky * g.kw + tap.kx) * g.c + ci

def inIndex (tap : PatchTap) (ci : Nat) : Int := (g.iy tap * g.w + g.ix tap) * g.c + ci

/-- The four outer loops around a body. -/
def forTaps {State : Type*} (body : State → PatchTap → State) (initial : State) : State :=
  (List.range g.outH.toNat).foldl (fun state oy =>
    (List.range g.outW.toNat).foldl (fun state ox =>
      (List.range g.kh.toNat).foldl (fun state ky =>
        (List.range g.kw.toNat).foldl (fun state kx => body state ⟨oy, ox, ky, kx⟩)
          state) state) state) initial

/-- The number of entries that `im2col` writes. -/
def colSize : Nat := g.outH.toNat * g.outW.toNat * (g.kh.toNat * g.kw.toNat * g.c.toNat)

def imageSize : Nat := (g.h * g.w * g.c).toNat

end PatchGeometry

section Functions

variable {R : Type*} [CommRing R] (g : PatchGeometry)

/-- The column matrix left in `col`, and the value returned. -/
def im2col (input col : Int → R) : (Int → R) × Int :=
  if g.Refused then (col, -1)
  else
    (g.forTaps (fun col tap =>
      (List.range g.c.toNat).foldl (fun col ci =>
        if g.Inside tap then Function.update col (g.colIndex tap ci) (input (g.inIndex tap ci))
        else Function.update col (g.colIndex tap ci) 0) col) col, 0)

/-- The gradient left in `grad_input`, and the value returned. -/
def col2imGradient (col gradInput : Int → R) : (Int → R) × Int :=
  if g.Refused then (gradInput, -1)
  else
    let cleared := (List.range g.imageSize).foldl
      (fun grad (i : Nat) => Function.update grad (i : Int) 0) gradInput
    (g.forTaps (fun grad tap =>
      if g.Inside tap then
        (List.range g.c.toNat).foldl (fun grad ci =>
          Function.update grad (g.inIndex tap ci)
            (grad (g.inIndex tap ci) + col (g.colIndex tap ci))) grad
      else grad) cleared, 0)

end Functions

namespace PatchGeometry

variable (g : PatchGeometry)

/-- The turns of the four outer loops. -/
def taps : List PatchTap :=
  (List.range g.outH.toNat).flatMap fun oy =>
    (List.range g.outW.toNat).flatMap fun ox =>
      (List.range g.kh.toNat).flatMap fun ky =>
        (List.range g.kw.toNat).map fun kx => ⟨oy, ox, ky, kx⟩

theorem forTaps_eq_foldl {State : Type*} (body : State → PatchTap → State) (initial : State) :
    g.forTaps body initial = g.taps.foldl body initial := by
  simp only [forTaps, taps, List.foldl_flatMap, List.foldl_map]

/-- The taps with their channels, in the order of the loops. -/
def entries : List (PatchTap × Nat) :=
  g.taps.flatMap fun tap => (List.range g.c.toNat).map fun ci => (tap, ci)

variable {g}

/-- Where there are columns, an index counts the turns done before it. -/
theorem colIndex_eq (rows : 0 ≤ g.kh) (columns : 0 ≤ g.kw) (channels : 0 ≤ g.c)
    (wide : 0 ≤ g.outW) (tap : PatchTap) (ci : Nat) :
    g.colIndex tap ci =
      (((((tap.oy * g.outW.toNat + tap.ox) * g.kh.toNat + tap.ky) * g.kw.toNat + tap.kx) *
        g.c.toNat + ci : Nat) : Int) := by
  push_cast
  rw [Int.toNat_of_nonneg rows, Int.toNat_of_nonneg columns, Int.toNat_of_nonneg channels,
    Int.toNat_of_nonneg wide, colIndex, patchSize]
  ring

/-- The column matrix is written from its first entry to its last. -/
theorem map_colIndex_entries (proper : ¬g.Refused) :
    g.entries.map (fun entry => g.colIndex entry.1 entry.2) =
      (List.range g.colSize).map fun place : Nat => (place : Int) := by
  simp only [Refused, not_or, not_le] at proper
  obtain ⟨_, _, channels, rows, columns, _⟩ := proper
  obtain narrow | wide := lt_or_ge g.outW 0
  · have none : g.outW.toNat = 0 := Int.toNat_of_nonpos narrow.le
    simp [entries, taps, colSize, none]
  · let channel (count : Nat) : List Int :=
      (List.range g.c.toNat).map fun ci => ((count * g.c.toNat + ci : Nat) : Int)
    let column (count : Nat) : List Int :=
      (List.range g.kw.toNat).flatMap fun kx => channel (count * g.kw.toNat + kx)
    let row (count : Nat) : List Int :=
      (List.range g.kh.toNat).flatMap fun ky => column (count * g.kh.toNat + ky)
    calc g.entries.map (fun entry => g.colIndex entry.1 entry.2)
        = (List.range g.outH.toNat).flatMap fun oy =>
            (List.range g.outW.toNat).flatMap fun ox => row (oy * g.outW.toNat + ox) := by
          simp only [entries, taps, List.map_flatMap, List.flatMap_assoc, List.flatMap_map,
            List.map_map, Function.comp_def, colIndex_eq rows.le columns.le channels.le wide,
            row, column, channel]
      _ = (List.range (g.outH.toNat * g.outW.toNat)).flatMap row := range_flatMap_range _ _ row
      _ = (List.range (g.outH.toNat * g.outW.toNat * g.kh.toNat)).flatMap column :=
          range_flatMap_range _ _ column
      _ = (List.range (g.outH.toNat * g.outW.toNat * g.kh.toNat * g.kw.toNat)).flatMap channel :=
          range_flatMap_range _ _ channel
      _ = (List.range (g.outH.toNat * g.outW.toNat * g.kh.toNat * g.kw.toNat *
            g.c.toNat)).map fun place : Nat => (place : Int) :=
          range_flatMap_map_range _ _ fun place : Nat => (place : Int)
      _ = (List.range g.colSize).map fun place : Nat => (place : Int) := by
          rw [colSize, Nat.mul_assoc (_ * _ * _), Nat.mul_assoc (_ * _), ← Nat.mul_assoc g.kh.toNat]

/-- The entries that the gradient is added to are those of the image. -/
theorem inIndex_inside {tap : PatchTap} (inside : g.Inside tap) {ci : Nat}
    (channel : ci < g.c.toNat) :
    0 ≤ g.inIndex tap ci ∧ g.inIndex tap ci < g.h * g.w * g.c := by
  obtain ⟨top, bottom, left, right⟩ := inside
  have channels : (ci : Int) + 1 ≤ g.c := by omega
  have place : 0 ≤ g.iy tap * g.w + g.ix tap := by
    have rows := mul_nonneg top (left.trans right.le)
    omega
  have before : g.iy tap * g.w + g.ix tap + 1 ≤ g.h * g.w := by
    have rows := mul_le_mul_of_nonneg_right (Int.add_one_le_of_lt bottom) (left.trans right.le)
    rw [add_mul, one_mul] at rows
    omega
  have width := mul_nonneg place (show (0 : Int) ≤ g.c by omega)
  have last := mul_le_mul_of_nonneg_right before (show (0 : Int) ≤ g.c by omega)
  rw [add_mul, one_mul] at last
  rw [inIndex]
  omega

end PatchGeometry

section Adjoint

variable {R : Type*} [CommRing R] {g : PatchGeometry}

/-- What `im2col` writes. -/
def patchValue (g : PatchGeometry) (input : Int → R) (entry : PatchTap × Nat) : R :=
  if g.Inside entry.1 then input (g.inIndex entry.1 entry.2) else 0

theorem im2col_eq (proper : ¬g.Refused) (input col : Int → R) :
    im2col g input col =
      (g.entries.foldl (fun col entry =>
        Function.update col (g.colIndex entry.1 entry.2) (patchValue g input entry)) col, 0) := by
  have writes (col : Int → R) (tap : PatchTap) (ci : Nat) :
      (if g.Inside tap then Function.update col (g.colIndex tap ci) (input (g.inIndex tap ci))
        else Function.update col (g.colIndex tap ci) 0) =
        Function.update col (g.colIndex tap ci) (patchValue g input (tap, ci)) := by
    rw [patchValue]
    split_ifs <;> rfl
  simp only [im2col, if_neg proper, g.forTaps_eq_foldl, PatchGeometry.entries, List.foldl_flatMap,
    List.foldl_map, writes]

/-- The product of a matrix with the columns is a sum over the taps. -/
theorem sum_im2col (proper : ¬g.Refused) (input col m : Int → R) :
    ∑ j ∈ Finset.range g.colSize, m j * (im2col g input col).1 j =
      (g.entries.map fun entry => m (g.colIndex entry.1 entry.2) * patchValue g input entry).sum :=
    by
  have order := PatchGeometry.map_colIndex_entries proper
  have distinct : (g.entries.map fun entry => g.colIndex entry.1 entry.2).Nodup := by
    rw [order]
    exact List.nodup_range.map Nat.cast_injective
  calc ∑ j ∈ Finset.range g.colSize, m j * (im2col g input col).1 j
      = (((List.range g.colSize).map fun place : Nat => (place : Int)).map fun j =>
          m j * (im2col g input col).1 j).sum := by
        rw [List.map_map]
        rfl
    _ = _ := by
        rw [← order, List.map_map, im2col_eq proper]
        congr 1
        apply List.map_congr_left
        intro entry listed
        rw [Function.comp_apply]
        dsimp only
        rw [foldl_write_apply distinct col listed]

/-- The product of an array with an image. -/
def imageProduct (g : PatchGeometry) (grad input : Int → R) : R :=
  ∑ i ∈ Finset.range g.imageSize, grad i * input i

theorem imageProduct_update {grad input : Int → R} {place : Int} {value : R}
    (inside : 0 ≤ place ∧ place < g.h * g.w * g.c) :
    imageProduct g (Function.update grad place (grad place + value)) input =
      imageProduct g grad input + value * input place := by
  obtain ⟨index, rfl⟩ := Int.eq_ofNat_of_zero_le inside.1
  have listed : index ∈ Finset.range g.imageSize := by
    rw [Finset.mem_range, PatchGeometry.imageSize]
    omega
  have entry (i : Nat) : Function.update grad (index : Int) (grad index + value) i * input i =
      grad i * input i + if i = index then value * input i else 0 := by
    by_cases same : i = index
    · rw [same, Function.update_self, if_pos rfl, add_mul]
    · rw [Function.update_of_ne (by exact_mod_cast same), if_neg same, add_zero]
  simp only [imageProduct, entry, Finset.sum_add_distrib, Finset.sum_ite_eq', if_pos listed]

/-- What a tap adds to the product of the gradient with an image. -/
def tapGain (g : PatchGeometry) (m input : Int → R) (tap : PatchTap) : R :=
  ((List.range g.c.toNat).map fun ci =>
    m (g.colIndex tap ci) * patchValue g input (tap, ci)).sum

theorem imageProduct_tap (m grad input : Int → R) (tap : PatchTap) :
    imageProduct g
      (if g.Inside tap then
        (List.range g.c.toNat).foldl (fun grad ci =>
          Function.update grad (g.inIndex tap ci)
            (grad (g.inIndex tap ci) + m (g.colIndex tap ci))) grad
      else grad) input =
      imageProduct g grad input + tapGain g m input tap := by
  rw [tapGain]
  split_ifs with inside
  · apply measure_foldl fun grad => imageProduct g grad input
    intro state ci channel
    rw [imageProduct_update (PatchGeometry.inIndex_inside inside (List.mem_range.mp channel)),
      patchValue, if_pos inside]
  · simp [patchValue, inside]

theorem sum_col2im (proper : ¬g.Refused) (m grad input : Int → R) :
    imageProduct g (col2imGradient g m grad).1 input =
      (g.taps.map (tapGain g m input)).sum := by
  have cleared : imageProduct g ((List.range g.imageSize).foldl
      (fun grad (i : Nat) => Function.update grad (i : Int) 0) grad) input = 0 := by
    apply Finset.sum_eq_zero
    intro i listed
    have distinct : ((List.range g.imageSize).map fun i : Nat => (i : Int)).Nodup :=
      List.nodup_range.map Nat.cast_injective
    rw [foldl_write_apply distinct grad (List.mem_range.mpr (Finset.mem_range.mp listed)),
      zero_mul]
  rw [col2imGradient, if_neg proper]
  dsimp only
  rw [g.forTaps_eq_foldl, measure_foldl (fun grad => imageProduct g grad input)
    fun state tap _ => imageProduct_tap m state input tap, cleared, zero_add]

end Adjoint

/-- The gradient is the adjoint: `<col2im m, x> = <m, im2col x>`. -/
theorem col2im_adjoint_im2col {R : Type*} [CommRing R] (g : PatchGeometry)
    (image : 1 ≤ g.h ∧ 1 ≤ g.w ∧ 1 ≤ g.c) (kernel : 1 ≤ g.kh ∧ 1 ≤ g.kw ∧ 1 ≤ g.stride)
    (x m col gradInput : Int → R) :
    (im2col g x col).2 = 0 ∧ (col2imGradient g m gradInput).2 = 0 ∧
      ∑ i ∈ Finset.range g.imageSize, (col2imGradient g m gradInput).1 i * x i =
        ∑ j ∈ Finset.range g.colSize, m j * (im2col g x col).1 j := by
  have proper : ¬g.Refused := by
    rw [PatchGeometry.Refused]
    omega
  refine ⟨?_, ?_, ?_⟩
  · rw [im2col, if_neg proper]
  · rw [col2imGradient, if_neg proper]
  · rw [sum_im2col proper, PatchGeometry.entries, sum_map_flatMap]
    simp only [List.map_map, Function.comp_def]
    exact sum_col2im proper m gradInput x

/-- A kernel that is taller than the padded image and leaves a column out. -/
def sampleGeometry : PatchGeometry where
  h := 1
  w := 5
  c := 2
  kh := 4
  kw := 2
  stride := 3
  pad := 1

theorem col2im_adjoint_sample :
    (im2col sampleGeometry (fun i => i) fun _ => 0).2 = 0 ∧
      (col2imGradient sampleGeometry (fun j => 2 * j + 1) fun _ => 7).2 = 0 ∧
      ∑ i ∈ Finset.range sampleGeometry.imageSize,
          (col2imGradient sampleGeometry (fun j => 2 * j + 1) fun _ => 7).1 i * (i : Int) =
        ∑ j ∈ Finset.range sampleGeometry.colSize,
          (2 * (j : Int) + 1) * (im2col sampleGeometry (fun i => i) fun _ => 0).1 j :=
  col2im_adjoint_im2col sampleGeometry (by decide) (by decide) (fun i => i)
    (fun j => 2 * j + 1) (fun _ => 0) fun _ => 7

end Ai

end MiniIotRobotEdge
