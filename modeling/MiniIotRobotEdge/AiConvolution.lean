import MiniIotRobotEdge.AiGemm
import MiniIotRobotEdge.AiIm2Col
import MiniIotRobotEdge.LoopNests

/-!
# Convolutions

The model of `depthwise_conv2d_3x3` and `pointwise_conv2d_1x1` in
`inference_opt.c`, over exact numbers, with arrays as functions of their index.
`convolution` is the standard one that the comments compare with: the blocked
product of the columns of `im2col` with the kernel is that convolution, and so
are the depthwise and the pointwise one, one behind the other.
-/

namespace MiniIotRobotEdge

namespace Ai

open TiledLoops LoopSums LoopNests

section Functions

variable {R : Type*} [CommRing R]

/-- `bias ? bias[channel] : 0`. -/
def biasAt (bias : Option (Int → R)) (channel : Int) : R := bias.elim 0 fun bias => bias channel

/-- The array left in `output`, and the value returned. -/
def depthwiseConv2d3x3 (input : Int → R) (h w c : Int) (kernel : Int → R)
    (bias : Option (Int → R)) (stride : Int) (output : Int → R) : (Int → R) × Int :=
  if h ≤ 2 ∨ w ≤ 2 ∨ c ≤ 0 ∨ stride ≤ 0 then (output, -1)
  else
    let outH := (h - 3).tdiv stride + 1
    let outW := (w - 3).tdiv stride + 1
    ((List.range c.toNat).foldl (fun output (ci : Nat) =>
      (List.range outH.toNat).foldl (fun output (oy : Nat) =>
        (List.range outW.toNat).foldl (fun output (ox : Nat) =>
          Function.update output ((oy * outW + ox) * c + ci : Int)
            ((List.range 3).foldl (fun sum (ky : Nat) => (List.range 3).foldl (fun sum (kx : Nat) =>
              sum + input (((oy * stride + ky) * w + (ox * stride + kx)) * c + ci) *
                kernel (ci * 9 + (ky * 3 + kx))) sum) (biasAt bias ci))) output) output) output, 0)

def pointwiseConv2d1x1 (input : Int → R) (h w inC outC : Int) (kernel : Int → R)
    (bias : Option (Int → R)) (output : Int → R) : (Int → R) × Int :=
  if h ≤ 0 ∨ w ≤ 0 ∨ inC ≤ 0 ∨ outC ≤ 0 then (output, -1)
  else
    ((List.range outC.toNat).foldl (fun output (oc : Nat) =>
      (List.range h.toNat).foldl (fun output (y : Nat) =>
        (List.range w.toNat).foldl (fun output (x : Nat) =>
          Function.update output ((y * w + x) * outC + oc : Int)
            ((List.range inC.toNat).foldl (fun sum (ic : Nat) =>
              sum + input ((y * w + x) * inC + ic) * kernel (oc * inC + ic))
              (biasAt bias oc))) output) output) output, 0)

/-- The standard convolution: every tap of the patch times the kernel, which holds
its entries by tap, then input channel, then output channel. -/
def convolution (g : PatchGeometry) (outC : Int) (input kernel : Int → R) (oy ox oc : Nat) : R :=
  ∑ ky ∈ Finset.range g.kh.toNat, ∑ kx ∈ Finset.range g.kw.toNat, ∑ ci ∈ Finset.range g.c.toNat,
    patchValue g input (⟨oy, ox, ky, kx⟩, ci) *
      kernel (((ky * g.kw + kx) * g.c + ci) * outC + oc)

end Functions

section Columns

variable {R : Type*} [CommRing R] {g : PatchGeometry}

theorem PatchGeometry.mem_entries {tap : PatchTap} {ci : Nat} :
    (tap, ci) ∈ g.entries ↔ (tap.oy < g.outH.toNat ∧ tap.ox < g.outW.toNat ∧
      tap.ky < g.kh.toNat ∧ tap.kx < g.kw.toNat) ∧ ci < g.c.toNat := by
  simp only [entries, taps, List.mem_flatMap, List.mem_map, List.mem_range]
  constructor
  · rintro ⟨other, ⟨oy, row, ox, column, ky, down, kx, right, rfl⟩, channel, inRange, same⟩
    obtain ⟨rfl, rfl⟩ := Prod.mk.inj same
    exact ⟨⟨row, column, down, right⟩, inRange⟩
  · rintro ⟨⟨row, column, down, right⟩, inRange⟩
    exact ⟨tap, ⟨tap.oy, row, tap.ox, column, tap.ky, down, tap.kx, right, rfl⟩, ci, inRange, rfl⟩

/-- What `im2col` leaves in the entry of a tap. -/
theorem im2col_apply (proper : ¬g.Refused) (input col : Int → R) {tap : PatchTap} {ci : Nat}
    (listed : (tap, ci) ∈ g.entries) :
    (im2col g input col).1 (g.colIndex tap ci) = patchValue g input (tap, ci) := by
  have distinct : (g.entries.map fun entry => g.colIndex entry.1 entry.2).Nodup := by
    rw [PatchGeometry.map_colIndex_entries proper]
    exact List.nodup_range.map Nat.cast_injective
  rw [im2col_eq proper]
  exact foldl_write_apply distinct col listed

/-- An entry of the plain product. -/
theorem gemmPlain_apply {m n k : Nat} {a b c : Nat → R} {lda ldb ldc : Nat} (wide : n ≤ ldc)
    {i j : Nat} (row : i < m) (column : j < n) :
    gemmPlain (· + ·) (· * ·) m n k a lda b ldb c ldc (i * ldc + j) =
      c (i * ldc + j) + ∑ l ∈ Finset.range k, a (i * lda + l) * b (l * ldb + j) := by
  rw [gemmPlain_eq, runSchedule_inside _ wide (plainSchedule_covers m n k) c row column]
  exact foldl_add (fun l => a (i * lda + l) * b (l * ldb + j)) k _

/-- The product of the columns with the kernel is the convolution. -/
theorem convolution_eq_sum (proper : ¬g.Refused) (outC : Nat) (input col kernel : Int → R)
    {oy ox oc : Nat} (row : oy < g.outH.toNat) (column : ox < g.outW.toNat) :
    convolution g outC input kernel oy ox oc =
      ∑ l ∈ Finset.range g.patchSize.toNat,
        (im2col g input col).1 (((oy * g.outW.toNat + ox) * g.patchSize.toNat + l : Nat) : Int) *
          kernel ((l * outC + oc : Nat) : Int) := by
  have sizes := proper
  simp only [PatchGeometry.Refused, not_or, not_le] at sizes
  obtain ⟨_, _, channels, rows, columns, _⟩ := sizes
  have size : g.patchSize.toNat = g.kh.toNat * g.kw.toNat * g.c.toNat := by
    rw [PatchGeometry.patchSize, Int.toNat_mul (by positivity) channels.le,
      Int.toNat_mul rows.le columns.le]
  have wide : 0 ≤ g.outW := by omega
  rw [size, sum_range_mul, sum_range_mul, convolution]
  apply Finset.sum_congr rfl
  intro ky down
  apply Finset.sum_congr rfl
  intro kx right
  apply Finset.sum_congr rfl
  intro ci channel
  have listed : ((⟨oy, ox, ky, kx⟩, ci) : PatchTap × Nat) ∈ g.entries :=
    PatchGeometry.mem_entries.mpr ⟨⟨row, column, Finset.mem_range.mp down,
      Finset.mem_range.mp right⟩, Finset.mem_range.mp channel⟩
  have inColumn : (((oy * g.outW.toNat + ox) * g.kh.toNat + ky) * g.kw.toNat + kx) * g.c.toNat + ci =
      (oy * g.outW.toNat + ox) * (g.kh.toNat * g.kw.toNat * g.c.toNat) +
        ((ky * g.kw.toNat + kx) * g.c.toNat + ci) := by
    ring
  have inKernel : (((ky * g.kw + kx) * g.c + ci) * outC + oc : Int) =
      ((((ky * g.kw.toNat + kx) * g.c.toNat + ci) * outC + oc : Nat) : Int) := by
    push_cast
    rw [Int.toNat_of_nonneg columns.le, Int.toNat_of_nonneg channels.le]
  rw [← im2col_apply proper input col listed,
    PatchGeometry.colIndex_eq rows.le columns.le channels.le wide, inKernel]
  dsimp only
  rw [inColumn]

end Columns

theorem place_lt {rows columns i j : Nat} (row : i < rows) (column : j < columns) :
    i * columns + j < rows * columns := by
  have next := Nat.mul_le_mul_right columns (Nat.succ_le_of_lt row)
  rw [Nat.succ_mul] at next
  omega

/-- `conv2d(input, kernel) = GEMM(kernel, im2col(input))`, for the product in blocks. -/
theorem gemmBlocked_im2col {R : Type*} [CommRing R] (g : PatchGeometry)
    (image : 1 ≤ g.h ∧ 1 ≤ g.w ∧ 1 ≤ g.c) (kernelSize : 1 ≤ g.kh ∧ 1 ≤ g.kw ∧ 1 ≤ g.stride)
    (output : 1 ≤ g.outH ∧ 1 ≤ g.outW) {outC : Int} (outputs : 1 ≤ outC)
    (blockM blockN blockK : Int)
    (fits : GemmCountersFit (g.outH * g.outW) outC g.patchSize blockM blockN blockK)
    (input col kernel : Int → R) :
    ∃ product : Nat → R,
      gemmBlocked (· + ·) (· * ·) (g.outH * g.outW) outC g.patchSize
        (fun place => (im2col g input col).1 place) g.patchSize.toNat
        (fun place => kernel place) outC.toNat (fun _ => 0) outC.toNat blockM blockN blockK =
          some (product, 0) ∧
        ∀ oy ox oc : Nat, oy < g.outH.toNat → ox < g.outW.toNat → oc < outC.toNat →
          product ((oy * g.outW.toNat + ox) * outC.toNat + oc) =
            convolution g outC input kernel oy ox oc := by
  have proper : ¬g.Refused := by
    rw [PatchGeometry.Refused]
    omega
  have patch : 1 ≤ g.patchSize := by
    have area := mul_pos (show 0 < g.kh by omega) (show 0 < g.kw by omega)
    have volume := mul_pos area (show 0 < g.c by omega)
    rw [PatchGeometry.patchSize]
    omega
  have positions : 1 ≤ g.outH * g.outW := by
    have area := mul_pos (show 0 < g.outH by omega) (show 0 < g.outW by omega)
    omega
  have agrees := (gemm_agrees_iff (fun x y : R => x + y) (fun x y => x * y)
    ⟨positions, outputs, patch⟩ ⟨Int.self_le_toNat g.patchSize, Int.self_le_toNat outC,
      Int.self_le_toNat outC⟩ (fun place => (im2col g input col).1 place)
    (fun place => kernel place) (fun _ => 0) blockM blockN blockK).mpr fits
  refine ⟨_, agrees.blocked, fun oy ox oc row column channel => ?_⟩
  have inWindow : oy * g.outW.toNat + ox < (g.outH * g.outW).toNat := by
    rw [Int.toNat_mul (by omega) (by omega)]
    exact place_lt row column
  rw [gemmPlain_apply le_rfl inWindow channel, zero_add,
    ← convolution_eq_sum proper outC.toNat input col kernel row column,
    Int.toNat_of_nonneg (by omega)]

/-- Two patches and two channels, in blocks of one entry. -/
theorem gemmBlocked_im2col_sample :
    ∃ product : Nat → Int,
      gemmBlocked (· + ·) (· * ·) (sampleGeometry.outH * sampleGeometry.outW) 2
        sampleGeometry.patchSize (fun place => (im2col sampleGeometry (fun i => i) fun _ => 0).1 place)
        sampleGeometry.patchSize.toNat (fun place => ((place : Int) : Int)) 2 (fun _ => 0) 2 1 1 1 =
          some (product, 0) ∧
        ∀ oy ox oc : Nat, oy < 1 → ox < 2 → oc < 2 →
          product ((oy * 2 + ox) * 2 + oc) = convolution sampleGeometry 2 id id oy ox oc :=
  gemmBlocked_im2col sampleGeometry (by decide) (by decide) (by decide) (by decide) 1 1 1
    ⟨by decide, by decide, by decide, by decide, by decide⟩ id (fun _ => 0) id

section Separable

variable {R : Type*} [CommRing R]

/-- Places of an image with channels are told apart by their index. -/
theorem planar_injective {columns channels : Int} {y x channel y' x' channel' : Nat}
    (column : x < columns.toNat) (inRange : channel < channels.toNat)
    (column' : x' < columns.toNat) (inRange' : channel' < channels.toNat)
    (same : ((y * columns + x) * channels + channel : Int) =
      (y' * columns + x') * channels + channel') :
    y = y' ∧ x = x' ∧ channel = channel' := by
  obtain ⟨width, rfl⟩ := Int.eq_ofNat_of_zero_le (show 0 ≤ columns by omega)
  obtain ⟨depth, rfl⟩ := Int.eq_ofNat_of_zero_le (show 0 ≤ channels by omega)
  have sameIndex : (y * width + x) * depth + channel = (y' * width + x') * depth + channel' := by
    exact_mod_cast same
  obtain ⟨samePlace, sameChannel⟩ := place_injective depth inRange inRange' sameIndex
  obtain ⟨sameRow, sameColumn⟩ := place_injective width column column' samePlace
  exact ⟨sameRow, sameColumn, sameChannel⟩

variable {h w c stride : Int} {kernel : Int → R} {bias : Option (Int → R)}

theorem depthwiseConv2d3x3_apply (proper : ¬(h ≤ 2 ∨ w ≤ 2 ∨ c ≤ 0 ∨ stride ≤ 0))
    (input output : Int → R) {oy ox ci : Nat} (row : oy < ((h - 3).tdiv stride + 1).toNat)
    (column : ox < ((w - 3).tdiv stride + 1).toNat) (channel : ci < c.toNat) :
    (depthwiseConv2d3x3 input h w c kernel bias stride output).1
        ((oy * ((w - 3).tdiv stride + 1) + ox) * c + ci : Int) =
      biasAt bias ci + ∑ ky ∈ Finset.range 3, ∑ kx ∈ Finset.range 3,
        input (((oy * stride + ky) * w + (ox * stride + kx)) * c + ci) *
          kernel (ci * 9 + (ky * 3 + kx)) := by
  have distinct : ∀ ci oy ox ci' oy' ox' : Nat, ci < c.toNat →
      oy < ((h - 3).tdiv stride + 1).toNat → ox < ((w - 3).tdiv stride + 1).toNat →
      ci' < c.toNat → oy' < ((h - 3).tdiv stride + 1).toNat →
      ox' < ((w - 3).tdiv stride + 1).toNat →
      ((oy * ((w - 3).tdiv stride + 1) + ox) * c + ci : Int) =
        (oy' * ((w - 3).tdiv stride + 1) + ox') * c + ci' → ci = ci' ∧ oy = oy' ∧ ox = ox' := by
    intro ci oy ox ci' oy' ox' channel _ column channel' _ column' same
    obtain ⟨rfl, rfl, rfl⟩ := planar_injective column channel column' channel' same
    exact ⟨rfl, rfl, rfl⟩
  rw [depthwiseConv2d3x3, if_neg proper]
  refine (write_three distinct _ output channel row column).trans ?_
  exact foldl_gain (fun _ _ _ => foldl_add _ 3 _) _

theorem pointwiseConv2d1x1_apply {inC outC : Int}
    (proper : ¬(h ≤ 0 ∨ w ≤ 0 ∨ inC ≤ 0 ∨ outC ≤ 0)) (input output : Int → R) {y x oc : Nat}
    (row : y < h.toNat) (column : x < w.toNat) (channel : oc < outC.toNat) :
    (pointwiseConv2d1x1 input h w inC outC kernel bias output).1
        ((y * w + x) * outC + oc : Int) =
      biasAt bias oc + ∑ ic ∈ Finset.range inC.toNat,
        input ((y * w + x) * inC + ic) * kernel (oc * inC + ic) := by
  have distinct : ∀ oc y x oc' y' x' : Nat, oc < outC.toNat → y < h.toNat → x < w.toNat →
      oc' < outC.toNat → y' < h.toNat → x' < w.toNat →
      ((y * w + x) * outC + oc : Int) = (y' * w + x') * outC + oc' →
      oc = oc' ∧ y = y' ∧ x = x' := by
    intro oc y x oc' y' x' channel _ column channel' _ column' same
    obtain ⟨rfl, rfl, rfl⟩ := planar_injective column channel column' channel' same
    exact ⟨rfl, rfl, rfl⟩
  rw [pointwiseConv2d1x1, if_neg proper]
  refine (write_three distinct _ output channel row column).trans ?_
  exact foldl_add _ _ _

/-- Without a border every tap of an output place is inside of the image. -/
theorem inside_of_lt {size ratio : Int} (positive : 0 < ratio) {place tap : Nat}
    (inOutput : place < ((size - 3).tdiv ratio + 1).toNat) (inKernel : tap < 3)
    (wide : 3 ≤ size) : 0 ≤ place * ratio + tap ∧ place * ratio + tap < size := by
  have quotient : (place : Int) ≤ (size - 3).tdiv ratio := by omega
  have product := mul_le_mul_of_nonneg_right quotient positive.le
  have whole : (size - 3).tdiv ratio * ratio ≤ size - 3 := by
    rw [Int.tdiv_eq_ediv_of_nonneg (by omega)]
    exact Int.ediv_mul_le _ positive.ne'
  have lower := mul_nonneg (Int.natCast_nonneg place) positive.le
  omega

end Separable

end Ai

end MiniIotRobotEdge
