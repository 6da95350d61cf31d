import Mathlib.Algebra.Group.Int.Defs
import Mathlib.Algebra.Group.Nat.Defs
import Mathlib.Algebra.GroupWithZero.Nat
import Mathlib.Data.List.Range

/-!
# Colours from a Bayer mosaic

The model of the two demosaicing routines in `camera_mipi.c`.  The buffers are
functions of their index and no pointer is null; the index of a raw pixel is
exact.  A site has one colour, and the other two are means of neighbours: at a
green site the routines have to tell whether the red ones stand beside it or
above it.
-/

namespace MiniIotRobotEdge

namespace Sensor

inductive BayerPattern
  | rggb
  | grbg
  | gbrg
  | bggr
  deriving DecidableEq, Repr

structure RawFrame where
  rawData : Nat → UInt8
  width : UInt16
  height : UInt16
  pattern : BayerPattern

structure RgbFrame where
  rgbData : UInt32 → UInt8
  width : UInt16
  height : UInt16
  stride : UInt32

structure Rgb where
  r : UInt8
  g : UInt8
  b : UInt8
  deriving DecidableEq, Repr

def bayerIsRed (pat : BayerPattern) (col row : Int) : Prop :=
  match pat with
  | .rggb => row % 2 = 0 ∧ col % 2 = 0
  | .grbg => row % 2 = 0 ∧ col % 2 = 1
  | .gbrg => row % 2 = 1 ∧ col % 2 = 0
  | .bggr => row % 2 = 1 ∧ col % 2 = 1

def bayerIsBlue (pat : BayerPattern) (col row : Int) : Prop :=
  match pat with
  | .rggb => row % 2 = 1 ∧ col % 2 = 1
  | .grbg => row % 2 = 1 ∧ col % 2 = 0
  | .gbrg => row % 2 = 0 ∧ col % 2 = 1
  | .bggr => row % 2 = 0 ∧ col % 2 = 0

instance : (pat : BayerPattern) → (col row : Int) → Decidable (bayerIsRed pat col row)
  | .rggb, _, _ => inferInstanceAs (Decidable (_ ∧ _))
  | .grbg, _, _ => inferInstanceAs (Decidable (_ ∧ _))
  | .gbrg, _, _ => inferInstanceAs (Decidable (_ ∧ _))
  | .bggr, _, _ => inferInstanceAs (Decidable (_ ∧ _))

instance : (pat : BayerPattern) → (col row : Int) → Decidable (bayerIsBlue pat col row)
  | .rggb, _, _ => inferInstanceAs (Decidable (_ ∧ _))
  | .grbg, _, _ => inferInstanceAs (Decidable (_ ∧ _))
  | .gbrg, _, _ => inferInstanceAs (Decidable (_ ∧ _))
  | .bggr, _, _ => inferInstanceAs (Decidable (_ ∧ _))

def cameraGetPixel (raw : RawFrame) (x y : UInt16) : UInt8 :=
  if x ≥ raw.width ∨ y ≥ raw.height then 0
  else raw.rawData (y.toNat * raw.width.toNat + x.toNat)

def RgbFrame.idx (rgb : RgbFrame) (x y : UInt16) : UInt32 :=
  y.toUInt32 * rgb.stride + x.toUInt32 * 3

def cameraSetPixelRgb (rgb : RgbFrame) (x y : UInt16) (colour : Rgb) : RgbFrame :=
  if x ≥ rgb.width ∨ y ≥ rgb.height then rgb
  else
    let idx := rgb.idx x y
    { rgb with
      rgbData := Function.update (Function.update (Function.update rgb.rgbData idx colour.r)
        (idx + 1) colour.g) (idx + 2) colour.b }

/-! ### The neighbours of `camera_bayer_demosaic_simple` -/

section Simple

variable (raw : RawFrame) (x y : Int)

/-- The pixel at two coordinates of type `int`. -/
def pixelAt : Nat := (cameraGetPixel raw (.ofInt x) (.ofInt y)).toNat

/-- `(x > 0 ? x-1 : 0)`. -/
def before : Int := if x > 0 then x - 1 else 0

/-- `(x + 1 < w ? x+1 : x)`. -/
def behind (w : Int) : Int := if x + 1 < w then x + 1 else x

/-- The mean of the two pixels beside the site. -/
def meanBeside : UInt8 :=
  .ofNat ((pixelAt raw (before x) y + pixelAt raw (behind x raw.width.toNat) y) / 2)

/-- The mean of the pixels above and below the site. -/
def meanUpright : UInt8 :=
  .ofNat ((pixelAt raw x (before y) + pixelAt raw x (behind y raw.height.toNat)) / 2)

def meanCross : UInt8 :=
  .ofNat ((pixelAt raw (before x) y + pixelAt raw (behind x raw.width.toNat) y +
    pixelAt raw x (before y) + pixelAt raw x (behind y raw.height.toNat)) / 4)

def meanDiagonal : UInt8 :=
  .ofNat ((pixelAt raw (before x) (before y) + pixelAt raw (behind x raw.width.toNat) (before y) +
    pixelAt raw (before x) (behind y raw.height.toNat) +
    pixelAt raw (behind x raw.width.toNat) (behind y raw.height.toNat)) / 4)

/-- The colour that `camera_bayer_demosaic_simple` writes at a site. -/
def simpleColour : Rgb :=
  let px := cameraGetPixel raw (.ofInt x) (.ofInt y)
  if bayerIsRed raw.pattern x y then ⟨px, meanCross raw x y, meanDiagonal raw x y⟩
  else if bayerIsBlue raw.pattern x y then ⟨meanDiagonal raw x y, meanCross raw x y, px⟩
  else if (bayerIsRed raw.pattern x 0 ∧ y % 2 = 0) ∨ (¬bayerIsRed raw.pattern x 0 ∧ y % 2 = 1) then
    ⟨meanBeside raw x y, px, meanUpright raw x y⟩
  else ⟨meanUpright raw x y, px, meanBeside raw x y⟩

end Simple

/-! ### The neighbours of `camera_bayer_demosaic_bilinear` -/

def kernelN : List (Int × Int) := [(0, 0), (-1, 0), (1, 0), (0, -1), (0, 1)]
def kernelD : List (Int × Int) := [(-1, -1), (1, -1), (-1, 1), (1, 1), (0, 0)]

section Bilinear

variable (raw : RawFrame) (x y : Int)

/-- `nx >= 0 && nx < w && ny >= 0 && ny < h`. -/
def InFrame (nx ny : Int) : Prop :=
  nx ≥ 0 ∧ nx < raw.width.toNat ∧ ny ≥ 0 ∧ ny < raw.height.toNat

instance (nx ny : Int) : Decidable (InFrame raw nx ny) := inferInstanceAs (Decidable (_ ∧ _))

/-- A turn of the loops over a kernel, with the sum and the count. -/
def kernelStep (total : Nat × Nat) (offset : Int × Int) : Nat × Nat :=
  let nx := x + offset.1
  let ny := y + offset.2
  if InFrame raw nx ny then (total.1 + pixelAt raw nx ny, total.2 + 1) else total

def kernelMean (kernel : List (Int × Int)) : UInt8 :=
  let total := kernel.foldl (kernelStep raw x y) (0, 0)
  .ofNat (if 0 < total.2 then total.1 / total.2 else 0)

/-- The colour that `camera_bayer_demosaic_bilinear` writes at a site. -/
def bilinearColour : Rgb :=
  let px := cameraGetPixel raw (.ofInt x) (.ofInt y)
  if bayerIsRed raw.pattern x y then
    ⟨px, kernelMean raw x y (kernelN.drop 1), kernelMean raw x y (kernelD.take 4)⟩
  else if bayerIsBlue raw.pattern x y then
    ⟨kernelMean raw x y (kernelD.take 4), kernelMean raw x y (kernelN.drop 1), px⟩
  else if y % 2 = 0 ∧ bayerIsRed raw.pattern x 0 then
    ⟨meanBeside raw x y, px, meanUpright raw x y⟩
  else if y % 2 = 1 ∧ bayerIsRed raw.pattern x 0 then
    ⟨meanUpright raw x y, px, meanBeside raw x y⟩
  else if y % 2 = 0 ∧ ¬bayerIsRed raw.pattern x 0 then
    ⟨meanUpright raw x y, px, meanBeside raw x y⟩
  else ⟨meanBeside raw x y, px, meanUpright raw x y⟩

end Bilinear

/-- The calls of `camera_set_pixel_rgb` that the loops over a frame make, in order. -/
def writes (colour : Int → Int → Rgb) (raw : RawFrame) : List ((Int × Int) × Rgb) :=
  (List.range raw.height.toNat).flatMap fun y : Nat =>
    (List.range raw.width.toNat).map fun x : Nat => ((x, y), colour x y)

def cameraBayerDemosaicSimple (raw : RawFrame) (rgb : RgbFrame) : RgbFrame :=
  (writes (simpleColour raw) raw).foldl (fun rgb write =>
    cameraSetPixelRgb rgb (.ofInt write.1.1) (.ofInt write.1.2) write.2) rgb

def cameraBayerDemosaicBilinear (raw : RawFrame) (rgb : RgbFrame) : RgbFrame :=
  (writes (bilinearColour raw) raw).foldl (fun rgb write =>
    cameraSetPixelRgb rgb (.ofInt write.1.1) (.ofInt write.1.2) write.2) rgb

/-! ### Uniform frames -/

/-- The colour of a site. -/
def siteColour (pat : BayerPattern) (colour : Rgb) (x y : Int) : UInt8 :=
  if bayerIsRed pat x y then colour.r else if bayerIsBlue pat x y then colour.b else colour.g

/-- Every site of the frame holds its part of the colour. -/
def Uniform (raw : RawFrame) (colour : Rgb) : Prop :=
  ∀ x y : Nat, x < raw.width.toNat → y < raw.height.toNat →
    raw.rawData (y * raw.width.toNat + x) = siteColour raw.pattern colour x y

structure Interior (raw : RawFrame) (x y : Int) : Prop where
  left : 0 < x
  right : x + 1 < raw.width.toNat
  above : 0 < y
  below : y + 1 < raw.height.toNat

/-- The three bytes of a pixel. -/
def RgbFrame.pixel (rgb : RgbFrame) (x y : UInt16) : Rgb :=
  ⟨rgb.rgbData (rgb.idx x y), rgb.rgbData (rgb.idx x y + 1), rgb.rgbData (rgb.idx x y + 2)⟩

/-- The frame has the colour at every interior pixel. -/
def ShowsInside (raw : RawFrame) (rgb : RgbFrame) (colour : Rgb) : Prop :=
  ∀ x y, Interior raw x y → rgb.pixel (.ofInt x) (.ofInt y) = colour

/-- The loops write the colour at every interior pixel. -/
def WritesInside (raw : RawFrame) (calls : List ((Int × Int) × Rgb)) (colour : Rgb) : Prop :=
  ∀ x y, Interior raw x y → ∀ written, ((x, y), written) ∈ calls ↔ written = colour

/-- No interior green site stands in an even row between red ones, or there is nothing to
confuse. -/
def NothingSwapped (raw : RawFrame) (colour : Rgb) : Prop :=
  raw.pattern = .gbrg ∨ raw.pattern = .bggr ∨ colour.r = colour.b ∨ raw.height.toNat = 3 ∨
    (raw.pattern = .grbg ∧ raw.width.toNat = 3)

section Frames

variable {raw : RawFrame} {colour : Rgb} {x y : Int}

theorem mean_two (value : UInt8) : .ofNat ((value.toNat + value.toNat) / 2) = value := by
  have half : (value.toNat + value.toNat) / 2 = value.toNat := by omega
  rw [half, UInt8.ofNat_toNat]

theorem mean_four (value : UInt8) :
    .ofNat ((value.toNat + value.toNat + value.toNat + value.toNat) / 4) = value := by
  have quarter : (value.toNat + value.toNat + value.toNat + value.toNat) / 4 = value.toNat := by
    omega
  rw [quarter, UInt8.ofNat_toNat]

theorem toNat_ofInt {value : Int} (nonneg : 0 ≤ value) (fits : value < 2 ^ 16) :
    (UInt16.ofInt value).toNat = value.toNat := by
  rw [UInt16.ofInt, Int.emod_eq_of_lt nonneg fits, UInt16.toNat_ofNat']
  exact Nat.mod_eq_of_lt (by omega)

theorem Interior.before (inside : Interior raw x y) :
    Sensor.before x = x - 1 ∧ Sensor.before y = y - 1 :=
  ⟨if_pos inside.left, if_pos inside.above⟩

theorem Interior.behind (inside : Interior raw x y) :
    Sensor.behind x raw.width.toNat = x + 1 ∧ Sensor.behind y raw.height.toNat = y + 1 :=
  ⟨if_pos inside.right, if_pos inside.below⟩

/-- With all of a kernel inside of the frame, the loop adds up all of its pixels. -/
theorem foldl_kernelStep {kernel : List (Int × Int)}
    (inFrame : ∀ offset ∈ kernel, InFrame raw (x + offset.1) (y + offset.2)) (total : Nat × Nat) :
    kernel.foldl (kernelStep raw x y) total =
      (total.1 + (kernel.map fun offset => pixelAt raw (x + offset.1) (y + offset.2)).sum,
        total.2 + kernel.length) := by
  induction kernel generalizing total with
  | nil => rfl
  | cons offset rest ih =>
      have counted : kernelStep raw x y total offset =
          (total.1 + pixelAt raw (x + offset.1) (y + offset.2), total.2 + 1) :=
        if_pos (inFrame offset List.mem_cons_self)
      rw [List.foldl_cons, counted,
        ih fun other listed => inFrame other (List.mem_cons_of_mem offset listed),
        List.map_cons, List.sum_cons, List.length_cons, Nat.add_assoc, Nat.add_assoc,
        Nat.add_comm 1]

theorem kernelMean_eq {kernel : List (Int × Int)} (positive : 0 < kernel.length)
    (inFrame : ∀ offset ∈ kernel, InFrame raw (x + offset.1) (y + offset.2)) :
    kernelMean raw x y kernel =
      .ofNat ((kernel.map fun offset => pixelAt raw (x + offset.1) (y + offset.2)).sum /
        kernel.length) := by
  rw [kernelMean, foldl_kernelStep inFrame, Nat.zero_add, Nat.zero_add]
  exact congrArg UInt8.ofNat (if_pos positive)

/-- The neighbours of an interior pixel are in the frame. -/
theorem Interior.inFrame (inside : Interior raw x y) (dx dy : Int) (column : -1 ≤ dx ∧ dx ≤ 1)
    (row : -1 ≤ dy ∧ dy ≤ 1) : InFrame raw (x + dx) (y + dy) := by
  obtain ⟨left, right, above, below⟩ := inside
  exact ⟨by omega, by omega, by omega, by omega⟩

/-- Inside of the frame both routines see the same neighbours. -/
theorem Interior.kernelMean_cross (inside : Interior raw x y) :
    kernelMean raw x y (kernelN.drop 1) = meanCross raw x y := by
  have near : ∀ offset ∈ kernelN.drop 1,
      (-1 ≤ offset.1 ∧ offset.1 ≤ 1) ∧ -1 ≤ offset.2 ∧ offset.2 ≤ 1 := by decide
  rw [kernelMean_eq (by decide) fun offset listed =>
    inside.inFrame offset.1 offset.2 (near offset listed).1 (near offset listed).2, meanCross, inside.before.1,
    inside.before.2, inside.behind.1, inside.behind.2]
  simp [kernelN, Int.sub_eq_add_neg, Nat.add_assoc]

theorem Interior.kernelMean_diagonal (inside : Interior raw x y) :
    kernelMean raw x y (kernelD.take 4) = meanDiagonal raw x y := by
  have near : ∀ offset ∈ kernelD.take 4,
      (-1 ≤ offset.1 ∧ offset.1 ≤ 1) ∧ -1 ≤ offset.2 ∧ offset.2 ≤ 1 := by decide
  rw [kernelMean_eq (by decide) fun offset listed =>
    inside.inFrame offset.1 offset.2 (near offset listed).1 (near offset listed).2, meanDiagonal, inside.before.1,
    inside.before.2, inside.behind.1, inside.behind.2]
  simp [kernelD, Int.sub_eq_add_neg, Nat.add_assoc]

/-- The two case splits at green sites are the same. -/
theorem Interior.bilinearColour_eq (inside : Interior raw x y) :
    bilinearColour raw x y = simpleColour raw x y := by
  rw [bilinearColour, simpleColour, inside.kernelMean_cross, inside.kernelMean_diagonal]
  rcases Int.emod_two_eq y with even | odd
  · by_cases redColumn : bayerIsRed raw.pattern x 0 <;> simp [even, redColumn]
  · by_cases redColumn : bayerIsRed raw.pattern x 0 <;> simp [odd, redColumn]

theorem Uniform.pixelAt (uniform : Uniform raw colour) (left : 0 ≤ x) (right : x < raw.width.toNat)
    (above : 0 ≤ y) (below : y < raw.height.toNat) :
    Sensor.pixelAt raw x y = (siteColour raw.pattern colour x y).toNat := by
  have width := raw.width.toNat_lt
  have height := raw.height.toNat_lt
  lift x to Nat using left
  lift y to Nat using above
  have column : (UInt16.ofInt x).toNat = x := toNat_ofInt (by omega) (by omega)
  have row : (UInt16.ofInt y).toNat = y := toNat_ofInt (by omega) (by omega)
  rw [Sensor.pixelAt, cameraGetPixel, if_neg, column, row, uniform x y (by omega) (by omega)]
  rw [ge_iff_le, ge_iff_le, UInt16.le_iff_toNat_le, UInt16.le_iff_toNat_le, column, row]
  omega

/-- The colour of a site depends on the parities of its coordinates. -/
theorem siteColour_congr {pat : BayerPattern} {x' y' : Int} (column : x' % 2 = x % 2)
    (row : y' % 2 = y % 2) : siteColour pat colour x' y' = siteColour pat colour x y := by
  have red : bayerIsRed pat x' y' ↔ bayerIsRed pat x y := by
    cases pat <;> simp only [bayerIsRed, column, row]
  have blue : bayerIsBlue pat x' y' ↔ bayerIsBlue pat x y := by
    cases pat <;> simp only [bayerIsBlue, column, row]
  simp only [siteColour, red, blue]

section Means

variable (uniform : Uniform raw colour) (inside : Interior raw x y)
include uniform inside

theorem Uniform.near (dx dy : Int) (column : -1 ≤ dx ∧ dx ≤ 1) (row : -1 ≤ dy ∧ dy ≤ 1) :
    Sensor.pixelAt raw (x + dx) (y + dy) =
      (siteColour raw.pattern colour (x + dx) (y + dy)).toNat := by
  obtain ⟨left, right, above, below⟩ := inside.inFrame dx dy column row
  exact uniform.pixelAt left right above below

theorem Uniform.meanBeside :
    Sensor.meanBeside raw x y = siteColour raw.pattern colour (x + 1) y := by
  have west := uniform.near inside (-1) 0 (by decide) (by decide)
  have east := uniform.near inside 1 0 (by decide) (by decide)
  have same : siteColour raw.pattern colour (x + -1) y = siteColour raw.pattern colour (x + 1) y :=
    siteColour_congr (by omega) rfl
  rw [Int.add_zero] at west east
  rw [Sensor.meanBeside, inside.before.1, inside.behind.1, Int.sub_eq_add_neg, west, east, same,
    mean_two]

theorem Uniform.meanUpright :
    Sensor.meanUpright raw x y = siteColour raw.pattern colour x (y + 1) := by
  have north := uniform.near inside 0 (-1) (by decide) (by decide)
  have south := uniform.near inside 0 1 (by decide) (by decide)
  have same : siteColour raw.pattern colour x (y + -1) = siteColour raw.pattern colour x (y + 1) :=
    siteColour_congr rfl (by omega)
  rw [Int.add_zero] at north south
  rw [Sensor.meanUpright, inside.before.2, inside.behind.2, Int.sub_eq_add_neg, north, south, same,
    mean_two]

/-- At a red or a blue site all four neighbours beside it and above it are green. -/
theorem Uniform.meanCross
    (green : siteColour raw.pattern colour (x + 1) y = siteColour raw.pattern colour x (y + 1)) :
    Sensor.meanCross raw x y = siteColour raw.pattern colour x (y + 1) := by
  have west := uniform.near inside (-1) 0 (by decide) (by decide)
  have east := uniform.near inside 1 0 (by decide) (by decide)
  have north := uniform.near inside 0 (-1) (by decide) (by decide)
  have south := uniform.near inside 0 1 (by decide) (by decide)
  have row : siteColour raw.pattern colour (x + -1) y = siteColour raw.pattern colour (x + 1) y :=
    siteColour_congr (by omega) rfl
  have column : siteColour raw.pattern colour x (y + -1) =
      siteColour raw.pattern colour x (y + 1) := siteColour_congr rfl (by omega)
  rw [Int.add_zero] at west east north south
  rw [Sensor.meanCross, inside.before.1, inside.before.2, inside.behind.1, inside.behind.2,
    Int.sub_eq_add_neg, Int.sub_eq_add_neg, west, east, north, south, row, column, green, mean_four]

theorem Uniform.meanDiagonal :
    Sensor.meanDiagonal raw x y = siteColour raw.pattern colour (x + 1) (y + 1) := by
  have northWest := uniform.near inside (-1) (-1) (by decide) (by decide)
  have northEast := uniform.near inside 1 (-1) (by decide) (by decide)
  have southWest := uniform.near inside (-1) 1 (by decide) (by decide)
  have southEast := uniform.near inside 1 1 (by decide) (by decide)
  have same : ∀ x' y', x' % 2 = (x + 1) % 2 → y' % 2 = (y + 1) % 2 →
      siteColour raw.pattern colour x' y' = siteColour raw.pattern colour (x + 1) (y + 1) :=
    fun _ _ => siteColour_congr
  rw [same _ _ (by omega) (by omega)] at northWest northEast southWest
  rw [Sensor.meanDiagonal, inside.before.1, inside.before.2, inside.behind.1, inside.behind.2,
    Int.sub_eq_add_neg, Int.sub_eq_add_neg, northWest, northEast, southWest, southEast, mean_four]

end Means

/-- The green sites at which both routines look for the red ones in the wrong place. -/
def Swapped (pat : BayerPattern) (x y : Int) : Prop :=
  (pat = .rggb ∨ pat = .grbg) ∧ y % 2 = 0 ∧ ¬bayerIsRed pat x y

/-- The test of both routines at a green site. -/
def TestsBeside (pat : BayerPattern) (x y : Int) : Prop :=
  (bayerIsRed pat x 0 ∧ y % 2 = 0) ∨ (¬bayerIsRed pat x 0 ∧ y % 2 = 1)

section Sites

variable (pat : BayerPattern) (colour : Rgb) {x y : Int}

theorem parity_succ (value : Int) : (value + 1) % 2 = 1 - value % 2 := by omega

theorem siteColour_red (red : bayerIsRed pat x y) :
    siteColour pat colour x y = colour.r ∧ siteColour pat colour (x + 1) y = colour.g ∧
      siteColour pat colour x (y + 1) = colour.g ∧
        siteColour pat colour (x + 1) (y + 1) = colour.b := by
  cases pat <;> simp [siteColour, bayerIsRed, bayerIsBlue, parity_succ, red.1, red.2]

theorem siteColour_blue (blue : bayerIsBlue pat x y) :
    siteColour pat colour x y = colour.b ∧ siteColour pat colour (x + 1) y = colour.g ∧
      siteColour pat colour x (y + 1) = colour.g ∧
        siteColour pat colour (x + 1) (y + 1) = colour.r := by
  cases pat <;> simp [siteColour, bayerIsRed, bayerIsBlue, parity_succ, blue.1, blue.2]

theorem not_swapped_of_blue (blue : bayerIsBlue pat x y) : ¬Swapped pat x y := by
  rintro ⟨rfl | rfl, even, _⟩
  · exact absurd (even.symm.trans blue.1) (by decide)
  · exact absurd (even.symm.trans blue.1) (by decide)

theorem siteColour_green (notRed : ¬bayerIsRed pat x y) (notBlue : ¬bayerIsBlue pat x y) :
    siteColour pat colour x y = colour.g := by
  rw [siteColour, if_neg notRed, if_neg notBlue]

/-- A green site stands between red ones in its row or in its column. -/
theorem siteColour_green_near (notRed : ¬bayerIsRed pat x y) (notBlue : ¬bayerIsBlue pat x y) :
    (bayerIsRed pat (x + 1) y ∧ siteColour pat colour (x + 1) y = colour.r ∧
        siteColour pat colour x (y + 1) = colour.b) ∨
      (¬bayerIsRed pat (x + 1) y ∧ siteColour pat colour (x + 1) y = colour.b ∧
        siteColour pat colour x (y + 1) = colour.r) := by
  rcases Int.emod_two_eq x with column | column <;> rcases Int.emod_two_eq y with row | row <;>
    cases pat <;>
    simp_all [siteColour, bayerIsRed, bayerIsBlue, parity_succ]

theorem testsBeside_iff (notRed : ¬bayerIsRed pat x y) (notBlue : ¬bayerIsBlue pat x y) :
    (Swapped pat x y → ¬TestsBeside pat x y ∧ bayerIsRed pat (x + 1) y) ∧
      (¬Swapped pat x y → (TestsBeside pat x y ↔ bayerIsRed pat (x + 1) y)) := by
  rcases Int.emod_two_eq x with column | column <;> rcases Int.emod_two_eq y with row | row <;>
    cases pat <;>
    simp_all [Swapped, TestsBeside, bayerIsRed, bayerIsBlue, parity_succ]

end Sites

/-- The colour is reproduced but for the exchange of red and blue. -/
theorem Uniform.simpleColour_eq (uniform : Uniform raw colour) (inside : Interior raw x y) :
    (Swapped raw.pattern x y → simpleColour raw x y = ⟨colour.b, colour.g, colour.r⟩) ∧
      (¬Swapped raw.pattern x y → simpleColour raw x y = colour) := by
  have px : cameraGetPixel raw (.ofInt x) (.ofInt y) = siteColour raw.pattern colour x y := by
    have here := uniform.near inside 0 0 (by decide) (by decide)
    rw [Int.add_zero, Int.add_zero] at here
    exact UInt8.toNat_inj.mp here
  rw [simpleColour, px, uniform.meanBeside inside, uniform.meanUpright inside,
    uniform.meanDiagonal inside]
  by_cases red : bayerIsRed raw.pattern x y
  · obtain ⟨here, beside, upright, diagonal⟩ := siteColour_red raw.pattern colour red
    have cross := uniform.meanCross inside (beside.trans upright.symm)
    rw [if_pos red, cross, here, upright, diagonal]
    exact ⟨fun swapped => absurd red swapped.2.2, fun _ => rfl⟩
  · by_cases blue : bayerIsBlue raw.pattern x y
    · obtain ⟨here, beside, upright, diagonal⟩ := siteColour_blue raw.pattern colour blue
      have cross := uniform.meanCross inside (beside.trans upright.symm)
      rw [if_neg red, if_pos blue, cross, here, upright, diagonal]
      exact ⟨fun swapped => absurd swapped (not_swapped_of_blue raw.pattern blue), fun _ => rfl⟩
    · rw [if_neg red, if_neg blue, siteColour_green raw.pattern colour red blue]
      obtain ⟨swaps, keeps⟩ := testsBeside_iff raw.pattern red blue
      rcases siteColour_green_near raw.pattern colour red blue with
        ⟨redRow, beside, upright⟩ | ⟨notRedRow, beside, upright⟩
      · rw [beside, upright]
        constructor
        · exact fun swapped => if_neg (swaps swapped).1
        · exact fun kept => if_pos ((keeps kept).mpr redRow)
      · rw [beside, upright]
        constructor
        · exact fun swapped => absurd (swaps swapped).2 notRedRow
        · exact fun kept => if_neg fun tests => notRedRow ((keeps kept).mp tests)

theorem mem_writes {source : Int → Int → Rgb} (inside : Interior raw x y) (written : Rgb) :
    ((x, y), written) ∈ writes source raw ↔ written = source x y := by
  obtain ⟨left, right, above, below⟩ := inside
  lift x to Nat using Int.le_of_lt left
  lift y to Nat using Int.le_of_lt above
  simp only [writes, List.mem_flatMap, List.mem_map, List.mem_range, Prod.mk.injEq]
  constructor
  · rintro ⟨row, _, column, _, ⟨sameX, sameY⟩, rfl⟩
    rw [sameX, sameY]
  · rintro rfl
    exact ⟨y, by omega, x, by omega, ⟨rfl, rfl⟩, rfl⟩

theorem writesInside_iff {source : Int → Int → Rgb} :
    WritesInside raw (writes source raw) colour ↔
      ∀ x y, Interior raw x y → source x y = colour := by
  constructor
  · intro inside x y isInside
    exact (inside x y isInside (source x y)).mp ((mem_writes isInside _).mpr rfl)
  · intro same x y isInside written
    rw [mem_writes isInside, same x y isInside]

/-- The first swapped site stands at the left of row 2. -/
theorem exists_swapped_iff (wide : 3 ≤ raw.width.toNat) (high : 3 ≤ raw.height.toNat) :
    (∃ x y, Interior raw x y ∧ Swapped raw.pattern x y) ↔
      raw.height.toNat ≠ 3 ∧
        (raw.pattern = .rggb ∨ (raw.pattern = .grbg ∧ raw.width.toNat ≠ 3)) := by
  constructor
  · rintro ⟨x, y, ⟨left, right, above, below⟩, isPattern, even, notRed⟩
    refine ⟨by omega, isPattern.imp_right fun isGrbg => ⟨isGrbg, ?_⟩⟩
    rw [isGrbg] at notRed
    have evenColumn : ¬x % 2 = 1 := fun odd => notRed ⟨even, odd⟩
    omega
  · rintro ⟨tall, isRggb | ⟨isGrbg, notNarrow⟩⟩
    · refine ⟨1, 2, ⟨by omega, by omega, by omega, by omega⟩, .inl isRggb, by decide, ?_⟩
      rw [isRggb]
      decide
    · refine ⟨2, 2, ⟨by omega, by omega, by omega, by omega⟩, .inr isGrbg, by decide, ?_⟩
      rw [isGrbg]
      decide

theorem nothingSwapped_iff (wide : 3 ≤ raw.width.toNat) (high : 3 ≤ raw.height.toNat) :
    NothingSwapped raw colour ↔
      colour.r = colour.b ∨ ¬∃ x y, Interior raw x y ∧ Swapped raw.pattern x y := by
  rw [exists_swapped_iff wide high, NothingSwapped]
  cases raw.pattern with
  | rggb => simp
  | grbg =>
      by_cases low : raw.height.toNat = 3 <;> simp [low]
  | gbrg => simp
  | bggr => simp

/-- Both routines write a uniform colour inside of the frame exactly when no interior site is
swapped, or red and blue are the same. -/
theorem writesInside_uniform_iff (raw : RawFrame) (colour : Rgb) (wide : 3 ≤ raw.width.toNat)
    (high : 3 ≤ raw.height.toNat) (uniform : Uniform raw colour) :
    WritesInside raw (writes (simpleColour raw) raw) colour ∧
        WritesInside raw (writes (bilinearColour raw) raw) colour ↔
      NothingSwapped raw colour := by
  have agree : WritesInside raw (writes (bilinearColour raw) raw) colour ↔
      WritesInside raw (writes (simpleColour raw) raw) colour := by
    rw [writesInside_iff, writesInside_iff]
    exact forall₃_congr fun x y inside => by rw [inside.bilinearColour_eq]
  rw [agree, and_self, writesInside_iff, nothingSwapped_iff wide high]
  constructor
  · intro reproduced
    by_cases same : colour.r = colour.b
    · exact .inl same
    · refine .inr fun ⟨x, y, inside, swapped⟩ => ?_
      have exchanged := (uniform.simpleColour_eq inside).1 swapped
      rw [reproduced x y inside] at exchanged
      exact same (congrArg Rgb.r exchanged)
  · rintro nothing x y inside
    obtain ⟨swaps, keeps⟩ := uniform.simpleColour_eq inside
    by_cases swapped : Swapped raw.pattern x y
    · have same := nothing.resolve_right fun none => none ⟨x, y, inside, swapped⟩
      have exchanged : (⟨colour.b, colour.g, colour.r⟩ : Rgb) = ⟨colour.r, colour.g, colour.b⟩ := by
        rw [same]
      exact (swaps swapped).trans exchanged
    · exact keeps swapped

/-- The raw frame of a uniform colour. -/
def mosaic (pat : BayerPattern) (width height : UInt16) (colour : Rgb) : RawFrame where
  rawData := fun i => siteColour pat colour (i % width.toNat : Nat) (i / width.toNat : Nat)
  width := width
  height := height
  pattern := pat

theorem mosaic_uniform (pat : BayerPattern) (width height : UInt16) (colour : Rgb) :
    Uniform (mosaic pat width height colour) colour := by
  intro x y column row
  have inRow : x < width.toNat := column
  have quotient : (y * width.toNat + x) / width.toNat = y := by
    rw [Nat.mul_comm, Nat.mul_add_div (by omega), Nat.div_eq_of_lt inRow, Nat.add_zero]
  have remainder : (y * width.toNat + x) % width.toNat = x := by
    rw [Nat.mul_comm, Nat.mul_add_mod, Nat.mod_eq_of_lt inRow]
  simp only [mosaic, quotient, remainder]

def orange : Rgb := ⟨200, 100, 50⟩

end Frames

/-! ### The frame that is left -/

section Buffer

variable {rgb : RgbFrame} {x y x' y' : UInt16} {colour : Rgb}

/-- The frame is large enough, and no index into it overflows. -/
structure RgbFrame.Fits (rgb : RgbFrame) : Prop where
  row : 3 * rgb.width.toNat ≤ rgb.stride.toNat
  whole : rgb.height.toNat * rgb.stride.toNat ≤ 2 ^ 32

/-- A pixel ends in front of the next row. -/
theorem RgbFrame.Fits.bound (fits : rgb.Fits) (column : x < rgb.width) (row : y < rgb.height) :
    x.toNat * 3 + 3 ≤ rgb.stride.toNat ∧
      y.toNat * rgb.stride.toNat + rgb.stride.toNat ≤ 2 ^ 32 := by
  have columnLt := UInt16.lt_iff_toNat_lt.mp column
  have rowLt := UInt16.lt_iff_toNat_lt.mp row
  have rows := Nat.mul_le_mul_right rgb.stride.toNat rowLt
  rw [Nat.succ_mul] at rows
  have fitsRow := fits.row
  exact ⟨by omega, rows.trans fits.whole⟩

theorem RgbFrame.Fits.idx_toNat (fits : rgb.Fits) (column : x < rgb.width) (row : y < rgb.height)
    {part : UInt32} (small : part.toNat < 3) :
    (rgb.idx x y + part).toNat = y.toNat * rgb.stride.toNat + x.toNat * 3 + part.toNat := by
  obtain ⟨inRow, inFrame⟩ := fits.bound column row
  have three : (3 : UInt32).toNat = 3 := rfl
  rw [idx, UInt32.toNat_add, UInt32.toNat_add, UInt32.toNat_mul, UInt32.toNat_mul,
    UInt16.toNat_toUInt32, UInt16.toNat_toUInt32, three]
  omega

/-- Different pixels have different bytes. -/
theorem RgbFrame.Fits.idx_ne (fits : rgb.Fits) (column : x < rgb.width) (row : y < rgb.height)
    (column' : x' < rgb.width) (row' : y' < rgb.height) {part part' : UInt32}
    (small : part.toNat < 3) (small' : part'.toNat < 3) (differ : ¬(x = x' ∧ y = y')) :
    rgb.idx x y + part ≠ rgb.idx x' y' + part' := by
  intro same
  have places := congrArg UInt32.toNat same
  rw [fits.idx_toNat column row small, fits.idx_toNat column' row' small'] at places
  have inRow := (fits.bound column row).1
  have inRow' := (fits.bound column' row').1
  rcases Nat.lt_trichotomy y.toNat y'.toNat with above | level | below
  · have rows := Nat.mul_le_mul_right rgb.stride.toNat above
    rw [Nat.succ_mul] at rows
    omega
  · rw [level] at places
    exact differ ⟨UInt16.toNat_inj.mp (by omega), UInt16.toNat_inj.mp level⟩
  · have rows := Nat.mul_le_mul_right rgb.stride.toNat below
    rw [Nat.succ_mul] at rows
    omega

theorem cameraSetPixelRgb_eq (column : x < rgb.width) (row : y < rgb.height) :
    cameraSetPixelRgb rgb x y colour =
      { rgb with
        rgbData := Function.update (Function.update (Function.update rgb.rgbData (rgb.idx x y)
          colour.r) (rgb.idx x y + 1) colour.g) (rgb.idx x y + 2) colour.b } :=
  if_neg (not_or.mpr ⟨UInt16.not_le.mpr column, UInt16.not_le.mpr row⟩)

theorem pixel_set_self (column : x < rgb.width) (row : y < rgb.height) :
    (cameraSetPixelRgb rgb x y colour).pixel x y = colour := by
  have second : rgb.idx x y ≠ rgb.idx x y + 1 := by simp
  have third : rgb.idx x y ≠ rgb.idx x y + 2 := by simp
  have behind : rgb.idx x y + 1 ≠ rgb.idx x y + 2 := by simp
  have sameIdx : (cameraSetPixelRgb rgb x y colour).idx x y = rgb.idx x y := by
    rw [cameraSetPixelRgb_eq column row]
    rfl
  rw [RgbFrame.pixel, sameIdx, cameraSetPixelRgb_eq column row]
  dsimp only
  rw [Function.update_of_ne third, Function.update_of_ne second, Function.update_self,
    Function.update_of_ne behind, Function.update_self, Function.update_self]

theorem pixel_set_other (fits : rgb.Fits) (column : x < rgb.width) (row : y < rgb.height)
    (column' : x' < rgb.width) (row' : y' < rgb.height) (differ : ¬(x = x' ∧ y = y')) :
    (cameraSetPixelRgb rgb x' y' colour).pixel x y = rgb.pixel x y := by
  have kept : ∀ part : UInt32, part.toNat < 3 →
      (cameraSetPixelRgb rgb x' y' colour).rgbData (rgb.idx x y + part) =
        rgb.rgbData (rgb.idx x y + part) := by
    intro part small
    have apart : ∀ part' : UInt32, part'.toNat < 3 →
        rgb.idx x y + part ≠ rgb.idx x' y' + part' := fun part' small' =>
      fits.idx_ne column row column' row' small small' differ
    have first := apart 0 (by decide)
    rw [UInt32.add_zero] at first
    rw [cameraSetPixelRgb_eq column' row']
    dsimp only
    rw [Function.update_of_ne (apart 2 (by decide)), Function.update_of_ne (apart 1 (by decide)),
      Function.update_of_ne first]
  have sameIdx : (cameraSetPixelRgb rgb x' y' colour).idx x y = rgb.idx x y := by
    rw [cameraSetPixelRgb_eq column' row']
    rfl
  have first := kept 0 (by decide)
  rw [UInt32.add_zero] at first
  rw [RgbFrame.pixel, sameIdx, first, kept 1 (by decide), kept 2 (by decide)]
  rfl

theorem cameraSetPixelRgb_geometry (rgb : RgbFrame) (x y : UInt16) (colour : Rgb) :
    (cameraSetPixelRgb rgb x y colour).width = rgb.width ∧
      (cameraSetPixelRgb rgb x y colour).height = rgb.height ∧
        (cameraSetPixelRgb rgb x y colour).stride = rgb.stride := by
  unfold cameraSetPixelRgb
  split
  · exact ⟨rfl, rfl, rfl⟩
  · exact ⟨rfl, rfl, rfl⟩

/-- What the writes of a frame leave at a pixel, where all writes to it agree. -/
theorem pixel_foldl {calls : List ((Int × Int) × Rgb)} (fits : rgb.Fits)
    (column : x < rgb.width) (row : y < rgb.height)
    (inFrame : ∀ write ∈ calls, UInt16.ofInt write.1.1 < rgb.width ∧
      UInt16.ofInt write.1.2 < rgb.height)
    (agree : ∀ write ∈ calls, UInt16.ofInt write.1.1 = x → UInt16.ofInt write.1.2 = y →
      write.2 = colour)
    (written : rgb.pixel x y = colour ∨
      ∃ write ∈ calls, UInt16.ofInt write.1.1 = x ∧ UInt16.ofInt write.1.2 = y) :
    (calls.foldl (fun rgb write =>
      cameraSetPixelRgb rgb (.ofInt write.1.1) (.ofInt write.1.2) write.2) rgb).pixel x y =
      colour := by
  induction calls generalizing rgb with
  | nil => exact written.resolve_right fun ⟨write, listed, _⟩ => absurd listed List.not_mem_nil
  | cons write rest ih =>
      obtain ⟨width, height, stride⟩ := cameraSetPixelRgb_geometry rgb (.ofInt write.1.1)
        (.ofInt write.1.2) write.2
      obtain ⟨headColumn, headRow⟩ := inFrame write List.mem_cons_self
      rw [List.foldl_cons]
      apply ih
      · exact ⟨by rw [width, stride]; exact fits.row, by rw [height, stride]; exact fits.whole⟩
      · rwa [width]
      · rwa [height]
      · intro other listed
        rw [width, height]
        exact inFrame other (List.mem_cons_of_mem write listed)
      · exact fun other listed => agree other (List.mem_cons_of_mem write listed)
      · by_cases here : x = UInt16.ofInt write.1.1 ∧ y = UInt16.ofInt write.1.2
        · rw [← here.1, ← here.2, pixel_set_self column row]
          exact .inl (agree write List.mem_cons_self here.1.symm here.2.symm)
        · rw [pixel_set_other fits column row headColumn headRow here]
          apply written.imp_right
          rintro ⟨other, listed, atX, atY⟩
          rcases List.mem_cons.mp listed with rfl | later
          · exact absurd ⟨atX.symm, atY.symm⟩ here
          · exact ⟨other, later, atX, atY⟩

theorem inFrame_of_mem_writes {raw : RawFrame} {source : Int → Int → Rgb}
    {write : (Int × Int) × Rgb} (listed : write ∈ writes source raw) :
    InFrame raw write.1.1 write.1.2 := by
  simp only [writes, List.mem_flatMap, List.mem_map, List.mem_range] at listed
  obtain ⟨row, rowLt, column, columnLt, rfl⟩ := listed
  rw [InFrame]
  dsimp only
  omega

/-- Coordinates of a pixel keep their values as `uint16_t`. -/
theorem InFrame.toNat_eq {raw : RawFrame} {x y : Int} (inFrame : InFrame raw x y) :
    ((UInt16.ofInt x).toNat : Int) = x ∧ ((UInt16.ofInt y).toNat : Int) = y := by
  obtain ⟨left, right, above, below⟩ := inFrame
  have width := raw.width.toNat_lt
  have height := raw.height.toNat_lt
  rw [toNat_ofInt left (by omega), toNat_ofInt above (by omega)]
  exact ⟨by omega, by omega⟩

theorem InFrame.lt {raw : RawFrame} {x y : Int} (inFrame : InFrame raw x y) :
    UInt16.ofInt x < raw.width ∧ UInt16.ofInt y < raw.height := by
  obtain ⟨column, row⟩ := inFrame.toNat_eq
  obtain ⟨left, right, above, below⟩ := inFrame
  rw [UInt16.lt_iff_toNat_lt, UInt16.lt_iff_toNat_lt]
  exact ⟨by omega, by omega⟩

/-- The pixels of a frame of the same size hold what the loops wrote to them. -/
theorem pixel_foldl_writes {raw : RawFrame} (source : Int → Int → Rgb) (fits : rgb.Fits)
    (width : rgb.width = raw.width) (height : rgb.height = raw.height) {x y : Int}
    (interior : Interior raw x y) :
    ((writes source raw).foldl (fun rgb write =>
      cameraSetPixelRgb rgb (.ofInt write.1.1) (.ofInt write.1.2) write.2) rgb).pixel
        (.ofInt x) (.ofInt y) = source x y := by
  have here : InFrame raw x y := by
    have near := interior.inFrame 0 0 (by decide) (by decide)
    rwa [Int.add_zero, Int.add_zero] at near
  obtain ⟨column, row⟩ := here.toNat_eq
  apply pixel_foldl fits
  · rw [width]
    exact here.lt.1
  · rw [height]
    exact here.lt.2
  · intro write listed
    rw [width, height]
    exact (inFrame_of_mem_writes listed).lt
  · intro write listed atX atY
    obtain ⟨column', row'⟩ := (inFrame_of_mem_writes listed).toNat_eq
    rw [atX, column] at column'
    rw [atY, row] at row'
    have place : write = ((x, y), write.2) := Prod.ext (Prod.ext column'.symm row'.symm) rfl
    rw [place] at listed
    exact (mem_writes interior write.2).mp listed
  · exact .inr ⟨((x, y), source x y), (mem_writes interior _).mpr rfl, rfl, rfl⟩

theorem showsInside_iff {raw : RawFrame} (source : Int → Int → Rgb) (fits : rgb.Fits)
    (width : rgb.width = raw.width) (height : rgb.height = raw.height) :
    ShowsInside raw ((writes source raw).foldl (fun rgb write =>
      cameraSetPixelRgb rgb (.ofInt write.1.1) (.ofInt write.1.2) write.2) rgb) colour ↔
      WritesInside raw (writes source raw) colour := by
  rw [writesInside_iff]
  exact forall₃_congr fun x y interior => by
    rw [pixel_foldl_writes source fits width height interior]

/-- Both routines reproduce a uniform colour inside of the frame exactly when no interior site
is swapped, or red and blue are the same: in what they write, and in what they leave in a frame
of that size. -/
theorem demosaic_uniform_iff (raw : RawFrame) (colour : Rgb) (wide : 3 ≤ raw.width.toNat)
    (high : 3 ≤ raw.height.toNat) (uniform : Uniform raw colour) :
    (WritesInside raw (writes (simpleColour raw) raw) colour ∧
        WritesInside raw (writes (bilinearColour raw) raw) colour ↔
      NothingSwapped raw colour) ∧
    ∀ rgb : RgbFrame, rgb.Fits → rgb.width = raw.width → rgb.height = raw.height →
      (ShowsInside raw (cameraBayerDemosaicSimple raw rgb) colour ∧
          ShowsInside raw (cameraBayerDemosaicBilinear raw rgb) colour ↔
        NothingSwapped raw colour) := by
  have written := writesInside_uniform_iff raw colour wide high uniform
  refine ⟨written, fun rgb fits width height => ?_⟩
  rw [← written, cameraBayerDemosaicSimple, cameraBayerDemosaicBilinear,
    showsInside_iff _ fits width height, showsInside_iff _ fits width height]

end Buffer

/-- A black frame of 4 by 4 pixels. -/
def blank : RgbFrame := ⟨fun _ => 0, 4, 4, 12⟩

theorem blank_fits : blank.Fits := ⟨by decide, by decide⟩

/-- A frame with red in its second row. -/
theorem demosaic_uniform_iff_gbrg :
    ShowsInside (mosaic .gbrg 4 4 orange)
        (cameraBayerDemosaicSimple (mosaic .gbrg 4 4 orange) blank) orange ∧
      ShowsInside (mosaic .gbrg 4 4 orange)
        (cameraBayerDemosaicBilinear (mosaic .gbrg 4 4 orange) blank) orange :=
  ((demosaic_uniform_iff (mosaic .gbrg 4 4 orange) orange (by decide) (by decide)
    (mosaic_uniform _ _ _ _)).2 blank blank_fits rfl rfl).mpr (.inl rfl)

/-- In a frame with red in its first row, the green sites between red ones turn blue. -/
theorem demosaic_swaps :
    Uniform (mosaic .rggb 4 4 orange) orange ∧ Interior (mosaic .rggb 4 4 orange) 1 2 ∧
      (cameraBayerDemosaicSimple (mosaic .rggb 4 4 orange) blank).pixel 1 2 = ⟨50, 100, 200⟩ ∧
        ¬WritesInside (mosaic .rggb 4 4 orange)
          (writes (simpleColour (mosaic .rggb 4 4 orange)) (mosaic .rggb 4 4 orange)) orange := by
  have inside : Interior (mosaic .rggb 4 4 orange) 1 2 :=
    ⟨by decide, by decide, by decide, by decide⟩
  have swapped : simpleColour (mosaic .rggb 4 4 orange) 1 2 = ⟨50, 100, 200⟩ := by decide
  have shown := pixel_foldl_writes (simpleColour (mosaic .rggb 4 4 orange)) blank_fits rfl rfl inside
  refine ⟨mosaic_uniform _ _ _ _, inside, shown.trans swapped, fun reproduced => ?_⟩
  rw [writesInside_iff] at reproduced
  exact absurd (swapped.symm.trans (reproduced 1 2 inside)) (by decide)

end Sensor

end MiniIotRobotEdge
