import Pathological.Framework.Tiling
import Pathological.RenderWorker.Shader

/-!
# Tiled rendering

`PathTracer::render` and what it calls, over the launches it records: a launch
is the push constants and the extent `traceRaysKHR` gets, and its invocations
store their texels in whatever order the GPU runs them. The statistics are kept
as the source keeps them; what is printed is left out.

Sizes and offsets are `UInt32`, with its wrapping arithmetic. A tile is in range
(`Tile.InRange`) when its far edges are representable; then nothing `render`
computes for it wraps (`Tile.InRange.noWrap`), its quadrants are in range again,
and the launches of `renderTileRecursive` are the pieces of a subdivision of its
rectangle (`renderTileRecursive_launches`).
-/

namespace Pathological.RenderWorker

open Framework

/-! ### `path_tracer.cpp` -/

/-- A rectangle of the image, the first four parameters of `renderTileRecursive`. -/
structure Tile where
  offsetX : UInt32
  offsetY : UInt32
  width : UInt32
  height : UInt32
  deriving DecidableEq, Repr

/-- `SubdivisionStats`. -/
structure SubdivisionStats where
  minTileSize : UInt32 := 0xFFFFFFFF
  maxTileSize : UInt32 := 0
  totalTiles : UInt32 := 0
  subdivisions : UInt32 := 0
  deriving DecidableEq, Repr

/-- A call of `traceRaysKHR`, with the push constants before it. -/
structure Launch (F : Type) where
  pc : PushConstants F
  width : UInt32
  height : UInt32

/-- What `render` works on: the launches so far, and the statistics. -/
structure RenderState (F : Type) where
  launches : List (Launch F)
  stats : SubdivisionStats

/-- The members of `PathTracer` that `render` reads. -/
structure PathTracer where
  width : UInt32
  height : UInt32
  deriving DecidableEq, Repr

/-- `MIN_TILE_SIZE`. -/
def minTileSize : UInt32 := 64

/-- `needsSubdivision`. -/
def Tile.needsSubdivision (maxTileSize : UInt32) (t : Tile) : Bool :=
  decide (t.width > maxTileSize) || decide (t.height > maxTileSize)

/-- `canSubdivide`. -/
def Tile.canSubdivide (t : Tile) : Bool :=
  decide (t.width ≥ minTileSize * 2) && decide (t.height ≥ minTileSize * 2)

/-- The branch that cuts the tile is taken. -/
def Tile.subdivides (maxTileSize : UInt32) (t : Tile) : Bool :=
  t.needsSubdivision maxTileSize && t.canSubdivide

/-! The quadrants, in the order of the recursive calls. -/

def Tile.upperLeft (t : Tile) : Tile := ⟨t.offsetX, t.offsetY, t.width / 2, t.height / 2⟩

def Tile.upperRight (t : Tile) : Tile :=
  ⟨t.offsetX + t.width / 2, t.offsetY, t.width - t.width / 2, t.height / 2⟩

def Tile.lowerLeft (t : Tile) : Tile :=
  ⟨t.offsetX, t.offsetY + t.height / 2, t.width / 2, t.height - t.height / 2⟩

def Tile.lowerRight (t : Tile) : Tile :=
  ⟨t.offsetX + t.width / 2, t.offsetY + t.height / 2, t.width - t.width / 2,
    t.height - t.height / 2⟩

/-- A tile that is cut is cut into smaller ones. -/
theorem Tile.subdivides_width {maxTileSize : UInt32} {t : Tile}
    (h : t.subdivides maxTileSize = true) :
    (t.width / 2).toNat < t.width.toNat ∧ (t.width - t.width / 2).toNat < t.width.toNat := by
  have hcan : t.canSubdivide = true := (Bool.and_eq_true_iff.mp h).2
  have hwidth : minTileSize * 2 ≤ t.width := of_decide_eq_true (Bool.and_eq_true_iff.mp hcan).1
  rw [UInt32.le_iff_toNat_le, show (minTileSize * 2).toNat = 128 from rfl] at hwidth
  have hhalf : (t.width / 2).toNat = t.width.toNat / 2 := UInt32.toNat_div _ _
  have hrest : (t.width - t.width / 2).toNat = t.width.toNat - (t.width / 2).toNat :=
    UInt32.toNat_sub_of_le _ _ (UInt32.le_iff_toNat_le.mpr (by omega))
  omega

/-- `SubdivisionStats` after a launch. -/
def SubdivisionStats.launch (stats : SubdivisionStats) (t : Tile) : SubdivisionStats :=
  { stats with
    totalTiles := stats.totalTiles + 1
    minTileSize := min stats.minTileSize (max t.width t.height)
    maxTileSize := max stats.maxTileSize (max t.width t.height) }

section Render

variable {F : Type} [OfScientific F] [Glm F] (tracer : PathTracer) (samplesPerPixel : UInt32)

/-- The push constants `renderTileRegion` sets up. -/
def pushConstants (offsetX offsetY : UInt32) : PushConstants F :=
  let cameraPosition : Vec3 F := ⟨0.0, 0.0, 3.5⟩
  let target : Vec3 F := ⟨0.0, 0.0, 0.0⟩
  let cameraForward := Glm.normalize (Glm.sub target cameraPosition)
  let cameraRight := Glm.normalize (Glm.cross cameraForward ⟨0.0, 1.0, 0.0⟩)
  { cameraPosition
    fov := Glm.radians 45.0
    cameraForward
    cameraRight
    cameraUp := Glm.cross cameraRight cameraForward
    samplesPerPixel
    frameIndex := 0
    maxBounces := 8
    tileOffset := ⟨offsetX, offsetY⟩
    imageSize := ⟨tracer.width, tracer.height⟩ }

/-- The launch of a tile. -/
def Tile.launch (t : Tile) : Launch F :=
  ⟨pushConstants tracer samplesPerPixel t.offsetX t.offsetY, t.width, t.height⟩

/-- `renderTileRegion`. -/
def renderTileRegion (t : Tile) (s : RenderState F) : RenderState F :=
  { s with launches := s.launches ++ [t.launch tracer samplesPerPixel] }

/-- `renderTileRecursive`. -/
def renderTileRecursive (maxTileSize : UInt32) (t : Tile) (s : RenderState F) : RenderState F :=
  if t.subdivides maxTileSize = true then
    let s := { s with stats.subdivisions := s.stats.subdivisions + 1 }
    let s := renderTileRecursive maxTileSize t.upperLeft s
    let s := renderTileRecursive maxTileSize t.upperRight s
    let s := renderTileRecursive maxTileSize t.lowerLeft s
    renderTileRecursive maxTileSize t.lowerRight s
  else
    let s := renderTileRegion tracer samplesPerPixel t s
    { s with stats := s.stats.launch t }
termination_by t.width.toNat
decreasing_by
  · exact (Tile.subdivides_width ‹_›).1
  · exact (Tile.subdivides_width ‹_›).2
  · exact (Tile.subdivides_width ‹_›).1
  · exact (Tile.subdivides_width ‹_›).2

/-- The tile of the full image. -/
def PathTracer.fullImage : Tile := ⟨0, 0, tracer.width, tracer.height⟩

/-- `render`. -/
def render (maxTileSize : UInt32) : RenderState F :=
  renderTileRecursive tracer samplesPerPixel maxTileSize tracer.fullImage ⟨[], {}⟩

end Render

/-! ### Range -/

/-- The far edges of the tile are representable. -/
structure Tile.InRange (t : Tile) : Prop where
  x : t.offsetX.toNat + t.width.toNat < 2 ^ 32
  y : t.offsetY.toNat + t.height.toNat < 2 ^ 32

/-- What is computed for the tile does not wrap: the offsets and extents of its
quadrants, and the coordinates of its pixels in the shader. -/
structure Tile.NoWrap (t : Tile) : Prop where
  offsetX : (t.offsetX + t.width / 2).toNat = t.offsetX.toNat + t.width.toNat / 2
  offsetY : (t.offsetY + t.height / 2).toNat = t.offsetY.toNat + t.height.toNat / 2
  width : (t.width - t.width / 2).toNat = t.width.toNat - t.width.toNat / 2
  height : (t.height - t.height / 2).toNat = t.height.toNat - t.height.toNat / 2
  pixelX : ∀ x < t.width, (x + t.offsetX).toNat = x.toNat + t.offsetX.toNat
  pixelY : ∀ y < t.height, (y + t.offsetY).toNat = y.toNat + t.offsetY.toNat

/-- An offset and an extent with a representable sum. -/
theorem toNat_half {o n : UInt32} (h : o.toNat + n.toNat < 2 ^ 32) :
    (o + n / 2).toNat = o.toNat + n.toNat / 2 ∧ (n - n / 2).toNat = n.toNat - n.toNat / 2 ∧
      ∀ i < n, (i + o).toNat = i.toNat + o.toNat := by
  have hhalf : (n / 2).toNat = n.toNat / 2 := UInt32.toNat_div _ _
  refine ⟨?_, ?_, fun i hi => ?_⟩
  · rw [UInt32.toNat_add, hhalf]
    exact Nat.mod_eq_of_lt (by omega)
  · rw [UInt32.toNat_sub_of_le _ _ (UInt32.le_iff_toNat_le.mpr (by omega)), hhalf]
  · have hlt : i.toNat < n.toNat := UInt32.lt_iff_toNat_lt.mp hi
    rw [UInt32.toNat_add]
    exact Nat.mod_eq_of_lt (by omega)

namespace Tile

variable {t : Tile} {maxTileSize : UInt32}

theorem InRange.noWrap (h : t.InRange) : t.NoWrap where
  offsetX := (toNat_half h.x).1
  offsetY := (toNat_half h.y).1
  width := (toNat_half h.x).2.1
  height := (toNat_half h.y).2.1
  pixelX := (toNat_half h.x).2.2
  pixelY := (toNat_half h.y).2.2

/-- The tile in exact arithmetic. -/
def rect (t : Tile) : Rect :=
  ⟨t.offsetX.toNat, t.offsetY.toNat, t.width.toNat, t.height.toNat⟩

theorem rect_upperLeft : t.upperLeft.rect = t.rect.upperLeft := rfl

theorem InRange.rect_upperRight (h : t.InRange) : t.upperRight.rect = t.rect.upperRight := by
  unfold upperRight rect Rect.upperRight
  rw [h.noWrap.offsetX, h.noWrap.width]
  rfl

theorem InRange.rect_lowerLeft (h : t.InRange) : t.lowerLeft.rect = t.rect.lowerLeft := by
  unfold lowerLeft rect Rect.lowerLeft
  rw [h.noWrap.offsetY, h.noWrap.height]
  rfl

theorem InRange.rect_lowerRight (h : t.InRange) : t.lowerRight.rect = t.rect.lowerRight := by
  unfold lowerRight rect Rect.lowerRight
  rw [h.noWrap.offsetX, h.noWrap.offsetY, h.noWrap.width, h.noWrap.height]

theorem inRange_iff : t.InRange ↔
    t.rect.x + t.rect.width < 2 ^ 32 ∧ t.rect.y + t.rect.height < 2 ^ 32 :=
  ⟨fun h => ⟨h.x, h.y⟩, fun h => ⟨h.1, h.2⟩⟩

theorem InRange.upperLeft (h : t.InRange) : t.upperLeft.InRange := by
  obtain ⟨hx, hy⟩ := inRange_iff.mp h
  rw [inRange_iff, rect_upperLeft, Rect.upperLeft]
  dsimp only
  omega

theorem InRange.upperRight (h : t.InRange) : t.upperRight.InRange := by
  obtain ⟨hx, hy⟩ := inRange_iff.mp h
  rw [inRange_iff, h.rect_upperRight, Rect.upperRight]
  dsimp only
  omega

theorem InRange.lowerLeft (h : t.InRange) : t.lowerLeft.InRange := by
  obtain ⟨hx, hy⟩ := inRange_iff.mp h
  rw [inRange_iff, h.rect_lowerLeft, Rect.lowerLeft]
  dsimp only
  omega

theorem InRange.lowerRight (h : t.InRange) : t.lowerRight.InRange := by
  obtain ⟨hx, hy⟩ := inRange_iff.mp h
  rw [inRange_iff, h.rect_lowerRight, Rect.lowerRight]
  dsimp only
  omega

/-- When `renderTileRecursive` cuts a rectangle. -/
def Cut (maxTileSize : ℕ) (r : Rect) : Prop :=
  (maxTileSize < r.width ∨ maxTileSize < r.height) ∧ 128 ≤ r.width ∧ 128 ≤ r.height

theorem subdivides_iff : t.subdivides maxTileSize = true ↔ Cut maxTileSize.toNat t.rect := by
  unfold subdivides needsSubdivision canSubdivide Cut
  rw [Bool.and_eq_true, Bool.or_eq_true, Bool.and_eq_true, decide_eq_true_iff, decide_eq_true_iff,
    decide_eq_true_iff, decide_eq_true_iff]
  exact Iff.rfl

end Tile

/-- The calls of `renderTileRecursive` that the call for `root` leads to. -/
inductive Called (maxTileSize : UInt32) (root : Tile) : Tile → Prop where
  | root : Called maxTileSize root root
  | upperLeft {t} (h : Called maxTileSize root t) (hs : t.subdivides maxTileSize = true) :
      Called maxTileSize root t.upperLeft
  | upperRight {t} (h : Called maxTileSize root t) (hs : t.subdivides maxTileSize = true) :
      Called maxTileSize root t.upperRight
  | lowerLeft {t} (h : Called maxTileSize root t) (hs : t.subdivides maxTileSize = true) :
      Called maxTileSize root t.lowerLeft
  | lowerRight {t} (h : Called maxTileSize root t) (hs : t.subdivides maxTileSize = true) :
      Called maxTileSize root t.lowerRight

/-- What a call leads to is what its own calls lead to. -/
theorem Called.trans {maxTileSize : UInt32} {root t t' : Tile} (h : Called maxTileSize root t)
    (h' : Called maxTileSize t t') : Called maxTileSize root t' := by
  induction h' with
  | root => exact h
  | upperLeft _ hs ih => exact ih.upperLeft hs
  | upperRight _ hs ih => exact ih.upperRight hs
  | lowerLeft _ hs ih => exact ih.lowerLeft hs
  | lowerRight _ hs ih => exact ih.lowerRight hs

/-- Every call that a call in range leads to is in range. -/
theorem Called.inRange {maxTileSize : UInt32} {root t : Tile} (h : Called maxTileSize root t)
    (hroot : root.InRange) : t.InRange := by
  induction h with
  | root => exact hroot
  | upperLeft _ _ ih => exact ih.upperLeft
  | upperRight _ _ ih => exact ih.upperRight
  | lowerLeft _ _ ih => exact ih.lowerLeft
  | lowerRight _ _ ih => exact ih.lowerRight

/-! ### The launches -/

section Launches

variable {F : Type} [OfScientific F] [Glm F] (tracer : PathTracer)
  (samplesPerPixel maxTileSize : UInt32)

/-- **The launches of a call in range are the pieces of a subdivision of its
rectangle**, in exact arithmetic. -/
theorem renderTileRecursive_launches (t : Tile) (s : RenderState F) (hr : t.InRange) :
    ∃ ts : List Tile, (renderTileRecursive tracer samplesPerPixel maxTileSize t s).launches =
        s.launches ++ ts.map (Tile.launch tracer samplesPerPixel) ∧
      (∀ t' ∈ ts, Called maxTileSize t t') ∧
      Subdivides (Tile.Cut maxTileSize.toNat) t.rect (ts.map Tile.rect) := by
  fun_induction renderTileRecursive tracer samplesPerPixel maxTileSize t s with
  | case1 t s hs s₁ s₂ s₃ s₄ ih₁ _ ih₂ _ ih₃ _ ih₄ =>
    -- each quadrant adds its pieces
    obtain ⟨ts₁, hl₁, hc₁, hsub₁⟩ := ih₁ hr.upperLeft
    obtain ⟨ts₂, hl₂, hc₂, hsub₂⟩ := ih₂ hr.upperRight
    obtain ⟨ts₃, hl₃, hc₃, hsub₃⟩ := ih₃ hr.lowerLeft
    obtain ⟨ts₄, hl₄, hc₄, hsub₄⟩ := ih₄ hr.lowerRight
    refine ⟨ts₁ ++ (ts₂ ++ (ts₃ ++ ts₄)), ?_, fun t' ht' => ?_, ?_⟩
    · rw [hl₄, hl₃, hl₂, hl₁]
      simp only [s₁, List.map_append, List.append_assoc]
    · simp only [List.mem_append] at ht'
      rcases ht' with ht' | ht' | ht' | ht'
      · exact (Called.root.upperLeft hs).trans (hc₁ t' ht')
      · exact (Called.root.upperRight hs).trans (hc₂ t' ht')
      · exact (Called.root.lowerLeft hs).trans (hc₃ t' ht')
      · exact (Called.root.lowerRight hs).trans (hc₄ t' ht')
    · rw [Tile.rect_upperLeft] at hsub₁
      rw [hr.rect_upperRight] at hsub₂
      rw [hr.rect_lowerLeft] at hsub₃
      rw [hr.rect_lowerRight] at hsub₄
      simp only [List.map_append]
      exact .node (Tile.subdivides_iff.mp hs) hsub₁ hsub₂ hsub₃ hsub₄
  | case2 t s hs s₁ =>
    refine ⟨[t], rfl, fun t' ht' => ?_, .leaf fun hcut => hs (Tile.subdivides_iff.mpr hcut)⟩
    rw [List.mem_singleton.mp ht']
    exact .root

end Launches

end Pathological.RenderWorker
