import Mathlib.Data.List.Nodup
import Mathlib.Data.List.ProdSigma
import Pathological.RenderWorker.PathTracer

/-!
# Tiled rendering equals untiled rendering

The launches of `render` together store each pixel of the image once and no
other (`count_storesOf`), whatever the tile size limit: they are the pieces of a
subdivision, which tile the image, and an invocation stores at its place in the
tile plus the tile's offset. What it stores is a function of the pixel and of the
push constants that all launches share, so the image does not depend on the tile
size limit or on the order of the invocations (`tiled_render`).
-/

namespace Pathological.RenderWorker

open Framework

/-! ### What a launch stores -/

section Launch

variable {F : Type}

/-- The invocations of a launch, by `gl_LaunchIDEXT.xy`. -/
def Launch.invocations (l : Launch F) : List UVec2 :=
  ((List.range l.width.toNat).product (List.range l.height.toNat)).map fun p =>
    ⟨.ofNat p.1, .ofNat p.2⟩

/-- The stores of a launch, in some order. -/
def Launch.stores [Glsl F] (scene : Scene F) (l : Launch F) : List (IVec2 × Texel) :=
  l.invocations.map (raygen scene l.pc)

variable {l : Launch F}

/-- A number below a 32-bit extent survives the conversion. -/
theorem toNat_ofNat_below {n : ℕ} {w : UInt32} (h : n < w.toNat) : (UInt32.ofNat n).toNat = n :=
  UInt32.toNat_ofNat_of_lt' (h.trans w.toNat_lt)

theorem Launch.mem_invocations {p : UVec2} :
    p ∈ l.invocations ↔ p.x < l.width ∧ p.y < l.height := by
  unfold Launch.invocations
  rw [List.mem_map, UInt32.lt_iff_toNat_lt, UInt32.lt_iff_toNat_lt]
  constructor
  · rintro ⟨⟨x, y⟩, hmem, rfl⟩
    obtain ⟨hx, hy⟩ := List.mem_product.mp hmem
    rw [List.mem_range] at hx hy
    rw [toNat_ofNat_below hx, toNat_ofNat_below hy]
    exact ⟨hx, hy⟩
  · rintro ⟨hx, hy⟩
    refine ⟨(p.x.toNat, p.y.toNat), ?_, ?_⟩
    · exact List.mem_product.mpr ⟨List.mem_range.mpr hx, List.mem_range.mpr hy⟩
    · rw [UInt32.ofNat_toNat, UInt32.ofNat_toNat]

theorem Launch.nodup_invocations : l.invocations.Nodup := by
  refine List.Nodup.map_on ?_ (List.nodup_range.product List.nodup_range)
  rintro ⟨x, y⟩ hp ⟨x', y'⟩ hp' he
  obtain ⟨hx, hy⟩ := List.mem_product.mp hp
  obtain ⟨hx', hy'⟩ := List.mem_product.mp hp'
  rw [List.mem_range] at hx hy hx' hy'
  obtain ⟨hex, hey⟩ := UVec2.mk.inj he
  have hxx : x = x' := by
    rw [← toNat_ofNat_below hx, ← toNat_ofNat_below hx', hex]
  have hyy : y = y' := by
    rw [← toNat_ofNat_below hy, ← toNat_ofNat_below hy', hey]
  rw [hxx, hyy]

end Launch

/-! ### What a tile stores -/

section Tile

variable {F : Type} [Glm F] [Glsl F] {tracer : PathTracer} {samplesPerPixel : UInt32} {t : Tile}

/-- The pixel is at the place `i` of an extent `n` at the offset `o`. -/
theorem add_offset_iff {o n p : UInt32} (h : o.toNat + n.toNat < 2 ^ 32) :
    (∃ i < n, i + o = p) ↔ o.toNat ≤ p.toNat ∧ p.toNat < o.toNat + n.toNat := by
  constructor
  · rintro ⟨i, hi, rfl⟩
    have hlt : i.toNat < n.toNat := UInt32.lt_iff_toNat_lt.mp hi
    rw [(toNat_half h).2.2 i hi]
    omega
  · -- the place is the pixel less the offset
    rintro ⟨hle, hlt⟩
    have hsub : (p - o).toNat = p.toNat - o.toNat :=
      UInt32.toNat_sub_of_le _ _ (UInt32.le_iff_toNat_le.mpr hle)
    refine ⟨p - o, UInt32.lt_iff_toNat_lt.mpr (by omega), ?_⟩
    exact UInt32.sub_add_cancel p o

/-- A launch of a tile in range stores to the pixels of its rectangle, once to each. -/
theorem Tile.InRange.count_stores (h : t.InRange) (scene : Scene F) (p : UVec2) :
    (((t.launch tracer samplesPerPixel).stores scene).map Prod.fst).count p.toIVec2 =
      (t.rect.contains (p.x.toNat, p.y.toNat)).toNat := by
  let store : UVec2 → IVec2 := fun c => (c + ⟨t.offsetX, t.offsetY⟩).toIVec2
  have hfst : ((t.launch tracer samplesPerPixel).stores scene).map Prod.fst =
      (t.launch (F := F) tracer samplesPerPixel).invocations.map store := List.map_map
  -- adding the offset and converting to `ivec2` lose nothing, wrapping or not
  have hinj : Function.Injective store := by
    intro c c' he
    obtain ⟨hx, hy⟩ := UVec2.mk.inj (congrArg IVec2.toUVec2 he)
    have hcx : c.x = c'.x := (UInt32.add_left_inj _).mp hx
    have hcy : c.y = c'.y := (UInt32.add_left_inj _).mp hy
    cases c
    cases c'
    rw [UVec2.mk.injEq]
    exact ⟨hcx, hcy⟩
  have hmem : p.toIVec2 ∈ (t.launch (F := F) tracer samplesPerPixel).invocations.map store ↔
      t.rect.contains (p.x.toNat, p.y.toNat) = true := by
    rw [Rect.contains_iff, List.mem_map]
    show _ ↔ (t.offsetX.toNat ≤ p.x.toNat ∧ p.x.toNat < t.offsetX.toNat + t.width.toNat) ∧
      (t.offsetY.toNat ≤ p.y.toNat ∧ p.y.toNat < t.offsetY.toNat + t.height.toNat)
    rw [← add_offset_iff h.x, ← add_offset_iff h.y]
    constructor
    · rintro ⟨c, hc, he⟩
      obtain ⟨hx, hy⟩ := UVec2.mk.inj (congrArg IVec2.toUVec2 he)
      obtain ⟨hcx, hcy⟩ := Launch.mem_invocations.mp hc
      exact ⟨⟨c.x, hcx, hx⟩, ⟨c.y, hcy, hy⟩⟩
    · rintro ⟨⟨x, hx, hex⟩, ⟨y, hy, hey⟩⟩
      refine ⟨⟨x, y⟩, Launch.mem_invocations.mpr ⟨hx, hy⟩, ?_⟩
      exact congrArg UVec2.toIVec2 (UVec2.mk.injEq .. ▸ ⟨hex, hey⟩)
  -- distinct invocations store to distinct pixels
  rw [hfst, (Launch.nodup_invocations.map hinj).count]
  split
  · next hp => rw [hmem.mp hp, Bool.toNat_true]
  · next hp => rw [Bool.eq_false_iff.mpr fun hc => hp (hmem.mpr hc), Bool.toNat_false]

end Tile

/-! ### What `render` stores -/

section Render

variable {F : Type} [Glsl F] [Glm F] (tracer : PathTracer) (samplesPerPixel : UInt32)

/-- The stores of a list of launches, in some order. -/
def storesOf (scene : Scene F) (launches : List (Launch F)) : List (IVec2 × Texel) :=
  launches.flatMap fun l => l.stores scene

/-- The one launch over the full image. -/
def untiled : List (Launch F) :=
  [tracer.fullImage.launch tracer samplesPerPixel]

/-- The pixel is in the image. -/
def PathTracer.inImage (p : UVec2) : Prop :=
  p.x < tracer.width ∧ p.y < tracer.height

instance (p : UVec2) : Decidable (tracer.inImage p) :=
  inferInstanceAs (Decidable (p.x < tracer.width ∧ p.y < tracer.height))

theorem PathTracer.fullImage_inRange : tracer.fullImage.InRange where
  x := by
    show 0 + tracer.width.toNat < 2 ^ 32
    rw [Nat.zero_add]
    exact tracer.width.toNat_lt
  y := by
    show 0 + tracer.height.toNat < 2 ^ 32
    rw [Nat.zero_add]
    exact tracer.height.toNat_lt

theorem PathTracer.fullImage_contains (p : UVec2) :
    (tracer.fullImage.rect.contains (p.x.toNat, p.y.toNat)).toNat =
      if tracer.inImage p then 1 else 0 := by
  have hiff : tracer.fullImage.rect.contains (p.x.toNat, p.y.toNat) = true ↔
      tracer.inImage p := by
    rw [Rect.contains_iff]
    show (0 ≤ p.x.toNat ∧ p.x.toNat < 0 + tracer.width.toNat) ∧
      (0 ≤ p.y.toNat ∧ p.y.toNat < 0 + tracer.height.toNat) ↔ _
    unfold PathTracer.inImage
    rw [Nat.zero_add, Nat.zero_add, UInt32.lt_iff_toNat_lt, UInt32.lt_iff_toNat_lt]
    exact and_congr (and_iff_right (Nat.zero_le _)) (and_iff_right (Nat.zero_le _))
  split
  · next hp => rw [hiff.mpr hp, Bool.toNat_true]
  · next hp => rw [Bool.eq_false_iff.mpr fun hc => hp (hiff.mp hc), Bool.toNat_false]

/-- The pieces of a subdivision of the full image store each pixel of the image
once, and no other. -/
theorem count_storesOf (scene : Scene F) {ts : List Tile} (hr : ∀ t ∈ ts, t.InRange)
    (hts : IsTiling (ts.map Tile.rect) tracer.fullImage.rect) (p : UVec2) :
    ((storesOf scene (ts.map (Tile.launch tracer samplesPerPixel))).map Prod.fst).count
      p.toIVec2 = if tracer.inImage p then 1 else 0 := by
  unfold storesOf
  rw [List.map_flatMap, List.flatMap_map, ← PathTracer.fullImage_contains, ← hts,
    List.countP_map]
  exact count_flatMap_pieces fun t ht => (hr t ht).count_stores scene p

/-- The launches of `render` are those of tiles that tile the image. -/
theorem render_launches (maxTileSize : UInt32) :
    ∃ ts : List Tile, (render (F := F) tracer samplesPerPixel maxTileSize).launches =
        ts.map (Tile.launch tracer samplesPerPixel) ∧
      (∀ t ∈ ts, Called maxTileSize tracer.fullImage t) ∧
      IsTiling (ts.map Tile.rect) tracer.fullImage.rect := by
  obtain ⟨ts, hlaunches, hcalled, hsub⟩ := renderTileRecursive_launches (F := F) tracer
    samplesPerPixel maxTileSize tracer.fullImage ⟨[], {}⟩ tracer.fullImage_inRange
  exact ⟨ts, hlaunches, hcalled, hsub.isTiling⟩

/-- The one texel each pixel can get. -/
def pixelTexel (scene : Scene F) (c : IVec2) : Texel :=
  raygenColor scene (pushConstants tracer samplesPerPixel 0 0) c.toUVec2

/-- Whatever the tile, a pixel gets that texel. -/
theorem store_value (scene : Scene F) {ts : List Tile} {w : IVec2 × Texel}
    (hw : w ∈ storesOf scene (ts.map (Tile.launch tracer samplesPerPixel))) :
    w.2 = pixelTexel tracer samplesPerPixel scene w.1 := by
  obtain ⟨l, hl, hw⟩ := List.mem_flatMap.mp hw
  obtain ⟨t, -, rfl⟩ := List.mem_map.mp hl
  obtain ⟨c, -, rfl⟩ := List.mem_map.mp hw
  have hpc : (t.launch (F := F) tracer samplesPerPixel).pc =
      { pushConstants tracer samplesPerPixel 0 0 with
        tileOffset := ⟨t.offsetX, t.offsetY⟩ } := rfl
  show raygenColor scene (t.launch tracer samplesPerPixel).pc _ =
    pixelTexel tracer samplesPerPixel scene (UVec2.toIVec2 _)
  rw [pixelTexel, UVec2.toUVec2_toIVec2, hpc, raygenColor_tileOffset]

/-- Two tilings of the image store the same image, in any order of their
invocations. -/
theorem scatter_storesOf (scene : Scene F) {ts ts' : List Tile} (hr : ∀ t ∈ ts, t.InRange)
    (hr' : ∀ t ∈ ts', t.InRange) (hts : IsTiling (ts.map Tile.rect) tracer.fullImage.rect)
    (hts' : IsTiling (ts'.map Tile.rect) tracer.fullImage.rect) (image : IVec2 → Texel)
    {ws ws' : List (IVec2 × Texel)}
    (hws : ws.Perm (storesOf scene (ts.map (Tile.launch tracer samplesPerPixel))))
    (hws' : ws'.Perm (storesOf scene (ts'.map (Tile.launch tracer samplesPerPixel)))) :
    scatter image ws = scatter image ws' := by
  -- a key is written to when it is a pixel of the image
  have hkeys : ∀ {ts : List Tile} {ws : List (IVec2 × Texel)}, (∀ t ∈ ts, t.InRange) →
      IsTiling (ts.map Tile.rect) tracer.fullImage.rect →
      ws.Perm (storesOf scene (ts.map (Tile.launch tracer samplesPerPixel))) →
      ∀ k : IVec2, k ∈ ws.map Prod.fst ↔ tracer.inImage k.toUVec2 := by
    intro ts ws hr hts hws k
    have hcount := count_storesOf tracer samplesPerPixel scene hr hts k.toUVec2
    rw [IVec2.toIVec2_toUVec2] at hcount
    rw [(hws.map Prod.fst).mem_iff, ← List.count_pos_iff, hcount]
    split
    · next hp => exact iff_of_true Nat.one_pos hp
    · next hp => exact iff_of_false (Nat.lt_irrefl 0) hp
  refine scatter_congr (f := pixelTexel tracer samplesPerPixel scene) (fun w hw => ?_)
    (fun w hw => ?_) fun k => ?_
  · exact store_value tracer samplesPerPixel scene (hws.mem_iff.mp hw)
  · exact store_value tracer samplesPerPixel scene (hws'.mem_iff.mp hw)
  · rw [hkeys hr hts hws k, hkeys hr' hts' hws' k]

/-- The launches of `render` under a tile size limit, against the image. -/
structure TiledRender (scene : Scene F) (maxTileSize : UInt32) : Prop where
  /-- No offset or extent wraps in any call of `renderTileRecursive`, -/
  no_wrap : ∀ t, Called maxTileSize tracer.fullImage t → t.NoWrap
  /-- and every launch is that of such a call. -/
  launched : ∀ l ∈ (render (F := F) tracer samplesPerPixel maxTileSize).launches,
    ∃ t, Called maxTileSize tracer.fullImage t ∧ l = t.launch tracer samplesPerPixel
  /-- Each pixel of the image is stored once, and no other is stored. -/
  once : ∀ p : UVec2, ((storesOf scene (render tracer samplesPerPixel maxTileSize).launches).map
    Prod.fst).count p.toIVec2 = if tracer.inImage p then 1 else 0
  /-- The image is that of one launch over the full image, -/
  untiled : ∀ (image : IVec2 → Texel) (ws ws' : List (IVec2 × Texel)),
    ws.Perm (storesOf scene (render tracer samplesPerPixel maxTileSize).launches) →
    ws'.Perm (storesOf scene (untiled tracer samplesPerPixel)) →
    scatter image ws = scatter image ws'
  /-- and that under any other limit. -/
  any_limit : ∀ (limit : UInt32) (image : IVec2 → Texel) (ws ws' : List (IVec2 × Texel)),
    ws.Perm (storesOf scene (render tracer samplesPerPixel maxTileSize).launches) →
    ws'.Perm (storesOf scene (render tracer samplesPerPixel limit).launches) →
    scatter image ws = scatter image ws'

/-- **Tiled rendering equals untiled rendering.** -/
theorem tiled_render (scene : Scene F) (maxTileSize : UInt32) :
    TiledRender tracer samplesPerPixel scene maxTileSize := by
  have hfull := tracer.fullImage_inRange
  obtain ⟨ts, hlaunches, hcalled, hts⟩ :=
    render_launches (F := F) tracer samplesPerPixel maxTileSize
  have hr : ∀ t ∈ ts, t.InRange := fun t ht => (hcalled t ht).inRange hfull
  refine ⟨fun t ht => (ht.inRange hfull).noWrap, fun l hl => ?_, fun p => ?_,
    fun image ws ws' hws hws' => ?_, fun limit image ws ws' hws hws' => ?_⟩
  · rw [hlaunches] at hl
    obtain ⟨t, ht, rfl⟩ := List.mem_map.mp hl
    exact ⟨t, hcalled t ht, rfl⟩
  · rw [hlaunches]
    exact count_storesOf tracer samplesPerPixel scene hr hts p
  · -- the full image is a tiling of its own
    rw [hlaunches] at hws
    have hone : ∀ t ∈ [tracer.fullImage], t.InRange := fun t ht => List.mem_singleton.mp ht ▸ hfull
    have hself : Subdivides (fun _ => False) tracer.fullImage.rect
        ([tracer.fullImage].map Tile.rect) := .leaf id
    exact scatter_storesOf tracer samplesPerPixel scene hr hone hts hself.isTiling image hws hws'
  · obtain ⟨ts', hlaunches', hcalled', hts'⟩ :=
      render_launches (F := F) tracer samplesPerPixel limit
    rw [hlaunches] at hws
    rw [hlaunches'] at hws'
    exact scatter_storesOf tracer samplesPerPixel scene hr
      (fun t ht => (hcalled' t ht).inRange hfull) hts hts' image hws hws'

end Render

end Pathological.RenderWorker
