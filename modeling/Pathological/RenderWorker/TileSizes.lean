import Mathlib.Order.Bounds.Basic
import Pathological.Framework.PieceSizes
import Pathological.RenderWorker.TiledRender

/-!
# The sizes of the tiles

What `renderTileRecursive` launches for a width, a height and a tile size limit,
and what `SubdivisionStats` says about it (`subdivision_law`).

A tile is cut only where both of its sides are at least 128, so a side that is over
the limit stays when the other one has been halved below 128. How often a side can
be halved is a matter of the side alone (`halvings`), and the other side is
halved as often. So the launches exceed the limit by less than 64 exactly when
neither side is too long for the number of cuts of the other (`tiles_exceed_little`).
An image that is not too narrow has none over the limit (`tiles_fit`).
-/

namespace Pathological.RenderWorker

open Framework

variable {F : Type} [OfScientific F] [Glm F] (tracer : PathTracer)
  (samplesPerPixel maxTileSize : UInt32)

/-- What `renderTileRecursive(0, 0, width, height, ...)` launches. -/
def tileLaunches (width height : UInt32) : List (Launch F) :=
  (renderTileRecursive tracer samplesPerPixel maxTileSize ⟨0, 0, width, height⟩ ⟨[], {}⟩).launches

/-- The greater side of a launch, as `SubdivisionStats` counts it. -/
def Launch.size (l : Launch F) : ℕ := max l.width.toNat l.height.toNat

/-! ### Statistics -/

/-- What `n` cuts and the launches `ls` do to the statistics. -/
structure StatsAfter (stats stats' : SubdivisionStats) (ls : List (Launch F)) (n : ℕ) : Prop where
  totalTiles : stats'.totalTiles = stats.totalTiles + UInt32.ofNat ls.length
  subdivisions : stats'.subdivisions = stats.subdivisions + UInt32.ofNat n
  minTileSize : stats'.minTileSize.toNat =
    (ls.map Launch.size).foldl min stats.minTileSize.toNat
  maxTileSize : stats'.maxTileSize.toNat =
    (ls.map Launch.size).foldl max stats.maxTileSize.toNat

theorem toNat_min (a b : UInt32) : (min a b).toNat = min a.toNat b.toNat := by
  show (if a ≤ b then a else b).toNat = if a.toNat ≤ b.toNat then a.toNat else b.toNat
  simp only [UInt32.le_iff_toNat_le]
  split
  · rfl
  · rfl

theorem toNat_max (a b : UInt32) : (max a b).toNat = max a.toNat b.toNat := by
  show (if a ≤ b then b else a).toNat = if a.toNat ≤ b.toNat then b.toNat else a.toNat
  simp only [UInt32.le_iff_toNat_le]
  split
  · rfl
  · rfl

namespace StatsAfter

variable {stats stats' stats'' : SubdivisionStats} {ls ls' : List (Launch F)} {n n' : ℕ}

omit [OfScientific F] [Glm F] in
theorem trans (h : StatsAfter stats stats' ls n) (h' : StatsAfter stats' stats'' ls' n') :
    StatsAfter stats stats'' (ls ++ ls') (n + n') where
  totalTiles := by
    rw [h'.totalTiles, h.totalTiles, List.length_append, UInt32.ofNat_add, UInt32.add_assoc]
  subdivisions := by
    rw [h'.subdivisions, h.subdivisions, UInt32.ofNat_add, UInt32.add_assoc]
  minTileSize := by
    rw [h'.minTileSize, h.minTileSize, List.map_append, List.foldl_append]
  maxTileSize := by
    rw [h'.maxTileSize, h.maxTileSize, List.map_append, List.foldl_append]

omit [OfScientific F] [Glm F] in
/-- A cut. -/
theorem cut (stats : SubdivisionStats) : StatsAfter (F := F) stats
    { stats with subdivisions := stats.subdivisions + 1 } [] 1 where
  totalTiles := (UInt32.add_zero _).symm
  subdivisions := rfl
  minTileSize := rfl
  maxTileSize := rfl

/-- A launch. -/
theorem launch (stats : SubdivisionStats) (t : Tile) :
    StatsAfter (F := F) stats (stats.launch t) [t.launch tracer samplesPerPixel] 0 where
  totalTiles := rfl
  subdivisions := (UInt32.add_zero _).symm
  minTileSize := by
    show (min stats.minTileSize (max t.width t.height)).toNat = _
    rw [toNat_min, toNat_max]
    rfl
  maxTileSize := by
    show (max stats.maxTileSize (max t.width t.height)).toNat = _
    rw [toNat_max, toNat_max]
    rfl

end StatsAfter

/-- A call of `renderTileRecursive` launches one tile more than three for each cut,
and counts them. -/
theorem renderTileRecursive_stats (t : Tile) (s : RenderState F) :
    ∃ ls n, (renderTileRecursive tracer samplesPerPixel maxTileSize t s).launches =
        s.launches ++ ls ∧ ls.length = 3 * n + 1 ∧
      StatsAfter s.stats (renderTileRecursive tracer samplesPerPixel maxTileSize t s).stats
        ls n := by
  fun_induction renderTileRecursive tracer samplesPerPixel maxTileSize t s with
  | case1 t s hs s₁ s₂ s₃ s₄ ih₁ _ ih₂ _ ih₃ _ ih₄ =>
    obtain ⟨ls₁, n₁, hl₁, hn₁, hstats₁⟩ := ih₁
    obtain ⟨ls₂, n₂, hl₂, hn₂, hstats₂⟩ := ih₂
    obtain ⟨ls₃, n₃, hl₃, hn₃, hstats₃⟩ := ih₃
    obtain ⟨ls₄, n₄, hl₄, hn₄, hstats₄⟩ := ih₄
    have hstats := ((((StatsAfter.cut s.stats).trans hstats₁).trans hstats₂).trans
      hstats₃).trans hstats₄
    refine ⟨[] ++ ls₁ ++ ls₂ ++ ls₃ ++ ls₄, 1 + n₁ + n₂ + n₃ + n₄, ?_, ?_, hstats⟩
    · rw [hl₄, hl₃, hl₂, hl₁]
      simp only [s₁, List.nil_append, List.append_assoc]
    · simp only [List.nil_append, List.length_append]
      omega
  | case2 t s hs s₁ =>
    exact ⟨[t.launch tracer samplesPerPixel], 0, rfl, rfl, .launch tracer samplesPerPixel s.stats t⟩

/-! ### What the statistics say -/

/-- `t'` is one of the calls that the call for `t` makes. -/
def CalledBy (maxTileSize : UInt32) (t' t : Tile) : Prop :=
  t.subdivides maxTileSize = true ∧
    t' ∈ [t.upperLeft, t.upperRight, t.lowerLeft, t.lowerRight]

theorem CalledBy.width_lt {maxTileSize : UInt32} {t t' : Tile} (h : CalledBy maxTileSize t' t) :
    t'.width.toNat < t.width.toNat := by
  obtain ⟨hs, hmem⟩ := h
  simp only [List.mem_cons, List.not_mem_nil, or_false] at hmem
  rcases hmem with rfl | rfl | rfl | rfl
  · exact (Tile.subdivides_width hs).1
  · exact (Tile.subdivides_width hs).2
  · exact (Tile.subdivides_width hs).1
  · exact (Tile.subdivides_width hs).2

/-- The calls of `renderTileRecursive` end, whatever the limit. -/
theorem calledBy_wellFounded (maxTileSize : UInt32) : WellFounded (CalledBy maxTileSize) :=
  Subrelation.wf CalledBy.width_lt (measure fun t : Tile => t.width.toNat).wf

/-- The quadrants of a tile that is cut have sides of at least 64. -/
theorem Tile.quadrant_sides {maxTileSize : UInt32} {t : Tile}
    (hs : t.subdivides maxTileSize = true) :
    (64 ≤ t.width / 2 ∧ 64 ≤ t.width - t.width / 2) ∧
      64 ≤ t.height / 2 ∧ 64 ≤ t.height - t.height / 2 := by
  obtain ⟨-, hwidth, hheight⟩ := Tile.subdivides_iff.mp hs
  have hhalf {n : UInt32} (hn : 128 ≤ n.toNat) : 64 ≤ n / 2 ∧ 64 ≤ n - n / 2 := by
    have hsum : (0 : UInt32).toNat + n.toNat < 2 ^ 32 := by
      rw [UInt32.toNat_zero, Nat.zero_add]
      exact n.toNat_lt
    rw [UInt32.le_iff_toNat_le, UInt32.le_iff_toNat_le, UInt32.toNat_div, (toNat_half hsum).2.1]
    show 64 ≤ n.toNat / 2 ∧ 64 ≤ n.toNat - n.toNat / 2
    omega
  exact ⟨hhalf hwidth, hhalf hheight⟩

/-- A call other than the first is for a tile with sides of at least 64. -/
theorem Called.sides {maxTileSize : UInt32} {root t : Tile} (h : Called maxTileSize root t) :
    t = root ∨ 64 ≤ t.width ∧ 64 ≤ t.height := by
  cases h with
  | root => exact Or.inl rfl
  | upperLeft _ hs =>
    obtain ⟨⟨hw, -⟩, hh, -⟩ := Tile.quadrant_sides hs
    exact Or.inr ⟨hw, hh⟩
  | upperRight _ hs =>
    obtain ⟨⟨-, hw⟩, hh, -⟩ := Tile.quadrant_sides hs
    exact Or.inr ⟨hw, hh⟩
  | lowerLeft _ hs =>
    obtain ⟨⟨hw, -⟩, -, hh⟩ := Tile.quadrant_sides hs
    exact Or.inr ⟨hw, hh⟩
  | lowerRight _ hs =>
    obtain ⟨⟨-, hw⟩, -, hh⟩ := Tile.quadrant_sides hs
    exact Or.inr ⟨hw, hh⟩

/-- `render` ends, launches no tile below the floor, and counts what it launches. -/
structure SubdivisionLaw : Prop where
  ends : WellFounded (CalledBy maxTileSize)
  floor : ∀ l ∈ (render (F := F) tracer samplesPerPixel maxTileSize).launches,
    (l = tracer.fullImage.launch tracer samplesPerPixel ∧
      tracer.fullImage.subdivides maxTileSize = false) ∨ 64 ≤ l.width ∧ 64 ≤ l.height
  totalTiles : (render (F := F) tracer samplesPerPixel maxTileSize).stats.totalTiles =
    UInt32.ofNat (render (F := F) tracer samplesPerPixel maxTileSize).launches.length
  subdivisions : (render (F := F) tracer samplesPerPixel maxTileSize).stats.totalTiles =
    3 * (render (F := F) tracer samplesPerPixel maxTileSize).stats.subdivisions + 1
  minTileSize : IsLeast
    {n | ∃ l ∈ (render (F := F) tracer samplesPerPixel maxTileSize).launches, l.size = n}
    (render (F := F) tracer samplesPerPixel maxTileSize).stats.minTileSize.toNat
  maxTileSize : IsGreatest
    {n | ∃ l ∈ (render (F := F) tracer samplesPerPixel maxTileSize).launches, l.size = n}
    (render (F := F) tracer samplesPerPixel maxTileSize).stats.maxTileSize.toNat

/-- The least of some numbers that have the bound the search begins with. -/
theorem isLeast_foldl_min {l : List ℕ} {b : ℕ} (hl : l ≠ []) (hb : ∀ n ∈ l, n ≤ b) :
    IsLeast {n | n ∈ l} (l.foldl min b) := by
  have hfold : (b :: l).min? = some (l.foldl min b) := List.min?_cons'
  obtain ⟨hmem, hle⟩ := List.min?_eq_some_iff.mp hfold
  refine ⟨?_, fun n hn => hle n (List.mem_cons_of_mem _ hn)⟩
  rcases List.mem_cons.mp hmem with hbound | hmem
  · -- then all of them are the bound
    obtain ⟨n, hn⟩ := List.exists_mem_of_ne_nil l hl
    have hle := hle n (List.mem_cons_of_mem _ hn)
    have hn' : n = l.foldl min b := le_antisymm ((hb n hn).trans hbound.ge) hle
    exact hn' ▸ hn
  · exact hmem

/-- The greatest of some numbers. -/
theorem isGreatest_foldl_max {l : List ℕ} (hl : l ≠ []) :
    IsGreatest {n | n ∈ l} (l.foldl max 0) := by
  have hfold : (0 :: l).max? = some (l.foldl max 0) := List.max?_cons'
  obtain ⟨hmem, hle⟩ := List.max?_eq_some_iff.mp hfold
  refine ⟨?_, fun n hn => hle n (List.mem_cons_of_mem _ hn)⟩
  rcases List.mem_cons.mp hmem with hzero | hmem
  · obtain ⟨n, hn⟩ := List.exists_mem_of_ne_nil l hl
    have hle := hle n (List.mem_cons_of_mem _ hn)
    have hn' : n = l.foldl max 0 := le_antisymm hle (hzero.trans_le (Nat.zero_le n))
    exact hn' ▸ hn
  · exact hmem

/-- **The recursion ends, keeps to the floor, and its statistics are true.** -/
theorem subdivision_law : SubdivisionLaw (F := F) tracer samplesPerPixel maxTileSize := by
  obtain ⟨ts, hlaunches, hcalled, hsub⟩ := renderTileRecursive_launches (F := F) tracer
    samplesPerPixel maxTileSize tracer.fullImage ⟨[], {}⟩ tracer.fullImage_inRange
  obtain ⟨ls, n, hls, hlength, hstats⟩ := renderTileRecursive_stats (F := F) tracer
    samplesPerPixel maxTileSize tracer.fullImage ⟨[], {}⟩
  have hls : (render (F := F) tracer samplesPerPixel maxTileSize).launches = ls := hls
  have hstats : StatsAfter {} (render (F := F) tracer samplesPerPixel maxTileSize).stats ls n :=
    hstats
  have htotal : (render (F := F) tracer samplesPerPixel maxTileSize).stats.totalTiles =
      UInt32.ofNat ls.length := hstats.totalTiles.trans (UInt32.zero_add _)
  have hcuts : (render (F := F) tracer samplesPerPixel maxTileSize).stats.subdivisions =
      UInt32.ofNat n := hstats.subdivisions.trans (UInt32.zero_add _)
  -- something is launched
  have hsizes : ls.map Launch.size ≠ [] := by
    rw [← List.length_pos_iff, List.length_map, hlength]
    exact Nat.succ_pos _
  refine ⟨calledBy_wellFounded maxTileSize, fun l hl => ?_, ?_, ?_, ?_, ?_⟩
  · have htiles : (render (F := F) tracer samplesPerPixel maxTileSize).launches =
        ts.map (Tile.launch tracer samplesPerPixel) := hlaunches
    rw [htiles] at hl
    obtain ⟨t, ht, rfl⟩ := List.mem_map.mp hl
    refine (hcalled t ht).sides.imp (fun hroot => ?_) id
    have hnot := hsub.not_split t.rect (List.mem_map_of_mem ht)
    rw [hroot] at hnot ⊢
    exact ⟨rfl, Bool.eq_false_iff.mpr fun hs => hnot (Tile.subdivides_iff.mp hs)⟩
  · rw [htotal, hls]
  · rw [htotal, hcuts, hlength, UInt32.ofNat_add, UInt32.ofNat_mul]
    rfl
  · have hleast := isLeast_foldl_min (b := (0xFFFFFFFF : UInt32).toNat) hsizes
      fun m hm => ?_
    · rw [hls, hstats.minTileSize]
      simpa only [List.mem_map] using hleast
    · obtain ⟨l, -, rfl⟩ := List.mem_map.mp hm
      have hw := l.width.toNat_lt
      have hh := l.height.toNat_lt
      show max l.width.toNat l.height.toNat ≤ 2 ^ 32 - 1
      omega
  · rw [hls, hstats.maxTileSize]
    show IsGreatest _ ((ls.map Launch.size).foldl max 0)
    simpa only [List.mem_map] using isGreatest_foldl_max hsizes

/-! ### The launches as pieces -/

section Pieces

variable (width height : UInt32)

/-- The rectangle of the image. -/
def imageRect : Rect := ⟨0, 0, width.toNat, height.toNat⟩

/-- The launches have the sizes of the pieces of a subdivision. -/
theorem tileLaunches_pieces : ∃ rs : List Rect,
    Subdivides (Tile.Cut maxTileSize.toNat) (imageRect width height) rs ∧
      (tileLaunches (F := F) tracer samplesPerPixel maxTileSize width height).map
        (fun l => (l.width.toNat, l.height.toNat)) = rs.map fun r => (r.width, r.height) := by
  have hrange := PathTracer.fullImage_inRange ⟨width, height⟩
  obtain ⟨ts, hlaunches, -, hsub⟩ := renderTileRecursive_launches (F := F) tracer
    samplesPerPixel maxTileSize (PathTracer.fullImage ⟨width, height⟩) ⟨[], {}⟩ hrange
  refine ⟨ts.map Tile.rect, hsub, ?_⟩
  have hlaunches : tileLaunches (F := F) tracer samplesPerPixel maxTileSize width height =
      ts.map (Tile.launch tracer samplesPerPixel) := hlaunches
  rw [hlaunches, List.map_map, List.map_map]
  rfl

/-- What holds of the sides of every launch is what holds of those of every piece. -/
theorem forall_tileLaunches (P : ℕ → ℕ → Prop) : ∃ rs : List Rect,
    Subdivides (Tile.Cut maxTileSize.toNat) (imageRect width height) rs ∧
      ((∀ l ∈ tileLaunches (F := F) tracer samplesPerPixel maxTileSize width height,
        P l.width.toNat l.height.toNat) ↔ ∀ r ∈ rs, P r.width r.height) := by
  obtain ⟨rs, hsub, hsizes⟩ :=
    tileLaunches_pieces (F := F) tracer samplesPerPixel maxTileSize width height
  refine ⟨rs, hsub, ?_⟩
  have hforall : (∀ p ∈ (tileLaunches (F := F) tracer samplesPerPixel maxTileSize width
      height).map (fun l => (l.width.toNat, l.height.toNat)), P p.1 p.2) ↔
      ∀ p ∈ rs.map (fun r => (r.width, r.height)), P p.1 p.2 := by rw [hsizes]
  simpa only [List.forall_mem_map] using hforall

end Pieces

/-! ### Images that are not too narrow -/

/-- A side that is over the limit belongs to a piece whose other side is below 128. -/
theorem lt_of_not_cut {limit : ℕ} {r : Rect} (hcut : ¬ Tile.Cut limit r) :
    (limit < r.width → 128 ≤ r.width → r.height < 128) ∧
      (limit < r.height → 128 ≤ r.height → r.width < 128) := by
  unfold Tile.Cut at hcut
  omega

/-- A side of a piece is within the limit when the other side of the image is not
too much shorter. -/
theorem le_of_aspect {k limit w h d a b : ℕ} (hk : 1 ≤ k) (hwh : w ≤ k * h)
    (hlimit : 128 * k ≤ limit) (ha : IsHalved w d a) (hb : IsHalved h d b)
    (hnot : limit < a → 128 ≤ a → b < 128) : a ≤ limit := by
  by_contra hlt
  have hlt : limit < a := Nat.not_le.mp hlt
  have hb128 : b < 128 := hnot hlt (by omega)
  -- so the other side of the image is short, and then so is this one
  have hh : h < 128 * 2 ^ d := (Nat.div_lt_iff_lt_mul (Nat.two_pow_pos d)).mp
    (hb.floor.trans_lt hb128)
  have hw : w + k ≤ 128 * k * 2 ^ d := by
    calc w + k ≤ k * h + k := Nat.add_le_add_right hwh k
      _ = k * (h + 1) := by rw [Nat.mul_succ]
      _ ≤ k * (128 * 2 ^ d) := Nat.mul_le_mul_left k hh
      _ = 128 * k * 2 ^ d := by rw [← Nat.mul_assoc, Nat.mul_comm k]
  have hceil : a * 2 ^ d < (128 * k + 1) * 2 ^ d := by
    calc a * 2 ^ d < w + 2 ^ d := ha.ceil
      _ ≤ 128 * k * 2 ^ d + 2 ^ d := Nat.add_le_add_right (by omega) _
      _ = (128 * k + 1) * 2 ^ d := by rw [Nat.add_mul, Nat.one_mul]
  have ha' : a < 128 * k + 1 := Nat.lt_of_mul_lt_mul_right hceil
  omega

/-- The tile size limit `RenderJob` renders with. -/
def workerTileSize : UInt32 := 512

/-- **An image of bounded aspect ratio is rendered in tiles that fit**, and so is, with
the worker's limit, every image of an aspect ratio up to 4:1. -/
theorem tiles_fit (width height : UInt32) :
    (∀ k, 1 ≤ k → width.toNat ≤ k * height.toNat → height.toNat ≤ k * width.toNat →
      128 * k ≤ maxTileSize.toNat →
      ∀ l ∈ tileLaunches (F := F) tracer samplesPerPixel maxTileSize width height,
        l.width ≤ maxTileSize ∧ l.height ≤ maxTileSize) ∧
    (width.toNat ≤ 4 * height.toNat → height.toNat ≤ 4 * width.toNat →
      ∀ l ∈ tileLaunches (F := F) tracer samplesPerPixel workerTileSize width height,
        l.width ≤ 512 ∧ l.height ≤ 512) := by
  have hfit {k : ℕ} {limit : UInt32} (hk : 1 ≤ k) (hwh : width.toNat ≤ k * height.toNat)
      (hhw : height.toNat ≤ k * width.toNat) (hlimit : 128 * k ≤ limit.toNat) :
      ∀ l ∈ tileLaunches (F := F) tracer samplesPerPixel limit width height,
        l.width ≤ limit ∧ l.height ≤ limit := by
    obtain ⟨rs, hsub, hiff⟩ := forall_tileLaunches (F := F) tracer samplesPerPixel limit width
      height fun w h => w ≤ limit.toNat ∧ h ≤ limit.toNat
    refine hiff.mpr fun r hr => ?_
    obtain ⟨d, hw, hh⟩ := hsub.isHalved (.zero width.toNat) (.zero height.toNat) r hr
    obtain ⟨hwide, htall⟩ := lt_of_not_cut (hsub.not_split r hr)
    exact ⟨le_of_aspect hk hwh hlimit hw hh hwide, le_of_aspect hk hhw hlimit hh hw htall⟩
  refine ⟨fun k hk hwh hhw hlimit => hfit hk hwh hhw hlimit, fun hwh hhw => ?_⟩
  exact hfit (by decide) hwh hhw (show 128 * 4 ≤ 512 by decide)

/-- Single precision, as the worker computes. -/
instance : Glm Float32 where
  radians x := x * 0.017453292519943295
  sub u v := ⟨u.x - v.x, u.y - v.y, u.z - v.z⟩
  cross u v := ⟨u.y * v.z - v.y * u.z, u.z * v.x - v.z * u.x, u.x * v.y - v.x * u.y⟩
  normalize v :=
    let length := Float32.sqrt (v.x * v.x + v.y * v.y + v.z * v.z)
    ⟨v.x / length, v.y / length, v.z / length⟩

theorem tiles_fit_portrait :
    (500 ≤ 4 * 2000 ∧ 2000 ≤ 4 * 500) ∧
      ∀ l ∈ tileLaunches (F := Float32) ⟨500, 2000⟩ 16 workerTileSize 500 2000,
        l.width ≤ 512 ∧ l.height ≤ 512 :=
  ⟨by decide, (tiles_fit ⟨500, 2000⟩ 16 workerTileSize 500 2000).2 (by decide) (by decide)⟩

/-! ### How far tiles exceed the limit -/

/-- A side of a piece is less than 64 over the limit when the side of the image is not
too long for the number of cuts of the other. -/
theorem le_of_halvings {limit w h d a b : ℕ} (hlimit : 64 ≤ limit)
    (hw : w ≤ (limit + 63) * 2 ^ halvings 64 h) (ha : IsHalved w d a) (hb : IsHalved h d b)
    (hnot : limit < a → 128 ≤ a → b < 128) : a ≤ limit + 63 := by
  by_contra hlt
  have hlt : limit + 63 < a := Nat.not_le.mp hlt
  have hb128 : b < 128 := hnot (by omega) (by omega)
  -- the other side has been halved as often as it can be
  have hd : halvings 64 h ≤ d := by
    by_contra hd
    have hle : 2 * 64 ≤ h / 2 ^ d := le_of_lt_halvings (by decide) (Nat.not_le.mp hd)
    have hfloor := hb.floor
    omega
  have hceil : a * 2 ^ d < (limit + 64) * 2 ^ d := by
    calc a * 2 ^ d < w + 2 ^ d := ha.ceil
      _ ≤ (limit + 63) * 2 ^ halvings 64 h + 2 ^ d := Nat.add_le_add_right hw _
      _ ≤ (limit + 63) * 2 ^ d + 2 ^ d :=
        Nat.add_le_add_right (Nat.mul_le_mul_left _ (Nat.pow_le_pow_right two_pos hd)) _
      _ = (limit + 64) * 2 ^ d := by rw [← Nat.succ_mul]
  have ha' : a < limit + 64 := Nat.lt_of_mul_lt_mul_right hceil
  omega

/-- Where one side is too long, the quadrants that halve it up and the other side down
lead to a piece in which it is still too long. -/
theorem exists_long_piece {limit : ℕ} {long short : Rect → ℕ} {quadrant : Rect → Rect}
    (hlong : ∀ r, long (quadrant r) = long r - long r / 2)
    (hshort : ∀ r, short (quadrant r) = short r / 2)
    (hcut : ∀ r, limit + 63 < long r → (Tile.Cut limit r ↔ 128 ≤ short r)) {r : Rect}
    {rs : List Rect} (hmem : ∀ d, (∀ e < d, Tile.Cut limit (quadrant^[e] r)) →
      ¬ Tile.Cut limit (quadrant^[d] r) → quadrant^[d] r ∈ rs)
    (h : (limit + 63) * 2 ^ halvings 64 (short r) < long r) :
    ∃ r' ∈ rs, limit + 63 < long r' := by
  have hstill (e : ℕ) (he : e ≤ halvings 64 (short r)) :
      limit + 63 < long (quadrant^[e] r) := by
    refine Nat.lt_of_mul_lt_mul_right (a := 2 ^ e) ?_
    calc (limit + 63) * 2 ^ e
        ≤ (limit + 63) * 2 ^ halvings 64 (short r) :=
          Nat.mul_le_mul_left _ (Nat.pow_le_pow_right two_pos he)
      _ < long r := h
      _ ≤ long (quadrant^[e] r) * 2 ^ e := Rect.le_iterate_ceil hlong r e
  refine ⟨quadrant^[halvings 64 (short r)] r, hmem _ (fun e he => ?_) ?_, hstill _ le_rfl⟩
  · rw [hcut _ (hstill e he.le), Rect.iterate_floor hshort]
    exact le_of_lt_halvings (by decide) he
  · rw [hcut _ (hstill _ le_rfl), Rect.iterate_floor hshort]
    exact Nat.not_le.mpr (lt_of_halvings_le (by decide) le_rfl)

/-- **The tiles exceed the limit by less than 64 exactly when neither side of the image
is too long for the number of times the other can be halved.** -/
theorem tiles_exceed_little {width height : UInt32} (hlimit : 64 ≤ maxTileSize.toNat) :
    (∀ l ∈ tileLaunches (F := F) tracer samplesPerPixel maxTileSize width height,
      l.width.toNat ≤ maxTileSize.toNat + 63 ∧ l.height.toNat ≤ maxTileSize.toNat + 63) ↔
    width.toNat ≤ (maxTileSize.toNat + 63) * 2 ^ halvings 64 height.toNat ∧
      height.toNat ≤ (maxTileSize.toNat + 63) * 2 ^ halvings 64 width.toNat := by
  obtain ⟨rs, hsub, hiff⟩ := forall_tileLaunches (F := F) tracer samplesPerPixel maxTileSize width
    height fun w h => w ≤ maxTileSize.toNat + 63 ∧ h ≤ maxTileSize.toNat + 63
  rw [hiff]
  constructor
  · intro hpieces
    constructor
    · by_contra hlt
      have hcut (r : Rect) (hr : maxTileSize.toNat + 63 < r.width) :
          Tile.Cut maxTileSize.toNat r ↔ 128 ≤ r.height := by
        unfold Tile.Cut
        omega
      obtain ⟨r, hr, hlong⟩ := exists_long_piece (fun _ => rfl) (fun _ => rfl) hcut
        (fun d => hsub.upperRight_mem) (Nat.not_le.mp hlt)
      exact absurd (hpieces r hr).1 (Nat.not_le.mpr hlong)
    · by_contra hlt
      have hcut (r : Rect) (hr : maxTileSize.toNat + 63 < r.height) :
          Tile.Cut maxTileSize.toNat r ↔ 128 ≤ r.width := by
        unfold Tile.Cut
        omega
      obtain ⟨r, hr, hlong⟩ := exists_long_piece (fun _ => rfl) (fun _ => rfl) hcut
        (fun d => hsub.lowerLeft_mem) (Nat.not_le.mp hlt)
      exact absurd (hpieces r hr).2 (Nat.not_le.mpr hlong)
  · rintro ⟨hwidth, hheight⟩ r hr
    obtain ⟨d, hw, hh⟩ := hsub.isHalved (.zero width.toNat) (.zero height.toNat) r hr
    obtain ⟨hwide, htall⟩ := lt_of_not_cut (hsub.not_split r hr)
    exact ⟨le_of_halvings hlimit hwidth hw hh hwide, le_of_halvings hlimit hheight hh hw htall⟩

theorem tiles_exceed_little_photo :
    (1040 ≤ (512 + 63) * 2 ^ halvings 64 780 ∧ 780 ≤ (512 + 63) * 2 ^ halvings 64 1040) ∧
      ∀ l ∈ tileLaunches (F := Float32) ⟨1040, 780⟩ 16 512 1040 780,
        l.width.toNat ≤ 512 + 63 ∧ l.height.toNat ≤ 512 + 63 :=
  ⟨by decide,
    (tiles_exceed_little ⟨1040, 780⟩ 16 512 (by decide)).mpr (by decide)⟩

/-- A banner is one tile, however wide. -/
theorem not_tilesExceedLittle :
    tileLaunches (F := Float32) ⟨4096, 100⟩ 16 workerTileSize 4096 100 =
        [(⟨0, 0, 4096, 100⟩ : Tile).launch ⟨4096, 100⟩ 16] ∧
      ¬ ∀ l ∈ tileLaunches (F := Float32) ⟨4096, 100⟩ 16 workerTileSize 4096 100,
        l.width.toNat ≤ 512 + 63 ∧ l.height.toNat ≤ 512 + 63 := by
  have hone : tileLaunches (F := Float32) ⟨4096, 100⟩ 16 workerTileSize 4096 100 =
      [(⟨0, 0, 4096, 100⟩ : Tile).launch ⟨4096, 100⟩ 16] := by
    rw [tileLaunches, renderTileRecursive, if_neg (by decide)]
    rfl
  refine ⟨hone, fun hall => ?_⟩
  rw [hone] at hall
  obtain ⟨hwidth, -⟩ := hall _ List.mem_cons_self
  exact absurd hwidth (by decide)

end Pathological.RenderWorker
