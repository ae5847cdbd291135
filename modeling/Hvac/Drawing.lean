import Hvac.Screen
import Hvac.Lib.Raster

/-!
# Lines and rectangles

`ST7567.c`: the loop of a line that is neither upright nor level takes a bound
on its turns and gives nothing when it runs out. Coordinates and the error term
wrap as the source's do, and for a line on the screen never have to.
-/

namespace Hvac

open Raster (toward across Tracks)

-- ---------------------------------------------------------------------------
-- The drawing functions
-- ---------------------------------------------------------------------------

/-- A coordinate beyond the screen is taken for its edge. -/
def clampTo (size : Nat) (value : U16) : U16 :=
  if value.toNat ≥ size then BitVec.ofNat 16 (size - 1) else value

/-- `dx` and `dy`. -/
def extent (start stop : U16) : S16 :=
  if start.toNat < stop.toNat then stop - start else start - stop

/-- `sx` and `sy`. -/
def direction (start stop : U16) : S16 := if start.toNat < stop.toNat then 1 else -1

/-- A `for` loop that draws from one coordinate to another. -/
def forTo (first last : Nat) (draw : ScreenBuffer → Nat → ScreenBuffer) (buffer : ScreenBuffer) :
    ScreenBuffer :=
  (List.range' first (last + 1 - first)).foldl draw buffer

/-- Where the loop of a line is. -/
structure LinePos where
  x0 : U16
  y0 : U16
  err : S16

def LinePos.step (dx dy sx sy : S16) (pos : LinePos) : LinePos :=
  let e2 := pos.err
  let pos := if e2.toInt > -dx.toInt then
      { pos with err := pos.err - dy, x0 := pos.x0 + sx } else pos
  if e2.toInt < dy.toInt then { pos with err := pos.err + dx, y0 := pos.y0 + sy } else pos

def lineLoop (color : U8) (x1 y1 : U16) (dx dy sx sy : S16) :
    Nat → LinePos → ScreenBuffer → Option ScreenBuffer
  | 0, _, _ => none
  | turns + 1, pos, buffer =>
    let buffer := drawPixel pos.x0 pos.y0 color buffer
    if pos.x0 = x1 ∧ pos.y0 = y1 then some buffer
    else lineLoop color x1 y1 dx dy sx sy turns (pos.step dx dy sx sy) buffer

/-- `ST7567_DrawLine`. -/
def drawLine (turns : Nat) (x0 y0 x1 y1 : U16) (color : U8) (buffer : ScreenBuffer) :
    Option ScreenBuffer :=
  let x0 := clampTo st7567Width x0
  let x1 := clampTo st7567Width x1
  let y0 := clampTo st7567Height y0
  let y1 := clampTo st7567Height y1
  let dx := extent x0 x1
  let dy := extent y0 y1
  let err := BitVec.ofInt 16 ((if dx.toInt > dy.toInt then dx.toInt else -dy.toInt).tdiv 2)
  if dx = 0 then
    let (y0, y1) := if y1.toNat < y0.toNat then (y1, y0) else (y0, y1)
    some (forTo y0.toNat y1.toNat (fun buffer i => drawPixel x0 (BitVec.ofNat 16 i) color buffer)
      buffer)
  else if dy = 0 then
    let (x0, x1) := if x1.toNat < x0.toNat then (x1, x0) else (x0, x1)
    some (forTo x0.toNat x1.toNat (fun buffer i => drawPixel (BitVec.ofNat 16 i) y0 color buffer)
      buffer)
  else lineLoop color x1 y1 dx dy (direction x0 x1) (direction y0 y1) turns ⟨x0, y0, err⟩ buffer

/-- The width or height of a rectangle that would reach the edge is what is left to it. -/
def limitTo (size : Nat) (at' extent : U16) : U16 :=
  if at'.toNat + extent.toNat ≥ size then BitVec.ofNat 16 size - at' else extent

/-- `ST7567_DrawRectangle`. -/
def drawRectangle (turns : Nat) (x y w h : U16) (color : U8) (buffer : ScreenBuffer) :
    Option ScreenBuffer :=
  if x.toNat ≥ st7567Width ∨ y.toNat ≥ st7567Height then some buffer
  else do
    let w := limitTo st7567Width x w
    let h := limitTo st7567Height y h
    let buffer ← drawLine turns x y (x + w) y color buffer
    let buffer ← drawLine turns x (y + h) (x + w) (y + h) color buffer
    let buffer ← drawLine turns x y x (y + h) color buffer
    drawLine turns (x + w) y (x + w) (y + h) color buffer

/-- `ST7567_DrawFilledRectangle`. -/
def drawFilledRectangle (turns : Nat) (x y w h : U16) (color : U8) (buffer : ScreenBuffer) :
    Option ScreenBuffer :=
  if x.toNat ≥ st7567Width ∨ y.toNat ≥ st7567Height then some buffer
  else
    let w := limitTo st7567Width x w
    let h := limitTo st7567Height y h
    (List.range (h.toNat + 1)).foldlM (fun buffer i =>
      drawLine turns x (y + BitVec.ofNat 16 i) (x + w) (y + BitVec.ofNat 16 i) color buffer) buffer

/-- `ST7567_DrawTriangle`. -/
def drawTriangle (turns : Nat) (x1 y1 x2 y2 x3 y3 : U16) (color : U8) (buffer : ScreenBuffer) :
    Option ScreenBuffer := do
  let buffer ← drawLine turns x1 y1 x2 y2 color buffer
  let buffer ← drawLine turns x2 y2 x3 y3 color buffer
  drawLine turns x3 y3 x1 y1 color buffer

-- ---------------------------------------------------------------------------
-- Lines
-- ---------------------------------------------------------------------------

theorem extent_eq (start stop : U16) :
    extent start stop = BitVec.ofInt 16 (Nat.dist start.toNat stop.toNat) := by
  have hstart := start.isLt
  have hstop := stop.isLt
  refine BitVec.eq_of_toNat_eq ?_
  unfold extent Nat.dist
  split <;> simp only [BitVec.toNat_sub, BitVec.ofInt_natCast, BitVec.toNat_ofNat] <;> omega

theorem toInt_ofInt_small {n : Int} (h : -32768 ≤ n) (h' : n < 32768) :
    (BitVec.ofInt 16 n).toInt = n :=
  BitVec.toInt_ofInt_eq_self (by decide) (by simpa using h) (by simpa using h')

theorem ofInt_sub (m n : Int) :
    BitVec.ofInt 16 (m - n) = BitVec.ofInt 16 m - BitVec.ofInt 16 n := by
  rw [Int.sub_eq_add_neg, BitVec.ofInt_add, BitVec.ofInt_neg, BitVec.sub_eq_add_neg]

/-- A step towards the end, without wrapping round. -/
theorem toward_add_direction (start stop : U16) (h : k < Nat.dist start.toNat stop.toNat) :
    BitVec.ofNat 16 (toward start.toNat stop.toNat k) + direction start stop =
      BitVec.ofNat 16 (toward start.toNat stop.toNat (k + 1)) := by
  have hstart := start.isLt
  have hstop := stop.isLt
  refine BitVec.eq_of_toNat_eq ?_
  unfold Nat.dist at h
  unfold direction toward
  split <;> simp <;> omega

/-- A line between two points of the screen. -/
structure LineEnds where
  x0 : U16
  y0 : U16
  x1 : U16
  y1 : U16
  start_visible : x0.toNat < st7567Width ∧ y0.toNat < st7567Height
  stop_visible : x1.toNat < st7567Width ∧ y1.toNat < st7567Height

namespace LineEnds

variable (ends : LineEnds)

def start : Nat × Nat := (ends.x0.toNat, ends.y0.toNat)
def stop : Nat × Nat := (ends.x1.toNat, ends.y1.toNat)
def dx : Nat := Raster.width ends.start ends.stop
def dy : Nat := Raster.height ends.start ends.stop

/-- The loop is at a point of the line, and the error term belongs to it. -/
def At (k : Nat) (pos : LinePos) : Prop :=
  pos.x0 = BitVec.ofNat 16 (Raster.linePoint ends.start ends.stop k).1 ∧
  pos.y0 = BitVec.ofNat 16 (Raster.linePoint ends.start ends.stop k).2 ∧
  if ends.dy < ends.dx then
    ∃ err, Tracks ends.dx ends.dy k (across ends.dx ends.dy k) err ∧ pos.err = BitVec.ofInt 16 err
  else
    ∃ err, Tracks ends.dy ends.dx k (across ends.dy ends.dx k) err ∧
      pos.err = BitVec.ofInt 16 (-err)

variable {ends} {k : Nat} {pos : LinePos} {color : U8} {buffer : ScreenBuffer}

theorem dx_lt : ends.dx < 128 ∧ ends.dy < 64 := by
  obtain ⟨hx0, hy0⟩ := ends.start_visible
  obtain ⟨hx1, hy1⟩ := ends.stop_visible
  simp only [st7567Width, st7567Height] at hx0 hx1 hy0 hy1
  simp only [dx, dy, Raster.width, Raster.height, Nat.dist, start, stop]
  omega

theorem point_visible (h : k ≤ max ends.dx ends.dy) :
    Raster.linePoint ends.start ends.stop k ∈ visible :=
  Raster.linePoint_lt ends.start_visible ends.stop_visible h

theorem At.toNat (h : ends.At k pos) (hk : k ≤ max ends.dx ends.dy) :
    (pos.x0.toNat, pos.y0.toNat) = Raster.linePoint ends.start ends.stop k := by
  obtain ⟨hx, hy⟩ := point_visible hk
  refine Prod.ext ?_ ?_
  · rw [h.1, BitVec.toNat_ofNat]
    exact Nat.mod_eq_of_lt (Nat.lt_trans hx (by decide))
  · rw [h.2.1, BitVec.toNat_ofNat]
    exact Nat.mod_eq_of_lt (Nat.lt_trans hy (by decide))

/-- The turn of the loop draws this point. -/
theorem At.drawPixel (h : ends.At k pos) (hk : k ≤ max ends.dx ends.dy) :
    Painted {Raster.linePoint ends.start ends.stop k} color buffer
      (drawPixel pos.x0 pos.y0 color buffer) := by
  refine (drawPixel_painted pos.x0 pos.y0 color buffer).congr fun p _ _ => ?_
  rw [h.toNat hk]
  refine ⟨And.left, fun hp => ⟨hp, ?_⟩⟩
  rw [Set.mem_singleton_iff.mp hp]
  exact point_visible hk

/-- The loop stops at the last point and no sooner. -/
theorem At.stops (h : ends.At k pos) (hk : k ≤ max ends.dx ends.dy) :
    (pos.x0 = ends.x1 ∧ pos.y0 = ends.y1) ↔ k = max ends.dx ends.dy := by
  have hlast := Raster.linePoint_eq_stop hk
  rw [← h.toNat hk] at hlast
  refine Iff.trans ⟨?_, fun heq => ?_⟩ hlast
  · rintro ⟨hx, hy⟩
    rw [hx, hy]
    rfl
  · exact ⟨BitVec.eq_of_toNat_eq (congrArg Prod.fst heq),
      BitVec.eq_of_toNat_eq (congrArg Prod.snd heq)⟩

/-- A turn of a line longer than high goes along, and across when the error term is small. -/
theorem At.step_flat (h : ends.At k pos) (hflat : ends.dy < ends.dx) (hk : k < ends.dx) :
    ends.At (k + 1) (pos.step (extent ends.x0 ends.x1) (extent ends.y0 ends.y1)
      (direction ends.x0 ends.x1) (direction ends.y0 ends.y1)) := by
  obtain ⟨hx, hy, herr⟩ := h
  rw [if_pos hflat] at herr
  obtain ⟨err, htracks, herr⟩ := herr
  obtain ⟨hdx, hdy⟩ := ends.dx_lt
  have hnonneg := htracks.nonneg
  have hlt := htracks.lt
  have hpoint (k : Nat) : Raster.linePoint ends.start ends.stop k =
      (toward ends.x0.toNat ends.x1.toNat k,
        toward ends.y0.toNat ends.y1.toNat (across ends.dx ends.dy k)) := if_pos hflat
  have hdx' : (BitVec.ofInt 16 ends.dx).toInt = ends.dx := toInt_ofInt_small (by omega) (by omega)
  have hdy' : (BitVec.ofInt 16 ends.dy).toInt = ends.dy := toInt_ofInt_small (by omega) (by omega)
  have herr' : (BitVec.ofInt 16 err).toInt = err := toInt_ofInt_small (by omega) (by omega)
  have hxstep := toward_add_direction ends.x0 ends.x1 hk
  rw [hpoint] at hx hy
  rw [extent_eq, extent_eq]
  change ends.At (k + 1) (pos.step (BitVec.ofInt 16 ends.dx) (BitVec.ofInt 16 ends.dy) _ _)
  have halong : err > -(ends.dx : Int) := by omega
  simp only [At, LinePos.step, herr, herr', hdx', hdy', hpoint, halong, if_true, hflat]
  by_cases hacross : err < ends.dy
  · have htracks' := htracks.across hacross hflat.le
    have hnext := htracks'.eq_across
    have hle : across ends.dx ends.dy (k + 1) ≤ ends.dy := Raster.across_le hk
    have hystep := toward_add_direction ends.y0 ends.y1 (hnext ▸ hle)
    rw [hnext] at htracks' hystep
    simp only [hacross, if_true]
    exact ⟨by rw [hx, hxstep], by rw [hy, hystep], _, htracks', by rw [BitVec.ofInt_add, ofInt_sub]⟩
  · have htracks' := htracks.along (Int.not_lt.mp hacross)
    have hnext := htracks'.eq_across
    rw [hnext] at htracks'
    simp only [hacross, if_false]
    exact ⟨by rw [hx, hxstep], by rw [hy, hnext], _, htracks', (ofInt_sub ..).symm⟩

/-- A turn of any other line goes across in the same way, with the sign of the error term turned. -/
theorem At.step_steep (h : ends.At k pos) (hsteep : ¬ends.dy < ends.dx) (hk : k < ends.dy) :
    ends.At (k + 1) (pos.step (extent ends.x0 ends.x1) (extent ends.y0 ends.y1)
      (direction ends.x0 ends.x1) (direction ends.y0 ends.y1)) := by
  obtain ⟨hx, hy, herr⟩ := h
  rw [if_neg hsteep] at herr
  obtain ⟨err, htracks, herr⟩ := herr
  obtain ⟨hdx, hdy⟩ := ends.dx_lt
  have hnonneg := htracks.nonneg
  have hlt := htracks.lt
  have hpoint (k : Nat) : Raster.linePoint ends.start ends.stop k =
      (toward ends.x0.toNat ends.x1.toNat (across ends.dy ends.dx k),
        toward ends.y0.toNat ends.y1.toNat k) := if_neg hsteep
  have hdx' : (BitVec.ofInt 16 ends.dx).toInt = ends.dx := toInt_ofInt_small (by omega) (by omega)
  have hdy' : (BitVec.ofInt 16 ends.dy).toInt = ends.dy := toInt_ofInt_small (by omega) (by omega)
  have herr' : (BitVec.ofInt 16 (-err)).toInt = -err := toInt_ofInt_small (by omega) (by omega)
  have hystep := toward_add_direction ends.y0 ends.y1 hk
  rw [hpoint] at hx hy
  rw [extent_eq, extent_eq]
  change ends.At (k + 1) (pos.step (BitVec.ofInt 16 ends.dx) (BitVec.ofInt 16 ends.dy) _ _)
  have halong : -err < ends.dy := by omega
  by_cases hacross : err < ends.dx
  · have htracks' := htracks.across hacross (Nat.le_of_not_lt hsteep)
    have hnext := htracks'.eq_across
    have hle : across ends.dy ends.dx (k + 1) ≤ ends.dx := Raster.across_le hk
    have hxstep := toward_add_direction ends.x0 ends.x1 (hnext ▸ hle)
    rw [hnext] at htracks' hxstep
    have hcond : -err > -(ends.dx : Int) := Int.neg_lt_neg hacross
    simp only [At, LinePos.step, herr, herr', hdx', hdy', hpoint, halong, hcond, if_true, hsteep,
      if_false]
    refine ⟨by rw [hx, hxstep], by rw [hy, hystep], _, htracks', ?_⟩
    rw [← ofInt_sub, ← BitVec.ofInt_add]
    congr 1
    omega
  · have htracks' := htracks.along (Int.not_lt.mp hacross)
    have hnext := htracks'.eq_across
    rw [hnext] at htracks'
    have hcond : ¬-err > -(ends.dx : Int) := by omega
    simp only [At, LinePos.step, herr, herr', hdx', hdy', hpoint, halong, hcond, if_true, hsteep,
      if_false]
    refine ⟨by rw [hx, hnext], by rw [hy, hystep], _, htracks', ?_⟩
    rw [← BitVec.ofInt_add]
    congr 1
    omega

/-- One turn goes on to the next point. -/
theorem At.step (h : ends.At k pos) (hk : k < max ends.dx ends.dy) :
    ends.At (k + 1) (pos.step (extent ends.x0 ends.x1) (extent ends.y0 ends.y1)
      (direction ends.x0 ends.x1) (direction ends.y0 ends.y1)) := by
  by_cases hflat : ends.dy < ends.dx
  · exact h.step_flat hflat (Nat.max_eq_left hflat.le ▸ hk)
  · exact h.step_steep hflat (Nat.max_eq_right (Nat.le_of_not_lt hflat) ▸ hk)

/-- From this point on the loop draws the rest of the line, in one turn for each point. -/
theorem At.lineLoop (h : ends.At k pos) (buffer : ScreenBuffer) (left : Nat)
    (hleft : left + k = max ends.dx ends.dy) (hturns : left < turns) :
    ∃ buffer', lineLoop color ends.x1 ends.y1 (extent ends.x0 ends.x1) (extent ends.y0 ends.y1)
        (direction ends.x0 ends.x1) (direction ends.y0 ends.y1) turns pos buffer = some buffer' ∧
      Painted (Raster.points (Raster.linePoint ends.start ends.stop) k (max ends.dx ends.dy))
        color buffer buffer' := by
  induction left generalizing k pos turns buffer with
  | zero =>
    obtain _ | turns := turns
    · exact absurd hturns (Nat.not_lt_zero _)
    rw [Nat.zero_add] at hleft
    refine ⟨Hvac.drawPixel pos.x0 pos.y0 color buffer, ?_, ?_⟩
    · rw [Hvac.lineLoop]
      exact if_pos ((h.stops hleft.le).mpr hleft)
    · rw [← hleft, Raster.points_self]
      exact h.drawPixel hleft.le
  | succ left ih =>
    obtain _ | turns := turns
    · exact absurd hturns (Nat.not_lt_zero _)
    have hk : k < max ends.dx ends.dy := by omega
    obtain ⟨buffer', hloop, hrest⟩ := ih (h.step hk)
      (Hvac.drawPixel pos.x0 pos.y0 color buffer) (by omega) (Nat.lt_of_succ_lt_succ hturns)
    refine ⟨buffer', ?_, ?_⟩
    · rw [Hvac.lineLoop, ← hloop]
      exact if_neg fun hend => Nat.ne_of_lt hk ((h.stops hk.le).mp hend)
    · rw [Raster.points_succ _ hk.le]
      exact (h.drawPixel hk.le).trans hrest

end LineEnds

section
variable {color : U8} {buffer : ScreenBuffer} {turns : Nat}

theorem toNat_clampTo (hpos : 0 < size) (hsize : size ≤ 65536) (value : U16) :
    (clampTo size value).toNat = min value.toNat (size - 1) := by
  unfold clampTo
  split <;> rename_i h
  · rw [BitVec.toNat_ofNat]
    omega
  · omega

theorem mem_range'_iff : i ∈ List.range' first (last + 1 - first) ↔ first ≤ i ∧ i ≤ last := by
  rw [List.mem_range'_1]
  omega

theorem forTo_painted {draw : ScreenBuffer → Nat → ScreenBuffer} (point : Nat → Nat × Nat)
    (hdraw : ∀ i, first ≤ i → i ≤ last → ∀ buffer, Painted {point i} color buffer (draw buffer i)) :
    Painted (Raster.points point first last) color buffer (forTo first last draw buffer) := by
  refine (drawn_foldl (fun i => {point i}) _ _ fun i hi buffer => ?_).congr
    fun p _ _ => ?_
  · obtain ⟨hfirst, hlast⟩ := mem_range'_iff.mp hi
    exact hdraw i hfirst hlast buffer
  · constructor
    · rintro ⟨i, hi, hp⟩
      obtain ⟨hfirst, hlast⟩ := mem_range'_iff.mp hi
      exact ⟨i, hfirst, hlast, hp⟩
    · rintro ⟨i, hfirst, hlast, hp⟩
      exact ⟨i, mem_range'_iff.mpr ⟨hfirst, hlast⟩, hp⟩

theorem drawPixel_visible {x y : U16} (h : (x.toNat, y.toNat) ∈ visible) (color : U8)
    (buffer : ScreenBuffer) :
    Painted {(x.toNat, y.toNat)} color buffer (drawPixel x y color buffer) := by
  refine (drawPixel_painted x y color buffer).congr fun p _ _ => ⟨And.left, fun hp => ⟨hp, ?_⟩⟩
  rwa [Set.mem_singleton_iff.mp hp]

/-- The loop of an upright line, whichever end comes first. -/
theorem forTo_upright (x y0 y1 : U16) (color : U8) (buffer : ScreenBuffer)
    (hx : x.toNat < st7567Width) (hy0 : y0.toNat < st7567Height) (hy1 : y1.toNat < st7567Height) :
    Painted (Raster.line (x.toNat, y0.toNat) (x.toNat, y1.toNat)) color buffer
      (forTo (min y0.toNat y1.toNat) (max y0.toNat y1.toNat)
        (fun buffer i => drawPixel x (BitVec.ofNat 16 i) color buffer) buffer) := by
  have hmax : max y0.toNat y1.toNat < st7567Height := Nat.max_lt.mpr ⟨hy0, hy1⟩
  refine (forTo_painted (fun i => (x.toNat, i)) fun i _ hi buffer => ?_).congr
    fun p _ _ => ?_
  · have hi' : i < st7567Height := Nat.lt_of_le_of_lt hi hmax
    have hmod : (BitVec.ofNat 16 i).toNat = i := Nat.mod_eq_of_lt (Nat.lt_trans hi' (by decide))
    have hdraw := drawPixel_visible (x := x) (y := BitVec.ofNat 16 i)
      (by rw [hmod]; exact ⟨hx, hi'⟩) color buffer
    rwa [hmod] at hdraw
  · rw [Raster.line_upright]
    constructor
    · rintro ⟨i, hmin, hmax, rfl⟩
      exact ⟨rfl, hmin, hmax⟩
    · rintro ⟨hp, hmin, hmax⟩
      exact ⟨p.2, hmin, hmax, Prod.ext hp rfl⟩

theorem forTo_level (y x0 x1 : U16) (color : U8) (buffer : ScreenBuffer)
    (hy : y.toNat < st7567Height) (hx0 : x0.toNat < st7567Width) (hx1 : x1.toNat < st7567Width) :
    Painted (Raster.line (x0.toNat, y.toNat) (x1.toNat, y.toNat)) color buffer
      (forTo (min x0.toNat x1.toNat) (max x0.toNat x1.toNat)
        (fun buffer i => drawPixel (BitVec.ofNat 16 i) y color buffer) buffer) := by
  have hmax : max x0.toNat x1.toNat < st7567Width := Nat.max_lt.mpr ⟨hx0, hx1⟩
  refine (forTo_painted (fun i => (i, y.toNat)) fun i _ hi buffer => ?_).congr
    fun p _ _ => ?_
  · have hi' : i < st7567Width := Nat.lt_of_le_of_lt hi hmax
    have hmod : (BitVec.ofNat 16 i).toNat = i := Nat.mod_eq_of_lt (Nat.lt_trans hi' (by decide))
    have hdraw := drawPixel_visible (x := BitVec.ofNat 16 i) (y := y)
      (by rw [hmod]; exact ⟨hi', hy⟩) color buffer
    rwa [hmod] at hdraw
  · rw [Raster.line_level]
    constructor
    · rintro ⟨i, hmin, hmax, rfl⟩
      exact ⟨rfl, hmin, hmax⟩
    · rintro ⟨hp, hmin, hmax⟩
      exact ⟨p.1, hmin, hmax, Prod.ext rfl hp⟩

theorem extent_eq_zero {start stop : U16} : extent start stop = 0 ↔ start = stop := by
  unfold extent
  rw [← BitVec.toNat_inj, ← BitVec.toNat_inj]
  split <;> simp <;> omega

theorem clampTo_of_lt (h : value.toNat < size) : clampTo size value = value :=
  if_neg (Nat.not_le_of_lt h)

theorem LineEnds.start_at (ends : LineEnds) (hdx : extent ends.x0 ends.x1 ≠ 0)
    (hdy : extent ends.y0 ends.y1 ≠ 0) :
    ends.At 0 ⟨ends.x0, ends.y0, BitVec.ofInt 16 ((if (extent ends.x0 ends.x1).toInt >
      (extent ends.y0 ends.y1).toInt then (extent ends.x0 ends.x1).toInt
      else -(extent ends.y0 ends.y1).toInt).tdiv 2)⟩ := by
  obtain ⟨hwidth, hheight⟩ := ends.dx_lt
  have hx : extent ends.x0 ends.x1 = BitVec.ofInt 16 ends.dx := extent_eq ..
  have hy : extent ends.y0 ends.y1 = BitVec.ofInt 16 ends.dy := extent_eq ..
  have hxpos : 0 < ends.dx := Nat.pos_of_ne_zero fun hzero => hdx (by rw [hx, hzero]; rfl)
  have hypos : 0 < ends.dy := Nat.pos_of_ne_zero fun hzero => hdy (by rw [hy, hzero]; rfl)
  have hdx' : (BitVec.ofInt 16 ends.dx).toInt = ends.dx := toInt_ofInt_small (by omega) (by omega)
  have hdy' : (BitVec.ofInt 16 ends.dy).toInt = ends.dy := toInt_ofInt_small (by omega) (by omega)
  unfold At
  rw [Raster.linePoint_zero, hx, hy, hdx', hdy', Raster.across_zero, Raster.across_zero]
  have hcoord (value : U16) : value = BitVec.ofNat 16 value.toNat := by simp
  refine ⟨hcoord ends.x0, hcoord ends.y0, ?_⟩
  by_cases hflat : ends.dy < ends.dx
  · have hgt : (ends.dx : Int) > ends.dy := Int.ofNat_lt.mpr hflat
    rw [if_pos hflat, if_pos hgt]
    exact ⟨_, Raster.tracks_start hxpos, rfl⟩
  · have hgt : ¬(ends.dx : Int) > ends.dy := mt Int.ofNat_lt.mp hflat
    rw [if_neg hflat, if_neg hgt, Int.neg_tdiv]
    exact ⟨_, Raster.tracks_start hypos, rfl⟩

/-- A line on the screen, whatever way it goes. -/
theorem LineEnds.drawLine (ends : LineEnds) (color : U8) (buffer : ScreenBuffer)
    (hturns : st7567Width ≤ turns) :
    ∃ buffer', drawLine turns ends.x0 ends.y0 ends.x1 ends.y1 color buffer = some buffer' ∧
      Painted (Raster.line ends.start ends.stop) color buffer buffer' := by
  obtain ⟨hx0, hy0⟩ := ends.start_visible
  obtain ⟨hx1, hy1⟩ := ends.stop_visible
  simp only [Hvac.drawLine, clampTo_of_lt hx0, clampTo_of_lt hx1, clampTo_of_lt hy0,
    clampTo_of_lt hy1]
  by_cases hdx : extent ends.x0 ends.x1 = 0
  · have hupright := forTo_upright ends.x0 ends.y0 ends.y1 color buffer hx0 hy0 hy1
    rw [if_pos hdx, start, stop, ← extent_eq_zero.mp hdx]
    by_cases hswap : ends.y1.toNat < ends.y0.toNat
    · rw [Nat.min_eq_right hswap.le, Nat.max_eq_left hswap.le] at hupright
      exact ⟨_, by simp only [hswap, if_true], hupright⟩
    · rw [Nat.min_eq_left (Nat.le_of_not_lt hswap), Nat.max_eq_right (Nat.le_of_not_lt hswap)]
        at hupright
      exact ⟨_, by simp only [hswap, if_false], hupright⟩
  · rw [if_neg hdx]
    by_cases hdy : extent ends.y0 ends.y1 = 0
    · have hlevel := forTo_level ends.y0 ends.x0 ends.x1 color buffer hy0 hx0 hx1
      rw [if_pos hdy, start, stop, ← extent_eq_zero.mp hdy]
      by_cases hswap : ends.x1.toNat < ends.x0.toNat
      · rw [Nat.min_eq_right hswap.le, Nat.max_eq_left hswap.le] at hlevel
        exact ⟨_, by simp only [hswap, if_true], hlevel⟩
      · rw [Nat.min_eq_left (Nat.le_of_not_lt hswap), Nat.max_eq_right (Nat.le_of_not_lt hswap)]
          at hlevel
        exact ⟨_, by simp only [hswap, if_false], hlevel⟩
    · rw [if_neg hdy]
      obtain ⟨hwidth, hheight⟩ := ends.dx_lt
      refine (ends.start_at hdx hdy).lineLoop buffer (max ends.dx ends.dy) rfl ?_
      exact Nat.lt_of_lt_of_le (Nat.max_lt.mpr ⟨hwidth, Nat.lt_trans hheight (by decide)⟩) hturns

/-- Every line ends and paints the points nearest to the straight one between its
ends on the screen. -/
theorem drawLine_painted (x0 y0 x1 y1 : U16) (color : U8) (buffer : ScreenBuffer)
    (hturns : st7567Width ≤ turns) :
    ∃ buffer', drawLine turns x0 y0 x1 y1 color buffer = some buffer' ∧
      Painted (Raster.line (min x0.toNat (st7567Width - 1), min y0.toNat (st7567Height - 1))
        (min x1.toNat (st7567Width - 1), min y1.toNat (st7567Height - 1))) color buffer
        buffer' := by
  have hx (x : U16) := toNat_clampTo (by decide : 0 < st7567Width) (by decide) x
  have hy (y : U16) := toNat_clampTo (by decide : 0 < st7567Height) (by decide) y
  have hxlt (x : U16) : (clampTo st7567Width x).toNat < st7567Width := by
    rw [hx]
    exact Nat.lt_of_le_of_lt (Nat.min_le_right ..) (by decide)
  have hylt (y : U16) : (clampTo st7567Height y).toNat < st7567Height := by
    rw [hy]
    exact Nat.lt_of_le_of_lt (Nat.min_le_right ..) (by decide)
  let ends : LineEnds :=
    ⟨clampTo st7567Width x0, clampTo st7567Height y0, clampTo st7567Width x1,
      clampTo st7567Height y1, ⟨hxlt x0, hylt y0⟩, ⟨hxlt x1, hylt y1⟩⟩
  obtain ⟨buffer', hdraw, hpainted⟩ := ends.drawLine color buffer hturns
  refine ⟨buffer', ?_, ?_⟩
  · rw [← hdraw]
    simp only [drawLine, ends, clampTo_of_lt (hxlt _), clampTo_of_lt (hylt _)]
  · simpa only [LineEnds.start, LineEnds.stop, ends, hx, hy] using hpainted

-- ---------------------------------------------------------------------------
-- Rectangles
-- ---------------------------------------------------------------------------

/-- The pixels of a rectangle with these corners. -/
def rectangle (left top right bottom : Nat) : Set (Nat × Nat) :=
  {p | left ≤ p.1 ∧ p.1 ≤ right ∧ top ≤ p.2 ∧ p.2 ≤ bottom}

/-- Those on its edge. -/
def outline (left top right bottom : Nat) : Set (Nat × Nat) :=
  {p | p ∈ rectangle left top right bottom ∧
    (p.1 = left ∨ p.1 = right ∨ p.2 = top ∨ p.2 = bottom)}

/-- The far side of a rectangle, the edge at the most. -/
theorem toNat_add_limitTo (hat : value.toNat < size) (hsize : size < 65536) (extent : U16) :
    min (value + limitTo size value extent).toNat (size - 1) =
      min (value.toNat + extent.toNat) (size - 1) := by
  unfold limitTo
  split <;> simp <;> omega

/-- A limited height does not reach over the edge, and no row on the screen is lost. -/
theorem limitTo_le (hat : value.toNat < size) (hsize : size < 65536) (extent : U16) :
    value.toNat + (limitTo size value extent).toNat ≤ size ∧
      min (value.toNat + (limitTo size value extent).toNat) (size - 1) =
        min (value.toNat + extent.toNat) (size - 1) := by
  unfold limitTo
  split <;> simp <;> omega

theorem drawLine_level (x y x' : U16) (color : U8) (buffer : ScreenBuffer)
    (hturns : st7567Width ≤ turns) :
    ∃ buffer', drawLine turns x y x' y color buffer = some buffer' ∧
      Painted (
        let left := min x.toNat (st7567Width - 1)
        let right := min x'.toNat (st7567Width - 1)
        rectangle (min left right) (min y.toNat (st7567Height - 1)) (max left right)
          (min y.toNat (st7567Height - 1))) color buffer buffer' := by
  obtain ⟨buffer', hdraw, hpainted⟩ :=
    drawLine_painted x y x' y color buffer hturns
  refine ⟨buffer', hdraw, hpainted.congr fun p _ _ => ?_⟩
  rw [Raster.line_level]
  simp only [rectangle, Set.mem_ofPred_eq]
  omega

theorem drawLine_upright (x y y' : U16) (color : U8) (buffer : ScreenBuffer)
    (hturns : st7567Width ≤ turns) :
    ∃ buffer', drawLine turns x y x y' color buffer = some buffer' ∧
      Painted (
        let top := min y.toNat (st7567Height - 1)
        let bottom := min y'.toNat (st7567Height - 1)
        rectangle (min x.toNat (st7567Width - 1)) (min top bottom) (min x.toNat (st7567Width - 1))
          (max top bottom)) color buffer buffer' := by
  obtain ⟨buffer', hdraw, hpainted⟩ :=
    drawLine_painted x y x y' color buffer hturns
  refine ⟨buffer', hdraw, hpainted.congr fun p _ _ => ?_⟩
  rw [Raster.line_upright]
  simp only [rectangle, Set.mem_ofPred_eq]
  omega

/-- Four lines make the outline of a rectangle that starts on the screen, cut off at
the screen's edges; one that starts elsewhere draws nothing. -/
theorem drawRectangle_painted (x y w h : U16) (color : U8) (buffer : ScreenBuffer)
    (hturns : st7567Width ≤ turns) :
    ∃ buffer', drawRectangle turns x y w h color buffer = some buffer' ∧
      Painted {p | (x.toNat, y.toNat) ∈ visible ∧
        p ∈ outline x.toNat y.toNat (min (x.toNat + w.toNat) (st7567Width - 1))
          (min (y.toNat + h.toNat) (st7567Height - 1))} color buffer buffer' := by
  unfold drawRectangle
  split <;> rename_i hstart
  · refine ⟨buffer, rfl, (Drawn.refl _ buffer).congr fun p _ _ => ?_⟩
    have hout : (x.toNat, y.toNat) ∉ visible := fun hin => by
      rcases hstart with hx | hy
      · exact Nat.not_lt_of_le hx hin.1
      · exact Nat.not_lt_of_le hy hin.2
    simp [hout]
  · obtain ⟨hx, hy⟩ := not_or.mp hstart
    have hvisible : (x.toNat, y.toNat) ∈ visible := ⟨Nat.lt_of_not_le hx, Nat.lt_of_not_le hy⟩
    have hright := toNat_add_limitTo hvisible.1 (by decide) w
    have hbottom := toNat_add_limitTo hvisible.2 (by decide) h
    obtain ⟨buffer₁, htop, hpainted₁⟩ := drawLine_level x y
      (x + limitTo st7567Width x w) color buffer hturns
    obtain ⟨buffer₂, hlow, hpainted₂⟩ := drawLine_level x
      (y + limitTo st7567Height y h) (x + limitTo st7567Width x w) color buffer₁ hturns
    obtain ⟨buffer₃, hleft, hpainted₃⟩ := drawLine_upright x y
      (y + limitTo st7567Height y h) color buffer₂ hturns
    obtain ⟨buffer₄, hfar, hpainted₄⟩ := drawLine_upright
      (x + limitTo st7567Width x w) y (y + limitTo st7567Height y h) color buffer₃ hturns
    have hx' : x.toNat ≤ st7567Width - 1 := Nat.le_sub_one_of_lt hvisible.1
    have hy' : y.toNat ≤ st7567Height - 1 := Nat.le_sub_one_of_lt hvisible.2
    have hleftRight : x.toNat ≤ min (x.toNat + w.toNat) (st7567Width - 1) :=
      Nat.le_min.mpr ⟨Nat.le_add_right .., hx'⟩
    have htopBottom : y.toNat ≤ min (y.toNat + h.toNat) (st7567Height - 1) :=
      Nat.le_min.mpr ⟨Nat.le_add_right .., hy'⟩
    generalize min (x.toNat + w.toNat) (st7567Width - 1) = right at *
    generalize min (y.toNat + h.toNat) (st7567Height - 1) = bottom at *
    simp only [hright, hbottom, Nat.min_eq_left hx', Nat.min_eq_left hy',
      Nat.min_eq_left hleftRight, Nat.max_eq_right hleftRight, Nat.min_eq_left htopBottom,
      Nat.max_eq_right htopBottom] at hpainted₁ hpainted₂ hpainted₃ hpainted₄
    refine ⟨buffer₄, ?_, ?_⟩
    · simp only [htop, hlow, hleft, hfar, Option.bind_eq_bind, Option.bind_some]
    · refine (((hpainted₁.trans hpainted₂).trans hpainted₃).trans hpainted₄).congr fun p _ _ => ?_
      simp only [Set.mem_union, rectangle, outline, Set.mem_ofPred_eq, hvisible, true_and]
      omega

/-- The rows of a filled rectangle, the last of which may be drawn twice. -/
theorem drawFilledRectangle_painted (x y w h : U16) (color : U8) (buffer : ScreenBuffer)
    (hturns : st7567Width ≤ turns) :
    ∃ buffer', drawFilledRectangle turns x y w h color buffer = some buffer' ∧
      Painted {p | (x.toNat, y.toNat) ∈ visible ∧
        p ∈ rectangle x.toNat y.toNat (min (x.toNat + w.toNat) (st7567Width - 1))
          (min (y.toNat + h.toNat) (st7567Height - 1))} color buffer buffer' := by
  unfold drawFilledRectangle
  split <;> rename_i hstart
  · refine ⟨buffer, rfl, (Drawn.refl _ buffer).congr fun p _ _ => ?_⟩
    have hout : (x.toNat, y.toNat) ∉ visible := fun hin => by
      rcases hstart with hx | hy
      · exact Nat.not_lt_of_le hx hin.1
      · exact Nat.not_lt_of_le hy hin.2
    simp [hout]
  · obtain ⟨hx, hy⟩ := not_or.mp hstart
    have hvisible : (x.toNat, y.toNat) ∈ visible := ⟨Nat.lt_of_not_le hx, Nat.lt_of_not_le hy⟩
    obtain ⟨buffer', hloop, hpainted⟩ := drawn_foldlM
      (List.range ((limitTo st7567Height y h).toNat + 1)) buffer fun i _ buffer =>
        drawLine_level x (y + BitVec.ofNat 16 i) (x + limitTo st7567Width x w) color buffer hturns
    refine ⟨buffer', hloop, hpainted.congr fun p _ _ => ?_⟩
    have hright := toNat_add_limitTo hvisible.1 (by decide) w
    have hrows := limitTo_le hvisible.2 (by decide) h
    have hx' : x.toNat < 128 := hvisible.1
    have hy' : y.toNat < 64 := hvisible.2
    have hrow (i : Nat) (hi : i ≤ (limitTo st7567Height y h).toNat) :
        (y + BitVec.ofNat 16 i).toNat = y.toNat + i := by
      rw [BitVec.toNat_add, BitVec.toNat_ofNat]
      simp only [st7567Height] at hrows hi
      omega
    simp only [hright, rectangle, Set.mem_ofPred_eq, hvisible, true_and, List.mem_range]
    simp only [st7567Width, st7567Height] at hrows hrow ⊢
    constructor
    · rintro ⟨i, hi, hp⟩
      rw [hrow i (by omega)] at hp
      omega
    · intro hp
      refine ⟨p.2 - y.toNat, by omega, ?_⟩
      rw [hrow _ (by omega)]
      omega

/-- The corners and the edges of a triangle, each corner cut off at the screen's edges. -/
theorem drawTriangle_painted (x1 y1 x2 y2 x3 y3 : U16) (color : U8) (buffer : ScreenBuffer)
    (hturns : st7567Width ≤ turns) :
    ∃ buffer', drawTriangle turns x1 y1 x2 y2 x3 y3 color buffer = some buffer' ∧
      Painted (
        let corner (x y : U16) := (min x.toNat (st7567Width - 1), min y.toNat (st7567Height - 1))
        Raster.line (corner x1 y1) (corner x2 y2) ∪ Raster.line (corner x2 y2) (corner x3 y3) ∪
          Raster.line (corner x3 y3) (corner x1 y1)) color buffer buffer' := by
  obtain ⟨buffer₁, hfirst, hpainted₁⟩ := drawLine_painted x1 y1 x2 y2 color buffer hturns
  obtain ⟨buffer₂, hsecond, hpainted₂⟩ := drawLine_painted x2 y2 x3 y3 color buffer₁ hturns
  obtain ⟨buffer₃, hthird, hpainted₃⟩ := drawLine_painted x3 y3 x1 y1 color buffer₂ hturns
  refine ⟨buffer₃, ?_, (hpainted₁.trans hpainted₂).trans hpainted₃⟩
  simp only [drawTriangle, hfirst, hsecond, hthird, Option.bind_eq_bind, Option.bind_some]

/-- Every line ends after as many turns as the screen is wide at the most. It paints a
path without gaps from one end to the other, both cut off at the screen's edges, that
nowhere leaves the straight line by more than half a pixel, and nothing else. -/
theorem line_drawn (turns : Nat) (x0 y0 x1 y1 : U16) (color : U8) (buffer : ScreenBuffer)
    (hturns : st7567Width ≤ turns) :
    let start := (min x0.toNat (st7567Width - 1), min y0.toNat (st7567Height - 1))
    let stop := (min x1.toNat (st7567Width - 1), min y1.toNat (st7567Height - 1))
    ∃ (buffer' : ScreenBuffer) (n : Nat) (point : Nat → Nat × Nat),
      drawLine turns x0 y0 x1 y1 color buffer = some buffer' ∧
      Painted {p | ∃ k ≤ n, p = point k} color buffer buffer' ∧
      point 0 = start ∧ point n = stop ∧ (∀ k, Raster.Adjacent (point k) (point (k + 1))) ∧
      ∀ k ≤ n, 2 * |((point k).1 - start.1 : Int) * (stop.2 - start.2) -
          ((point k).2 - start.2) * (stop.1 - start.1)| ≤
        max (Nat.dist start.1 stop.1) (Nat.dist start.2 stop.2) := by
  intro start stop
  obtain ⟨buffer', hdraw, hpainted⟩ := drawLine_painted x0 y0 x1 y1 color buffer hturns
  obtain ⟨n, point, hstart, hstop, hadjacent, hline⟩ := Raster.line_path start stop
  refine ⟨buffer', n, point, hdraw, hline ▸ hpainted, hstart, hstop, hadjacent, ?_⟩
  intro k hk
  have hmem : point k ∈ Raster.line start stop := by
    rw [hline]
    exact ⟨k, hk, rfl⟩
  exact Raster.line_near hmem

/-- A rectangle's outline and the filled rectangle are what they say, cut off at the screen's edges;
one that starts beyond them draws nothing. -/
theorem rectangles_drawn (turns : Nat) (x y w h : U16) (color : U8) (buffer : ScreenBuffer)
    (hturns : st7567Width ≤ turns) :
    let right := min (x.toNat + w.toNat) (st7567Width - 1)
    let bottom := min (y.toNat + h.toNat) (st7567Height - 1)
    ∃ outlined filled,
      drawRectangle turns x y w h color buffer = some outlined ∧
      drawFilledRectangle turns x y w h color buffer = some filled ∧
      (if x.toNat < st7567Width ∧ y.toNat < st7567Height then
        Painted (outline x.toNat y.toNat right bottom) color buffer outlined ∧
        Painted (rectangle x.toNat y.toNat right bottom) color buffer filled
      else outlined = buffer ∧ filled = buffer) := by
  intro right bottom
  obtain ⟨outlined, hdraw, hpainted⟩ := drawRectangle_painted x y w h color buffer hturns
  obtain ⟨filled, hfill, hpainted'⟩ := drawFilledRectangle_painted x y w h color buffer hturns
  refine ⟨outlined, filled, hdraw, hfill, ?_⟩
  split <;> rename_i hvisible
  · exact ⟨hpainted.congr fun p _ _ => ⟨And.right, fun hp => ⟨hvisible, hp⟩⟩,
      hpainted'.congr fun p _ _ => ⟨And.right, fun hp => ⟨hvisible, hp⟩⟩⟩
  · have hnone {shape : Set (Nat × Nat)} {buffer' : ScreenBuffer}
        (h : Painted {p | (x.toNat, y.toNat) ∈ visible ∧ p ∈ shape} color buffer buffer') :
        buffer' = buffer :=
      ScreenBuffer.ext_pixel fun x' y' => (h x' y').2 fun hin => hvisible hin.1
    exact ⟨hnone hpainted, hnone hpainted'⟩

theorem line_drawn_back :
    ∃ (buffer' : ScreenBuffer) (n : Nat) (point : Nat → Nat × Nat),
      drawLine 128 200 3 5 60 1 (fillScreen 0) = some buffer' ∧
      Painted {p | ∃ k ≤ n, p = point k} 1 (fillScreen 0) buffer' ∧
      point 0 = (127, 3) ∧ point n = (5, 60) ∧
      (∀ k, Raster.Adjacent (point k) (point (k + 1))) ∧
      ∀ k ≤ n, 2 * |((point k).1 - (127 : Nat) : Int) * ((60 : Nat) - (3 : Nat)) -
          ((point k).2 - (3 : Nat)) * ((5 : Nat) - (127 : Nat))| ≤
        max (Nat.dist 127 5) (Nat.dist 3 60) :=
  line_drawn 128 200 3 5 60 1 (fillScreen 0) (Nat.le_refl 128)

theorem rectangles_drawn_over_the_edge :
    ∃ outlined filled,
      drawRectangle 128 100 10 40 20 1 (fillScreen 0) = some outlined ∧
      drawFilledRectangle 128 100 10 40 20 1 (fillScreen 0) = some filled ∧
      Painted (outline 100 10 127 30) 1 (fillScreen 0) outlined ∧
      Painted (rectangle 100 10 127 30) 1 (fillScreen 0) filled := by
  obtain ⟨outlined, filled, hdraw, hfill, hpainted⟩ :=
    rectangles_drawn 128 100 10 40 20 1 (fillScreen 0) (Nat.le_refl 128)
  rw [if_pos (by decide)] at hpainted
  exact ⟨outlined, filled, hdraw, hfill, hpainted⟩

end

end Hvac
