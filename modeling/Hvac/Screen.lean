import Hvac.Types
import Mathlib.Data.Set.Insert

/-!
# The screen buffer

`ST7567.c`: what is drawn goes into a buffer of eight pages, each with a byte
for every column and a bit for every one of its eight rows. A drawing is known
by the set of pixels it paints; the others keep what they had.
-/

namespace Hvac

def st7567Width : Nat := 128
def st7567Height : Nat := 64
def st7567SegExpand : Nat := 4

def st7567BufferSize : Nat := (st7567Width + st7567SegExpand) * st7567Height / 8

/-- `ST7567_Buffer_all`. -/
abbrev ScreenBuffer := Vector U8 st7567BufferSize

def colorFront : U8 := 1

/-- Where the byte with a pixel is. -/
def screenIndex (x y : Nat) : Nat := x + y / 8 * (st7567Width + st7567SegExpand)

theorem screenIndex_lt (hx : x < st7567Width + st7567SegExpand) (hy : y < st7567Height) :
    screenIndex x y < st7567BufferSize := by
  simp only [screenIndex, st7567BufferSize, st7567Width, st7567SegExpand, st7567Height] at hx hy ⊢
  omega

/-- The bit of a pixel in its byte, set or cleared. -/
def colorBit (color : U8) (bit : Nat) (byte : U8) : U8 :=
  if color = colorFront then byte ||| 1#8 <<< bit else byte &&& ~~~(1#8 <<< bit)

/-- `ST7567_DrawPixel`. -/
def drawPixel (x y : U16) (color : U8) (buffer : ScreenBuffer) : ScreenBuffer :=
  if h : x.toNat < st7567Width ∧ y.toNat < st7567Height then
    have hi := screenIndex_lt (Nat.lt_add_right st7567SegExpand h.1) h.2
    buffer.set (screenIndex x.toNat y.toNat)
      (colorBit color (y.toNat % 8) buffer[screenIndex x.toNat y.toNat])
  else buffer

/-- `ST7567_Fill`. -/
def fillScreen (color : U8) : ScreenBuffer :=
  Vector.replicate st7567BufferSize (if color = 0 then 0x00 else 0xFF)

/-- The columns beyond the screen's width have pixels too, which nothing draws. -/
def ScreenBuffer.pixel (buffer : ScreenBuffer) (x : Fin (st7567Width + st7567SegExpand))
    (y : Fin st7567Height) : Bool :=
  have hi := screenIndex_lt x.isLt y.isLt
  buffer[screenIndex x y].getLsbD (y.val % 8)

theorem ScreenBuffer.ext_pixel {buffer buffer' : ScreenBuffer}
    (h : ∀ x y, buffer.pixel x y = buffer'.pixel x y) : buffer = buffer' := by
  refine Vector.ext fun i hi => BitVec.eq_of_getLsbD_eq fun bit hbit => ?_
  simp only [st7567BufferSize, st7567Width, st7567SegExpand, st7567Height] at hi
  have hpixel := h ⟨i % 132, Nat.mod_lt _ (by decide)⟩
    ⟨i / 132 * 8 + bit, by simp only [st7567Height]; omega⟩
  have hindex : screenIndex (i % 132) (i / 132 * 8 + bit) = i := by
    simp only [screenIndex, st7567Width, st7567SegExpand]
    omega
  have hbit' : (i / 132 * 8 + bit) % 8 = bit := by omega
  simp only [pixel, hindex, hbit'] at hpixel
  exact hpixel

theorem screenIndex_inj (y y' : Nat) (hx : x < st7567Width + st7567SegExpand)
    (hx' : x' < st7567Width + st7567SegExpand) :
    screenIndex x y = screenIndex x' y' ↔ x = x' ∧ y / 8 = y' / 8 := by
  simp only [screenIndex, st7567Width, st7567SegExpand] at hx hx' ⊢
  omega

theorem getLsbD_one_shiftLeft (bit : Nat) (hbit' : bit' < 8) :
    (1#8 <<< bit).getLsbD bit' = decide (bit' = bit) := by
  rw [BitVec.getLsbD_shiftLeft, BitVec.getLsbD_one]
  by_cases heq : bit' = bit
  · simp [heq, heq ▸ hbit']
  · have hne : bit' < bit ∨ bit' - bit ≠ 0 := by omega
    rcases hne with hlt | hsub
    · simp [heq, hlt]
    · simp [heq, hsub]

theorem getLsbD_colorBit (color : U8) (bit : Nat) (byte : U8) (hbit' : bit' < 8) :
    (colorBit color bit byte).getLsbD bit' =
      if bit' = bit then color == colorFront else byte.getLsbD bit' := by
  have hget := getLsbD_one_shiftLeft bit hbit'
  unfold colorBit
  split <;> rename_i hcolor
  · rw [BitVec.getLsbD_or, hget]
    split <;> rename_i heq <;> simp [heq, hcolor]
  · rw [BitVec.getLsbD_and, BitVec.getLsbD_not, hget]
    split <;> rename_i heq <;> simp [heq, hcolor, hbit']

/-- A drawn pixel has the colour, and every other pixel is as before. -/
theorem pixel_drawPixel (x y : U16) (color : U8) (buffer : ScreenBuffer)
    (x' : Fin (st7567Width + st7567SegExpand)) (y' : Fin st7567Height) :
    (drawPixel x y color buffer).pixel x' y' =
      if x' = x.toNat ∧ y' = y.toNat ∧ x.toNat < st7567Width then color == colorFront
      else buffer.pixel x' y' := by
  unfold drawPixel
  split <;> rename_i h
  · have hbit : y'.val % 8 < 8 := Nat.mod_lt _ (by decide)
    have hindex := screenIndex_inj y.toNat y'
      (Nat.lt_add_right st7567SegExpand h.1) x'.isLt
    simp only [ScreenBuffer.pixel, Vector.getElem_set]
    split <;> rename_i hbyte
    · obtain ⟨hx, hy⟩ := hindex.mp hbyte
      have hrow : y'.val % 8 = y.toNat % 8 ↔ y'.val = y.toNat := by omega
      simp only [getLsbD_colorBit _ _ _ hbit, hrow, hx.symm, h.1, hbyte, and_true, true_and]
    · have hother : ¬(x'.val = x.toNat ∧ y'.val = y.toNat ∧ x.toNat < st7567Width) := by
        rintro ⟨hx, hy, -⟩
        exact hbyte (hindex.mpr ⟨hx.symm, congrArg (· / 8) hy.symm⟩)
      rw [if_neg hother]
  · have hother : ¬(x'.val = x.toNat ∧ y'.val = y.toNat ∧ x.toNat < st7567Width) := by
      rintro ⟨-, hy, hx⟩
      exact h ⟨hx, hy ▸ y'.isLt⟩
    rw [if_neg hother]

@[simp] theorem pixel_fillScreen (color : U8) (x : Fin (st7567Width + st7567SegExpand))
    (y : Fin st7567Height) : (fillScreen color).pixel x y = (color != 0) := by
  have hbit : y.val % 8 < 8 := Nat.mod_lt _ (by decide)
  have hone : (0xFF#8).getLsbD (y.val % 8) = true := by
    generalize y.val % 8 = bit at hbit
    revert bit
    decide
  simp only [fillScreen, ScreenBuffer.pixel, Vector.getElem_replicate]
  split <;> rename_i hcolor
  · simp [hcolor]
  · exact hone.trans (bne_iff_ne.mpr hcolor).symm

-- ---------------------------------------------------------------------------
-- Shapes
-- ---------------------------------------------------------------------------

/-- The pixels that are drawn at all. -/
def visible : Set (Nat × Nat) := {p | p.1 < st7567Width ∧ p.2 < st7567Height}

/-- The shape is as in the picture, and the rest is as before. -/
def Drawn (picture : Nat × Nat → Bool) (shape : Set (Nat × Nat)) (buffer buffer' : ScreenBuffer) :
    Prop :=
  ∀ x y, ((x.val, y.val) ∈ shape → buffer'.pixel x y = picture (x, y)) ∧
    ((x.val, y.val) ∉ shape → buffer'.pixel x y = buffer.pixel x y)

/-- A shape in one colour. -/
abbrev Painted (shape : Set (Nat × Nat)) (color : U8) : ScreenBuffer → ScreenBuffer → Prop :=
  Drawn (fun _ => color == colorFront) shape

variable {picture picture' : Nat × Nat → Bool} {shape shape' : Set (Nat × Nat)} {color : U8}
  {buffer buffer' buffer'' : ScreenBuffer}

theorem drawPixel_painted (x y : U16) (color : U8) (buffer : ScreenBuffer) :
    Painted ({(x.toNat, y.toNat)} ∩ visible) color buffer (drawPixel x y color buffer) := by
  intro x' y'
  rw [pixel_drawPixel]
  refine ⟨fun hin => if_pos ?_, fun hout => if_neg fun hin => hout ?_⟩
  · obtain ⟨heq, hx, -⟩ := hin
    obtain ⟨hx', hy'⟩ := Prod.mk.inj heq
    exact ⟨hx', hy', hx' ▸ hx⟩
  · obtain ⟨hx', hy', hx⟩ := hin
    exact ⟨Prod.ext hx' hy', show x'.val < _ from hx' ▸ hx, y'.isLt⟩

theorem Drawn.refl (picture : Nat × Nat → Bool) (buffer : ScreenBuffer) :
    Drawn picture ∅ buffer buffer :=
  fun _ _ => ⟨fun hin => hin.elim, fun _ => rfl⟩

theorem Drawn.trans (h : Drawn picture shape buffer buffer')
    (h' : Drawn picture shape' buffer' buffer'') :
    Drawn picture (shape ∪ shape') buffer buffer'' := by
  intro x y
  obtain ⟨hin, hout⟩ := h x y
  obtain ⟨hin', hout'⟩ := h' x y
  refine ⟨fun hm => ?_, fun hm => ?_⟩
  · by_cases hm' : (x.val, y.val) ∈ shape'
    · exact hin' hm'
    · exact (hout' hm').trans (hin (hm.resolve_right hm'))
  · exact (hout' fun hm' => hm (.inr hm')).trans (hout fun hm' => hm (.inl hm'))

/-- Only the part of a shape on the screen counts. -/
theorem Drawn.congr (h : Drawn picture shape buffer buffer')
    (hsame : ∀ p, p.1 < st7567Width + st7567SegExpand → p.2 < st7567Height →
      (p ∈ shape ↔ p ∈ shape')) : Drawn picture shape' buffer buffer' := by
  intro x y
  have hp := hsame (x.val, y.val) x.isLt y.isLt
  exact ⟨fun hm => (h x y).1 (hp.mpr hm), fun hm => (h x y).2 (mt hp.mp hm)⟩

/-- Only the part of a picture in the shape counts. -/
theorem Drawn.redraw (h : Drawn picture shape buffer buffer')
    (hsame : ∀ p ∈ shape, picture p = picture' p) : Drawn picture' shape buffer buffer' :=
  fun x y => ⟨fun hm => ((h x y).1 hm).trans (hsame _ hm), (h x y).2⟩

/-- A loop that draws one shape after another draws them all. -/
theorem drawn_foldl {α : Type*} {draw : ScreenBuffer → α → ScreenBuffer}
    (shapeOf : α → Set (Nat × Nat)) (items : List α) (buffer : ScreenBuffer)
    (hdraw : ∀ item ∈ items, ∀ buffer, Drawn picture (shapeOf item) buffer (draw buffer item)) :
    Drawn picture {p | ∃ item ∈ items, p ∈ shapeOf item} buffer (items.foldl draw buffer) := by
  induction items generalizing buffer with
  | nil => exact (Drawn.refl picture buffer).congr (by simp)
  | cons item rest ih =>
    have hfirst := hdraw item List.mem_cons_self buffer
    have hrest := ih (draw buffer item) fun other ho =>
      hdraw other (List.mem_cons_of_mem _ ho)
    exact (hfirst.trans hrest).congr (by simp)

/-- The same where drawing may not end, but does. -/
theorem drawn_foldlM {α : Type*} {draw : ScreenBuffer → α → Option ScreenBuffer}
    {shapeOf : α → Set (Nat × Nat)} (items : List α) (buffer : ScreenBuffer)
    (hdraw : ∀ item ∈ items, ∀ buffer, ∃ buffer', draw buffer item = some buffer' ∧
      Drawn picture (shapeOf item) buffer buffer') :
    ∃ buffer', items.foldlM draw buffer = some buffer' ∧
      Drawn picture {p | ∃ item ∈ items, p ∈ shapeOf item} buffer buffer' := by
  induction items generalizing buffer with
  | nil => exact ⟨buffer, rfl, (Drawn.refl picture buffer).congr (by simp)⟩
  | cons item rest ih =>
    obtain ⟨middle, hfirst, hdrawn⟩ := hdraw item List.mem_cons_self buffer
    obtain ⟨buffer', hrest, hdrawn'⟩ := ih middle fun other ho =>
      hdraw other (List.mem_cons_of_mem _ ho)
    refine ⟨buffer', ?_, (hdrawn.trans hdrawn').congr (by simp)⟩
    rw [List.foldlM_cons, hfirst]
    exact hrest

end Hvac
